import DevServer.Package.Request
import DevServer.Proofs.Lines

set_option autoImplicit false

namespace DevServer.Package

open Text

def segmentCount (text : Text) : Nat := text.count '/' + 1

-- What a package is called in front of a subpath: one segment, or a scope and one below it.
inductive IsPackageName : Text → Prop where
  | plain (name : Text) : '/' ∉ name → name.head? ≠ some '@' → IsPackageName name
  | below (scope name : Text) : '/' ∉ scope → '/' ∉ name →
      IsPackageName ('@' :: (scope ++ '/' :: name))

inductive IsWholeSpecifier : Text → Prop where
  | name (name : Text) : IsPackageName name → IsWholeSpecifier name
  | scope (scope : Text) : '/' ∉ scope → IsWholeSpecifier ('@' :: scope)

def IsSlashed (specifier slashed : Text) : Prop := IsPackageName specifier ∧ slashed = specifier ++ ['/']

section Names

theorem name_length_marked (rest : Text) : nameLength ('@' :: rest) = 2 := by
  have marked : startsWith ('@' :: rest) "@" = true := startsWith_iff.mpr ⟨rest, rfl⟩
  rw [nameLength, if_pos marked]

theorem name_length_plain (specifier : Text) (unmarked : specifier.head? ≠ some '@') :
    nameLength specifier = 1 := by
  have plain : ¬ startsWith specifier "@" = true := by
    rw [startsWith_iff]
    rintro ⟨rest, rfl⟩
    exact unmarked rfl
  rw [nameLength, if_neg plain]

theorem marked_iff (name rest : Text) :
    (name ++ '/' :: rest).head? = some '@' ↔ name.head? = some '@' := by
  cases name with
  | nil => simp
  | cons c name => exact Iff.rfl

theorem scope_unbroken (scope : Text) (unbroken : '/' ∉ scope) : '/' ∉ '@' :: scope := by
  simp [unbroken]

theorem segments_below (scope name : Text) (unbroken : '/' ∉ scope) (single : '/' ∉ name) :
    split '/' ('@' :: (scope ++ '/' :: name)) = ['@' :: scope, name] := by
  rw [← List.cons_append, split_append '/' _ name (scope_unbroken scope unbroken),
    split_none '/' name single]

theorem IsPackageName.taken {name : Text} (named : IsPackageName name) (rest : Text) :
    (split '/' name).length = nameLength (name ++ '/' :: rest) ∧
      (split '/' name).length = nameLength name := by
  cases named with
  | plain _ unbroken unmarked =>
      have ahead := mt (marked_iff name rest).mp unmarked
      rw [split_none '/' name unbroken, name_length_plain name unmarked, name_length_plain _ ahead]
      exact ⟨rfl, rfl⟩
  | below scope name unbroken single =>
      rw [segments_below scope name unbroken single, List.cons_append, name_length_marked,
        name_length_marked]
      exact ⟨rfl, rfl⟩

end Names

section Requests

theorem named_request (name subpath : Text) (named : IsPackageName name) :
    Request.ofSpecifier (name ++ '/' :: subpath) = ⟨name, subpath⟩ := by
  have taken := (named.taken subpath).1
  unfold Request.ofSpecifier
  dsimp only
  rw [← taken, split_concat, List.take_left, List.drop_left]
  change Request.mk (join ['/'] _) (join ['/'] _) = _
  rw [join_split, join_split]

theorem request_taken (specifier : Text) (taken : (split '/' specifier).length ≤ nameLength specifier) :
    Request.ofSpecifier specifier = ⟨specifier, []⟩ := by
  unfold Request.ofSpecifier
  dsimp only
  rw [List.take_of_length_le taken, List.drop_of_length_le taken]
  change Request.mk (join ['/'] _) [] = _
  rw [join_split]

theorem whole_request (specifier : Text) (whole : IsWholeSpecifier specifier) :
    Request.ofSpecifier specifier = ⟨specifier, []⟩ := by
  refine request_taken specifier ?_
  cases whole with
  | name _ named => exact Nat.le_of_eq (named.taken []).2
  | scope scope unbroken =>
      rw [split_none '/' _ (scope_unbroken scope unbroken), name_length_marked]
      exact Nat.le_succ 1

theorem slash_cases (text : Text) :
    '/' ∉ text ∨ ∃ front rest, '/' ∉ front ∧ text = front ++ '/' :: rest := by
  by_cases broken : '/' ∈ text
  · obtain ⟨front, rest, whole, unbroken⟩ := List.eq_append_cons_of_mem broken
    exact .inr ⟨front, rest, unbroken, whole⟩
  · exact .inl broken

theorem specifier_cases (specifier : Text) :
    IsWholeSpecifier specifier ∨
      ∃ name subpath, IsPackageName name ∧ specifier = name ++ '/' :: subpath := by
  by_cases marked : specifier.head? = some '@'
  · obtain ⟨rest, rfl⟩ := List.head?_eq_some_iff.mp marked
    obtain unbroken | ⟨scope, behind, unbroken, rfl⟩ := slash_cases rest
    · exact .inl (.scope rest unbroken)
    · obtain single | ⟨name, subpath, single, rfl⟩ := slash_cases behind
      · exact .inl (.name _ (.below scope behind unbroken single))
      · exact .inr ⟨_, subpath, .below scope name unbroken single, by simp⟩
  · obtain unbroken | ⟨name, subpath, unbroken, rfl⟩ := slash_cases specifier
    · exact .inl (.name _ (.plain specifier unbroken marked))
    · have unmarked := mt (marked_iff name subpath).mpr marked
      exact .inr ⟨name, subpath, .plain name unbroken unmarked, rfl⟩

theorem unbroken_single (text : Text) (unbroken : '/' ∉ text) : segmentCount text = 1 := by
  rw [segmentCount, List.count_eq_zero.mpr unbroken]

theorem IsPackageName.segments {name : Text} (named : IsPackageName name) :
    segmentCount name = if name.head? = some '@' then 2 else 1 := by
  cases named with
  | plain _ unbroken unmarked => rw [if_neg unmarked, unbroken_single name unbroken]
  | below scope name unbroken single =>
      have scopeless := List.count_eq_zero.mpr (scope_unbroken scope unbroken)
      have nameless := List.count_eq_zero.mpr single
      rw [if_pos (by rfl), segmentCount, ← List.cons_append, List.count_append, scopeless,
        List.count_cons_self, nameless]

theorem request_segments (specifier : Text) : segmentCount (Request.ofSpecifier specifier).package =
    if specifier.head? = some '@' ∧ '/' ∈ specifier then 2 else 1 := by
  obtain whole | ⟨name, subpath, named, rfl⟩ := specifier_cases specifier
  · rw [whole_request specifier whole]
    cases whole with
    | name _ named =>
        rw [named.segments]
        cases named with
        | plain _ unbroken unmarked => simp [unmarked]
        | below scope name _ _ => simp
    | scope scope unbroken =>
        have single := scope_unbroken scope unbroken
        rw [unbroken_single _ single, if_neg fun both => single both.2]
  · rw [named_request name subpath named, named.segments]
    have broken : '/' ∈ name ++ '/' :: subpath := by simp
    simp only [marked_iff, broken, and_true]

theorem same_request_iff (specifier other : Text) :
    Request.ofSpecifier specifier = Request.ofSpecifier other ↔
      specifier = other ∨ IsSlashed specifier other ∨ IsSlashed other specifier := by
  have slashed (name : Text) (named : IsPackageName name) :
      Request.ofSpecifier name = Request.ofSpecifier (name ++ ['/']) := by
    rw [named_request name [] named, whole_request name (.name name named)]
  constructor
  · intro same
    obtain whole | ⟨name, subpath, named, rfl⟩ := specifier_cases specifier
    · rw [whole_request specifier whole] at same
      obtain whole' | ⟨name', subpath', named', rfl⟩ := specifier_cases other
      · rw [whole_request other whole'] at same
        exact .inl (congrArg Request.package same)
      · rw [named_request name' subpath' named', Request.mk.injEq] at same
        obtain ⟨rfl, rfl⟩ := same
        exact .inr (.inl ⟨named', rfl⟩)
    · rw [named_request name subpath named] at same
      obtain whole' | ⟨name', subpath', named', rfl⟩ := specifier_cases other
      · rw [whole_request other whole', Request.mk.injEq] at same
        obtain ⟨rfl, rfl⟩ := same
        exact .inr (.inr ⟨named, rfl⟩)
      · rw [named_request name' subpath' named', Request.mk.injEq] at same
        obtain ⟨rfl, rfl⟩ := same
        exact .inl rfl
  · rintro (rfl | ⟨named, rfl⟩ | ⟨named, rfl⟩)
    · rfl
    · exact slashed specifier named
    · exact (slashed other named).symm

end Requests

-- The request of a specifier is its name and what is behind it, and is that of no other
-- specifier but for a slash at the end.
theorem requests_exact :
    (∀ specifier : Text, let request := Request.ofSpecifier specifier
      segmentCount request.package = (if specifier.head? = some '@' ∧ '/' ∈ specifier then 2 else 1) ∧
      (specifier = request.package ∧ request.subpath = [] ∨
        specifier = request.package ++ '/' :: request.subpath)) ∧
    (∀ specifier other : Text, Request.ofSpecifier specifier = Request.ofSpecifier other ↔
      specifier = other ∨ IsSlashed specifier other ∨ IsSlashed other specifier) ∧
    ∀ name subpath : Text, IsPackageName name →
      Request.ofSpecifier (name ++ '/' :: subpath) = ⟨name, subpath⟩ := by
  refine ⟨fun specifier => ⟨request_segments specifier, ?_⟩, same_request_iff, named_request⟩
  obtain whole | ⟨name, subpath, named, rfl⟩ := specifier_cases specifier
  · rw [whole_request specifier whole]
    exact .inl ⟨rfl, rfl⟩
  · rw [named_request name subpath named]
    exact .inr rfl

theorem scope_request_exact : IsPackageName "@scope/pkg" ∧
    Request.ofSpecifier "@scope/pkg//sub/@x/" = ⟨"@scope/pkg", "/sub/@x/"⟩ := by
  have named : IsPackageName "@scope/pkg" := .below "scope" "pkg" (by decide) (by decide)
  exact ⟨named, requests_exact.2.2 "@scope/pkg" "/sub/@x/" named⟩

end DevServer.Package
