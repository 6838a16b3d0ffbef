import DevServer.Path
import DevServer.Proofs.Lines

set_option autoImplicit false

namespace DevServer

namespace Path

open Text

def steps (target : Text) : List Component := (split '/' target).filterMap Component.ofSegment?

def lead (path : Path) : List Component :=
  if isAbsolute path then [.root]
  else if (split '/' path).head? = some ['.'] then [.here] else []

theorem absolute_cons (c : Char) (rest : Text) : isAbsolute (c :: rest) = decide (c = '/') := by
  unfold isAbsolute
  split
  · simp_all
  · simp_all

theorem components_lead (path : Path) : components path = lead path ++ steps path := by
  unfold components lead
  cases path with
  | nil => rfl
  | cons c rest =>
      rw [absolute_cons]
      by_cases slash : c = '/'
      · subst slash
        rfl
      · have parts : segments (c :: rest) = split '/' (c :: rest) := by
          unfold segments
          split
          · exact absurd (List.cons.inj ‹_›).1 slash
          · rfl
        simp only [slash, decide_false, Bool.false_eq_true, if_false, parts, steps]
        split
        · rename_i tail dotted
          rw [dotted]
          rfl
        · rename_i other
          rw [if_neg]
          · rfl
          · intro dotted
            obtain ⟨tail, whole⟩ := List.head?_eq_some_iff.mp dotted
            exact other tail whole

theorem components_absolute (path : Path) (absolute : isAbsolute path = true) :
    components path = .root :: steps path := by
  rw [components_lead, lead, if_pos absolute]
  rfl

theorem steps_concat (left right : Text) : steps (left ++ '/' :: right) = steps left ++ steps right := by
  unfold steps
  rw [split_concat, List.filterMap_append]

theorem lead_concat (base target : Text) (named : base ≠ []) :
    lead (base ++ '/' :: target) = lead base := by
  unfold lead
  rw [split_concat]
  cases base with
  | nil => exact absurd rfl named
  | cons c rest =>
      rw [List.cons_append, absolute_cons, absolute_cons]
      cases parts : split '/' (c :: rest) with
      | nil => exact absurd parts (split_ne_nil _ _)
      | cons part parts => rfl

theorem components_slash (base target : Text) (named : base ≠ []) :
    components (base ++ '/' :: target) = components base ++ steps target := by
  rw [components_lead, components_lead, lead_concat base target named, steps_concat,
    List.append_assoc]

theorem join_components (base target : Path) (named : base ≠ [])
    (relative : isAbsolute target = false) :
    components (join base target) = components base ++ steps target := by
  unfold join
  rw [relative]
  by_cases ended : base.getLast? = some '/'
  · obtain ⟨front, whole⟩ := List.getLast?_eq_some_iff.mp ended
    simp only [named, ended, or_true, if_true, Bool.false_eq_true, if_false]
    subst whole
    rw [List.append_assoc]
    change components (front ++ '/' :: target) = _
    cases front with
    | nil => rfl
    | cons c rest =>
        have closed := components_slash (c :: rest) [] (List.cons_ne_nil _ _)
        have nothing : steps [] = [] := rfl
        rw [components_slash _ _ (List.cons_ne_nil _ _)]
        rw [nothing, List.append_nil] at closed
        rw [← closed]
  · simp only [named, ended, or_self, Bool.false_eq_true, if_false]
    exact components_slash base target named

theorem join_absolute (base target : Path) (named : base ≠ [])
    (relative : isAbsolute target = false) : isAbsolute (join base target) = isAbsolute base := by
  cases base with
  | nil => exact absurd rfl named
  | cons c rest =>
      unfold join
      rw [relative]
      simp only [Bool.false_eq_true, if_false]
      split
      · rw [List.cons_append, absolute_cons, absolute_cons]
      · rw [List.cons_append, absolute_cons, absolute_cons]

def folded (path : Path) : List Text := (components path).foldl foldStep []

theorem folded_steps (path : Path) : folded path = (steps path).foldl foldStep [] := by
  unfold folded
  rw [components_lead, List.foldl_append]
  unfold lead
  split
  · rfl
  · split
    · rfl
    · rfl

theorem join_folded (base target : Path) (named : base ≠ [])
    (relative : isAbsolute target = false) :
    folded (join base target) = (steps target).foldl foldStep (folded base) := by
  unfold folded
  rw [join_components base target named relative, List.foldl_append]

def isName (name : Text) : Prop := Component.ofSegment? name = some (.name name) ∧ '/' ∉ name

theorem steps_named (target : Text) (name : Text) (member : .name name ∈ steps target) : isName name := by
  obtain ⟨segment, inside, same⟩ := List.mem_filterMap.mp member
  have whole : segment = name := by
    unfold Component.ofSegment? at same
    split at same
    · cases same
    · split at same
      · cases same
      · cases same
        rfl
  subst whole
  exact ⟨same, not_mem_of_split '/' target segment inside⟩

theorem fold_named (parts : List Component) (names : List Text)
    (old : ∀ name ∈ names, isName name) (new : ∀ name, .name name ∈ parts → isName name) :
    ∀ name ∈ parts.foldl foldStep names, isName name := by
  induction parts generalizing names with
  | nil => exact old
  | cons part rest ih =>
      refine ih (foldStep names part) ?_ fun name member => new name (List.mem_cons_of_mem _ member)
      intro name member
      cases part with
      | root => exact old name member
      | here => exact old name member
      | parent => exact old name ((List.dropLast_sublist names).subset member)
      | name text =>
          rcases List.mem_append.mp member with before | here
          · exact old name before
          · rw [List.mem_singleton.mp here]
            exact new text List.mem_cons_self

theorem folded_named (path : Path) : ∀ name ∈ folded path, isName name := by
  rw [folded_steps]
  exact fold_named _ [] (by simp) fun name member => steps_named path name member

-- Where a text leads from a directory: how far it climbs above it, and the names below
-- the place that it climbs to.
def climbStep (way : Nat × List Text) : Component → Nat × List Text
  | .parent => if way.2 = [] then (way.1 + 1, []) else (way.1, way.2.dropLast)
  | .name text => (way.1, way.2 ++ [text])
  | _ => way

def climb (target : Text) : Nat × List Text := (steps target).foldl climbStep (0, [])

theorem fold_climb (base : List Text) (parts : List Component) (way : Nat × List Text) :
    parts.foldl foldStep (base.take (base.length - way.1) ++ way.2) =
      base.take (base.length - (parts.foldl climbStep way).1) ++ (parts.foldl climbStep way).2 := by
  induction parts generalizing way with
  | nil => rfl
  | cons part rest ih =>
      rw [List.foldl_cons, List.foldl_cons, ← ih]
      rcases way with ⟨climbed, names⟩
      congr 1
      cases part with
      | root => rfl
      | here => rfl
      | name text => simp [foldStep, climbStep]
      | parent =>
          by_cases out : names = []
          · subst out
            simp only [foldStep, climbStep, if_true, List.append_nil]
            rw [List.dropLast_eq_take, List.take_take, List.length_take]
            congr 1
            omega
          · simp only [foldStep, climbStep, if_neg out]
            exact List.dropLast_append_of_ne_nil out

theorem climb_folded (base target : Path) (named : base ≠ [])
    (relative : isAbsolute target = false) :
    folded (join base target) =
      (folded base).take ((folded base).length - (climb target).1) ++ (climb target).2 := by
  have led := fold_climb (folded base) (steps target) (0, [])
  rw [join_folded base target named relative]
  rwa [Nat.sub_zero, List.take_length, List.append_nil] at led

theorem named_segments (names : List Text) (named : ∀ name ∈ names, isName name) :
    names.filterMap Component.ofSegment? = names.map .name := by
  induction names with
  | nil => rfl
  | cons name rest ih =>
      rw [List.filterMap_cons, (named name List.mem_cons_self).1,
        ih fun name member => named name (List.mem_cons_of_mem _ member)]
      rfl

theorem normalize_components (path : Path) :
    components (normalize path) =
      (if isAbsolute path then [.root] else []) ++ (folded path).map .name := by
  have named := folded_named path
  have shape : normalize path = ofSegments (isAbsolute path) (folded path) := rfl
  rw [shape, components_lead]
  generalize folded path = names at named
  unfold ofSegments
  cases names with
  | nil => cases isAbsolute path <;> rfl
  | cons name rest =>
      have parts : split '/' (Text.join ['/'] (name :: rest)) = name :: rest :=
        split_join '/' (name :: rest) (List.cons_ne_nil _ _) fun name member => (named name member).2
      cases isAbsolute path with
      | true =>
          have under : steps ('/' :: Text.join ['/'] (name :: rest)) =
              steps (Text.join ['/'] (name :: rest)) := rfl
          simp only [if_true]
          rw [under, steps, parts, named_segments _ named]
          rfl
      | false =>
          simp only [Bool.false_eq_true, if_false, List.nil_append]
          rw [steps, parts, named_segments _ named, lead, parts]
          have here := named name List.mem_cons_self
          have relative : isAbsolute (Text.join ['/'] (name :: rest)) = false := by
            cases whole : Text.join ['/'] (name :: rest) with
            | nil => rfl
            | cons c tail =>
                rw [absolute_cons]
                apply decide_eq_false
                rintro rfl
                rw [whole, split, if_pos rfl] at parts
                rw [← (List.cons.inj parts).1] at here
                exact absurd here.1 (by decide)
          have undotted : (name :: rest).head? ≠ some ['.'] := by
            intro dotted
            rw [Option.some.inj dotted] at here
            exact absurd here.1 (by decide)
          rw [relative, if_neg undotted]
          rfl

def IsInside (path base : Path) : Prop :=
  ∃ more : List Text, more ≠ [] ∧
    components (normalize path) = components (normalize base) ++ more.map .name

theorem inside_iff (path base : Path) : IsInside path base ↔
    isAbsolute path = isAbsolute base ∧ ∃ more, more ≠ [] ∧ folded path = folded base ++ more := by
  unfold IsInside
  rw [normalize_components, normalize_components]
  constructor
  · rintro ⟨more, some', same⟩
    have kinds : isAbsolute path = isAbsolute base := by
      cases one : isAbsolute path with
      | true =>
          cases two : isAbsolute base with
          | true => rfl
          | false =>
              rw [one, two] at same
              cases names : folded base with
              | nil =>
                  rw [names] at same
                  cases more with
                  | nil => exact absurd rfl some'
                  | cons _ _ => cases same
              | cons _ _ =>
                  rw [names] at same
                  cases same
      | false =>
          cases two : isAbsolute base with
          | false => rfl
          | true =>
              rw [one, two] at same
              cases names : folded path with
              | nil =>
                  rw [names] at same
                  cases same
              | cons _ _ =>
                  rw [names] at same
                  cases same
    rw [kinds, List.append_assoc, List.append_cancel_left_eq, ← List.map_append] at same
    exact ⟨kinds, more, some', (List.map_inj_right fun _ _ => Component.name.inj).mp same⟩
  · rintro ⟨kinds, more, some', same⟩
    refine ⟨more, some', ?_⟩
    rw [kinds, same, List.map_append, List.append_assoc]

-- A text leads back into the directory that it is appended to: it names again what
-- it climbed out of, and more.
def Returns (base target : Path) : Prop :=
  if isAbsolute target then IsInside target base
  else ∃ more, more ≠ [] ∧
    (climb target).2 = (folded base).drop ((folded base).length - (climb target).1) ++ more

theorem join_inside_iff (base target : Path) (named : base ≠ []) :
    IsInside (join base target) base ↔ Returns base target := by
  unfold Returns
  by_cases absolute : isAbsolute target = true
  · rw [if_pos absolute]
    unfold join
    rw [if_pos absolute]
  · have relative := Bool.eq_false_iff.mpr absolute
    have kept : folded base = (folded base).take ((folded base).length - (climb target).1) ++
        (folded base).drop ((folded base).length - (climb target).1) :=
      (List.take_append_drop _ _).symm
    rw [if_neg absolute, inside_iff, join_absolute base target named relative,
      climb_folded base target named relative]
    simp only [true_and]
    refine exists_congr fun more => and_congr_right fun _ => ?_
    conv => lhs; rhs; rw [kept]
    rw [List.append_assoc, List.append_cancel_left_eq]

end Path
end DevServer
