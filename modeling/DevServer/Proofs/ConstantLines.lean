import Mathlib.Algebra.BigOperators.Group.List.Basic
import DevServer.Proofs.Members
import DevServer.Proofs.ModuleLines
import DevServer.Proofs.Returns

set_option autoImplicit false

namespace DevServer.CommonJs

open Text

section Fronts

theorem list_begins (more : Text) : ∃ rest, mapLines exportLine ("export \x7b " ++ more) = "export " ++ '{' :: rest := by
  have unbroken : '\n' ∉ "export \x7b ".toList := by decide
  have clean : '\r' ∉ "export \x7b ".toList := by decide
  have kept (line : Text) : exportLine ("export \x7b " ++ line) = "export ".toList ++ '{' :: (' ' :: line) := by
    rw [list_opens]
    exact unassigned_same _ (declared_unassigned _)
  obtain ⟨head, tail, parts⟩ : ∃ head tail, split '\n' more = head :: tail :=
    List.exists_cons_of_ne_nil (split_ne_nil '\n' more)
  unfold mapLines linewise
  rw [linewise_join exportLine (by decide), split_unbroken _ more head tail unbroken parts]
  cases tail with
  | nil => exact ⟨' ' :: head, kept head⟩
  | cons next tail =>
      rw [edit_parts_cons, chomp_clean _ head clean, kept]
      cases later : editParts exportLine (next :: tail) with
      | nil => exact absurd later (edit_parts_ne_nil exportLine _ (List.cons_ne_nil _ _))
      | cons line lines =>
          rw [join_cons, List.append_assoc, List.append_assoc]
          exact ⟨_, rfl⟩

theorem declarations_begin (body : Text) : ∃ rest, mapLines exportLine (objectDeclarations body) =
    mapLines exportLine (constantLines body) ++ "export " ++ '{' :: rest := by
  obtain ⟨rest, begins⟩ := list_begins (exportList body ++ " \x7d;")
  refine ⟨rest, ?_⟩
  rw [declarations_parts, constantLines]
  have above := map_lines_above exportLine (by decide) ((objectEntries body).filterMap ObjectEntry.constant?)
    ("export \x7b " ++ (exportList body ++ " \x7d;"))
  rw [begins] at above
  rw [List.append_assoc]
  exact above

theorem constant_lines_braceless (body : Text) (inner : body.all isInner = true) :
    '{' ∉ mapLines exportLine (constantLines body) := by
  apply lines_absent '{' (by decide) exportLine (export_line_absent '{' (by decide))
  apply constant_lines_absent '{' (by decide)
  intro member
  exact absurd (List.all_eq_true.mp inner _ member) (by decide)

end Fronts

section Constants

theorem assigned_semicolon (line : Text) : isAssigned (line ++ [';']) = isAssigned line := by
  rw [Bool.eq_iff_iff]
  constructor
  · intro assigned
    obtain ⟨front, right, whole, target, again⟩ := assigned_front _ assigned
    obtain rfl | ⟨right, c, rfl⟩ := List.eq_nil_or_concat right
    · exact absurd (List.append_inj' whole rfl).2 (by decide)
    · have longer : line ++ [';'] = (front ++ '=' :: right) ++ [c] := by rw [whole]; simp
      rw [(List.append_inj' longer rfl).1]
      exact again right
  · intro assigned
    obtain ⟨front, right, rfl, _, again⟩ := assigned_front line assigned
    rw [List.append_assoc]
    exact again _

theorem constant_line_parts (entry : Text × Text) :
    constantLine entry = exportConst entry.1 [] ++ (entry.2 ++ [';']) := by
  have mark : ";".toList = [';'] := by decide
  rw [constantLine, export_const_append, mark, List.append_assoc]

theorem constant_front_absent (c : Char) (foreign : c ∉ "export const =".toList) (name : Text)
    (unnamed : c ∉ name) : c ∉ exportConst name [] := by
  have first : "export const ".toList ⊆ "export const =".toList := by decide
  have second : " = ".toList ⊆ "export const =".toList := by decide
  rw [export_const_parts, List.mem_append, List.mem_append, not_or, not_or]
  exact ⟨fun member => foreign (first member), unnamed, fun member => foreign (second member)⟩

theorem constant_unassigned (name rest : Text) : isAssigned (exportConst name [] ++ rest) = false := by
  obtain ⟨more, begins⟩ := export_const_begins name []
  rw [begins, List.append_assoc]
  exact declared_unassigned _

-- The first line of a constant is a declaration; the others are those of its value, with
-- the semicolon behind the last one.
theorem constant_line_split (entry : Text × Text) (front : '\n' ∉ exportConst entry.1 []) :
    ∃ first rest, split '\n' (constantLine entry) = (exportConst entry.1 [] ++ first) :: rest ∧
      ∀ p : Text → Bool, (∀ line, p (line ++ [';']) = p line) → rest.any p = (split '\n' entry.2).tail.any p := by
  have parts := split_last_line entry.2 [';'] (by decide)
  obtain ⟨head, tail, cut⟩ : ∃ head tail, split '\n' entry.2 = head :: tail :=
    List.exists_cons_of_ne_nil (split_ne_nil '\n' entry.2)
  rw [constant_line_parts]
  simp only [lastLine, cut] at parts ⊢
  obtain rfl | ⟨init, last, rfl⟩ := List.eq_nil_or_concat tail
  · exact ⟨_, _, split_unbroken _ _ (head ++ [';']) [] front parts, fun p same => rfl⟩
  · have parts' : split '\n' (entry.2 ++ [';']) = head :: (init ++ [last ++ [';']]) := by
      rw [parts]
      simp only [List.concat_eq_append, ← List.cons_append, List.dropLast_concat, List.getLast_concat]
    refine ⟨_, _, split_unbroken _ _ head _ front parts', fun p same => ?_⟩
    rw [List.any_append, List.tail_cons, List.concat_eq_append, List.any_append]
    simp only [List.any_cons, List.any_nil, same]

theorem constant_line_assigned (entry : Text × Text) (front : '\n' ∉ exportConst entry.1 []) :
    (split '\n' (constantLine entry)).any isAssigned = (split '\n' entry.2).tail.any isAssigned := by
  obtain ⟨first, rest, parts, same⟩ := constant_line_split entry front
  rw [parts, List.any_cons, constant_unassigned, Bool.false_or]
  exact same isAssigned assigned_semicolon

theorem constant_text_cons (entry : Text × Text) (constants : List (Text × Text)) (rest : Text) :
    constantText (entry :: constants) ++ rest = constantLine entry ++ '\n' :: (constantText constants ++ rest) := by
  simp [constantText]

theorem constant_text_split (constants : List (Text × Text)) (rest : Text) :
    split '\n' (constantText constants ++ rest) =
      constants.flatMap (fun entry => split '\n' (constantLine entry)) ++ split '\n' rest := by
  induction constants with
  | nil => rfl
  | cons entry constants ih =>
      rw [constant_text_cons, split_concat, ih, List.flatMap_cons, List.append_assoc]

theorem constant_text_assigned (constants : List (Text × Text)) (unbroken : ∀ entry ∈ constants, '\n' ∉ entry.1)
    (rest : Text) : (split '\n' (constantText constants ++ rest)).any isAssigned =
      (constants.any (fun entry => (split '\n' entry.2).tail.any isAssigned) || (split '\n' rest).any isAssigned) := by
  rw [constant_text_split, List.any_append, List.any_flatMap]
  congr 1
  refine any_same _ _ constants fun entry inside => ?_
  exact constant_line_assigned entry (constant_front_absent '\n' (by decide) entry.1 (unbroken entry inside))

def returned (entry : Text × Text) : Text × Text := (entry.1, dropReturns entry.2)

theorem constant_text_returns (constants : List (Text × Text)) (clean : ∀ entry ∈ constants, '\r' ∉ entry.1)
    (rest : Text) : dropReturns (constantText constants ++ rest) =
      constantText (constants.map returned) ++ dropReturns rest := by
  induction constants with
  | nil => rfl
  | cons entry constants ih =>
      have front := constant_front_absent '\r' (by decide) entry.1 (clean entry List.mem_cons_self)
      have later := ih fun other member => clean other (List.mem_cons_of_mem _ member)
      have ending : '\r' ∉ [';', '\n'] := by decide
      have line (value more : Text) : exportConst entry.1 [] ++ (value ++ [';']) ++ '\n' :: more =
          exportConst entry.1 [] ++ (value ++ ([';', '\n'] ++ more)) := by simp
      rw [constant_text_cons, constant_line_parts, line, drop_returns_clean _ _ front,
        drop_returns_append _ _ (by simp), drop_returns_clean _ _ ending, later, List.map_cons, constant_text_cons,
        constant_line_parts, returned, line]

theorem entry_constant (property text : Text) (constant : (ObjectEntry.ofText property).constant? = some text) :
    ∃ name value, text = exportConst name value ++ ";" ∧ name <:+: property ∧ value <:+: property := by
  unfold ObjectEntry.ofText at constant
  cases cut : cutAt? ':' property with
  | none =>
      rw [cut] at constant
      dsimp only at constant
      split at constant
      · cases constant
      · cases constant
  | some pair =>
      obtain ⟨key, value⟩ := pair
      obtain ⟨rfl, _⟩ := (cut_at_some ':' property key value).mp cut
      rw [cut] at constant
      dsimp only at constant
      split at constant
      · cases constant
      · refine ⟨_, _, (Option.some.inj constant).symm, ?_, ?_⟩
        · exact ((trim_inside _ _).trans (trim_inside isBlank key)).trans (List.prefix_append key _).isInfix
        · exact (trim_inside isBlank value).trans ⟨key ++ [':'], [], by simp⟩

theorem constant_lines_commaless (body : Text) : ',' ∉ mapLines exportLine (constantLines body) := by
  apply lines_absent ',' (by decide) exportLine (export_line_absent ',' (by decide))
  intro member
  obtain ⟨line, within, inside⟩ := List.mem_flatMap.mp member
  obtain ⟨entry, entered, constant⟩ := List.mem_filterMap.mp within
  obtain ⟨property, kept, rfl⟩ := List.mem_map.mp entered
  obtain ⟨part, piece, rfl⟩ := List.mem_map.mp (List.mem_filter.mp kept).1
  have commaless : ',' ∉ trim part := trim_absent isBlank part ',' (not_mem_of_split ',' body part piece)
  obtain ⟨name, value, rfl, named, valued⟩ := entry_constant _ line constant
  have ending : ',' ∉ ";".toList ++ "\n".toList := by decide
  have front := constant_front_absent ',' (by decide) name fun member => commaless (named.subset member)
  rw [List.append_assoc, export_const_append, List.append_assoc, List.mem_append, List.mem_append] at inside
  obtain first | second | third := inside
  · exact front first
  · exact commaless (valued.subset second)
  · exact ending third

theorem constants_kept (constants : List (Text × Text)) (rest : Text)
    (named : ∀ entry ∈ constants, '\n' ∉ entry.1 ∧ '\r' ∉ entry.1)
    (unassigned : ∀ entry ∈ constants, (split '\n' entry.2).tail.any isAssigned = false)
    (single : '\n' ∉ rest) (other : isAssigned rest = false) :
    mapLines exportLine (constantText constants ++ rest) = constantText (constants.map returned) ++ rest := by
  have parts := constant_text_assigned constants (fun entry inside => (named entry inside).1) rest
  have none' : constants.any (fun entry => (split '\n' entry.2).tail.any isAssigned) = false := by
    rw [List.any_eq_false]
    intro entry inside
    rw [unassigned entry inside]
    exact Bool.false_ne_true
  rw [none', Bool.false_or, split_none '\n' rest single, List.any_cons, other, ← any_lines isAssigned (by decide)
    assigned_chomp] at parts
  have returns := constant_text_returns constants (fun entry inside => (named entry inside).2) rest
  rw [drop_returns_last rest single] at returns
  rw [← returns]
  apply map_lines_returns
  intro line member
  exact unassigned_same line (by simpa using List.any_eq_false.mp parts line member)

def weight (entry : Text × Text) : Nat := (constantLine entry).length + 1

theorem constant_text_length (constants : List (Text × Text)) :
    (constantText constants).length = (constants.map weight).sum := by
  induction constants with
  | nil => rfl
  | cons entry constants ih =>
      have whole := constant_text_cons entry constants []
      rw [List.append_nil, List.append_nil] at whole
      rw [whole, List.length_append, List.length_cons, ih, List.map_cons, List.sum_cons, weight]
      omega

theorem returned_lighter (entry : Text × Text) : weight (returned entry) ≤ weight entry ∧
    (weight entry ≤ weight (returned entry) → dropReturns entry.2 = entry.2) := by
  have shorter := drop_returns_sublist entry.2
  have less := shorter.length_le
  have parts (value : Text) : weight (entry.1, value) = (exportConst entry.1 []).length + value.length + 2 := by
    rw [weight, constant_line_parts]
    simp only [List.length_append, List.length_cons, List.length_nil]
    omega
  have here := parts entry.2
  rw [returned, parts, here]
  refine ⟨by omega, fun least => shorter.eq_of_length_le ?_⟩
  omega

end Constants

end DevServer.CommonJs
