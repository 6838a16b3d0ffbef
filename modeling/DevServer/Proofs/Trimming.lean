import Mathlib.Data.List.Basic
import Mathlib.Data.List.TakeWhile
import DevServer.Proofs.Marks

set_option autoImplicit false

namespace DevServer.Text

def isTrimmed (text : Text) : Bool := text.head?.any (!isBlank ·) && text.getLast?.any (!isBlank ·)

theorem trim_between (drop : Char → Bool) (before text after : Text) (begins : before.all drop = true)
    (ends : after.all drop = true) (first : text.head?.any (!drop ·) = true)
    (last : text.getLast?.any (!drop ·) = true) : trimOf drop (before ++ (text ++ after)) = text := by
  obtain ⟨c, rest, rfl⟩ : ∃ c rest, text = c :: rest := by
    cases text with
    | nil => cases first
    | cons c rest => exact ⟨c, rest, rfl⟩
  have start : trimStartOf drop (before ++ (c :: rest ++ after)) = c :: rest ++ after :=
    drop_while_stop drop before c (rest ++ after) begins (by simpa using first)
  obtain ⟨front, d, whole⟩ : ∃ front d, c :: rest = front ++ [d] :=
    ⟨_, _, (List.dropLast_concat_getLast (List.cons_ne_nil c rest)).symm⟩
  rw [whole, List.getLast?_concat] at last
  have back := drop_while_stop drop after.reverse d front.reverse (by simpa using ends) (by simpa using last)
  rw [trimOf, start, trimEndOf, whole]
  simp [back]

theorem trimmed_append (front middle back : Text) (first : front.head?.any (!isBlank ·) = true)
    (last : back.getLast?.any (!isBlank ·) = true) : isTrimmed (front ++ (middle ++ back)) = true := by
  cases front with
  | nil => cases first
  | cons c front =>
      cases ends : back.getLast? with
      | none => rw [ends] at last; cases last
      | some d =>
          have whole : (c :: front ++ (middle ++ back)).getLast? = some d := by
            rw [List.getLast?_append, List.getLast?_append, ends]
            rfl
          rw [ends] at last
          rw [isTrimmed, whole, Bool.and_eq_true]
          exact ⟨first, last⟩

theorem trim_trimmed (before text after : Text) (begins : before.all isBlank = true) (ends : after.all isBlank = true)
    (trimmed : isTrimmed text = true) : trim (before ++ (text ++ after)) = text := by
  simp only [isTrimmed, Bool.and_eq_true] at trimmed
  exact trim_between isBlank before text after begins ends trimmed.1 trimmed.2

theorem trim_same (text : Text) (trimmed : isTrimmed text = true) : trim text = text := by
  have alone := trim_trimmed [] text [] rfl rfl trimmed
  rwa [List.append_nil, List.nil_append] at alone

theorem trimmed_some (text : Text) (trimmed : isTrimmed text = true) : text ≠ [] := by
  rintro rfl
  cases trimmed

theorem trim_blank (text : Text) (blank : text.all isBlank = true) : trim text = [] := by
  have none' : trimStartOf isBlank text = [] := by
    rw [trimStartOf, List.dropWhile_eq_nil_iff]
    exact List.all_eq_true.mp blank
  rw [trim, trimOf, none']
  rfl

theorem unspaced (c : Char) (solid : isBlank c = false) (gap : Text) (blank : gap.all isBlank = true) : c ∉ gap := by
  intro member
  rw [List.all_eq_true.mp blank c member] at solid
  cases solid

theorem trim_end_solid (c : Char) (rest : Text) (solid : isBlank c = false) :
    trimEnd (c :: rest) = c :: trimEnd rest := by
  have stops := trim_over rest.reverse [] c solid
  change (trimStart (c :: rest).reverse).reverse = c :: (trimStart rest.reverse).reverse
  rw [List.reverse_cons, stops, List.reverse_append]
  rfl

theorem trim_end_parts (text : Text) : ∃ after, text = trimEnd text ++ after ∧ after.all isBlank = true := by
  refine ⟨(text.reverse.takeWhile isBlank).reverse, ?_, ?_⟩
  · change text = (text.reverse.dropWhile isBlank).reverse ++ _
    rw [← List.reverse_append, List.takeWhile_append_dropWhile, List.reverse_reverse]
  · rw [List.all_reverse, List.all_takeWhile]

theorem trim_around (text : Text) : ∃ before after, text = before ++ (trim text ++ after) ∧
    before.all isBlank = true ∧ after.all isBlank = true := by
  obtain ⟨after, whole, ends⟩ := trim_end_parts (trimStart text)
  refine ⟨text.takeWhile isBlank, after, ?_, List.all_takeWhile, ends⟩
  change text = _ ++ (trimEnd (trimStart text) ++ after)
  rw [← whole]
  exact List.takeWhile_append_dropWhile.symm

theorem trim_chomp (line : Text) : trim (chomp line) = trim line := by
  rcases chomp_cases line with same | returned
  · rw [← same]
  · conv => rhs; rw [returned]
    change trimEnd (trimStart _) = trimEnd (trimStart _)
    rw [trim_return]
    by_cases empty : trimStart (chomp line) = []
    · rw [if_pos empty, empty]
    · rw [if_neg empty]
      change _ = (trimStart (trimStart (chomp line) ++ ['\r']).reverse).reverse
      rw [List.reverse_append]
      rfl

end DevServer.Text
