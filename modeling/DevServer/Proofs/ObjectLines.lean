import DevServer.Proofs.DefinedLines

set_option autoImplicit false

namespace DevServer.Text

theorem split_count (sep : Char) (text : Text) : (split sep text).length = text.count sep + 1 := by
  induction text with
  | nil => rfl
  | cons c text ih =>
      by_cases same : c = sep
      · simp [split, same, ih]
      · have other : (c == sep) = false := by simpa using same
        rw [split, if_neg same, List.count_cons, other]
        cases parts : split sep text with
        | nil => exact absurd parts (split_ne_nil sep text)
        | cons part rest => simpa [parts] using ih

theorem edit_parts_length (edit : Text → Text) (parts : List Text) :
    (editParts edit parts).length = parts.length := by
  induction parts with
  | nil => rfl
  | cons line rest ih =>
      cases rest with
      | nil => rfl
      | cons next rest => simpa [edit_parts_cons] using ih

section Edits

variable (edit : Text → Text) (empty : edit [] = [])

include empty

theorem map_lines_feeds (kept : ∀ line, '\n' ∉ line → '\n' ∉ edit line) (text : Text) :
    (mapLines edit text).count '\n' = text.count '\n' := by
  have edited := split_count '\n' (mapLines edit text)
  rw [split_map_lines edit empty kept, edit_parts_length, split_count] at edited
  omega

theorem map_lines_break (text rest : Text) (absent : '\r' ∉ text) :
    mapLines edit (text ++ '\n' :: rest) = mapLines edit text ++ '\n' :: mapLines edit rest := by
  have parts := List.dropLast_concat_getLast (split_ne_nil '\n' text)
  have last := split_absent '\n' '\r' text _ absent (List.getLast_mem (split_ne_nil '\n' text))
  have whole : mapLines edit text = join ['\n'] (editParts edit (split '\n' text)) :=
    linewise_join edit empty (split '\n' text)
  rw [map_lines_concat, whole, ← parts, edit_parts_snoc, join_snoc, List.flatMap_append, List.flatMap_map]
  simp [chomp_none _ last]

end Edits

end DevServer.Text

namespace DevServer.CommonJs

open Text

section Objects

def assignedFrom (before : Option Char) (text : Text) : Text :=
  render objectDeclarations (scanFrom objectMatcher 0 before text)

theorem assigned_kept (before : Option Char) (c : Char) (rest : Text)
    (miss : objectMatcher before (c :: rest) = none) :
    assignedFrom before (c :: rest) = c :: assignedFrom (some c) rest := by
  unfold assignedFrom
  rw [scan_kept before c rest miss]
  rfl

theorem assigned_found (before : Option Char) (used left members : Text) (some' : used ≠ [])
    (hit : objectMatcher before (used ++ left) = some (members, left)) :
    assignedFrom before (used ++ left) = objectDeclarations members ++ assignedFrom used.getLast? left := by
  unfold assignedFrom
  rw [scan_found before used left members some' hit]
  rfl

theorem assigned_inside (c : Char) (front rest : Text) (first : c ≠ '\n') (unbroken : '\n' ∉ front) :
    assignedFrom (some c) (front ++ rest) = front ++ assignedFrom (front.getLast?.or (some c)) rest := by
  induction front generalizing c with
  | nil => rfl
  | cons d front ih =>
      rw [List.mem_cons, not_or] at unbroken
      have miss : objectMatcher (some c) (d :: (front ++ rest)) = none := if_pos (by simpa using first)
      rw [List.cons_append, assigned_kept (some c) d _ miss, ih d (Ne.symm unbroken.1) unbroken.2, last_cons]
      rfl

theorem assigned_line (before : Option Char) (front rest : Text) (unbroken : '\n' ∉ front)
    (miss : front ≠ [] → objectMatcher before (front ++ rest) = none) :
    assignedFrom before (front ++ rest) = front ++ assignedFrom (front.getLast?.or before) rest := by
  cases front with
  | nil => rfl
  | cons c front =>
      rw [List.mem_cons, not_or] at unbroken
      have here : objectMatcher before (c :: (front ++ rest)) = none := miss (List.cons_ne_nil _ _)
      rw [List.cons_append, assigned_kept before c _ here,
        assigned_inside c front rest (Ne.symm unbroken.1) unbroken.2, last_cons]
      rfl

end Objects

section Feeds

def feedsAt (text : Text) : Nat :=
  match objectMatcher none text with
  | some (members, _) => (objectDeclarations members).count '\n'
  | none => 0

def feedsBehind : Text → Nat
  | [] => 0
  | c :: rest => (if c = '\n' then feedsAt rest else 0) + feedsBehind rest

theorem feeds_behind_append (front rest : Text) :
    (if front.getLast? = some '\n' then feedsAt rest else 0) + feedsBehind rest ≤ feedsBehind (front ++ rest) := by
  induction front with
  | nil => simp
  | cons c front ih =>
      cases front with
      | nil => simp [feedsBehind]
      | cons d front =>
          rw [List.getLast?_cons_cons, List.cons_append, feedsBehind]
          omega

theorem feeds_behind_unbroken (front rest : Text) (unbroken : '\n' ∉ front) :
    feedsBehind (front ++ rest) = feedsBehind rest := by
  induction front with
  | nil => rfl
  | cons c front ih =>
      rw [List.mem_cons, not_or] at unbroken
      rw [List.cons_append, feedsBehind, if_neg (Ne.symm unbroken.1), ih unbroken.2, Nat.zero_add]

theorem object_before (before : Option Char) (starts : before.any (· ≠ '\n') = false) (text : Text) :
    objectMatcher before text = objectMatcher none text := by
  unfold objectMatcher
  rw [starts]
  rfl

theorem assigned_before (before : Option Char) (starts : before.any (· ≠ '\n') = false) (text : Text) :
    assignedFrom before text = assignedFrom none text := by
  cases text with
  | nil => rfl
  | cons c rest =>
      unfold assignedFrom
      rw [scanFrom, scanFrom, object_before before starts]

theorem assigned_feeds (before : Option Char) (text : Text) : (assignedFrom before text).count '\n' ≤
    text.count '\n' + (if before.any (· ≠ '\n') then 0 else feedsAt text) + feedsBehind text := by
  induction before, text using scan_induction object_consumes with
  | nil before => exact Nat.zero_le _
  | kept before c rest miss ih =>
      rw [assigned_kept before c rest miss, List.count_cons, List.count_cons, feedsBehind]
      by_cases feed : c = '\n'
      · simp only [feed, Option.any_some, ne_eq, not_true_eq_false, decide_false, Bool.false_eq_true,
          if_false] at ih ⊢
        simp only [if_true]
        omega
      · simp only [Option.any_some, ne_eq, feed, not_false_eq_true, decide_true, if_true, if_false] at ih ⊢
        omega
  | found before used left members nonempty hit ih =>
      obtain ⟨starts, _⟩ := object_some before _ members left hit
      have behind := feeds_behind_append used left
      have here : feedsAt (used ++ left) = (objectDeclarations members).count '\n' := by
        rw [feedsAt, ← object_before before starts, hit]
      rw [assigned_found before used left members nonempty hit, List.count_append, List.count_append, starts, here,
        if_neg Bool.false_ne_true]
      cases last : used.getLast? with
      | none => exact absurd (List.getLast?_eq_none_iff.mp last) nonempty
      | some c =>
          rw [last] at ih behind
          by_cases feed : c = '\n'
          · subst feed
            simp only [if_true, Option.any_some, ne_eq, not_true_eq_false, decide_false, Bool.false_eq_true,
              if_false] at ih behind
            omega
          · simp only [Option.any_some, ne_eq, feed, not_false_eq_true, decide_true, if_true, Option.some.injEq,
              if_false] at ih behind
            omega

end Feeds

end DevServer.CommonJs
