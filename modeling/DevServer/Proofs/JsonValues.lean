import DevServer.Proofs.JsonNumbers

set_option autoImplicit false

namespace DevServer.Json

open Reader

inductive Scalar : Text → Prop where
  | null : Scalar "null"
  | true : Scalar "true"
  | false : Scalar "false"
  | number {shown : Text} : IsNumber shown → Scalar shown
  | literal {shown text : Text} : Literal LooselyEscaped shown text → Scalar shown

-- A value by the grammar, with so many arrays and objects inside one another. Names and
-- strings need not be texts: the halves of a pair may stand alone.
def WellFormedAt : Nat → Text → Prop
  | 0, shown => Scalar shown
  | depth + 1, shown => Scalar shown ∨
    (∃ (items : List Unit) (inside : Text), Listed (fun _ => WellFormedAt depth) items inside ∧
      shown = '[' :: (inside ++ [']'])) ∨
    (∃ (names : List Text) (inside : Text), Listed (Row LooselyEscaped id fun _ => WellFormedAt depth) names inside ∧
      shown = '\x7b' :: (inside ++ ['\x7d']))

def WellFormed (shown : Text) : Prop := ∃ depth, WellFormedAt depth shown

section Skipping

end Skipping

theorem text_taken (shown text gap rest : Text) (denotes : Denotes shown text) (blank : isBlankText gap = true) :
    Reader.text (gap ++ (shown ++ rest)) = .ok (text, rest) := by
  obtain ⟨inside, rfl, spelled⟩ := denotes
  have read := spelled_read escape_iff inside text rest spelled
  rw [List.cons_append, List.append_assoc, Reader.text, bind_read _ (skip_space_read '"' gap _ blank rfl)]
  simp only
  rw [bind_read _ (drop_read _ _)]
  exact read

theorem text_read (shown text : Text) (denotes : Denotes shown text) : Reads Reader.text shown text :=
  fun gap rest blank _ => text_taken shown text gap rest denotes blank

def flagText (b : Bool) : Text := if b then "true" else "false"

theorem list_read {α : Type} {one : α → Text → Prop} (item : Reader α) (rows : List α) (inside : Text)
    (reads : ∀ a shown, one a shown → Reads item shown a) (begins : ∀ a shown, one a shown → Begins shown)
    (listed : Listed one rows inside) : Reads (list item) ('[' :: (inside ++ [']'])) rows := by
  intro gap rest blank _
  rw [List.cons_append, List.append_assoc, list, bind_read _ (skip_space_read '[' gap _ blank rfl)]
  simp only
  rw [bind_read _ (drop_read _ _), List.singleton_append]
  exact items_read reads begins rows inside rest listed

theorem once_read {α : Type} (item : Reader α) (gap gap' shown rest : Text) (a : α) (read : Reads item shown a)
    (blank : isBlankText gap = true) (blank' : isBlankText gap' = true) (ended : Ended rest) :
    once none item (gap ++ ':' :: (gap' ++ (shown ++ rest))) = .ok (some a, rest) := by
  have taken := read gap' rest blank' ended
  rw [once, if_neg (by simp)]
  dsimp only
  rw [bind_read _ (colon_read gap _ blank), bind_read _ taken]
  rfl

section Naturals

def IsNatural (n : Nat) (shown : Text) : Prop := IsWhole shown ∧ natOf shown = n

end Naturals

end DevServer.Json
