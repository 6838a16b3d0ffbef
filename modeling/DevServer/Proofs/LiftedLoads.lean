import Mathlib.Data.List.Infix
import Mathlib.Data.List.TakeWhile
import DevServer.Proofs.Bindings
import DevServer.Proofs.Exports

set_option autoImplicit false

namespace DevServer.CommonJs

open Text

section Calls

def literalOf? (text : Text) : Option (Char × Text × Char) := do
  let text ← text.after? loadCall
  let (opening, text) ← char? isQuote (spaces text)
  let (inner, text) ← run? (fun c => !isQuote c) text
  let (closing, text) ← char? isQuote text
  let _ ← (spaces text).after? ")"
  some (opening, inner, closing)

def isPlainLiteral : Char × Text × Char → Bool
  | (opening, inner, closing) => opening == closing && !inner.contains '\\'

def hasPlainLoads (text : Text) : Bool :=
  text.tails.all fun place => (literalOf? place).all isPlainLiteral

theorem literal_iff (text : Text) (literal : Char × Text × Char) : literalOf? text = some literal ↔
    ∃ (argument : Argument) (rest : Text), text = loadCall ++ argument.text rest ∧
      literal = (argument.opening, argument.source, argument.closing) := by
  constructor
  · intro found
    simp only [literalOf?, Option.bind_eq_bind, Option.bind_eq_some_iff, Prod.exists,
      Option.some.injEq] at found
    obtain ⟨t1, called, opening, t2, opened, inner, t3, run, closing, t4, closed, rest, ended, rfl⟩ := found
    have quoted : quoted? (spaces t1) = some (inner, t4) := by simp [quoted?, opened, run, closed]
    have read : call? text = some (inner, rest) := by
      simp [call?, called, quoted, after?_eq_some.mp ended, after?]
    obtain ⟨argument, same, rfl⟩ := (call_iff text inner rest).mp read
    obtain ⟨first, run', _⟩ := argument_reads argument rest
    rw [after?_append, Option.some.injEq] at called
    rw [← called, first, char?, if_pos argument.opens] at opened
    cases opened
    rw [run'] at run
    cases run
    rw [char?, if_pos argument.closes] at closed
    cases closed
    exact ⟨argument, rest, rfl, rfl⟩
  · rintro ⟨argument, rest, rfl, rfl⟩
    obtain ⟨first, run, last⟩ := argument_reads argument rest
    simp [literalOf?, after?_append, first, char?, argument.opens, run, argument.closes, last, after?]

theorem plain_iff (text : Text) : hasPlainLoads text = true ↔
    ∀ (argument : Argument) (rest : Text), loadCall ++ argument.text rest <:+ text →
      argument.opening = argument.closing ∧ '\\' ∉ argument.source := by
  have plain (argument : Argument) : isPlainLiteral (argument.opening, argument.source, argument.closing) =
      true ↔ argument.opening = argument.closing ∧ '\\' ∉ argument.source := by
    simp [isPlainLiteral]
  simp only [hasPlainLoads, List.all_eq_true, List.mem_tails, Option.all_eq_true]
  constructor
  · intro all argument rest place
    exact (plain argument).mp (all _ place _ ((literal_iff _ _).mpr ⟨argument, rest, rfl, rfl⟩))
  · intro all place suffix literal found
    obtain ⟨argument, rest, rfl, rfl⟩ := (literal_iff _ _).mp found
    exact (plain argument).mpr (all argument rest suffix)

theorem space_passed (gap : Text) (blank : gap.all isSpace = true) :
    ∀ c ∈ gap, c ≠ '(' ∧ c ≠ ')' ∧ isQuote c = false := by
  intro c member
  have space := List.all_eq_true.mp blank c member
  refine ⟨?_, ?_, ?_⟩
  · rintro rfl
    cases space
  · rintro rfl
    cases space
  · rw [Bool.eq_false_iff]
    intro quote
    rw [quote_not_space c quote] at space
    cases space

end Calls

section Lifting

def loadName : Text := "require"

theorem load_call_parts : loadCall = loadName ++ ['('] := by decide

end Lifting

section Bound

theorem joins_none (before : Option Char) :
    before.any joinsCall = false ↔ ∀ c, before = some c → isIdentPart c = false ∧ c ≠ '.' := by
  cases before with
  | none => simp
  | some c => simp [joinsCall]

theorem space_joins_nothing (c : Char) (space : isSpace c = true) : joinsCall c = false := by
  have dot : c ≠ '.' := by
    rintro rfl
    cases space
  simp [joinsCall, space_ends_name c space, dot]

theorem assignment_read (gap space rest : Text) (blank : gap.all isSpace = true)
    (clear : space.all isSpace = true) (solid : rest.head?.any (fun c => !isSpace c) = true) :
    assignment? (gap ++ '=' :: (space ++ rest)) = some rest := by
  cases rest with
  | nil => cases solid
  | cons c rest =>
      have first := spaces_stop gap '=' (space ++ c :: rest) blank (by decide)
      have second := spaces_stop space c rest clear (by simpa using solid)
      simp [assignment?, first, second, after?]

theorem ends_iff (text : Text) : endsStatement text = true ↔ text.all isSpace = true ∨
    ∃ gap space : Text, gap.all isSpace = true ∧ space.all isSpace = true ∧ text = gap ++ ';' :: space := by
  have blank_iff (text : Text) : spaces text = [] ↔ text.all isSpace = true := by
    rw [spaces, List.dropWhile_eq_nil_iff, List.all_eq_true]
  constructor
  · intro ends
    obtain ⟨gap, whole, blank⟩ := space_parts text
    unfold endsStatement at ends
    split at ends
    · rename_i more found
      rw [found] at whole
      exact .inr ⟨gap, more, blank, (blank_iff more).mp (of_decide_eq_true ends), whole⟩
    · exact .inl ((blank_iff text).mp (of_decide_eq_true ends))
  · rintro (blank | ⟨gap, space, blank, clear, rfl⟩)
    · simp [endsStatement, (blank_iff text).mpr blank]
    · simp [endsStatement, spaces_stop gap ';' space blank rfl, (blank_iff space).mpr clear]

theorem members_load_read (start list gap space rest : Text) (argument : Argument)
    (blank : start.all isSpace = true) (inside : '}' ∉ list) (blank' : gap.all isSpace = true)
    (clear : space.all isSpace = true) (ends : endsStatement rest = true) :
    ofMembers? (start ++ '{' :: (list ++ '}' :: (gap ++ '=' :: (space ++ (loadCall ++ argument.text rest))))) =
      some ⟨.members list, argument.source⟩ := by
  have first := spaces_stop start '{' (list ++ '}' ::
    (gap ++ '=' :: (space ++ (loadCall ++ argument.text rest)))) blank (by decide)
  obtain ⟨listed, behind⟩ := until_stop '}' list (gap ++ '=' :: (space ++ (loadCall ++ argument.text rest))) inside
  simp only [ne_eq, decide_not] at listed behind
  have assigned := assignment_read gap space (loadCall ++ argument.text rest) blank' clear rfl
  have called := (call_iff _ argument.source rest).mpr ⟨argument, rfl, rfl⟩
  simp [ofMembers?, first, after?, listed, behind, char?, assigned, called, ends]

theorem keyword_read (word : Text) (member : word ∈ keywords) (text : Text) :
    keyword? (word ++ text) = some text := by
  simp only [keywords, List.mem_cons, List.not_mem_nil, or_false] at member
  obtain rfl | rfl | rfl := member <;> simp [keyword?, after?]

end Bound

end DevServer.CommonJs
