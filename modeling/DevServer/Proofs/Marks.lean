import Mathlib.Algebra.BigOperators.Group.List.Basic
import Mathlib.Algebra.Ring.Nat
import DevServer.Proofs.Lines
import DevServer.Text.Classes

set_option autoImplicit false

namespace DevServer.Text

theorem after_over (text rest mark : Text) (c : Char) (absent : c ∉ mark) :
    after? (text ++ c :: rest) mark = (after? text mark).map (· ++ c :: rest) := by
  induction mark generalizing text with
  | nil => simp [after?]
  | cons d mark ih =>
      simp only [List.mem_cons, not_or] at absent
      cases text with
      | nil => exact if_neg absent.1
      | cons e text =>
          by_cases same : e = d
          · simpa only [List.cons_append, after?, if_pos same] using ih text absent.2
          · simp only [List.cons_append, after?, if_neg same, Option.map_none]

theorem starts_over (text rest mark : Text) (c : Char) (absent : c ∉ mark) :
    startsWith (text ++ c :: rest) mark = startsWith text mark := by
  unfold startsWith
  rw [after_over text rest mark c absent, Option.isSome_map]

theorem cut_over (text rest mark : Text) (c : Char) (some' : mark ≠ []) (absent : c ∉ mark) :
    cut? (text ++ c :: rest) mark = match cut? text mark with
      | some (left, right) => some (left, right ++ c :: rest)
      | none => (cut? rest mark).map fun (left, right) => (text ++ c :: left, right) := by
  induction text with
  | nil =>
      have here := after_over [] rest mark c absent
      have empty : after? [] mark = none := by
        cases mark with
        | nil => exact absurd rfl some'
        | cons d mark => rfl
      have nothing : cut? [] mark = none := if_neg some'
      rw [empty, Option.map_none, List.nil_append] at here
      rw [List.nil_append, nothing, cut?, here]
      rfl
  | cons d text ih =>
      have here := after_over (d :: text) rest mark c absent
      rw [List.cons_append] at here ⊢
      rw [cut?, cut?, here, ih]
      cases after? (d :: text) mark with
      | some right => rfl
      | none =>
          cases cut? text mark with
          | some pair => rfl
          | none =>
              simp only [Option.map_none, Option.map_map]
              rfl

theorem trim_over (front rest : Text) (c : Char) (solid : isBlank c = false) :
    trimStart (front ++ c :: rest) = trimStart front ++ c :: rest := by
  change (front ++ c :: rest).dropWhile isBlank = front.dropWhile isBlank ++ c :: rest
  rw [List.dropWhile_append]
  cases front.dropWhile isBlank with
  | nil => simp [solid]
  | cons d front => rfl

theorem trim_return (text : Text) :
    trimStart (text ++ ['\r']) = if trimStart text = [] then [] else trimStart text ++ ['\r'] := by
  change (text ++ ['\r']).dropWhile isBlank =
    if text.dropWhile isBlank = [] then [] else text.dropWhile isBlank ++ ['\r']
  rw [List.dropWhile_append]
  cases text.dropWhile isBlank with
  | nil => decide
  | cons c rest => rfl

theorem trim_starts_chomp (line mark : Text) (absent : '\r' ∉ mark) :
    (trimStart (chomp line)).startsWith mark = (trimStart line).startsWith mark := by
  rcases chomp_cases line with same | cut
  · rw [← same]
  · conv => rhs; rw [cut, trim_return]
    by_cases empty : trimStart (chomp line) = []
    · rw [if_pos empty, empty]
    · rw [if_neg empty]
      exact (starts_over _ [] mark '\r' absent).symm

theorem includes_over (text rest mark : Text) (c : Char) (some' : mark ≠ []) (absent : c ∉ mark) :
    includes (text ++ c :: rest) mark = (includes text mark || includes rest mark) := by
  unfold includes
  rw [cut_over text rest mark c some' absent]
  cases cut? text mark with
  | some pair => rfl
  | none => rw [Option.isSome_map]; rfl

theorem includes_iff (text mark : Text) :
    includes text mark = true ↔ ∃ left right, text = left ++ mark ++ right := by
  unfold includes
  constructor
  · intro found
    obtain ⟨⟨left, right⟩, cut⟩ := Option.isSome_iff_exists.mp found
    exact ⟨left, right, cut?_eq cut⟩
  · rintro ⟨left, right, rfl⟩
    induction left with
    | nil =>
        rw [List.nil_append]
        have here := after?_append mark right
        cases whole : mark ++ right with
        | nil =>
            rw [(List.append_eq_nil_iff.mp whole).1]
            rfl
        | cons c rest =>
            rw [whole] at here
            rw [cut?, here]
            rfl
    | cons c left ih =>
        rw [List.cons_append, List.cons_append, cut?]
        split
        · rfl
        · rw [Option.isSome_map]
          exact ih

theorem includes_within (text mark : Text) : includes text mark = true ↔ mark <:+: text := by
  rw [includes_iff]
  constructor
  · intro ⟨left, right, whole⟩
    exact ⟨left, right, whole.symm⟩
  · intro ⟨left, right, whole⟩
    exact ⟨left, right, whole.symm⟩

theorem split_length (sep : Char) (text : Text) :
    ((split sep text).map fun part => part.length + 1).sum = text.length + 1 := by
  induction text with
  | nil => rfl
  | cons c text ih =>
      rw [split]
      by_cases same : c = sep
      · rw [if_pos same, List.map_cons, List.sum_cons, ih]
        simp
        omega
      · rw [if_neg same]
        cases parts : split sep text with
        | nil => exact absurd parts (split_ne_nil sep text)
        | cons part rest =>
            rw [parts] at ih
            simp only [List.map_cons, List.sum_cons, List.length_cons] at ih ⊢
            omega

def isSolid (c : Char) : Bool := !isBlank c && !("{},;*('\"" : Text).contains c

def words (text : Text) : List Text :=
  split ' ' (text.map fun c => if isSolid c then c else ' ')

theorem words_concat (left right : Text) (c : Char) (gap : isSolid c = false) :
    words (left ++ c :: right) = words left ++ words right := by
  unfold words
  rw [List.map_append, List.map_cons, gap]
  exact split_concat ' ' _ _

theorem words_length (text : Text) :
    ((words text).map fun word => word.length + 1).sum = text.length + 1 := by
  unfold words
  rw [split_length, List.length_map]

theorem words_solid (word : Text) (solid : word.all isSolid = true) : words word = [word] := by
  have same : (word.map fun c => if isSolid c then c else ' ') = word := by
    conv => rhs; rw [← List.map_id word]
    apply List.map_congr_left
    intro c member
    rw [if_pos (List.all_eq_true.mp solid c member)]
    rfl
  unfold words
  rw [same]
  apply split_none
  intro space
  exact absurd (List.all_eq_true.mp solid ' ' space) (by decide)

theorem blank_not_solid (c : Char) (blank : isBlank c = true) : isSolid c = false := by
  unfold isSolid
  rw [blank]
  rfl

theorem one_place {α : Type} (mark : α) (left right left' right' : List α)
    (same : left ++ mark :: right = left' ++ mark :: right') (before : mark ∉ left)
    (behind : mark ∉ right) : left' = left ∧ right' = right := by
  rcases List.append_eq_append_iff.mp same with ⟨gap, rfl, rest⟩ | ⟨gap, rfl, rest⟩
  · cases gap with
    | nil => simpa using (List.cons.inj rest).2.symm
    | cons c gap =>
        rw [(List.cons.inj rest).2] at behind
        exact absurd (List.mem_append_right _ List.mem_cons_self) behind
  · cases gap with
    | nil => simpa using (List.cons.inj rest).2
    | cons c gap =>
        rw [(List.cons.inj rest).1] at before
        exact absurd (List.mem_append_right _ List.mem_cons_self) before

theorem map_lines_starts (edit : Text → Text) (mark : Text) (unbroken : '\n' ∉ mark)
    (reflects : ∀ line, startsWith (edit line) mark = true → startsWith line mark = true) (text : Text)
    (starts : startsWith (mapLines edit text) mark = true) : startsWith text mark = true := by
  have whole := join_split '\n' text
  unfold mapLines linewise at starts
  cases parts : split '\n' text with
  | nil => exact absurd parts (split_ne_nil '\n' text)
  | cons part rest =>
      rw [parts] at whole starts
      cases rest with
      | nil =>
          rw [linewiseOf] at starts
          rw [← whole]
          by_cases empty : part = []
          · rw [if_pos empty] at starts
            rw [join, empty]
            exact starts
          · rw [if_neg empty] at starts
            exact reflects part starts
      | cons next rest =>
          rw [linewise_cons, starts_over _ _ mark '\n' unbroken] at starts
          have cut := reflects (chomp part) starts
          obtain ⟨tail, same⟩ := startsWith_iff.mp cut
          rw [← whole, join_cons]
          rcases chomp_cases part with kept | returned
          · rw [kept, same, List.append_assoc, List.append_assoc]
            exact startsWith_iff.mpr ⟨_, rfl⟩
          · rw [returned, same, List.append_assoc, List.append_assoc, List.append_assoc]
            exact startsWith_iff.mpr ⟨_, rfl⟩

section Words

variable (word : Text)

def lacks (text : Text) : Prop := word ∉ words text

theorem lacks_solid (text : Text) (solid : text.all isSolid = true) (other : text ≠ word) :
    lacks word text := by
  unfold lacks
  rw [words_solid text solid, List.mem_singleton]
  exact other.symm

theorem lacks_between (left right : Text) (c : Char) (gap : isSolid c = false)
    (first : lacks word left) (second : lacks word right) : lacks word (left ++ c :: right) := by
  unfold lacks
  rw [words_concat left right c gap, List.mem_append, not_or]
  exact ⟨first, second⟩

variable (some' : word ≠ [])
include some'

theorem lacks_nil : lacks word [] := lacks_solid word [] rfl some'.symm

theorem lacks_lead (gap text : Text) (blank : gap.all isBlank = true) (behind : lacks word text) :
    lacks word (gap ++ text) := by
  induction gap with
  | nil => exact behind
  | cons c gap ih =>
      rw [List.all_cons, Bool.and_eq_true] at blank
      exact lacks_between word [] _ c (blank_not_solid c blank.1) (lacks_nil word some') (ih blank.2)

theorem lacks_break (left gap right : Text) (blank : gap.all isBlank = true) (parted : gap ≠ [])
    (first : lacks word left) (second : lacks word right) : lacks word (left ++ (gap ++ right)) := by
  cases gap with
  | nil => exact absurd rfl parted
  | cons c gap =>
      rw [List.all_cons, Bool.and_eq_true] at blank
      exact lacks_between word left _ c (blank_not_solid c blank.1) first
        (lacks_lead word some' gap right blank.2 second)

theorem lacks_trail (text gap : Text) (blank : gap.all isBlank = true) (before : lacks word text) :
    lacks word (text ++ gap) := by
  by_cases parted : gap = []
  · rw [parted, List.append_nil]
    exact before
  · have last := lacks_break word some' text gap [] blank parted before (lacks_nil word some')
    rwa [List.append_nil] at last

omit some'

theorem words_around (left right : Text) (solid : word.all isSolid = true) :
    words (left ++ ' ' :: (word ++ ' ' :: right)) = words left ++ word :: words right := by
  rw [words_concat _ _ ' ' (by decide), words_concat _ _ ' ' (by decide), words_solid word solid]
  rfl

theorem word_once (left right left' right' : Text) (solid : word.all isSolid = true)
    (same : left ++ ' ' :: (word ++ ' ' :: right) = left' ++ ' ' :: (word ++ ' ' :: right'))
    (before : lacks word left) (behind : lacks word right) : right' = right := by
  have parts := congrArg words same
  rw [words_around word left right solid, words_around word left' right' solid] at parts
  have tail := (one_place word _ _ _ _ parts before behind).2
  have length := words_length right'
  rw [tail, words_length right] at length
  have wide : (' ' :: (word ++ ' ' :: right)).length = (' ' :: (word ++ ' ' :: right')).length := by
    simp only [List.length_cons, List.length_append]
    omega
  have rest := (List.cons.inj (List.append_inj_right' same wide)).2
  exact (List.cons.inj (List.append_cancel_left rest)).2.symm

end Words

end DevServer.Text
