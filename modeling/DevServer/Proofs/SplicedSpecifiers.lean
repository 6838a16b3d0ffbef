import DevServer.Proofs.Specifiers

set_option autoImplicit false

namespace DevServer.Text

theorem drop_returns_ending (text : Text) : (dropReturns text).getLast? = text.getLast? := by
  fun_induction dropReturns text with
  | case1 => rfl
  | case2 text ih => rw [List.getLast?_cons, ih, List.getLast?_cons_cons, List.getLast?_cons]
  | case3 c text other ih => rw [List.getLast?_cons, ih, List.getLast?_cons]

end DevServer.Text

namespace DevServer.Specifier

open Text

section Enclosing

-- Pieces in which every specifier stands between two quotes of one kind. The closing quote
-- is read on as what stands behind.
inductive Enclosed : List (Piece Text) → Prop where
  | nil : Enclosed []
  | keep (c : Char) {rest : List (Piece Text)} : Enclosed rest → Enclosed (.kept c :: rest)
  | literal (quote : Char) (specifier : Text) {rest : List (Piece Text)} : isLiteralQuote quote = true →
      Enclosed (.kept quote :: rest) → Enclosed (.kept quote :: .found specifier :: .kept quote :: rest)

theorem Enclosed.append {first second : List (Piece Text)} (here : Enclosed first) (there : Enclosed second) :
    Enclosed (first ++ second) := by
  induction here with
  | nil => exact there
  | keep c _ ih => exact .keep c ih
  | literal quote specifier isQuote _ ih => exact .literal quote specifier isQuote ih

theorem enclosed_keep (text : Text) : Enclosed (keep text) := by
  induction text with
  | nil => exact .nil
  | cons c text ih => exact .keep c ih

theorem enclosed_literal (text front : Text) (literal : Literal) (rest : List (Piece Text))
    (found : literal? text = some literal) (behind : ∀ quote more, literal.rest = quote :: more →
      isLiteralQuote quote = true → ∃ tail, rest = .kept quote :: tail) (enclosed : Enclosed rest) :
    Enclosed (keep (front ++ literal.lead) ++ .found literal.specifier :: rest) := by
  obtain ⟨blanks, quote, more, _, isQuote, _, _, lead, closed⟩ := (literal_some text literal).mp found
  obtain ⟨tail, rfl⟩ := behind quote more closed isQuote
  rw [lead, keep_append, keep_append, List.append_assoc, List.append_assoc]
  exact (enclosed_keep front).append ((enclosed_keep blanks).append (.literal quote _ isQuote enclosed))

theorem quote_begins_none (before : Option Char) (quote : Char) (rest : Text) (isQuote : isLiteralQuote quote = true) :
    callMatcher before (quote :: rest) = none := by
  have other : quote ≠ 'i' := by
    rintro rfl
    cases isQuote
  rw [callMatcher, show after? (quote :: rest) importCall = none from if_neg other]
  rfl

theorem calls_enclosed (before : Option Char) (text : Text) : Enclosed (calls before text) := by
  induction before, text using scan_induction call_consumes with
  | nil before => exact .nil
  | kept before c rest miss ih =>
      rw [calls_kept before c rest miss]
      exact .keep c ih
  | found before used left literal nonempty hit ih =>
      obtain ⟨inner, opened, _, read, same, rest⟩ := (call_some before _ left literal).mp hit
      rw [calls_found before used left literal nonempty hit, same, Literal.pieces, List.append_assoc]
      refine enclosed_literal inner importCall opened _ read (fun quote more closed isQuote => ?_) ih
      rw [rest, closed, calls_kept _ quote more (quote_begins_none _ quote more isQuote)]
      exact ⟨_, rfl⟩

theorem static_enclosed (line : Text) (literal : Literal) (found : staticLiteral? line = some literal) :
    Enclosed (literal.pieces ++ keep literal.rest) := by
  obtain ⟨mark, left, text, opened, _, _, read, rfl⟩ := (static_some line literal).mp found
  rw [Literal.pieces, List.append_assoc]
  refine enclosed_literal text (left ++ mark) opened _ read (fun quote more closed _ => ?_) (enclosed_keep _)
  rw [closed]
  exact ⟨_, rfl⟩

theorem line_enclosed (line : Text) : Enclosed (linePieces line) := by
  cases static : isStatic line with
  | false =>
      rw [dynamic_pieces line static]
      exact calls_enclosed none line
  | true =>
      cases found : staticLiteral? line with
      | none =>
          rw [linePieces, static, found]
          exact enclosed_keep line
      | some literal =>
          rw [static_pieces line literal static found]
          exact static_enclosed line literal found

theorem parts_enclosed (parts : List Text) : Enclosed (linewiseOf (.kept '\n') linePieces parts) := by
  induction parts with
  | nil => exact .nil
  | cons line rest ih =>
      cases rest with
      | nil =>
          rw [linewiseOf]
          split
          · exact .nil
          · exact line_enclosed line
      | cons next rest =>
          rw [linewise_cons]
          exact (line_enclosed (chomp line)).append (.keep '\n' ih)

end Enclosing

section Printing

theorem calls_whole (before : Option Char) (text : Text) : render id (calls before text) = text := by
  induction before, text using scan_induction call_consumes with
  | nil before => rfl
  | kept before c rest miss ih =>
      rw [calls_kept before c rest miss, render_cons, ih]
      rfl
  | found before used left literal nonempty hit ih =>
      obtain ⟨inner, opened, whole, read, rfl, rfl⟩ := (call_some before _ left literal).mp hit
      rw [calls_found before used _ _ nonempty hit, render_append, render_literal, ih, whole,
        literal_whole inner opened read]
      simp

theorem line_whole (line : Text) : render id (linePieces line) = line := by
  cases static : isStatic line with
  | false =>
      rw [dynamic_pieces line static]
      exact calls_whole none line
  | true =>
      cases found : staticLiteral? line with
      | none =>
          rw [linePieces, static, found]
          exact render_keep id line
      | some literal =>
          obtain ⟨mark, left, text, opened, _, cut, read, rfl⟩ := (static_some line literal).mp found
          rw [static_pieces line _ static found, render_append, render_literal, render_keep, cut?_eq cut,
            literal_whole text opened read]
          simp

theorem pieces_whole (code : Text) : render id (pieces code) = dropReturns code := by
  have lines : (fun line => render id (linePieces line)) = id := funext line_whole
  rw [← map_lines_id, pieces, linewise, render_parts, lines]
  rfl

end Printing

section Cuts

def cuts : List (Piece Text) → Text × List (Text × Text)
  | [] => ([], [])
  | .kept c :: rest => (c :: (cuts rest).1, (cuts rest).2)
  | .found specifier :: rest => ([], (specifier, (cuts rest).1) :: (cuts rest).2)

def spliced (print : Text → Text) (front : Text) (parts : List (Text × Text)) : Text :=
  front ++ parts.flatMap fun part => print part.1 ++ part.2

def IsQuoted : Text → List (Text × Text) → Prop
  | _, [] => True
  | front, (_, behind) :: parts =>
    (∃ quote, isLiteralQuote quote = true ∧ front.getLast? = some quote ∧ behind.head? = some quote) ∧
      IsQuoted behind parts

theorem cuts_spliced (print : Text → Text) (pieces : List (Piece Text)) :
    render print pieces = spliced print (cuts pieces).1 (cuts pieces).2 := by
  induction pieces with
  | nil => rfl
  | cons piece rest ih =>
      rw [render_cons, ih]
      cases piece with
      | kept c => rfl
      | found specifier =>
          rw [cuts, spliced, spliced, List.flatMap_cons, List.append_assoc]
          rfl

theorem cuts_found (pieces : List (Piece Text)) :
    pieces.filterMap Piece.found? = (cuts pieces).2.map Prod.fst := by
  induction pieces with
  | nil => rfl
  | cons piece rest ih =>
      cases piece with
      | kept c => exact ih
      | found specifier => exact congrArg (List.cons specifier) ih

theorem quoted_longer (c : Char) (front : Text) (parts : List (Text × Text)) (quoted : IsQuoted front parts) :
    IsQuoted (c :: front) parts := by
  cases parts with
  | nil => trivial
  | cons part parts =>
      obtain ⟨⟨quote, isQuote, opens, closes⟩, later⟩ := quoted
      refine ⟨⟨quote, isQuote, ?_, closes⟩, later⟩
      rw [List.getLast?_cons, opens]
      rfl

theorem enclosed_quoted (pieces : List (Piece Text)) (enclosed : Enclosed pieces) :
    IsQuoted (cuts pieces).1 (cuts pieces).2 := by
  induction enclosed with
  | nil => trivial
  | keep c _ ih => exact quoted_longer c _ _ ih
  | literal quote specifier isQuote _ ih => exact ⟨⟨quote, isQuote, rfl, rfl⟩, ih⟩

theorem spliced_ending (print : Text → Text) (front : Text) (parts : List (Text × Text))
    (quoted : IsQuoted front parts) :
    (spliced print front parts).getLast? = (spliced id front parts).getLast? := by
  induction parts generalizing front with
  | nil => rfl
  | cons part parts ih =>
      obtain ⟨specifier, behind⟩ := part
      obtain ⟨⟨quote, _, _, closes⟩, later⟩ := quoted
      have step (print : Text → Text) : spliced print front ((specifier, behind) :: parts) =
          front ++ print specifier ++ spliced print behind parts := by
        simp [spliced]
      have some' (print : Text → Text) : spliced print behind parts ≠ [] := by
        rw [spliced]
        apply List.append_ne_nil_of_left_ne_nil
        rintro rfl
        cases closes
      rw [step, step, List.getLast?_append_of_ne_nil _ (some' print), List.getLast?_append_of_ne_nil _ (some' id),
        ih behind later]

end Cuts

-- The cuts are the text's own: they are there before anything is mapped.
theorem specifiers_spliced (code : Text) : ∃ front parts,
    dropReturns code = spliced id front parts ∧ all code = parts.map Prod.fst ∧ IsQuoted front parts ∧
    ∀ map : Text → Option Text,
      rewrite map code = spliced (fun specifier => (map specifier).getD specifier) front parts ∧
      (rewrite map code).getLast? = code.getLast? := by
  have whole := cuts_spliced id (pieces code)
  rw [pieces_whole] at whole
  have quoted := enclosed_quoted (pieces code) (parts_enclosed _)
  refine ⟨_, _, whole, cuts_found (pieces code), quoted, fun map => ?_⟩
  have printed := cuts_spliced (fun specifier => (map specifier).getD specifier) (pieces code)
  refine ⟨printed, ?_⟩
  rw [rewrite, printed, spliced_ending _ _ _ quoted, ← whole, drop_returns_ending]

example : rewrite (fun _ => some "x") "import 'a';\r\nf(import( \"b\"));" =
    "import 'x';\nf(import( \"x\"));".toList := by
  decide

end DevServer.Specifier
