import DevServer.Proofs.Marks
import DevServer.Proofs.Routing
import DevServer.Proofs.Scan

set_option autoImplicit false

namespace DevServer.Specifier

open Text

theorem call_some (before : Option Char) (text left : Text) (literal : Literal) :
    callMatcher before text = some (literal, left) ↔ ∃ inner found, text = importCall ++ inner ∧
      literal? inner = some found ∧ literal = { found with lead := importCall ++ found.lead } ∧
      left = found.rest := by
  unfold callMatcher
  cases called : after? text importCall with
  | none =>
      simp only [Option.bind_eq_bind, Option.bind_none, reduceCtorEq, false_iff]
      rintro ⟨inner, found, whole, _⟩
      rw [whole, after?_append] at called
      cases called
  | some inner =>
      have whole := after?_eq_some.mp called
      subst whole
      simp only [Option.bind_eq_bind, Option.bind_some, Option.bind_eq_some_iff, Option.some.injEq,
        Prod.mk.injEq, List.append_cancel_left_eq]
      constructor
      · rintro ⟨found, opened, same, rest⟩
        exact ⟨inner, found, rfl, opened, same.symm, rest.symm⟩
      · rintro ⟨_, found, rfl, opened, same, rest⟩
        exact ⟨found, opened, same.symm, rest.symm⟩

theorem call_consumes : Consumes callMatcher := by
  intro before text literal left found
  obtain ⟨inner, opened, whole, read, same, rest⟩ := (call_some before text left literal).mp found
  refine ⟨importCall ++ (opened.lead ++ opened.specifier), ?_, ?_⟩
  · exact List.append_ne_nil_of_left_ne_nil (by decide) _
  · rw [whole, literal_whole inner opened read, rest]
    simp

def routedPiece : Piece Text → Piece Text
  | .kept c => .kept c
  | .found specifier => .found (routed specifier)

theorem render_keep (print : Text → Text) (text : Text) : render print (keep text) = text := by
  induction text with
  | nil => rfl
  | cons c text ih =>
      change c :: render print (keep text) = c :: text
      rw [ih]

theorem render_literal (print : Text → Text) (literal : Literal) :
    render print literal.pieces = literal.lead ++ print literal.specifier := by
  unfold Literal.pieces
  rw [render_append, render_keep, render_cons]
  simp [render, Piece.render]

theorem routed_keep (text : Text) : (keep text).map routedPiece = keep text := by
  induction text with
  | nil => rfl
  | cons c text ih =>
      change .kept c :: (keep text).map routedPiece = .kept c :: keep text
      rw [ih]

theorem routed_pieces (literal : Literal) :
    literal.pieces.map routedPiece =
      Literal.pieces { literal with specifier := routed literal.specifier } := by
  unfold Literal.pieces
  rw [List.map_append, routed_keep]
  rfl

def calls (before : Option Char) (text : Text) : List (Piece Text) :=
  (scanFrom callMatcher 0 before text).flatMap callPieces

theorem calls_kept (before : Option Char) (c : Char) (rest : Text)
    (miss : callMatcher before (c :: rest) = none) :
    calls before (c :: rest) = .kept c :: calls (some c) rest := by
  unfold calls
  rw [scan_kept before c rest miss]
  rfl

theorem calls_found (before : Option Char) (used left : Text) (literal : Literal)
    (nonempty : used ≠ []) (hit : callMatcher before (used ++ left) = some (literal, left)) :
    calls before (used ++ left) = literal.pieces ++ calls used.getLast? left := by
  unfold calls
  rw [scan_found before used left literal nonempty hit]
  rfl

theorem plain_call : isPlain importCall := plain_of _ (by decide)

theorem call_none_routed {a b : Text} (routed : Routed a b) (before other : Option Char)
    (miss : callMatcher before a = none) : callMatcher other b = none := by
  unfold callMatcher at miss ⊢
  rcases after_routed routed plain_call with ⟨_, none⟩ | ⟨left, right, here, there, rest⟩
  · rw [none]
    rfl
  · have unread : literal? left = none := by
      cases read : literal? left with
      | none => rfl
      | some literal => simp [here, read] at miss
    rw [there]
    simp [literal_none_routed rest unread]

-- By induction on the scan: a call that is found is found again with its literal
-- routed, and where none was found none is.
theorem calls_routed (before : Option Char) (text : Text) :
    Routed text (render routed (calls before text)) ∧
      ∀ other, calls other (render routed (calls before text)) =
        (calls before text).map routedPiece := by
  induction before, text using scan_induction call_consumes with
  | nil before => exact ⟨.nil, fun _ => rfl⟩
  | kept before c rest miss ih =>
      rw [calls_kept before c rest miss, render_cons]
      have whole := ih.1.keep c
      refine ⟨whole, fun other => ?_⟩
      have still := call_none_routed whole before other miss
      change calls other (c :: render routed (calls (some c) rest)) = _
      rw [calls_kept other c _ still, ih.2]
      rfl
  | found before used left literal nonempty hit ih =>
      obtain ⟨inner, opened, whole, read, same, rest⟩ := (call_some before _ left literal).mp hit
      rw [calls_found before used left literal nonempty hit, render_append, render_literal]
      have after : Routed opened.rest (render routed (calls used.getLast? left)) := rest ▸ ih.1
      obtain ⟨again, routed'⟩ := literal_routed inner _ opened read after
      subst same
      have shape : importCall ++ opened.lead ++ routed opened.specifier ++
          render routed (calls used.getLast? left) = importCall ++ (opened.lead ++
            routed opened.specifier ++ render routed (calls used.getLast? left)) := by
        simp
      refine ⟨?_, fun other => ?_⟩
      · rw [whole]
        dsimp only
        rw [shape]
        exact (Routed.refl importCall).append routed'
      · dsimp only
        have found := (call_some other _ _ _).mpr ⟨_, _, rfl, again, rfl, rfl⟩
        rw [← shape] at found
        have some' : importCall ++ opened.lead ++ routed opened.specifier ≠ [] :=
          List.append_ne_nil_of_left_ne_nil (List.append_ne_nil_of_left_ne_nil (by decide) _) _
        rw [calls_found other _ _ _ some' found, ih.2, List.map_append, routed_pieces]
        rfl

def fromMark : Text := " from "
def importMark : Text := "import"

theorem static_some (line : Text) (literal : Literal) :
    staticLiteral? line = some literal ↔ ∃ mark left text found,
      (mark = fromMark ∨ mark = importMark ∧ cut? line fromMark = none) ∧
      cut? line mark = some (left, text) ∧ literal? text = some found ∧
      literal = { found with lead := left ++ mark ++ found.lead } := by
  have behind (mark : Text) : cutBehind? mark line =
      (cut? line mark).map fun pair => (pair.1 ++ mark, pair.2) := rfl
  unfold staticLiteral?
  rw [behind, behind]
  change (((cut? line fromMark).map _).orElse fun _ => (cut? line importMark).map _).bind _ = _ ↔ _
  cases origin : cut? line fromMark with
  | some pair =>
      rcases pair with ⟨left, text⟩
      simp only [Option.map_some, Option.orElse_some, Option.bind_some]
      constructor
      · intro found
        obtain ⟨opened, read, same⟩ := Option.bind_eq_some_iff.mp found
        cases same
        exact ⟨fromMark, left, text, opened, .inl rfl, origin, read, rfl⟩
      · rintro ⟨mark, l, t, opened, (rfl | ⟨_, none⟩), cut, read, same⟩
        · rw [origin] at cut
          cases cut
          exact Option.bind_eq_some_iff.mpr ⟨opened, read, congrArg some same.symm⟩
        · cases none
  | none =>
      simp only [Option.map_none, Option.orElse_none]
      constructor
      · intro found
        obtain ⟨⟨lead, text⟩, cut, found⟩ := Option.bind_eq_some_iff.mp found
        obtain ⟨⟨left, right⟩, inner, split⟩ := Option.map_eq_some_iff.mp cut
        cases split
        obtain ⟨opened, read, same⟩ := Option.bind_eq_some_iff.mp found
        cases same
        exact ⟨importMark, left, right, opened, .inr ⟨rfl, trivial⟩, inner, read, rfl⟩
      · rintro ⟨mark, left, text, opened, (rfl | ⟨rfl, _⟩), cut, read, same⟩
        · rw [origin] at cut
          cases cut
        · rw [cut, Option.map_some, Option.bind_some]
          exact Option.bind_eq_some_iff.mpr ⟨opened, read, congrArg some same.symm⟩

theorem static_line_routed (line : Text) (literal : Literal)
    (found : staticLiteral? line = some literal) :
    Routed line (literal.lead ++ routed literal.specifier ++ literal.rest) ∧
      staticLiteral? (literal.lead ++ routed literal.specifier ++ literal.rest) =
        some { literal with specifier := routed literal.specifier } := by
  obtain ⟨mark, left, text, opened, kind, cut, read, same⟩ := (static_some line literal).mp found
  obtain ⟨again, inner⟩ := literal_routed text opened.rest opened read (Routed.refl _)
  have plain : isPlain mark := by
    rcases kind with rfl | ⟨rfl, _⟩
    · exact plain_of _ (by decide)
    · exact plain_of _ (by decide)
  have whole : line = left ++ mark ++ text := cut?_eq cut
  have shape : left ++ mark ++ opened.lead ++ routed opened.specifier ++ opened.rest =
      left ++ mark ++ (opened.lead ++ routed opened.specifier ++ opened.rest) := by
    simp
  subst same
  dsimp only
  rw [shape]
  have outer : Routed line
      (left ++ mark ++ (opened.lead ++ routed opened.specifier ++ opened.rest)) := by
    rw [whole]
    exact (Routed.refl _).append inner
  refine ⟨outer, (static_some _ _).mpr ⟨mark, left, _, _, ?_, ?_, again, rfl⟩⟩
  · rcases kind with rfl | ⟨rfl, none⟩
    · exact .inl rfl
    · refine .inr ⟨rfl, ?_⟩
      have same := cut_routed fromMark unrouted_from outer
      rw [none] at same
      exact Option.not_isSome_iff_eq_none.mp (by rw [← same]; decide)
  · exact cut_before_routed mark left text _ plain cut inner

theorem dynamic_pieces (line : Text) (dynamic : isStatic line = false) :
    linePieces line = calls none line := by
  unfold linePieces
  rw [dynamic]
  rfl

theorem static_pieces (line : Text) (literal : Literal) (static : isStatic line = true)
    (found : staticLiteral? line = some literal) :
    linePieces line = literal.pieces ++ keep literal.rest := by
  unfold linePieces
  rw [static, found]
  rfl

theorem line_routed (line : Text) :
    Routed line (render routed (linePieces line)) ∧
      linePieces (render routed (linePieces line)) = (linePieces line).map routedPiece := by
  cases isStatic' : isStatic line with
  | false =>
      obtain ⟨whole, same⟩ := calls_routed none line
      rw [dynamic_pieces line isStatic']
      refine ⟨whole, ?_⟩
      rw [dynamic_pieces _ ((static_routed whole).symm.trans isStatic'), same none]
  | true =>
      cases found : staticLiteral? line with
      | none =>
          have kept : linePieces line = keep line := by
            unfold linePieces
            rw [isStatic', found]
            rfl
          rw [kept, render_keep, kept, routed_keep]
          exact ⟨Routed.refl line, rfl⟩
      | some literal =>
          obtain ⟨whole, again⟩ := static_line_routed line literal found
          rw [static_pieces line literal isStatic' found, render_append, render_literal, render_keep]
          refine ⟨whole, ?_⟩
          rw [static_pieces _ _ ((static_routed whole).symm.trans isStatic') again,
            List.map_append, routed_keep, routed_pieces]

-- A carriage return at the end of a line is blank, opens no literal and is in no
-- mark, so it is only one more character to keep.
section Returns

theorem cut_return (text mark : Text) (some' : mark ≠ []) (absent : '\r' ∉ mark) :
    cut? (text ++ ['\r']) mark =
      (cut? text mark).map fun (left, right) => (left, right ++ ['\r']) := by
  have nothing : cut? [] mark = none := if_neg some'
  rw [cut_over text [] mark '\r' some' absent, nothing]
  cases cut? text mark with
  | some pair => rfl
  | none => rfl

theorem literal_return (text : Text) :
    literal? (text ++ ['\r']) =
      (literal? text).map fun literal => { literal with rest := literal.rest ++ ['\r'] } := by
  cases found : literal? text with
  | some literal =>
      obtain ⟨blanks, quote, rest, allBlank, isQuote, absent, whole, lead, tail⟩ :=
        (literal_some text literal).mp found
      refine (literal_some _ _).mpr ⟨blanks, quote, rest ++ ['\r'], allBlank, isQuote, absent, ?_, lead, ?_⟩
      · rw [whole]
        simp
      · simp [tail]
  | none =>
      rw [Option.map_none, literal_none]
      intro quote inner opened isQuote
      rw [trim_return] at opened
      cases start : trimStart text with
      | nil => simp [start] at opened
      | cons c rest =>
          rw [start, if_neg (List.cons_ne_nil _ _), List.cons_append, List.cons.injEq] at opened
          obtain ⟨rfl, rfl⟩ := opened
          have other : c ≠ '\r' := by
            rintro rfl
            exact absurd isQuote (by decide)
          have absent := (literal_none text).mp found c rest start isQuote
          simp [absent, other]

theorem static_return (line : Text) : isStatic (line ++ ['\r']) = isStatic line := by
  unfold isStatic
  rw [trim_return]
  by_cases empty : trimStart line = []
  · rw [if_pos empty, empty]
  · have starts (mark : Text) (absent : '\r' ∉ mark) :
        (trimStart line ++ ['\r']).startsWith mark = (trimStart line).startsWith mark := by
      unfold startsWith
      rw [after_over _ [] mark '\r' absent, Option.isSome_map]
    have holds : (trimStart line ++ ['\r']).includes " from " = (trimStart line).includes " from " := by
      unfold includes
      rw [cut_return _ _ (by decide) (by decide), Option.isSome_map]
    have quotes : (trimStart line ++ ['\r']).any isLiteralQuote =
        (trimStart line).any isLiteralQuote := by
      rw [List.any_append]
      exact Bool.or_false _
    rw [if_neg empty]
    unfold isStaticImport isReexport
    dsimp only
    rw [starts "import " (by decide), starts "export " (by decide), holds, quotes]

theorem call_return (before : Option Char) (text : Text) :
    callMatcher before (text ++ ['\r']) = (callMatcher before text).map fun (literal, left) =>
      ({ literal with rest := literal.rest ++ ['\r'] }, left ++ ['\r']) := by
  unfold callMatcher
  rw [after_over text [] importCall '\r' (by decide)]
  cases after? text importCall with
  | none => rfl
  | some inner =>
      simp only [Option.map_some, Option.bind_eq_bind, Option.bind_some, literal_return]
      cases literal? inner <;> rfl

theorem calls_return (before : Option Char) (text : Text) :
    calls before (text ++ ['\r']) = calls before text ++ [.kept '\r'] := by
  induction before, text using scan_induction call_consumes with
  | nil before => rfl
  | kept before c rest miss ih =>
      have still := call_return before (c :: rest)
      rw [miss, Option.map_none, List.cons_append] at still
      rw [calls_kept before c rest miss, List.cons_append, calls_kept before c _ still, ih]
      rfl
  | found before used left literal nonempty hit ih =>
      have again := call_return before (used ++ left)
      rw [hit, Option.map_some, List.append_assoc] at again
      rw [calls_found before used left literal nonempty hit, List.append_assoc,
        calls_found before used _ _ nonempty again, ih, List.append_assoc]
      rfl

theorem static_literal_return (line : Text) :
    staticLiteral? (line ++ ['\r']) = (staticLiteral? line).map fun literal =>
      { literal with rest := literal.rest ++ ['\r'] } := by
  unfold staticLiteral? cutBehind?
  rw [cut_return line _ (by decide) (by decide), cut_return line _ (by decide) (by decide)]
  cases line.cut? " from " with
  | some pair =>
      simp only [Option.map_some, Option.orElse_some, Option.bind_eq_bind, Option.bind_some,
        literal_return]
      cases literal? pair.2 <;> rfl
  | none =>
      cases line.cut? "import" with
      | none => rfl
      | some pair =>
          simp only [Option.map_some, Option.map_none, Option.orElse_none, Option.bind_eq_bind,
            Option.bind_some, literal_return]
          cases literal? pair.2 <;> rfl

theorem keep_append (first second : Text) : keep (first ++ second) = keep first ++ keep second := by
  unfold keep
  rw [List.map_append]

theorem line_return (line : Text) :
    linePieces (line ++ ['\r']) = linePieces line ++ [.kept '\r'] := by
  unfold linePieces
  rw [static_return]
  by_cases static : isStatic line = true
  · rw [if_pos static, if_pos static, static_literal_return]
    cases staticLiteral? line with
    | none => exact keep_append line ['\r']
    | some literal =>
        simp only [Option.map_some, keep_append, List.append_assoc]
        rfl
  · rw [if_neg static, if_neg static]
    exact calls_return none line

end Returns

end DevServer.Specifier
