import DevServer.Proofs.Marks
import DevServer.Proofs.Specifiers

set_option autoImplicit false

namespace DevServer.Specifier

open Text

theorem trim_nil_iff (gap : Text) : trimStart gap = [] ↔ gap.all isBlank = true := by
  change gap.dropWhile isBlank = [] ↔ _
  constructor
  · intro nothing
    have whole := List.takeWhile_append_dropWhile (p := isBlank) (l := gap)
    rw [nothing, List.append_nil] at whole
    rw [← whole]
    exact List.all_takeWhile
  · intro blank
    have dropped : (gap ++ []).dropWhile isBlank = ([] : Text).dropWhile isBlank :=
      List.dropWhile_append_of_pos (List.all_eq_true.mp blank)
    rwa [List.append_nil] at dropped

theorem quote_foreign (mark : Text) (quote : Char) (isQuote : isLiteralQuote quote = true)
    (plain : isPlain mark) : quote ∉ mark := by
  intro member
  rw [plain quote member] at isQuote
  cases isQuote

theorem literal_over (gap inner : Text) (quote : Char) (isQuote : isLiteralQuote quote = true)
    (plain : isPlain gap) :
    literal? (gap ++ quote :: inner) =
      if gap.all isBlank then (cutAt? quote inner).map fun (specifier, rest) =>
        ⟨gap ++ [quote], specifier, quote :: rest⟩
      else none := by
  unfold literal?
  rw [trim_over gap inner quote (quote_not_blank quote isQuote)]
  by_cases blank : gap.all isBlank = true
  · rw [if_pos blank, (trim_nil_iff gap).mpr blank, List.nil_append]
    simp only [if_pos isQuote, take_while_stop isBlank gap quote inner blank (quote_not_blank quote isQuote)]
  · rw [if_neg blank]
    cases start : trimStart gap with
    | nil => exact absurd ((trim_nil_iff gap).mp start) blank
    | cons c rest =>
        have inside : c ∈ gap := by
          apply (List.dropWhile_sublist isBlank).subset
          change c ∈ trimStart gap
          rw [start]
          exact List.mem_cons_self
        have other : ¬ isLiteralQuote c = true := by
          rw [plain c inside]
          exact Bool.false_ne_true
        simp only [List.cons_append, if_neg other]

def opensWith (word front : Text) : Bool := (trimStart front).startsWith word

-- Whether the mark that the literal of a line is looked for behind stands right before
-- its first quote; what follows the quote is `rest`.
def marksHere (front rest : Text) : Bool :=
  match cut? front fromMark with
  | some (_, gap) => gap.all isBlank
  | none => !rest.includes fromMark && (cut? front importMark).any fun pair => pair.2.all isBlank

def leadsTo (front rest : Text) : Bool :=
  marksHere front rest &&
    (opensWith "import " front || opensWith "export " front && front.includes fromMark)

theorem first_char_calls (before : Option Char) (text : Text) :
    (render routed (calls before text)).head? = text.head? := by
  induction before, text using scan_induction call_consumes with
  | nil before => rfl
  | kept before c rest miss ih =>
      rw [calls_kept before c rest miss, render_cons]
      rfl
  | found before used left literal nonempty hit ih =>
      obtain ⟨inner, opened, whole, read, same, rest⟩ := (call_some before _ left literal).mp hit
      rw [calls_found before used left literal nonempty hit, render_append, render_literal, whole, same]
      rfl

theorem calls_over (before : Option Char) (front rest : Text) (quote : Char)
    (isQuote : isLiteralQuote quote = true) (flat : '(' ∉ front) :
    render routed (calls before (front ++ quote :: rest)) =
      front ++ quote :: render routed (calls (some quote) rest) := by
  have foreign := quote_foreign importCall quote isQuote plain_call
  have miss (before : Option Char) (front : Text) (flat : '(' ∉ front) :
      callMatcher before (front ++ quote :: rest) = none := by
    unfold callMatcher
    rw [after_over front rest importCall quote foreign]
    cases called : after? front importCall with
    | none => rfl
    | some inner =>
        have whole := after?_eq_some.mp called
        rw [whole] at flat
        exact absurd (List.mem_append_left _ (by decide)) flat
  induction front generalizing before with
  | nil =>
      rw [List.nil_append, calls_kept before quote rest (miss before [] (by simp)), render_cons]
      rfl
  | cons c front ih =>
      have here := miss before (c :: front) flat
      simp only [List.mem_cons, not_or] at flat
      rw [List.cons_append] at here ⊢
      rw [calls_kept before c _ here, render_cons, ih _ flat.2]
      rfl

theorem routed_static (line : Text) (static : isStatic line = true) :
    routedLine line = match staticLiteral? line with
      | some literal => literal.lead ++ routed literal.specifier ++ literal.rest
      | none => line := by
  unfold routedLine linePieces
  rw [if_pos static]
  cases staticLiteral? line with
  | none => exact render_keep _ _
  | some literal =>
      dsimp only
      rw [render_append, render_literal, render_keep]

section Statements

variable (front rest : Text) (quote : Char) (isQuote : isLiteralQuote quote = true)

theorem plain_from : isPlain fromMark := plain_of _ (by decide)

theorem plain_import : isPlain importMark := plain_of _ (by decide)

include isQuote

theorem cut_mark (mark : Text) (some' : mark ≠ []) (plain : isPlain mark) :
    cut? (front ++ quote :: rest) mark = match cut? front mark with
      | some (left, gap) => some (left, gap ++ quote :: rest)
      | none => (cut? rest mark).map fun (left, right) => (front ++ quote :: left, right) :=
  cut_over front rest mark quote some' (quote_foreign mark quote isQuote plain)

theorem later_mark (mark : Text) (some' : mark ≠ []) (plain : isPlain mark)
    (absent : cut? front mark = none) (left text : Text)
    (found : cut? (front ++ quote :: rest) mark = some (left, text)) :
    ∃ later, left = front ++ quote :: later ∧ rest = later ++ mark ++ text := by
  rw [cut_mark front rest quote isQuote mark some' plain, absent] at found
  obtain ⟨⟨later, text'⟩, cut, same⟩ := Option.map_eq_some_iff.mp found
  cases same
  exact ⟨later, rfl, cut?_eq cut⟩

theorem mark_none_iff (mark : Text) (some' : mark ≠ []) (plain : isPlain mark) :
    cut? (front ++ quote :: rest) mark = none ↔ cut? front mark = none ∧ rest.includes mark = false := by
  rw [cut_mark front rest quote isQuote mark some' plain, includes, ← Option.not_isSome_iff_eq_none,
    ← Option.not_isSome_iff_eq_none]
  cases cut? front mark with
  | some pair => simp
  | none => simp

theorem static_literal_cases (plain : isPlain front) (literal : Literal)
    (found : staticLiteral? (front ++ quote :: rest) = some literal) :
    (marksHere front rest = true ∧ ∃ specifier after, cutAt? quote rest = some (specifier, after) ∧
      literal = ⟨front ++ [quote], specifier, quote :: after⟩) ∨
    marksHere front rest = false ∧ ∃ more, more ≠ [] ∧ literal.lead = front ++ quote :: more ∧
      rest = more ++ literal.specifier ++ literal.rest := by
  obtain ⟨mark, left, text, opened, kind, cut, read, same⟩ := (static_some _ literal).mp found
  have shape : mark ≠ [] ∧ isPlain mark := by
    rcases kind with rfl | ⟨rfl, _⟩
    · exact ⟨by decide, plain_from⟩
    · exact ⟨by decide, plain_import⟩
  cases here : cut? front mark with
  | some pair =>
      rcases pair with ⟨left', gap⟩
      have whole := cut?_eq here
      rw [cut_mark front rest quote isQuote mark shape.1 shape.2, here] at cut
      cases cut
      rw [literal_over gap rest quote isQuote] at read
      · by_cases blank : gap.all isBlank = true
        · rw [if_pos blank] at read
          obtain ⟨⟨specifier, after⟩, closed, rfl⟩ := Option.map_eq_some_iff.mp read
          refine .inl ⟨?_, specifier, after, closed, ?_⟩
          · unfold marksHere
            rcases kind with rfl | ⟨rfl, none⟩
            · rw [here]
              exact blank
            · obtain ⟨absent, later⟩ := (mark_none_iff front rest quote isQuote fromMark (by decide)
                plain_from).mp none
              rw [absent, later, here]
              exact blank
          · rw [same, whole]
            simp
        · rw [if_neg blank] at read
          cases read
      · intro c member
        apply plain
        rw [whole]
        exact List.mem_append_right _ member
  | none =>
      obtain ⟨later, rfl, behind⟩ :=
        later_mark front rest quote isQuote mark shape.1 shape.2 here left text cut
      have inner := literal_whole text opened read
      refine .inr ⟨?_, later ++ mark ++ opened.lead, ?_, ?_, ?_⟩
      · unfold marksHere
        rcases kind with rfl | ⟨rfl, none⟩
        · have holds : rest.includes fromMark = true := (includes_iff _ _).mpr ⟨later, text, behind⟩
          rw [here, holds]
          rfl
        · obtain ⟨absent, _⟩ := (mark_none_iff front rest quote isQuote fromMark (by decide)
            plain_from).mp none
          rw [absent, here]
          exact Bool.and_false _
      · simp [shape.1]
      · rw [same]
        simp
      · rw [same, behind, inner]
        simp

theorem static_literal_here (plain : isPlain front) (here : marksHere front rest = true)
    (specifier after : Text) (closed : cutAt? quote rest = some (specifier, after)) :
    staticLiteral? (front ++ quote :: rest) = some ⟨front ++ [quote], specifier, quote :: after⟩ := by
  have found (mark left gap : Text) (some' : mark ≠ []) (unquoted : isPlain mark)
      (cut : cut? front mark = some (left, gap)) (blank : gap.all isBlank = true)
      (kind : mark = fromMark ∨ mark = importMark ∧ cut? (front ++ quote :: rest) fromMark = none) :
      staticLiteral? (front ++ quote :: rest) =
        some ⟨front ++ [quote], specifier, quote :: after⟩ := by
    have whole := cut?_eq cut
    have behind := cut_mark front rest quote isQuote mark some' unquoted
    rw [cut] at behind
    have read : literal? (gap ++ quote :: rest) = some ⟨gap ++ [quote], specifier, quote :: after⟩ := by
      rw [literal_over gap rest quote isQuote, if_pos blank, closed]
      · rfl
      · intro c member
        apply plain
        rw [whole]
        exact List.mem_append_right _ member
    refine (static_some _ _).mpr ⟨mark, left, _, _, kind, behind, read, ?_⟩
    rw [whole]
    simp
  unfold marksHere at here
  cases origin : cut? front fromMark with
  | some pair =>
      rw [origin] at here
      exact found fromMark pair.1 pair.2 (by decide) plain_from origin here (.inl rfl)
  | none =>
      rw [origin] at here
      simp only [Bool.and_eq_true, Bool.not_eq_true', Option.any_eq_true] at here
      obtain ⟨later, ⟨left, gap⟩, keyword, blank⟩ := here
      have absent := (mark_none_iff front rest quote isQuote fromMark (by decide) plain_from).mpr
        ⟨origin, later⟩
      exact found importMark left gap (by decide) plain_import keyword blank (.inr ⟨rfl, absent⟩)

omit isQuote

theorem trim_parts : ∃ blanks : Text, blanks.all isBlank = true ∧ front = blanks ++ trimStart front :=
  ⟨front.takeWhile isBlank, List.all_takeWhile, List.takeWhile_append_dropWhile.symm⟩

theorem from_chars : fromMark = [' ', 'f', 'r', 'o', 'm', ' '] := by decide

-- The mark goes on with a solid character behind its blank, so it cannot begin among
-- the blanks in front of a keyword.
theorem trimmed_from (opens : opensWith "export " front = true) :
    (trimStart front).includes fromMark = front.includes fromMark := by
  obtain ⟨blanks, blank, whole⟩ := trim_parts front
  obtain ⟨tail, keyword⟩ := startsWith_iff.mp opens
  have first : (trimStart front).head? = some 'e' := by
    rw [keyword]
    rfl
  rw [Bool.eq_iff_iff, includes_iff, includes_iff]
  constructor
  · rintro ⟨left, right, same⟩
    refine ⟨blanks ++ left, right, ?_⟩
    rw [whole, same]
    simp
  · rintro ⟨left, right, same⟩
    rw [whole, List.append_assoc] at same
    rcases List.append_eq_append_iff.mp same with ⟨behind, _, rest⟩ | ⟨gap, before, rest⟩
    · exact ⟨behind, right, by rw [rest, List.append_assoc]⟩
    · rw [from_chars] at rest
      match gap, before, rest with
      | [], _, rest =>
          rw [List.nil_append] at rest
          rw [← rest] at first
          cases first
      | [c], _, rest =>
          have tail : trimStart front = 'f' :: _ := (List.cons.inj rest).2.symm
          rw [tail] at first
          cases first
      | c :: d :: gap, before, rest =>
          have solid : 'f' = d := (List.cons.inj (List.cons.inj rest).2).1
          have inside : isBlank 'f' = true := by
            rw [before, ← solid] at blank
            exact List.all_eq_true.mp blank 'f' (by simp)
          exact absurd inside (by decide)

include isQuote

theorem static_over : isStatic (front ++ quote :: rest) =
    (opensWith "import " front ||
      opensWith "export " front && (front.includes fromMark || rest.includes fromMark)) := by
  have starts (word : Text) (plain : isPlain word) :
      (trimStart front ++ quote :: rest).startsWith word = opensWith word front :=
    starts_over _ rest word quote (quote_foreign word quote isQuote plain)
  have origin := includes_over (trimStart front) rest fromMark quote (by decide)
    (quote_foreign fromMark quote isQuote plain_from)
  have quoted : (trimStart front ++ quote :: rest).any isLiteralQuote = true := by
    simp [isQuote]
  unfold isStatic isStaticImport isReexport
  rw [trim_over front rest quote (quote_not_blank quote isQuote)]
  dsimp only
  rw [starts "import " (plain_of _ (by decide)), starts "export " (plain_of _ (by decide)), quoted,
    Bool.or_true, Bool.and_true]
  change (_ || opensWith "export " front && (trimStart front ++ quote :: rest).includes fromMark) = _
  rw [origin]
  cases opens : opensWith "export " front with
  | false => rfl
  | true => rw [trimmed_from front opens]

theorem leads_static :
    leadsTo front rest = (marksHere front rest && isStatic (front ++ quote :: rest)) := by
  rw [static_over front rest quote isQuote, leadsTo]
  cases marked : marksHere front rest with
  | false => rfl
  | true =>
      cases origin : front.includes fromMark with
      | true => simp
      | false =>
          have absent : cut? front fromMark = none := Option.not_isSome_iff_eq_none.mp (by
            rw [← includes, origin]
            exact Bool.false_ne_true)
          unfold marksHere at marked
          rw [absent] at marked
          simp only [Bool.and_eq_true, Bool.not_eq_true'] at marked
          rw [marked.1]
          rfl

theorem routed_first (plain : isPlain front) (flat : '(' ∉ front) (specifier after : Text)
    (closed : cutAt? quote rest = some (specifier, after)) :
    (leadsTo front rest = true ∧
      routedLine (front ++ quote :: rest) = front ++ quote :: (routed specifier ++ quote :: after)) ∨
    leadsTo front rest = false ∧ ∃ other, routedLine (front ++ quote :: rest) = front ++ quote :: other ∧
      other.head? = rest.head? := by
  rw [leads_static front rest quote isQuote]
  cases static : isStatic (front ++ quote :: rest) with
  | false =>
      refine .inr ⟨Bool.and_false _, render routed (calls (some quote) rest), ?_,
        first_char_calls _ rest⟩
      unfold routedLine
      rw [dynamic_pieces _ static]
      exact calls_over none front rest quote isQuote flat
  | true =>
      rw [Bool.and_true, routed_static _ static]
      cases found : staticLiteral? (front ++ quote :: rest) with
      | none =>
          cases marked : marksHere front rest with
          | true =>
              rw [static_literal_here front rest quote isQuote plain marked specifier after closed] at found
              cases found
          | false => exact .inr ⟨rfl, rest, rfl, rfl⟩
      | some literal =>
          rcases static_literal_cases front rest quote isQuote plain literal found with
            ⟨here, specifier', after', closed', rfl⟩ | ⟨other, more, some', lead, behind⟩
          · cases closed.symm.trans closed'
            refine .inl ⟨here, ?_⟩
            simp
          · refine .inr ⟨other, more ++ routed literal.specifier ++ literal.rest, ?_, ?_⟩
            · dsimp only
              rw [lead]
              simp
            · rw [behind, List.append_assoc, List.append_assoc, List.head?_append, List.head?_append]
              cases more with
              | nil => exact absurd rfl some'
              | cons c more => rfl

theorem routed_first_iff (plain : isPlain front) (flat : '(' ∉ front) (specifier after : Text)
    (closed : quote ∉ specifier) (bare : isBare specifier = true) :
    routedLine (front ++ quote :: (specifier ++ quote :: after)) =
        front ++ quote :: (modulesRoute ++ specifier ++ quote :: after) ↔
      leadsTo front (specifier ++ quote :: after) = true := by
  have cut : cutAt? quote (specifier ++ quote :: after) = some (specifier, after) :=
    (cut_at_some quote _ specifier after).mpr ⟨rfl, closed⟩
  rcases routed_first front _ quote isQuote plain flat specifier after cut with
    ⟨leads, same⟩ | ⟨misses, other, same, first⟩
  · rw [same, routed_bare specifier bare]
    exact ⟨fun _ => leads, fun _ => rfl⟩
  · rw [same, misses]
    constructor
    · intro equal
      have tail := (List.cons.inj (List.append_cancel_left equal)).2
      rw [tail, route_chars] at first
      cases specifier with
      | nil => simp [isBare] at bare
      | cons c rest =>
          have slash : c = '/' := (Option.some.inj first).symm
          subst slash
          simp [isBare, startsWith, after?] at bare
    · intro wrong
      cases wrong

end Statements

end DevServer.Specifier
