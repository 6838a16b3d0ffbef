import DevServer.Proofs.Lines
import DevServer.Specifier

set_option autoImplicit false

namespace DevServer.Specifier

open Text

theorem route_chars : modulesRoute = ['/', '@', 'm', 'o', 'd', 'u', 'l', 'e', 's', '/'] := by
  decide

def routed (specifier : Text) : Text := (bareUrl? specifier).getD specifier

theorem routed_bare (specifier : Text) (bare : isBare specifier = true) :
    routed specifier = modulesRoute ++ specifier := by
  unfold routed bareUrl?
  rw [if_pos bare]
  rfl

theorem routed_other (specifier : Text) (other : isBare specifier = false) :
    routed specifier = specifier := by
  unfold routed bareUrl?
  rw [other]
  rfl

theorem routed_not_bare (specifier : Text) : isBare (routed specifier) = false := by
  cases bare : isBare specifier with
  | false => exact (congrArg isBare (routed_other specifier bare)).trans bare
  | true =>
      rw [routed_bare specifier bare]
      simp [isBare, route_chars, startsWith, after?]

theorem routed_routed (specifier : Text) : routed (routed specifier) = routed specifier :=
  routed_other _ (routed_not_bare specifier)

theorem quote_not_blank (quote : Char) (isQuote : isLiteralQuote quote = true) :
    isBlank quote = false := by
  simp only [isLiteralQuote, Bool.or_eq_true, beq_iff_eq] at isQuote
  rcases isQuote with rfl | rfl <;> decide

theorem literal_some (text : Text) (literal : Literal) :
    literal? text = some literal ↔ ∃ blanks quote rest,
      blanks.all isBlank = true ∧ isLiteralQuote quote = true ∧ quote ∉ literal.specifier ∧
      text = blanks ++ quote :: (literal.specifier ++ quote :: rest) ∧
      literal.lead = blanks ++ [quote] ∧ literal.rest = quote :: rest := by
  constructor
  · intro found
    have whole := List.takeWhile_append_dropWhile (p := isBlank) (l := text)
    have blanks : (text.takeWhile isBlank).all isBlank = true := List.all_takeWhile
    unfold literal? at found
    change (match text.dropWhile isBlank with | [] => _ | _ :: _ => _) = _ at found
    cases opened : text.dropWhile isBlank with
    | nil => simp [opened] at found
    | cons quote inner =>
        by_cases isQuote : isLiteralQuote quote = true
        · simp only [opened, if_pos isQuote, Option.map_eq_some_iff, Prod.exists] at found
          obtain ⟨specifier, rest, cut, same⟩ := found
          obtain ⟨closed, absent⟩ := (cut_at_some quote inner specifier rest).mp cut
          subst same
          rw [opened, closed] at whole
          exact ⟨_, quote, rest, blanks, isQuote, absent, whole.symm, rfl, rfl⟩
        · simp [opened, isQuote] at found
  · rcases literal with ⟨lead, specifier, tail⟩
    rintro ⟨blanks, quote, rest, allBlank, isQuote, absent, whole, same, closed⟩
    have stop := quote_not_blank quote isQuote
    have cut := (cut_at_some quote _ specifier rest).mpr ⟨rfl, absent⟩
    dsimp only at whole same closed
    subst whole same closed
    unfold literal?
    change (match (_ : Text).dropWhile isBlank with | [] => _ | _ :: _ => _) = _
    rw [drop_while_stop isBlank blanks quote _ allBlank stop]
    simp only [if_pos isQuote, cut, Option.map_some, take_while_stop isBlank blanks quote _ allBlank stop]

-- `b` is `a` with the route put directly behind some of its quotes.
inductive Routed : Text → Text → Prop where
  | nil : Routed [] []
  | keep (c : Char) {a b : Text} : Routed a b → Routed (c :: a) (c :: b)
  | route (quote : Char) {a b : Text} : isLiteralQuote quote = true → Routed a b →
      Routed (quote :: a) (quote :: (modulesRoute ++ b))

theorem Routed.refl (text : Text) : Routed text text := by
  induction text with
  | nil => exact .nil
  | cons c text ih => exact .keep c ih

theorem Routed.append {a b c d : Text} (first : Routed a b) (second : Routed c d) :
    Routed (a ++ c) (b ++ d) := by
  induction first with
  | nil => exact second
  | keep x _ ih => exact .keep x ih
  | route quote isQuote _ ih =>
      rw [List.cons_append, List.cons_append, List.append_assoc]
      exact .route quote isQuote ih

def isPlain (mark : Text) : Prop := ∀ c ∈ mark, isLiteralQuote c = false

theorem after_routed {a b mark : Text} (routed : Routed a b) (plain : isPlain mark) :
    (after? a mark = none ∧ after? b mark = none) ∨
      ∃ left right, after? a mark = some left ∧ after? b mark = some right ∧ Routed left right := by
  induction mark generalizing a b with
  | nil => exact .inr ⟨a, b, by simp [after?], by simp [after?], routed⟩
  | cons d mark ih =>
      have rest : isPlain mark := fun c member => plain c (List.mem_cons_of_mem d member)
      cases routed with
      | nil => exact .inl ⟨rfl, rfl⟩
      | keep c routed =>
          by_cases same : c = d
          · simpa only [after?, if_pos same] using ih routed rest
          · exact .inl ⟨if_neg same, if_neg same⟩
      | route quote isQuote routed =>
          have other : ¬ quote = d := by
            rintro rfl
            rw [plain quote List.mem_cons_self] at isQuote
            cases isQuote
          exact .inl ⟨if_neg other, if_neg other⟩

-- The route starts no mark, so a mark found in a routed text was there before.
def isUnrouted (mark : Text) : Prop :=
  ∃ c rest, mark = c :: rest ∧ isPlain mark ∧ c ∉ modulesRoute

theorem after_inside_route (mark text : Text) (unrouted : isUnrouted mark) (n : Nat)
    (inside : n < modulesRoute.length) : after? (modulesRoute.drop n ++ text) mark = none := by
  obtain ⟨c, rest, rfl, _, absent⟩ := unrouted
  cases dropped : modulesRoute.drop n with
  | nil => simp only [List.drop_eq_nil_iff] at dropped; omega
  | cons d tail =>
      have member : d ∈ modulesRoute := List.mem_of_mem_drop (dropped ▸ List.mem_cons_self)
      have differs : ¬ d = c := by
        rintro rfl
        exact absent member
      exact if_neg differs

theorem cut_behind_route (mark text : Text) (unrouted : isUnrouted mark) :
    cut? (modulesRoute ++ text) mark =
      (cut? text mark).map fun (left, right) => (modulesRoute ++ left, right) := by
  -- By induction on how much of the route is still to be passed.
  have skip (n : Nat) (bound : n ≤ modulesRoute.length) :
      cut? (modulesRoute.drop (modulesRoute.length - n) ++ text) mark =
        (cut? text mark).map fun (left, right) =>
          (modulesRoute.drop (modulesRoute.length - n) ++ left, right) := by
    induction n with
    | zero => simp
    | succ n ih =>
        have miss := after_inside_route mark text unrouted (modulesRoute.length - (n + 1)) (by omega)
        have next : modulesRoute.length - (n + 1) + 1 = modulesRoute.length - n := by omega
        rw [List.drop_eq_getElem_cons (by omega), List.cons_append, next] at miss ⊢
        rw [cut?, miss, ih (by omega), Option.map_map]
        rfl
  simpa using skip modulesRoute.length (Nat.le_refl _)

section Routing

variable {a b : Text}

theorem cut_routed (mark : Text) (unrouted : isUnrouted mark) (routed : Routed a b) :
    (cut? a mark).isSome = (cut? b mark).isSome := by
  have plain : isPlain mark := by
    obtain ⟨c, rest, _, plain, _⟩ := unrouted
    exact plain
  induction routed with
  | nil => rfl
  | keep c routed ih =>
      rcases after_routed (routed.keep c) plain with ⟨left, right⟩ | ⟨_, _, left, right, _⟩
      · rw [cut?, cut?, left, right]
        simpa using ih
      · rw [cut?, cut?, left, right]
        rfl
  | route quote isQuote routed ih =>
      rcases after_routed (routed.route quote isQuote) plain with
        ⟨left, right⟩ | ⟨_, _, left, right, _⟩
      · rw [cut?, cut?, left, right]
        simpa [cut_behind_route mark _ unrouted] using ih
      · rw [cut?, cut?, left, right]
        rfl

theorem cut_before_routed (mark left right other : Text) (plain : isPlain mark)
    (found : cut? a mark = some (left, right)) (routed : Routed right other) :
    cut? (left ++ mark ++ other) mark = some (left, other) := by
  induction left generalizing a with
  | nil =>
      have here : after? (mark ++ other) mark = some other := after?_append mark other
      cases whole : mark ++ other with
      | nil =>
          rw [List.append_eq_nil_iff] at whole
          simp [whole, cut?]
      | cons c rest =>
          rw [whole] at here
          rw [List.nil_append, whole, cut?, here]
  | cons c left ih =>
      have parts := cut?_eq found
      cases a with
      | nil => simp at parts
      | cons d a =>
          rw [cut?] at found
          cases miss : after? (d :: a) mark with
          | some rest => simp [miss] at found
          | none =>
              simp only [miss, Option.map_eq_some_iff, Prod.exists, Prod.mk.injEq,
                List.cons.injEq] at found
              obtain ⟨l, r, found, ⟨rfl, rfl⟩, rfl⟩ := found
              have whole : Routed (d :: a) (d :: (l ++ mark ++ other)) := by
                rw [cut?_eq found]
                exact ((Routed.refl _).append routed).keep d
              have still : after? (d :: (l ++ mark ++ other)) mark = none := by
                rcases after_routed whole plain with ⟨_, none⟩ | ⟨_, _, some, _⟩
                · exact none
                · rw [miss] at some
                  cases some
              rw [List.cons_append, List.cons_append, cut?, still, ih found]
              rfl

theorem trim_start_routed (routed : Routed a b) :
    Routed (trimStart a) (trimStart b) := by
  change Routed (a.dropWhile isBlank) (b.dropWhile isBlank)
  induction routed with
  | nil => exact .nil
  | keep c routed ih =>
      by_cases blank : isBlank c = true
      · simpa [List.dropWhile_cons, blank] using ih
      · simpa [List.dropWhile_cons, blank] using routed.keep c
  | route quote isQuote routed ih =>
      have stop := quote_not_blank quote isQuote
      simpa [List.dropWhile_cons, stop] using routed.route quote isQuote

theorem any_quote_routed (routed : Routed a b) :
    a.any isLiteralQuote = b.any isLiteralQuote := by
  induction routed with
  | nil => rfl
  | keep c _ ih => rw [List.any_cons, List.any_cons, ih]
  | route quote isQuote _ _ => simp [isQuote]

theorem route_unquoted (quote : Char) (isQuote : isLiteralQuote quote = true) :
    quote ∉ modulesRoute := by
  simp only [isLiteralQuote, Bool.or_eq_true, beq_iff_eq] at isQuote
  rcases isQuote with rfl | rfl <;> decide

theorem mem_quote_routed (quote : Char) (isQuote : isLiteralQuote quote = true)
    (routed : Routed a b) : quote ∈ a ↔ quote ∈ b := by
  have absent := route_unquoted quote isQuote
  induction routed with
  | nil => rfl
  | keep c _ ih => simp [ih]
  | route other _ _ ih => simp [ih, absent]

theorem starts_routed (mark : Text) (plain : isPlain mark) (routed : Routed a b) :
    a.startsWith mark = b.startsWith mark := by
  unfold startsWith
  rcases after_routed routed plain with ⟨left, right⟩ | ⟨_, _, left, right, _⟩
  · rw [left, right]
  · rw [left, right]
    rfl

end Routing

theorem plain_of (mark : Text) (check : mark.all (fun c => !isLiteralQuote c) = true) :
    isPlain mark := by
  intro c member
  have clear := List.all_eq_true.mp check c member
  simpa using clear

theorem unrouted_from : isUnrouted " from " :=
  ⟨' ', _, rfl, plain_of _ (by decide), by decide⟩

theorem static_routed {a b : Text} (routed : Routed a b) : isStatic a = isStatic b := by
  have trimmed := trim_start_routed routed
  have keyword := starts_routed "import " (plain_of _ (by decide)) trimmed
  have reexport := starts_routed "export " (plain_of _ (by decide)) trimmed
  have origin := cut_routed " from " unrouted_from trimmed
  have quotes := any_quote_routed trimmed
  unfold isStatic isStaticImport isReexport includes
  simp only [keyword, reexport, origin, quotes]

theorem literal_none (text : Text) :
    literal? text = none ↔ ∀ quote inner, trimStart text = quote :: inner →
      isLiteralQuote quote = true → quote ∉ inner := by
  unfold literal?
  cases trimStart text with
  | nil => simp
  | cons c rest =>
      by_cases isQuote : isLiteralQuote c = true
      · simp only [if_pos isQuote, Option.map_eq_none_iff, cut_at_none, List.cons.injEq]
        constructor
        · rintro absent quote inner ⟨rfl, rfl⟩ _
          exact absent
        · intro absent
          exact absent c rest ⟨rfl, rfl⟩ isQuote
      · simp only [if_neg isQuote, List.cons.injEq, true_iff]
        rintro quote inner ⟨rfl, rfl⟩ opens
        exact absurd opens isQuote

theorem literal_none_routed {a b : Text} (routed : Routed a b) (miss : literal? a = none) :
    literal? b = none := by
  have trimmed := trim_start_routed routed
  rw [literal_none] at miss ⊢
  intro quote inner opened isQuote
  rw [opened] at trimmed
  generalize trimStart a = left at trimmed miss
  cases trimmed with
  | keep c routed =>
      rw [← mem_quote_routed quote isQuote routed]
      exact miss quote _ rfl isQuote
  | route _ _ routed =>
      have absent := mt (mem_quote_routed quote isQuote routed).mpr (miss quote _ rfl isQuote)
      have outside := route_unquoted quote isQuote
      simp [absent, outside]

theorem literal_routed (text other : Text) (literal : Literal)
    (found : literal? text = some literal) (after : Routed literal.rest other) :
    literal? (literal.lead ++ routed literal.specifier ++ other) =
        some ⟨literal.lead, routed literal.specifier, other⟩ ∧
      Routed text (literal.lead ++ routed literal.specifier ++ other) := by
  obtain ⟨blanks, quote, rest, allBlank, isQuote, absent, whole, lead, tail⟩ :=
    (literal_some text literal).mp found
  rw [tail] at after
  obtain ⟨next, closed⟩ : ∃ next, other = quote :: next := by
    cases after with
    | keep _ _ => exact ⟨_, rfl⟩
    | route _ _ _ => exact ⟨_, rfl⟩
  have shape : literal.lead ++ routed literal.specifier ++ other =
      blanks ++ quote :: (routed literal.specifier ++ other) := by
    rw [lead]
    simp
  have outside := route_unquoted quote isQuote
  cases bare : isBare literal.specifier with
  | false =>
      have same := routed_other literal.specifier bare
      rw [shape, same]
      refine ⟨(literal_some _ _).mpr ⟨blanks, quote, next, allBlank, isQuote, absent, ?_, lead, closed⟩, ?_⟩
      · rw [closed]
      · rw [whole]
        exact (Routed.refl blanks).append (((Routed.refl literal.specifier).append after).keep quote)
  | true =>
      have prefixed := routed_bare literal.specifier bare
      rw [shape, prefixed]
      refine ⟨(literal_some _ _).mpr ⟨blanks, quote, next, allBlank, isQuote, ?_, ?_, lead, closed⟩, ?_⟩
      · simp [outside, absent]
      · rw [closed]
      · rw [whole, List.append_assoc]
        exact (Routed.refl blanks).append
          (((Routed.refl literal.specifier).append after).route quote isQuote)

theorem literal_whole (text : Text) (literal : Literal) (found : literal? text = some literal) :
    text = literal.lead ++ literal.specifier ++ literal.rest := by
  obtain ⟨blanks, quote, rest, _, _, _, whole, lead, tail⟩ := (literal_some text literal).mp found
  rw [whole, lead, tail]
  simp

end DevServer.Specifier
