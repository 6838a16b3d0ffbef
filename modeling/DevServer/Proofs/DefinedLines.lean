import Mathlib.Data.List.TakeWhile
import DevServer.Proofs.Exports

set_option autoImplicit false

namespace DevServer.CommonJs

open Text

section Readers

theorem mark_local (mark text rest : Text) (solid : mark.head?.any (fun c => !isSpace c) = true)
    (found : (spaces text).after? mark = some rest) :
    ∃ used, text = used ++ rest ∧ ∀ more, (spaces (used ++ more)).after? mark = some more := by
  obtain ⟨gap, whole, blank⟩ := space_parts text
  rw [after?_eq_some.mp found] at whole
  refine ⟨gap ++ mark, by rw [whole, List.append_assoc], fun more => ?_⟩
  cases mark with
  | nil => cases solid
  | cons c mark =>
      have stops := drop_while_stop isSpace gap c (mark ++ more) blank (by simpa using solid)
      rw [List.append_assoc, List.cons_append, spaces, stops]
      exact after?_append (c :: mark) more

theorem quote_local (text rest : Text) (quote : Char) (found : char? isPlainQuote (spaces text) = some (quote, rest)) :
    ∃ used, text = used ++ rest ∧ ∀ more, char? isPlainQuote (spaces (used ++ more)) = some (quote, more) := by
  obtain ⟨gap, whole, blank⟩ := space_parts text
  obtain ⟨begun, quotes⟩ := char_some _ _ found
  have solid := plain_quote_misses isSpace rfl rfl quote quotes
  rw [begun] at whole
  refine ⟨gap ++ [quote], by simp [whole], fun more => ?_⟩
  have stops := drop_while_stop isSpace gap quote more blank solid
  simp [spaces, stops, char?, quotes]

theorem name_local (text name rest more' : Text) (quote : Char) (run : run? isIdentPart text = some (name, rest))
    (found : char? isPlainQuote rest = some (quote, more')) :
    text = name ++ quote :: more' ∧
      ∀ more, run? isIdentPart (name ++ quote :: more) = some (name, quote :: more) := by
  obtain ⟨rfl, some', inside⟩ := run_some isIdentPart name run
  obtain ⟨rfl, quotes⟩ := char_some _ _ found
  have ends := plain_quote_misses isIdentPart rfl rfl quote quotes
  refine ⟨rfl, fun more => ?_⟩
  simp [run?, take_while_stop _ name quote more inside ends, drop_while_stop _ name quote more inside ends, some']

theorem head_local (text name rest : Text) (found : propertyHead? text = some (name, rest)) :
    ∃ head, text = head ++ rest ∧ ∀ more, propertyHead? (head ++ more) = some (name, more) := by
  obtain ⟨t1, t2, t3, q1, t4, t5, q2, t6, t7, defines, exports, comma, opened, named, closed, again, brace⟩ :=
    head_parts text name rest found
  obtain ⟨u5, rfl, r5⟩ := mark_local "\x7b" t7 rest (by decide) brace
  obtain ⟨u4, rfl, r4⟩ := mark_local "," t6 _ (by decide) again
  obtain ⟨rfl, r3⟩ := name_local t4 name t5 _ q2 named closed
  obtain ⟨u2, rfl, r2⟩ := quote_local t3 _ q1 opened
  obtain ⟨u1, rfl, r1⟩ := mark_local "," t2 _ (by decide) comma
  obtain ⟨u0, rfl, r0⟩ := mark_local "exports" t1 _ (by decide) exports
  obtain ⟨_, quotes⟩ := char_some _ _ closed
  refine ⟨"Object.defineProperty(" ++ (u0 ++ (u1 ++ (u2 ++ (name ++ q2 :: (u4 ++ u5))))), ?_, fun more => ?_⟩
  · rw [after?_eq_some.mp defines]
    simp
  · have last : char? isPlainQuote (q2 :: (u4 ++ (u5 ++ more))) = some (q2, u4 ++ (u5 ++ more)) := if_pos quotes
    simp only [propertyHead?, List.append_assoc, List.cons_append, after?_append, Option.bind_eq_bind,
      Option.bind_some, r0, r1, r2, r3, last, r4, r5]

theorem head_clear (head rest name : Text) (found : propertyHead? (head ++ rest) = some (name, rest)) :
    '}' ∉ head := by
  obtain ⟨_, comma, ⟨used, whole, clean⟩, brace⟩ := head_some _ name rest found
  obtain ⟨gap, spaced, blank⟩ := space_parts comma
  rw [brace] at spaced
  have longer : head ++ rest = used ++ ',' :: (gap ++ ['{']) ++ rest := by
    rw [whole, spaced]
    simp
  have spelled : head = used ++ ',' :: (gap ++ ['{']) := List.append_cancel_right longer
  have first : '}' ∉ used := fun member => absurd (List.all_eq_true.mp clean _ member) (by decide)
  have second : '}' ∉ gap := fun member => absurd (List.all_eq_true.mp blank _ member) (by decide)
  simp [spelled, first, second]

theorem tail_read (inner gap close value : Text) (inside : '}' ∉ inner) (blank : gap.all isSpace = true)
    (valued : valueOf? inner = some value) :
    propertyTail? (inner ++ '}' :: (gap ++ ')' :: close)) = some (value, skipEnd close) := by
  obtain ⟨until', behind⟩ := until_stop '}' inner (gap ++ ')' :: close) inside
  have closes := drop_while_stop isSpace gap ')' close blank (by decide)
  simp only [ne_eq, decide_not] at until' behind
  simp [propertyTail?, until', behind, valued, char?, spaces, closes, after?]

theorem property_local (before : Option Char) (text left : Text) (property : Property)
    (found : propertyMatcher before text = some (property, left)) :
    ∃ front gap close, text = front ++ '}' :: (gap ++ ')' :: close) ∧ '}' ∉ front ∧ gap.all isSpace = true ∧
      left = skipEnd close ∧ ∀ before more,
        propertyMatcher before (front ++ '}' :: (gap ++ ')' :: more)) = some (property, skipEnd more) := by
  rw [property_parts] at found
  simp only [Option.bind_eq_some_iff, Option.map_eq_some_iff, Prod.exists, Prod.mk.injEq] at found
  obtain ⟨name, body, headed, value, rest, tailed, rfl, rfl⟩ := found
  obtain ⟨head, rfl, again⟩ := head_local text name body headed
  obtain ⟨inner, after, close, rfl, inside, valued, closes, rfl⟩ := tail_some body value _ tailed
  obtain ⟨gap, spaced, blank⟩ := space_parts after
  rw [closes] at spaced
  refine ⟨head ++ inner, gap, close, by simp [spaced], ?_, blank, rfl, fun before more => ?_⟩
  · rw [List.mem_append, not_or]
    exact ⟨head_clear head _ name headed, inside⟩
  · have read := tail_read inner gap more value inside blank valued
    simp only [property_parts, List.append_assoc, again, Option.bind_some, read, Option.map_some]

end Readers

section Ends

theorem skip_end_iff (text left : Text) : skipEnd text = left ↔ ∃ gap : Text, gap.all isSpace = true ∧
    (text = gap ++ ';' :: left ∨ text = gap ++ left ∧ left.head?.all (fun c => !isSpace c && c != ';') = true) := by
  constructor
  · intro same
    obtain ⟨gap, whole, blank⟩ := space_parts text
    refine ⟨gap, blank, ?_⟩
    unfold skipEnd at same
    split at same
    · rename_i rest found
      subst same
      exact .inl (by rw [found] at whole; exact whole)
    · rename_i other
      subst same
      refine .inr ⟨whole, ?_⟩
      cases behind : spaces text with
      | nil => rfl
      | cons c rest =>
          have stops := List.head?_dropWhile_not isSpace text
          rw [show text.dropWhile isSpace = c :: rest from behind] at stops
          have unended : c ≠ ';' := by
            rintro rfl
            exact other rest behind
          simpa [unended] using stops
  · rintro ⟨gap, blank, rfl | ⟨rfl, stops⟩⟩
    · simp [skipEnd, spaces, drop_while_stop isSpace gap ';' left blank (by decide)]
    · cases left with
      | nil =>
          have none' : spaces gap = [] := by
            rw [spaces, List.dropWhile_eq_nil_iff]
            exact List.all_eq_true.mp blank
          simp [skipEnd, none']
      | cons c left =>
          simp only [List.head?_cons, Option.all_some, Bool.and_eq_true, Bool.not_eq_true', bne_iff_ne] at stops
          unfold skipEnd
          rw [spaces, drop_while_stop isSpace gap c left blank stops.1]
          split
          · rename_i same
            exact absurd (List.cons.inj same).1 stops.2
          · rfl

theorem skip_closed (trail more : Text) (blank : trail.all isSpace = true) :
    skipEnd (trail ++ ';' :: more) = more := (skip_end_iff _ _).mpr ⟨trail, blank, .inl rfl⟩

theorem skip_end_line (stop front rest : Text)
    (same : skipEnd (stop ++ (front ++ '\n' :: rest)) = front ++ '\n' :: rest) : skipEnd (stop ++ front) = front := by
  obtain ⟨gap, blank, whole | ⟨whole, stops⟩⟩ := (skip_end_iff _ _).mp same
  · have taken : stop = gap ++ [';'] := List.append_cancel_right (by simpa using whole)
    exact (skip_end_iff _ _).mpr ⟨gap, blank, .inl (by simp [taken])⟩
  · have taken : stop = gap := List.append_cancel_right whole
    refine (skip_end_iff _ _).mpr ⟨gap, blank, .inr ⟨by rw [taken], ?_⟩⟩
    cases front with
    | nil => rfl
    | cons c front => exact stops

end Ends

section Lines

def definedFrom (before : Option Char) (text : Text) : Text :=
  render Property.declaration (scanFrom propertyMatcher 0 before text)

theorem defined_kept (before : Option Char) (c : Char) (rest : Text)
    (miss : propertyMatcher before (c :: rest) = none) :
    definedFrom before (c :: rest) = c :: definedFrom (some c) rest := by
  unfold definedFrom
  rw [scan_kept before c rest miss]
  rfl

theorem defined_found (before : Option Char) (used left : Text) (property : Property) (some' : used ≠ [])
    (hit : propertyMatcher before (used ++ left) = some (property, left)) :
    definedFrom before (used ++ left) = property.declaration ++ definedFrom used.getLast? left := by
  unfold definedFrom
  rw [scan_found before used left property some' hit]
  rfl

theorem defined_before (before : Option Char) (text : Text) : definedFrom before text = definedFrom none text := by
  cases text <;> rfl

theorem defined_front (before : Option Char) (front rest : Text) (absent : 'O' ∉ front) :
    definedFrom before (front ++ rest) = front ++ definedFrom none rest := by
  induction front generalizing before with
  | nil => exact defined_before before rest
  | cons c front ih =>
      rw [List.mem_cons, not_or] at absent
      have miss : propertyMatcher before (c :: (front ++ rest)) = none := by
        cases hit : propertyMatcher before (c :: (front ++ rest)) with
        | none => rfl
        | some found =>
            obtain ⟨_, _, _, _, whole, ⟨more, rfl⟩, _⟩ := property_some before _ found.2 found.1 hit
            exact absurd (List.cons.inj whole).1.symm absent.1
      rw [List.cons_append, defined_kept before c _ miss, ih _ absent.2]
      rfl

theorem property_starts (before : Option Char) (text left : Text) (property : Property)
    (found : propertyMatcher before text = some (property, left)) :
    ∃ rest, text = "Object.defineProperty(" ++ rest := by
  simp only [propertyMatcher, Option.bind_eq_bind, Option.bind_eq_some_iff] at found
  obtain ⟨rest, starts, _⟩ := found
  exact ⟨rest, after?_eq_some.mp starts⟩

theorem defined_unmarked (before : Option Char) (front more : Text) (stops : more.head?.all (· == '\n') = true)
    (absent : ¬ "Object.defineProperty(".toList <:+: front) :
    definedFrom before (front ++ more) = front ++ definedFrom none more := by
  induction front generalizing before with
  | nil => exact defined_before before more
  | cons c front ih =>
      have miss : propertyMatcher before (c :: (front ++ more)) = none := by
        cases hit : propertyMatcher before (c :: (front ++ more)) with
        | none => rfl
        | some found =>
            obtain ⟨rest, whole⟩ := property_starts before _ found.2 found.1 hit
            rw [← List.cons_append] at whole
            obtain ⟨gap, mark, same⟩ | ⟨gap, inside, _⟩ := List.append_eq_append_iff.mp whole
            · cases gap with
              | nil =>
                  rw [List.append_nil] at mark
                  exact absurd ⟨[], [], by rw [List.append_nil]; exact mark⟩ absent
              | cons d gap =>
                  rw [same] at stops
                  have feed : d = '\n' := by simpa using stops
                  have member : '\n' ∈ "Object.defineProperty(".toList := by
                    rw [mark, feed]
                    simp
                  exact absurd member (by decide)
            · exact absurd (by rw [inside]; exact (List.prefix_append _ gap).isInfix) absent
      rw [List.cons_append, defined_kept before c _ miss,
        ih _ fun inside => absent (inside.trans (List.suffix_cons c front).isInfix)]
      rfl

theorem defined_unclosed (before : Option Char) (front more : Text) (absent : '}' ∉ front)
    (open' : ∀ close, spaces more ≠ ')' :: close) :
    definedFrom before (front ++ '}' :: more) = front ++ '}' :: definedFrom none more := by
  have unmatched (front : Text) (absent : '}' ∉ front) (before : Option Char) :
      propertyMatcher before (front ++ '}' :: more) = none := by
    cases hit : propertyMatcher before (front ++ '}' :: more) with
    | none => rfl
    | some found =>
        obtain ⟨head, inner, gap, stop, whole, _, clean, inside, blank, _⟩ :=
          property_some before _ found.2 found.1 hit
        have here := (cut_at_some '}' _ front more).mpr ⟨rfl, absent⟩
        have there := (cut_at_some '}' _ (head ++ inner) (gap ++ ')' :: (stop ++ found.2))).mpr
          ⟨by simpa using whole, by simp [clean, inside]⟩
        rw [here, Option.some.injEq, Prod.mk.injEq] at there
        refine absurd ?_ (open' (stop ++ found.2))
        rw [there.2, spaces, drop_while_stop isSpace gap ')' _ blank (by decide)]
  induction front generalizing before with
  | nil =>
      rw [List.nil_append, defined_kept before '}' more (unmatched [] absent before), defined_before]
      rfl
  | cons c front ih =>
      have miss : propertyMatcher before (c :: (front ++ '}' :: more)) = none := unmatched (c :: front) absent before
      rw [List.cons_append, defined_kept before c _ miss, ih _ fun member => absent (List.mem_cons_of_mem c member)]
      rfl

theorem property_closed (front gap trail : Text) (absent : '}' ∉ front) (blank : gap.all isSpace = true)
    (clear : trail.all isSpace = true) (before : Option Char) (property : Property) (left more : Text)
    (hit : propertyMatcher before (front ++ '}' :: (gap ++ ')' :: (trail ++ ';' :: more))) = some (property, left)) :
    left = more ∧ ∀ more, propertyMatcher before (front ++ '}' :: (gap ++ ')' :: (trail ++ ';' :: more))) =
      some (property, more) := by
  obtain ⟨head, space, close, whole, clean, spaced, ended, again⟩ := property_local before _ left property hit
  have here := (cut_at_some '}' _ front (gap ++ ')' :: (trail ++ ';' :: more))).mpr ⟨rfl, absent⟩
  have there := (cut_at_some '}' _ head (space ++ ')' :: close)).mpr ⟨whole, clean⟩
  rw [here, Option.some.injEq, Prod.mk.injEq] at there
  obtain ⟨rfl, same⟩ := there
  have first := drop_while_stop isSpace gap ')' (trail ++ ';' :: more) blank (by decide)
  have second := drop_while_stop isSpace space ')' close spaced (by decide)
  rw [same, second, List.cons.injEq] at first
  rw [first.2] at same ended
  have alike := List.append_cancel_right same
  subst alike
  refine ⟨ended.trans (skip_closed trail more clear), fun more => ?_⟩
  rw [again before (trail ++ ';' :: more), skip_closed trail more clear]

theorem defined_closed (before : Option Char) (front gap trail more : Text) (absent : '}' ∉ front)
    (blank : gap.all isSpace = true) (clear : trail.all isSpace = true) :
    definedFrom before (front ++ '}' :: (gap ++ ')' :: (trail ++ ';' :: more))) =
      definedFrom before (front ++ '}' :: (gap ++ ')' :: (trail ++ [';']))) ++ definedFrom none more := by
  have outside (text : Text) (all : text.all isSpace = true) : 'O' ∉ text :=
    fun member => absurd (List.all_eq_true.mp all _ member) (by decide)
  have tail : 'O' ∉ '}' :: (gap ++ ')' :: (trail ++ [';'])) := by simp [outside gap blank, outside trail clear]
  induction front generalizing before with
  | nil =>
      have parted := defined_front before ('}' :: (gap ++ ')' :: (trail ++ [';']))) more tail
      have alone := defined_front before ('}' :: (gap ++ ')' :: (trail ++ [';']))) [] tail
      rw [List.append_nil] at alone
      rw [List.nil_append, List.nil_append, alone]
      simpa [definedFrom, scanFrom, render] using parted
  | cons c front ih =>
      cases hit : propertyMatcher before (c :: front ++ '}' :: (gap ++ ')' :: (trail ++ ';' :: more))) with
      | none =>
          have alone : propertyMatcher before (c :: front ++ '}' :: (gap ++ ')' :: (trail ++ [';']))) = none := by
            cases hit' : propertyMatcher before (c :: front ++ '}' :: (gap ++ ')' :: (trail ++ [';']))) with
            | none => rfl
            | some found =>
                cases hit.symm.trans ((property_closed (c :: front) gap trail absent blank clear before found.1 found.2 [] hit').2 more)
          rw [List.mem_cons, not_or] at absent
          rw [List.cons_append] at hit alone
          rw [List.cons_append, defined_kept before c _ hit, List.cons_append, defined_kept before c _ alone,
            ih (some c) absent.2]
          rfl
      | some found =>
          obtain ⟨ends, again⟩ := property_closed (c :: front) gap trail absent blank clear before found.1 found.2 more hit
          have whole (more : Text) : c :: front ++ '}' :: (gap ++ ')' :: (trail ++ ';' :: more)) =
              c :: front ++ '}' :: (gap ++ ')' :: (trail ++ [';'])) ++ more := by simp
          have here := again more
          have alone := again []
          rw [whole] at here alone
          have found' := defined_found before _ [] found.1 (by simp) alone
          rw [List.append_nil] at found'
          rw [whole more, defined_found before _ more found.1 (by simp) here, found', defined_before]
          simp [definedFrom, scanFrom, render]

theorem declaration_unbroken (before : Option Char) (text left : Text) (property : Property)
    (found : propertyMatcher before text = some (property, left)) : '\n' ∉ property.declaration := by
  obtain ⟨_, inner, _, _, _, _, _, _, _, valued, named⟩ := property_some before text left property found
  obtain ⟨_, _, solid⟩ := value_some inner property.value valued
  have name : '\n' ∉ property.name := fun member => absurd (List.all_eq_true.mp named _ member) (by decide)
  have value : '\n' ∉ property.value := fun member => absurd (solid _ member).1 (by decide)
  rw [declaration_parts]
  simp [name, value]

theorem defined_feeds (before : Option Char) (text : Text) :
    (definedFrom before text).count '\n' ≤ text.count '\n' := by
  induction before, text using scan_induction property_consumes with
  | nil before => exact Nat.le_refl _
  | kept before c rest miss ih =>
      rw [defined_kept before c rest miss, List.count_cons, List.count_cons]
      omega
  | found before used left property nonempty hit ih =>
      rw [defined_found before used left property nonempty hit, List.count_append, List.count_append,
        List.count_eq_zero.mpr (declaration_unbroken before _ left property hit)]
      omega

theorem front_before_feed (used left front rest : Text) (whole : used ++ left = front ++ '\n' :: rest)
    (unbroken : '\n' ∉ used) : ∃ more, front = used ++ more ∧ left = more ++ '\n' :: rest := by
  obtain ⟨gap, rfl, same⟩ | ⟨gap, rfl, same⟩ := List.append_eq_append_iff.mp whole
  · exact ⟨gap, rfl, same⟩
  · cases gap with
    | nil => exact ⟨[], by simp, same.symm⟩
    | cons d gap =>
        rw [← (List.cons.inj same).1] at unbroken
        simp at unbroken

theorem property_none_before (before : Option Char) (front rest : Text)
    (miss : propertyMatcher before (front ++ rest) = none) : propertyMatcher before front = none := by
  cases hit : propertyMatcher before front with
  | none => rfl
  | some found =>
      obtain ⟨head, gap, close, line, _, _, _, again⟩ := property_local before _ found.2 found.1 hit
      have longer : head ++ '}' :: (gap ++ ')' :: (close ++ rest)) = front ++ rest := by
        rw [line]
        simp
      have hit' := again before (close ++ rest)
      rw [longer, miss] at hit'
      cases hit'

theorem property_on_line (before : Option Char) (used more rest : Text) (property : Property)
    (hit : propertyMatcher before (used ++ (more ++ '\n' :: rest)) = some (property, more ++ '\n' :: rest)) :
    propertyMatcher before (used ++ more) = some (property, more) := by
  obtain ⟨head, gap, close, line, _, _, ended, again⟩ := property_local before _ _ property hit
  obtain ⟨stop, stopped⟩ := skip_end_suffix close
  rw [← ended] at stopped
  have longer : used ++ (more ++ '\n' :: rest) =
      head ++ '}' :: (gap ++ ')' :: stop) ++ (more ++ '\n' :: rest) := by
    rw [line, ← stopped]
    simp
  have spelled : used = head ++ '}' :: (gap ++ ')' :: stop) := List.append_cancel_right longer
  have shorter : used ++ more = head ++ '}' :: (gap ++ ')' :: (stop ++ more)) := by
    rw [spelled]
    simp
  rw [shorter, again before (stop ++ more), skip_end_line stop more rest]
  rw [stopped, ← ended]

-- A pass that takes no line feed edits a line as if it were all of the text.
theorem defined_line (before : Option Char) (text front rest : Text) (whole : text = front ++ '\n' :: rest)
    (unbroken : '\n' ∉ front) (kept : (definedFrom before text).count '\n' = text.count '\n') :
    definedFrom before text = definedFrom before front ++ '\n' :: definedFrom (some '\n') rest ∧
      (definedFrom (some '\n') rest).count '\n' = rest.count '\n' := by
  induction before, text using scan_induction property_consumes generalizing front with
  | nil before => cases front <;> cases whole
  | kept before c text miss ih =>
      rw [defined_kept before c text miss] at kept ⊢
      rw [List.count_cons, List.count_cons] at kept
      cases front with
      | nil =>
          obtain ⟨rfl, rfl⟩ := List.cons.inj whole
          exact ⟨rfl, by omega⟩
      | cons d front =>
          obtain ⟨rfl, rfl⟩ := List.cons.inj whole
          rw [List.mem_cons, not_or] at unbroken
          obtain ⟨same, later⟩ := ih front rfl unbroken.2 (by omega)
          have miss' := property_none_before before (c :: front) ('\n' :: rest) miss
          rw [defined_kept before c front miss', same]
          exact ⟨rfl, later⟩
  | found before used left property nonempty hit ih =>
      have fewer := defined_feeds used.getLast? left
      rw [defined_found before used left property nonempty hit] at kept ⊢
      rw [List.count_append, List.count_append,
        List.count_eq_zero.mpr (declaration_unbroken before _ left property hit)] at kept
      have used' : '\n' ∉ used := List.count_eq_zero.mp (by omega)
      obtain ⟨more, rfl, rfl⟩ := front_before_feed used left front rest whole used'
      rw [List.mem_append, not_or] at unbroken
      obtain ⟨same, later⟩ := ih more rfl unbroken.2 (by omega)
      have hit' := property_on_line before used more rest property hit
      rw [defined_found before used more property nonempty hit', same, List.append_assoc]
      exact ⟨rfl, later⟩

end Lines

end DevServer.CommonJs
