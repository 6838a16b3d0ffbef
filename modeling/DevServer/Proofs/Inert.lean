import DevServer.Proofs.Declarations

set_option autoImplicit false

namespace DevServer.CommonJs

open Text

def exportMarks : List Text :=
  ["Object.defineProperty(", "exports", ",", "\x7b", ")", "value:", "module.exports", "="]

def isForeign (start : Text) : Bool :=
  exportMarks.all (fun mark => isApart mark start) &&
    start.head?.any (fun c => !isSpace c && !isPlainQuote c && c != ',' && c != '}' && c != '\n') &&
    (start.dropWhile isIdentPart).head?.any fun c => !isPlainQuote c

def objectHead? (text : Text) : Option Text := do
  let text ← text.after? "module.exports"
  let text ← (spaces text).after? "="
  (spaces text).after? "\x7b"

def isInner (c : Char) : Bool := c != '{' && c != '}'

section Foreign

variable {edit : Text → Text → Prop} {a b start : Text} (opens : Opens edit start)
  (foreign : isForeign start = true)

include foreign

theorem foreign_apart (mark : Text) (member : mark ∈ exportMarks) : isApart mark start = true := by
  simp only [isForeign, Bool.and_eq_true] at foreign
  exact List.all_eq_true.mp foreign.1.1 mark member

theorem foreign_head : ∃ c rest, start = c :: rest ∧
    isSpace c = false ∧ isPlainQuote c = false ∧ c ≠ ',' ∧ c ≠ '}' ∧ c ≠ '\n' := by
  simp only [isForeign, Bool.and_eq_true] at foreign
  cases start with
  | nil => simp at foreign
  | cons c rest => exact ⟨c, rest, rfl, by simpa [and_assoc] using foreign.1.2⟩

theorem foreign_run (quote : Char) (quotes : isPlainQuote quote = true) :
    (start.dropWhile isIdentPart).head?.any (· ≠ quote) = true := by
  simp only [isForeign, Bool.and_eq_true] at foreign
  cases ends : start.dropWhile isIdentPart with
  | nil => simp [ends] at foreign
  | cons c rest =>
      have plain : isPlainQuote c = false := by simpa [ends] using foreign.2
      have other : c ≠ quote := by
        rintro rfl
        rw [quotes] at plain
        cases plain
      simpa using other

include opens

theorem mark_edited (mark right : Text) (member : mark ∈ exportMarks) (edited : Edited edit a b)
    (found : after? b mark = some right) : ∃ left, after? a mark = some left ∧ Edited edit left right :=
  after_edited opens mark right (foreign_apart foreign mark member) edited found

theorem gap_edited (edited : Edited edit a b) : Edited edit (spaces a) (spaces b) := by
  obtain ⟨c, rest, rfl, solid, _⟩ := foreign_head foreign
  exact spaces_edited opens (by simpa using solid) (List.cons_ne_nil _ _) edited

theorem quote_edited (c : Char) (right : Text) (edited : Edited edit a b)
    (found : char? isPlainQuote b = some (c, right)) :
    ∃ left, char? isPlainQuote a = some (c, left) ∧ Edited edit left right := by
  obtain ⟨d, rest, rfl, _, plain, _⟩ := foreign_head foreign
  exact char_edited opens _ (List.cons_ne_nil _ _) (by simpa using plain) c right edited found

theorem first_edited (c : Char) (right : Text) (ends : c = '}' ∨ c = '\n')
    (edited : Edited edit a (c :: right)) : ∃ left, a = c :: left ∧ Edited edit left right := by
  obtain ⟨d, rest, rfl, _, _, _, brace, feed⟩ := foreign_head foreign
  have other : (d == c) = false := by
    rw [beq_eq_false_iff_ne]
    rcases ends with rfl | rfl
    · exact brace
    · exact feed
  have found : char? (· == c) (c :: right) = some (c, right) := if_pos (beq_self_eq_true c)
  obtain ⟨left, kept, later⟩ :=
    char_edited opens (· == c) (List.cons_ne_nil _ _) (by simpa using other) c right edited found
  exact ⟨left, (char_some _ c kept).1, later⟩

-- Each part of the head is found again before the edits; only the name in quotes is
-- read to its end at once, since an edit may begin like a name.
theorem head_edited (name right : Text) (edited : Edited edit a b)
    (found : propertyHead? b = some (name, right)) :
    ∃ left, propertyHead? a = some (name, left) ∧ Edited edit left right := by
  obtain ⟨t1, t2, t3, q1, t4, t5, q2, t6, t7, defines, exports, comma, opened, named, closed, again, brace⟩ :=
    head_parts b name right found
  obtain ⟨l1, defines', edited⟩ := mark_edited opens foreign _ t1 (by decide) edited defines
  obtain ⟨l2, exports', edited⟩ := mark_edited opens foreign _ t2 (by decide)
    (gap_edited opens foreign edited) exports
  obtain ⟨l3, comma', edited⟩ := mark_edited opens foreign _ t3 (by decide)
    (gap_edited opens foreign edited) comma
  obtain ⟨l4, opened', edited⟩ := quote_edited opens foreign q1 t4
    (gap_edited opens foreign edited) opened
  obtain ⟨rfl, some', inside⟩ := run_some isIdentPart name named
  obtain ⟨rfl, quotes⟩ := char_some _ q2 closed
  have stop := plain_quote_misses isIdentPart rfl rfl q2 quotes
  obtain ⟨l6, rfl, later⟩ := run_edited opens isIdentPart name t6 q2 inside stop
    (foreign_run foreign q2 quotes) edited
  obtain ⟨l7, again', edited⟩ := mark_edited opens foreign _ t7 (by decide)
    (gap_edited opens foreign later) again
  obtain ⟨l8, brace', edited⟩ := mark_edited opens foreign _ right (by decide)
    (gap_edited opens foreign edited) brace
  refine ⟨l8, ?_, edited⟩
  have named' : run? isIdentPart (name ++ q2 :: l6) = some (name, q2 :: l6) := by
    unfold run?
    rw [take_while_stop isIdentPart name q2 l6 inside stop, drop_while_stop isIdentPart name q2 l6 inside stop,
      if_neg some']
  have closed' : char? isPlainQuote (q2 :: l6) = some (q2, l6) := if_pos quotes
  simp only [propertyHead?, defines', exports', comma', opened', named', closed', again', brace',
    Option.bind_eq_bind, Option.bind_some]

theorem object_head_edited (right : Text) (edited : Edited edit a b)
    (found : objectHead? b = some right) :
    ∃ left, objectHead? a = some left ∧ Edited edit left right := by
  simp only [objectHead?, Option.bind_eq_bind, Option.bind_eq_some_iff] at found
  obtain ⟨t1, exports, t2, equals, brace⟩ := found
  obtain ⟨l1, exports', edited⟩ := mark_edited opens foreign _ t1 (by decide) edited exports
  obtain ⟨l2, equals', edited⟩ := mark_edited opens foreign _ t2 (by decide)
    (gap_edited opens foreign edited) equals
  obtain ⟨l3, brace', edited⟩ := mark_edited opens foreign _ right (by decide)
    (gap_edited opens foreign edited) brace
  refine ⟨l3, ?_, edited⟩
  simp only [objectHead?, exports', equals', brace', Option.bind_eq_bind, Option.bind_some]

end Foreign

def isValued (text : Text) : Bool :=
  ((text.after? "value:").bind fun rest => run? (fun d => !isSpace d && d != ',') (spaces rest)).isSome

def definesProperty (text : Text) : Bool := (propertyMatcher none text).isSome

def assignsObject : Text → Bool
  | '\n' :: line => (objectMatcher none line).isSome
  | _ => false

theorem value_none (text : Text) : valueOf? text = none ↔ Avoids isValued text := by
  induction text with
  | nil =>
      constructor
      · intro _ rest suffix
        rw [List.suffix_nil.mp suffix]
        rfl
      · exact fun _ => rfl
  | cons c text ih =>
      rw [avoids_cons, ← ih, valueOf?]
      unfold isValued
      split
      · rename_i value rest found
        rw [found]
        simp
      · rename_i missed
        rw [missed]
        simp

theorem defines_iff (text : Text) : definesProperty text = true ↔
    ∃ name rest, propertyHead? text = some (name, rest) ∧ (propertyTail? rest).isSome = true := by
  unfold definesProperty
  rw [property_parts]
  cases propertyHead? text with
  | none => simp
  | some pair =>
      rcases pair with ⟨name, rest⟩
      rw [Option.bind_some, Option.isSome_map]
      constructor
      · exact fun found => ⟨name, rest, rfl, found⟩
      · rintro ⟨_, _, same, found⟩
        cases same
        exact found

theorem tail_iff (text : Text) : (propertyTail? text).isSome = true ↔
    ¬ Avoids isValued (text.takeWhile (· ≠ '}')) ∧
      ∃ after, text.dropWhile (· ≠ '}') = '}' :: after ∧ ∃ close, spaces after = ')' :: close := by
  constructor
  · intro found
    obtain ⟨⟨value, left⟩, found⟩ := Option.isSome_iff_exists.mp found
    simp only [propertyTail?, Option.bind_eq_bind, Option.bind_eq_some_iff, Prod.exists,
      Option.some.injEq] at found
    obtain ⟨value, valued, c, after, brace, close, closed, _⟩ := found
    obtain ⟨next, same⟩ := char_some _ c brace
    rw [beq_iff_eq] at same
    rw [same] at next
    refine ⟨?_, after, next, close, after?_eq_some.mp closed⟩
    rw [← value_none, valued]
    exact Option.some_ne_none value
  · rintro ⟨valued, after, brace, close, closed⟩
    rw [← value_none] at valued
    obtain ⟨value, valued⟩ := Option.ne_none_iff_exists'.mp valued
    have closes : after? (spaces after) ")" = some close := after?_eq_some.mpr closed
    have braces : char? (· == '}') ('}' :: after) = some ('}', after) := rfl
    unfold propertyTail?
    simp only [valued, brace, braces, closes, Option.bind_eq_bind, Option.bind_some]
    rfl

theorem object_iff (before : Option Char) (text : Text) :
    (objectMatcher before text).isSome = true ↔ before.any (· ≠ '\n') = false ∧
      ∃ rest, objectHead? text = some rest ∧ ∃ after, rest.dropWhile isInner = '}' :: after := by
  have parts : objectMatcher before text =
      if before.any (· ≠ '\n') then none
      else (objectHead? text).bind fun rest =>
        (char? (· == '}') (rest.dropWhile isInner)).map fun brace =>
          (rest.takeWhile isInner, skipEnd brace.2) := by
    unfold objectMatcher objectHead?
    simp only [Option.bind_eq_bind, Option.bind_assoc, Option.map_eq_bind]
    rfl
  rw [parts]
  cases starts : before.any (· ≠ '\n') with
  | true => simp
  | false =>
      simp only [Bool.false_eq_true, if_false, true_and]
      cases objectHead? text with
      | none => simp
      | some rest =>
          rw [Option.bind_some, Option.isSome_map]
          cases same : rest.dropWhile isInner with
          | nil => simp [char?, same]
          | cons c after =>
              by_cases closes : c = '}'
              · simp [char?, same, closes]
              · simp [char?, same, closes]

-- An edit that writes nothing an export could begin or end in.
structure Inert (edit : Text → Text → Prop) : Prop where
  braceless : ∀ old new, edit old new → ∀ c, c ∈ old ∨ c ∈ new → c ≠ '{' ∧ c ≠ '}'
  unbroken : ∀ old new, edit old new → '\n' ∉ new
  undefining : ∀ old front tail more, edit old (front ++ tail) → front ≠ [] → tail ≠ [] →
    definesProperty (tail ++ more) = false
  valueless : ∀ old front tail more, edit old (front ++ tail) → front ≠ [] → tail ≠ [] →
    isValued (tail ++ more) = false

theorem Inert.passes {edit : Text → Text → Prop} (inert : Inert edit) (p : Char → Bool)
    (passed : ∀ c, c ≠ '{' ∧ c ≠ '}' → p c = true) :
    ∀ old new, edit old new → old.all p = true ∧ new.all p = true := by
  intro old new changed
  constructor
  · rw [List.all_eq_true]
    exact fun c member => passed c (inert.braceless old new changed c (.inl member))
  · rw [List.all_eq_true]
    exact fun c member => passed c (inert.braceless old new changed c (.inr member))

section Inert

variable {edit : Text → Text → Prop} {a b start : Text} (opens : Opens edit start)
  (foreign : isForeign start = true) (inert : Inert edit)

include opens foreign

theorem valued_edited (edited : Edited edit a b) (valued : isValued b = true) : isValued a = true := by
  unfold isValued at valued ⊢
  obtain ⟨pair, found⟩ := Option.isSome_iff_exists.mp valued
  obtain ⟨right, marked, run⟩ := Option.bind_eq_some_iff.mp found
  obtain ⟨left, marked', edited⟩ := mark_edited opens foreign _ right (by decide) edited marked
  have gap := gap_edited opens foreign edited
  obtain ⟨whole, some', inside⟩ := run_some _ pair.1 run
  rw [marked', Option.bind_some]
  have first : ∃ c rest, spaces left = c :: rest ∧ (!isSpace c && c != ',') = true := by
    generalize spaces left = source at gap
    generalize spaces right = target at gap whole
    cases gap with
    | nil =>
        exact absurd (List.append_eq_nil_iff.mp whole.symm).1 some'
    | keep c _ =>
        cases value : pair.1 with
        | nil => exact absurd value some'
        | cons d more =>
            rw [value] at whole inside
            cases whole
            simp only [List.all_cons, Bool.and_eq_true] at inside
            exact ⟨_, _, rfl, by simpa using inside.1⟩
    | change changed _ =>
        obtain ⟨_, c, rest, rfl, solid, other⟩ := opens _ _ changed
        exact ⟨c, _, rfl, by simp [solid, other]⟩
  obtain ⟨c, rest, same, holds⟩ := first
  unfold run?
  rw [same, List.takeWhile_cons, holds]
  rfl

include inert

theorem tail_edited (edited : Edited edit a b) (found : (propertyTail? b).isSome = true) :
    (propertyTail? a).isSome = true := by
  rw [tail_iff] at found ⊢
  obtain ⟨valued, after, brace, close, closed⟩ := found
  have passed := inert.passes (fun c => decide (c ≠ '}')) fun c plain => decide_eq_true plain.2
  obtain ⟨inner, outer⟩ := while_edited _ passed edited
  refine ⟨?_, ?_⟩
  · intro avoids
    exact valued (avoids_edited isValued inner
      (fun _ _ edited => valued_edited opens foreign edited) inert.valueless avoids)
  · rw [brace] at outer
    obtain ⟨source, brace', later⟩ := first_edited opens foreign '}' after (.inl rfl) outer
    have gap := gap_edited opens foreign later
    have closes : after? (spaces after) ")" = some close := after?_eq_some.mpr closed
    obtain ⟨left, closed', _⟩ := mark_edited opens foreign _ close (by decide) gap closes
    exact ⟨source, brace', left, after?_eq_some.mp closed'⟩

theorem inert_properties (edited : Edited edit a b) (avoids : Avoids definesProperty a) :
    Avoids definesProperty b := by
  apply avoids_edited definesProperty edited ?_ inert.undefining avoids
  intro a b edited found
  rw [defines_iff] at found ⊢
  obtain ⟨name, right, headed, tailed⟩ := found
  obtain ⟨left, headed', later⟩ := head_edited opens foreign name right edited headed
  exact ⟨name, left, headed', tail_edited opens foreign inert later tailed⟩

theorem inert_objects (edited : Edited edit a b) (avoids : Avoids assignsObject a) :
    Avoids assignsObject b := by
  apply avoids_edited assignsObject edited ?_ ?_ avoids
  · intro a b edited found
    unfold assignsObject at found
    split at found
    · rename_i line
      obtain ⟨source, rfl, behind⟩ := first_edited opens foreign '\n' line (.inr rfl) edited
      rw [object_iff] at found
      obtain ⟨starts, right, headed, after, closed⟩ := found
      obtain ⟨left, headed', inside⟩ := object_head_edited opens foreign right behind headed
      change (objectMatcher none source).isSome = true
      rw [object_iff]
      refine ⟨starts, left, headed', ?_⟩
      have passed := inert.passes isInner fun c plain => by simpa [isInner] using plain
      obtain ⟨_, outer⟩ := while_edited isInner passed inside
      rw [closed] at outer
      obtain ⟨source', brace, _⟩ := first_edited opens foreign '}' after (.inl rfl) outer
      exact ⟨source', brace⟩
    · cases found
  · intro old front tail more changed begun unfinished
    cases tail with
    | nil => exact absurd rfl unfinished
    | cons c tail =>
        have other : c ≠ '\n' := by
          rintro rfl
          exact inert.unbroken old _ changed (by simp)
        unfold assignsObject
        split
        · rename_i line same
          simp only [List.cons_append, List.cons.injEq] at same
          exact absurd same.1 other
        · rfl

end Inert

theorem defines_starts (text : Text) (found : definesProperty text = true) :
    ∃ rest, text = "Object.defineProperty(" ++ rest := by
  obtain ⟨name, rest, headed, _⟩ := (defines_iff text).mp found
  obtain ⟨t1, _, _, _, _, _, _, _, _, defines, _⟩ := head_parts text name rest headed
  exact ⟨t1, after?_eq_some.mp defines⟩

theorem valued_starts (text : Text) (found : isValued text = true) :
    ∃ rest, text = "value:" ++ rest := by
  obtain ⟨pair, found⟩ := Option.isSome_iff_exists.mp found
  obtain ⟨rest, marked, _⟩ := Option.bind_eq_some_iff.mp found
  exact ⟨rest, after?_eq_some.mp marked⟩

theorem all_apart (p : Char → Bool) (part more rest : Text) (c : Char) (begun : part ≠ [])
    (inside : part.all p = true) (foreign : p c = false) : part ++ more ≠ c :: rest := by
  intro same
  cases part with
  | nil => exact begun rfl
  | cons d part =>
      have equal : d = c := (List.cons.inj same).1
      simp [equal, foreign] at inside

theorem inert_of_chars (edit : Text → Text → Prop)
    (old : ∀ old new, edit old new → old.all isInner = true)
    (new : ∀ old new, edit old new →
      new.all (fun c => isInner c && c != '\n' && c != 'O' && c != 'v') = true) : Inert edit where
  braceless := by
    rintro old' new' changed c (before | after)
    · simpa [isInner] using List.all_eq_true.mp (old old' new' changed) c before
    · have holds := List.all_eq_true.mp (new old' new' changed) c after
      simp only [isInner, Bool.and_eq_true, bne_iff_ne] at holds
      exact holds.1.1.1
  unbroken := by
    intro old' new' changed member
    exact absurd (List.all_eq_true.mp (new old' new' changed) _ member) (by decide)
  undefining := by
    intro old' front tail more changed _ unfinished
    rw [Bool.eq_false_iff]
    intro found
    obtain ⟨rest, whole⟩ := defines_starts _ found
    have clean := new old' _ changed
    rw [List.all_append, Bool.and_eq_true] at clean
    exact all_apart _ tail more _ 'O' unfinished clean.2 rfl whole
  valueless := by
    intro old' front tail more changed _ unfinished
    rw [Bool.eq_false_iff]
    intro found
    obtain ⟨rest, whole⟩ := valued_starts _ found
    have clean := new old' _ changed
    rw [List.all_append, Bool.and_eq_true] at clean
    exact all_apart _ tail more _ 'v' unfinished clean.2 rfl whole

theorem extension_inert : Inert ExtensionEdit :=
  inert_of_chars _ (fun _ _ changed => by rw [changed.1]; decide)
    (fun _ _ changed => by rw [changed.2]; decide)

theorem extension_opens : Opens ExtensionEdit ".mjs" := by
  rintro old new ⟨rfl, rfl⟩
  exact ⟨⟨[], rfl⟩, '.', _, rfl, rfl, by decide⟩

section Words

variable {word new : Text}

theorem replaced_word (old new' : Text) (changed : Replaces (wholeWord word) (fun _ => new) old new') :
    old = word ∧ new' = new := by
  obtain ⟨before, left, found, hit, rfl⟩ := changed
  obtain ⟨whole, _, _⟩ := word_some word left before _ found hit
  exact ⟨List.append_cancel_right whole, rfl⟩

theorem word_inert (plain : word.all isInner = true)
    (clean : new.all (fun c => isInner c && c != '\n' && c != 'O' && c != 'v') = true) :
    Inert (Replaces (wholeWord word) fun _ => new) :=
  inert_of_chars _ (fun old new' changed => by rw [(replaced_word old new' changed).1]; exact plain)
    (fun old new' changed => by rw [(replaced_word old new' changed).2]; exact clean)

theorem word_opens (start : Text) (begins : ∃ more, new = start ++ more)
    (solid : ∃ c rest, word = c :: rest ∧ isSpace c = false ∧ c ≠ ',') :
    Opens (Replaces (wholeWord word) fun _ => new) start := by
  intro old new' changed
  obtain ⟨rfl, rfl⟩ := replaced_word old new' changed
  exact ⟨begins, solid⟩

end Words

theorem assigned_opens : Opens Assigned "export " := by
  intro old new assigned
  refine ⟨?_, assigned.begins⟩
  rcases assigned.declares with rfl | ⟨name, _, rfl⟩
  · exact ⟨"default ", rfl⟩
  · exact export_const_begins name []

def isDeclaring (c : Char) : Bool := "export const default =".toList.contains c

theorem assigned_apart (old front tail more name rest : Text) (stop : Char)
    (assigned : Assigned old (front ++ tail)) (unfinished : tail ≠ [])
    (named : name.all isIdentPart = true) (ends : isIdentPart stop = false) (other : stop ≠ ' ')
    (first : ∃ c after, name = c :: after ∧ isDeclaring c = false) :
    tail ++ more ≠ name ++ stop :: rest := by
  obtain ⟨c, after, rfl, undeclared⟩ := first
  rcases assigned.declares with whole | ⟨declaredName, inside, whole⟩
  · have all : (front ++ tail).all isDeclaring = true := by rw [whole]; decide
    rw [List.all_append, Bool.and_eq_true] at all
    exact all_apart isDeclaring tail more _ c unfinished all.2 undeclared
  · rw [export_const_parts] at whole
    have opening : ("export const ".toList).all isDeclaring = true := by decide
    have equals : (" = ".toList).all isDeclaring = true := by decide
    have inName (run more : Text) (inside : run.all isIdentPart = true) :
        run ++ ' ' :: more ≠ c :: after ++ stop :: rest := by
      intro same
      have left := congrArg (List.dropWhile isIdentPart) same
      rw [drop_while_stop isIdentPart run ' ' more inside (by decide),
        drop_while_stop isIdentPart _ stop rest named ends] at left
      exact other (List.cons.inj left).1.symm
    rcases List.append_eq_append_iff.mp whole with ⟨gap, opened, rfl⟩ | ⟨gap, _, remains⟩
    · cases gap with
      | nil =>
          rw [List.nil_append, List.append_assoc]
          exact inName declaredName _ inside
      | cons d gap =>
          rw [opened, List.all_append, Bool.and_eq_true] at opening
          rw [List.append_assoc]
          exact all_apart isDeclaring (d :: gap) _ _ c (List.cons_ne_nil _ _) opening.2 undeclared
    · rcases List.append_eq_append_iff.mp remains with ⟨_, _, behind⟩ | ⟨run, same, rfl⟩
      · rw [behind, List.all_append, Bool.and_eq_true] at equals
        exact all_apart isDeclaring tail more _ c unfinished equals.2 undeclared
      · rw [same, List.all_append, Bool.and_eq_true] at inside
        rw [List.append_assoc]
        exact inName run _ inside.2

theorem assigned_chars (old new : Text) (assigned : Assigned old new) (c : Char) (member : c ∈ new) :
    isDeclaring c = true ∨ isIdentPart c = true := by
  rcases assigned.declares with rfl | ⟨name, inside, rfl⟩
  · have all : ("export default ".toList).all isDeclaring = true := by decide
    exact .inl (List.all_eq_true.mp all c member)
  · have opening : ("export const ".toList).all isDeclaring = true := by decide
    have equals : (" = ".toList).all isDeclaring = true := by decide
    rw [export_const_parts] at member
    rcases List.mem_append.mp member with early | late
    · exact .inl (List.all_eq_true.mp opening c early)
    · rcases List.mem_append.mp late with named | last
      · exact .inr (List.all_eq_true.mp inside c named)
      · exact .inl (List.all_eq_true.mp equals c last)

theorem assigned_inert : Inert Assigned where
  braceless := by
    rintro old new assigned c (before | after)
    · have holds := List.all_eq_true.mp assigned.plain c before
      simp only [isHead, Bool.and_eq_true, bne_iff_ne] at holds
      exact ⟨holds.1.2, holds.2⟩
    · have known := assigned_chars old new assigned c after
      constructor
      · rintro rfl
        revert known
        decide
      · rintro rfl
        revert known
        decide
  unbroken := by
    intro old new assigned member
    have known := assigned_chars old new assigned _ member
    revert known
    decide
  undefining := by
    intro old front tail more assigned _ unfinished
    rw [Bool.eq_false_iff]
    intro found
    obtain ⟨rest, whole⟩ := defines_starts _ found
    exact assigned_apart old front tail more "Object" _ '.' assigned unfinished (by decide) (by decide)
      (by decide) ⟨'O', _, rfl, by decide⟩ whole
  valueless := by
    intro old front tail more assigned _ unfinished
    rw [Bool.eq_false_iff]
    intro found
    obtain ⟨rest, whole⟩ := valued_starts _ found
    exact assigned_apart old front tail more "value" _ ':' assigned unfinished (by decide) (by decide)
      (by decide) ⟨'v', _, rfl, by decide⟩ whole

end DevServer.CommonJs
