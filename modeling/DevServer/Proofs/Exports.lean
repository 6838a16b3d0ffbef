import DevServer.Proofs.Inert

set_option autoImplicit false

namespace DevServer.CommonJs

open Text

theorem cut_within (left right after rest : Text) (c d : Char) (other : c ≠ d) (unmet : c ∉ right)
    (same : left ++ c :: after = right ++ d :: rest) : ∃ gap, left = right ++ d :: gap := by
  rcases List.append_eq_append_iff.mp same with ⟨gap, rfl, behind⟩ | ⟨gap, rfl, behind⟩
  · cases gap with
    | nil =>
        rw [List.nil_append] at behind
        exact absurd (List.cons.inj behind).1 other
    | cons e gap =>
        rw [(List.cons.inj behind).1] at unmet
        simp at unmet
  · cases gap with
    | nil =>
        rw [List.nil_append] at behind
        exact absurd (List.cons.inj behind).1.symm other
    | cons e gap =>
        rw [(List.cons.inj behind).1]
        exact ⟨gap, rfl⟩

theorem cut_unique (left right after rest : Text) (c : Char) (unmet : c ∉ right) (unmet' : c ∉ rest)
    (same : left ++ c :: after = right ++ c :: rest) : left = right := by
  rcases List.append_eq_append_iff.mp same with ⟨gap, rfl, behind⟩ | ⟨gap, rfl, behind⟩
  · cases gap with
    | nil => simp
    | cons e gap =>
        rw [(List.cons.inj behind).1] at unmet
        simp at unmet
  · cases gap with
    | nil => simp
    | cons e gap =>
        rw [(List.cons.inj behind).2] at unmet'
        simp at unmet'

theorem cut_before_end (body front tail more used rest : Text) (c d : Char) (other : c ≠ d)
    (whole : body ++ [c] = front ++ tail) (unfinished : tail ≠ []) (unmet : c ∉ used)
    (cut : tail ++ more = used ++ d :: rest) : ∃ gap, body = front ++ used ++ d :: gap := by
  obtain ⟨start, last, rfl⟩ : ∃ start last, tail = start ++ [last] :=
    ⟨_, _, (List.dropLast_concat_getLast unfinished).symm⟩
  obtain ⟨same, ends⟩ :=
    List.append_inj' (whole.trans (List.append_assoc front start [last]).symm) rfl
  rw [← (List.cons.inj ends).1, List.append_assoc] at cut
  obtain ⟨gap, rfl⟩ := cut_within start used more rest c d other unmet cut
  exact ⟨gap, by rw [same, List.append_assoc]⟩

theorem until_stop (c : Char) (front after : Text) (unmet : c ∉ front) :
    (front ++ c :: after).takeWhile (· ≠ c) = front ∧
      (front ++ c :: after).dropWhile (· ≠ c) = c :: after := by
  have inside := all_without c front unmet
  have stop : decide (c ≠ c) = false := by simp
  exact ⟨take_while_stop _ front c after inside stop, drop_while_stop _ front c after inside stop⟩

theorem avoids_append (found : Text → Bool) (text more : Text)
    (inside : ∀ front tail, text = front ++ tail → tail ≠ [] → found (tail ++ more) = false)
    (avoids : Avoids found more) : Avoids found (text ++ more) := by
  rintro rest ⟨front, whole⟩
  rcases List.append_eq_append_iff.mp whole with ⟨tail, rfl, rfl⟩ | ⟨gap, _, rfl⟩
  · cases tail with
    | nil => exact avoids more (List.suffix_refl _)
    | cons c tail => exact inside front (c :: tail) rfl (List.cons_ne_nil _ _)
  · exact avoids rest (List.suffix_append gap rest)

section Properties

abbrev PropertyEdit := Replaces propertyMatcher Property.declaration

theorem property_used (old new : Text) (changed : PropertyEdit old new) :
    ∃ front inner gap stop, ∃ property : Property,
      old = front ++ inner ++ '}' :: (gap ++ ')' :: stop) ∧
      (∃ more, front = 'O' :: more) ∧ '}' ∉ front ∧ '}' ∉ inner ∧ gap.all isSpace = true ∧
      valueOf? inner = some property.value ∧ property.name.all isIdentPart = true ∧
      new = property.declaration := by
  obtain ⟨before, left, property, found, rfl⟩ := changed
  obtain ⟨front, inner, gap, stop, whole, rest⟩ := property_some before _ left property found
  obtain ⟨first, unclosed, inside, blank, valued, named⟩ := rest
  exact ⟨front, inner, gap, stop, property, List.append_cancel_right whole, first, unclosed, inside,
    blank, valued, named, rfl⟩

theorem declaration_parts (property : Property) : property.declaration =
    "export const " ++ (property.name ++ (" = " ++ (property.value ++ ";"))) := by
  unfold Property.declaration exportConst
  simp only [List.append_assoc]

theorem property_opens : Opens PropertyEdit "export " := by
  intro old new changed
  obtain ⟨front, inner, gap, stop, property, rfl, ⟨more, rfl⟩, _, _, _, _, _, rfl⟩ :=
    property_used old new changed
  obtain ⟨rest, begins⟩ := export_const_begins property.name property.value
  refine ⟨⟨rest ++ ";", ?_⟩, 'O', _, rfl, rfl, by decide⟩
  unfold Property.declaration
  rw [begins, List.append_assoc]

theorem property_tail_edited {a b : Text} (edited : Edited PropertyEdit a b) (front : Text)
    (unclosed : '}' ∉ front) (found : (propertyTail? (front ++ b)).isSome = true) :
    (propertyTail? (front ++ a)).isSome = true := by
  induction edited generalizing front with
  | nil => exact found
  | @keep c a b edited ih =>
      by_cases closes : c = '}'
      · subst closes
        obtain ⟨inner, outer⟩ := until_stop '}' front a unclosed
        obtain ⟨inner', outer'⟩ := until_stop '}' front b unclosed
        rw [tail_iff, inner', outer'] at found
        rw [tail_iff, inner, outer]
        obtain ⟨valued, after, same, close, closed⟩ := found
        cases same
        have gap := gap_edited property_opens (by decide) edited
        obtain ⟨left, closed', _⟩ := mark_edited property_opens (by decide) ")" close (by decide) gap
          (after?_eq_some.mpr closed)
        exact ⟨valued, a, rfl, left, after?_eq_some.mp closed'⟩
      · have later := ih (front ++ [c]) (by simp [unclosed, Ne.symm closes])
        rw [List.append_assoc, List.append_assoc] at later
        exact later found
  | @change old new a b changed edited ih =>
      obtain ⟨start, inner, gap, stop, property, rfl, _, unclosed', inside, blank, valued, _⟩ :=
        property_used old new changed
      have whole : front ++ (start ++ inner ++ '}' :: (gap ++ ')' :: stop) ++ a) =
          (front ++ (start ++ inner)) ++ '}' :: (gap ++ ')' :: (stop ++ a)) := by simp
      have clear : '}' ∉ front ++ (start ++ inner) := by simp [unclosed, unclosed', inside]
      obtain ⟨taken, dropped⟩ := until_stop '}' _ (gap ++ ')' :: (stop ++ a)) clear
      rw [whole, tail_iff, taken, dropped]
      refine ⟨?_, _, rfl, stop ++ a, drop_while_stop isSpace gap ')' _ blank (by decide)⟩
      intro avoids
      have none' : valueOf? inner = none := by
        rw [value_none]
        intro rest suffix
        apply avoids rest
        rw [← List.append_assoc]
        exact suffix.trans (List.suffix_append _ inner)
      rw [valued] at none'
      cases none'

theorem property_declared (property : Property) (before : Option Char) (text left front tail more : Text)
    (matched : propertyMatcher before text = some (property, left))
    (whole : property.declaration = front ++ tail) (unfinished : tail ≠ []) :
    definesProperty (tail ++ more) = false := by
  rw [Bool.eq_false_iff]
  intro found
  obtain ⟨name, rest, headed, _⟩ := (defines_iff _).mp found
  obtain ⟨_, comma, ⟨used, cut, clean⟩, _⟩ := head_some _ name rest headed
  obtain ⟨_, inner, _, _, _, _, _, _, _, valued, named⟩ := property_some before text left property matched
  obtain ⟨_, _, inside⟩ := value_some inner property.value valued
  have uncut : ',' ∉ "export const " ++ (property.name ++ (" = " ++ property.value)) := by
    have opening : ',' ∉ "export const ".toList := by decide
    have equals : ',' ∉ " = ".toList := by decide
    have unnamed : ',' ∉ property.name := fun member =>
      absurd (List.all_eq_true.mp named _ member) (by decide)
    have unvalued : ',' ∉ property.value := fun member => (inside _ member).2 rfl
    simp only [List.mem_append, not_or]
    exact ⟨opening, unnamed, equals, unvalued⟩
  have ended : property.declaration =
      ("export const " ++ (property.name ++ (" = " ++ property.value))) ++ [';'] := by
    rw [declaration_parts]
    simp only [List.append_assoc]
    rfl
  have unended : ';' ∉ used := fun member =>
    absurd (List.all_eq_true.mp clean _ member) (by decide)
  rw [ended] at whole
  obtain ⟨gap, same⟩ :=
    cut_before_end _ front tail more used comma ';' ',' (by decide) whole unfinished unended cut
  rw [same] at uncut
  simp at uncut

-- The induction is on the scan of the text before: where a character is kept, the
-- pattern matches neither there nor in what is written.
theorem properties_declared (before : Option Char) (text : Text) :
    Avoids definesProperty
      (render Property.declaration (scanFrom propertyMatcher 0 before text)) := by
  induction before, text using scan_induction property_consumes with
  | nil before =>
      intro rest suffix
      rw [List.suffix_nil.mp suffix]
      rfl
  | kept before c rest miss ih =>
      have edited := replaces_edited Property.declaration property_consumes before (c :: rest)
      rw [scan_kept before c rest miss] at edited ⊢
      refine (avoids_cons definesProperty c _).mpr ⟨?_, ih⟩
      rw [Bool.eq_false_iff]
      intro found
      obtain ⟨name, right, headed, tailed⟩ := (defines_iff _).mp found
      obtain ⟨left, headed', later⟩ :=
        head_edited property_opens (by decide) name right edited headed
      have tailed' := property_tail_edited later [] List.not_mem_nil tailed
      obtain ⟨pair, tailed'⟩ := Option.isSome_iff_exists.mp tailed'
      rw [List.nil_append] at tailed'
      rw [property_parts, headed', Option.bind_some] at miss
      dsimp only at miss
      rw [tailed'] at miss
      cases miss
  | found before used left property nonempty hit ih =>
      rw [scan_found before used left property nonempty hit, render_cons]
      exact avoids_append definesProperty property.declaration _
        (fun front tail whole unfinished =>
          property_declared property before _ left front tail _ hit whole unfinished) ih

end Properties

section Objects

abbrev ObjectEdit := Replaces objectMatcher objectDeclarations

theorem object_used (old new : Text) (changed : ObjectEdit old new) :
    ∃ properties : Text, (∃ more, old = 'm' :: more) ∧ (∀ c ∈ properties, c ≠ '{' ∧ c ≠ '}') ∧
      new = objectDeclarations properties := by
  obtain ⟨before, left, properties, found, rfl⟩ := changed
  obtain ⟨_, inside, _⟩ := object_some before _ properties left found
  obtain ⟨front, gap, stop, whole⟩ := object_whole before _ properties left found
  obtain ⟨more, first⟩ := object_first before _ properties left found
  have same := List.append_cancel_right whole
  refine ⟨properties, ?_, inside, rfl⟩
  cases old with
  | nil =>
      have length := congrArg List.length same
      simp at length
  | cons c old =>
      rw [(List.cons.inj first).1]
      exact ⟨old, rfl⟩

theorem object_opens : Opens ObjectEdit "export " := by
  intro old new changed
  obtain ⟨properties, ⟨more, rfl⟩, _, rfl⟩ := object_used old new changed
  obtain ⟨body, shape⟩ := declarations_shape properties
  exact ⟨⟨_, shape⟩, 'm', more, rfl, rfl, by decide⟩

theorem braceless_of (text : Text) (opening : '{' ∉ text) (closing : '}' ∉ text) :
    ∀ c ∈ text, c ≠ '{' ∧ c ≠ '}' := by
  intro c member
  constructor
  · rintro rfl
    exact opening member
  · rintro rfl
    exact closing member

section Braces

variable (properties : Text) (braceless : ∀ c ∈ properties, c ≠ '{' ∧ c ≠ '}')

include braceless

theorem lines_braceless : ∀ c ∈ constantLines properties, c ≠ '{' ∧ c ≠ '}' := by
  apply braceless_of
  · exact constant_lines_absent '{' (by decide) properties fun inside => (braceless _ inside).1 rfl
  · exact constant_lines_absent '}' (by decide) properties fun inside => (braceless _ inside).2 rfl

theorem list_braceless : ∀ c ∈ exportList properties, c ≠ '{' ∧ c ≠ '}' := by
  apply braceless_of
  · exact export_list_absent '{' (by decide) properties fun inside => (braceless _ inside).1 rfl
  · exact export_list_absent '}' (by decide) properties fun inside => (braceless _ inside).2 rfl

theorem declarations_braces : ∃ front list : Text,
    objectDeclarations properties = front ++ 't' :: ' ' :: '{' :: (list ++ ['}', ';']) ∧
      (∀ c ∈ front, c ≠ '{' ∧ c ≠ '}') ∧ (∀ c ∈ list, c ≠ '{' ∧ c ≠ '}') := by
  have opening : "export \x7b ".toList = "expor".toList ++ 't' :: ' ' :: '{' :: [' '] := by decide
  have closing : " \x7d;".toList = [' ', '}', ';'] := by decide
  refine ⟨constantLines properties ++ "expor", ' ' :: (exportList properties ++ [' ']), ?_, ?_, ?_⟩
  · rw [declarations_parts, opening, closing]
    simp
  · intro c member
    have plain : ∀ c ∈ "expor".toList, c ≠ '{' ∧ c ≠ '}' := by simp
    rcases List.mem_append.mp member with early | late
    · exact lines_braceless properties braceless c early
    · exact plain c late
  · intro c member
    have plain : ∀ c ∈ [' '], c ≠ '{' ∧ c ≠ '}' := by simp
    rcases List.mem_cons.mp member with rfl | later
    · decide
    · rcases List.mem_append.mp later with early | late
      · exact list_braceless properties braceless c early
      · exact plain c late

theorem declared_apart (front tail more head gap rest : Text) (z : Char)
    (whole : objectDeclarations properties = front ++ tail) (unfinished : tail ≠ [])
    (clean : (head ++ z :: gap).all isHead = true) (blank : gap.all isSpace = true)
    (solid : isSpace z = false) (other : z ≠ 't') :
    tail ++ more ≠ head ++ z :: gap ++ '{' :: rest := by
  intro cut
  obtain ⟨before, list, shape, plain, listed⟩ := declarations_braces properties braceless
  have unended : ';' ∉ head ++ z :: gap := fun member =>
    absurd (List.all_eq_true.mp clean _ member) (by decide)
  have ended : objectDeclarations properties =
      (before ++ 't' :: ' ' :: '{' :: (list ++ ['}'])) ++ [';'] := by
    rw [shape]
    simp
  rw [ended] at whole
  obtain ⟨after, same⟩ :=
    cut_before_end _ front tail more _ rest ';' '{' (by decide) whole unfinished unended cut
  -- The brace is the only one, so what stands before it is the keyword.
  have unopened : '{' ∉ before ++ ['t', ' '] := by
    intro member
    rcases List.mem_append.mp member with early | late
    · exact (plain _ early).1 rfl
    · exact absurd late (by decide)
  have unlisted : '{' ∉ list ++ ['}'] := by
    intro member
    rcases List.mem_append.mp member with early | late
    · exact (listed _ early).1 rfl
    · exact absurd late (by decide)
  have split : (front ++ (head ++ z :: gap)) ++ '{' :: after =
      (before ++ ['t', ' ']) ++ '{' :: (list ++ ['}']) := by
    simpa using same.symm
  have fronts := congrArg List.reverse (cut_unique _ _ _ _ '{' unopened unlisted split)
  have back : gap.reverse ++ z :: (front ++ head).reverse = ' ' :: 't' :: before.reverse := by
    simpa using fronts
  have blank' : gap.reverse.all isSpace = true := by
    rw [List.all_reverse]
    exact blank
  have ends := congrArg (List.dropWhile isSpace) back
  rw [drop_while_stop isSpace _ z _ blank' solid] at ends
  exact other (List.cons.inj ends).1

end Braces

variable {a b : Text}

theorem object_undefining (old front tail more : Text) (changed : ObjectEdit old (front ++ tail))
    (unfinished : tail ≠ []) : definesProperty (tail ++ more) = false := by
  obtain ⟨properties, _, braceless, whole⟩ := object_used _ _ changed
  rw [Bool.eq_false_iff]
  intro found
  obtain ⟨name, rest, headed, _⟩ := (defines_iff _).mp found
  obtain ⟨_, comma, ⟨used, cut, clean⟩, brace⟩ := head_some _ name rest headed
  obtain ⟨gap, gapped, blank⟩ := space_parts comma
  rw [gapped, brace] at cut
  refine declared_apart properties braceless front tail more used gap rest ',' whole.symm unfinished ?_
    blank (by decide) (by decide) (by simpa using cut)
  rw [List.all_append, clean, List.all_cons, all_weaken isSpace space_head gap blank]
  rfl

theorem object_unassigning (old front tail more : Text) (changed : ObjectEdit old (front ++ tail))
    (unfinished : tail ≠ []) : assignsObject (tail ++ more) = false := by
  obtain ⟨properties, _, braceless, whole⟩ := object_used _ _ changed
  rw [Bool.eq_false_iff]
  intro found
  unfold assignsObject at found
  split at found
  · rename_i line same
    obtain ⟨⟨inner, left⟩, matched⟩ := Option.isSome_iff_exists.mp found
    obtain ⟨_, _, equals, rest, ⟨used, cut, clean⟩, brace, _⟩ := object_some none line inner left matched
    obtain ⟨gap, gapped, blank⟩ := space_parts equals
    rw [cut, gapped, brace] at same
    refine declared_apart properties braceless front tail more ('\n' :: used) gap _ '=' whole.symm
      unfinished ?_ blank (by decide) (by decide) (by simpa using same)
    rw [List.cons_append, List.all_cons, List.all_append, clean, List.all_cons,
      all_weaken isSpace space_head gap blank]
    rfl
  · cases found

theorem object_close_edited (edited : Edited ObjectEdit a b) (after close : Text)
    (brace : b.dropWhile (· ≠ '}') = '}' :: after) (closed : spaces after = ')' :: close) :
    a.takeWhile (· ≠ '}') = b.takeWhile (· ≠ '}') ∧
      ∃ source, a.dropWhile (· ≠ '}') = '}' :: source ∧ Edited ObjectEdit source after := by
  induction edited with
  | nil => cases brace
  | keep c edited ih =>
      by_cases closes : c = '}'
      · subst closes
        have same := (List.cons.inj brace).2
        subst same
        exact ⟨rfl, _, rfl, edited⟩
      · have passes : decide (c ≠ '}') = true := decide_eq_true closes
        rw [List.dropWhile_cons, if_pos passes] at brace
        obtain ⟨inner, outer⟩ := ih brace
        rw [List.takeWhile_cons, if_pos passes, List.takeWhile_cons, if_pos passes, inner,
          List.dropWhile_cons, if_pos passes]
        exact ⟨rfl, outer⟩
  | @change old new a b changed edited ih =>
      obtain ⟨properties, _, braceless, rfl⟩ := object_used old new changed
      obtain ⟨before, list, shape, plain, listed⟩ := declarations_braces properties braceless
      have unclosed : '}' ∉ before ++ 't' :: ' ' :: '{' :: list := by
        intro member
        simp only [List.mem_append, List.mem_cons] at member
        rcases member with early | same | same | same | late
        · exact (plain _ early).2 rfl
        · cases same
        · cases same
        · cases same
        · exact (listed _ late).2 rfl
      have whole : objectDeclarations properties ++ b =
          (before ++ 't' :: ' ' :: '{' :: list) ++ '}' :: (';' :: b) := by
        rw [shape]
        simp
      rw [whole, (until_stop '}' _ _ unclosed).2] at brace
      rw [← (List.cons.inj brace).2] at closed
      cases closed

theorem object_tail_edited (edited : Edited ObjectEdit a b) (found : (propertyTail? b).isSome = true) :
    (propertyTail? a).isSome = true := by
  rw [tail_iff] at found ⊢
  obtain ⟨valued, after, brace, close, closed⟩ := found
  obtain ⟨same, source, brace', later⟩ := object_close_edited edited after close brace closed
  have gap := gap_edited object_opens (by decide) later
  obtain ⟨left, closed', _⟩ := mark_edited object_opens (by decide) ")" close (by decide) gap
    (after?_eq_some.mpr closed)
  rw [same]
  exact ⟨valued, source, brace', left, after?_eq_some.mp closed'⟩

theorem object_properties (edited : Edited ObjectEdit a b) (avoids : Avoids definesProperty a) :
    Avoids definesProperty b := by
  apply avoids_edited definesProperty edited ?_ ?_ avoids
  · intro a b edited found
    rw [defines_iff] at found ⊢
    obtain ⟨name, right, headed, tailed⟩ := found
    obtain ⟨left, headed', later⟩ := head_edited object_opens (by decide) name right edited headed
    exact ⟨name, left, headed', object_tail_edited later tailed⟩
  · intro old front tail more changed _ unfinished
    exact object_undefining old front tail more changed unfinished

theorem object_inner_edited (edited : Edited ObjectEdit a b) (after : Text)
    (brace : b.dropWhile isInner = '}' :: after) : ∃ after, a.dropWhile isInner = '}' :: after := by
  induction edited with
  | nil => cases brace
  | keep c edited ih =>
      by_cases passes : isInner c = true
      · rw [List.dropWhile_cons, if_pos passes] at brace ⊢
        exact ih brace
      · rw [List.dropWhile_cons, if_neg passes] at brace ⊢
        rw [(List.cons.inj brace).1]
        exact ⟨_, rfl⟩
  | @change old new a b changed edited ih =>
      obtain ⟨properties, _, braceless, rfl⟩ := object_used old new changed
      obtain ⟨before, list, shape, plain, _⟩ := declarations_braces properties braceless
      have front : (before ++ ['t', ' ']).all isInner = true := by
        rw [List.all_eq_true]
        intro c member
        have keyword : ∀ c ∈ ['t', ' '], c ≠ '{' ∧ c ≠ '}' := by simp
        simp only [isInner, Bool.and_eq_true, bne_iff_ne]
        rcases List.mem_append.mp member with early | late
        · exact plain c early
        · exact keyword c late
      have whole : objectDeclarations properties ++ b =
          (before ++ ['t', ' ']) ++ '{' :: (list ++ '}' :: ';' :: b) := by
        rw [shape]
        simp
      rw [whole, drop_while_stop isInner _ '{' _ front rfl] at brace
      cases brace

theorem objects_declared (before : Option Char) (text : Text) :
    (before.any (· ≠ '\n') = false →
      objectMatcher none (render objectDeclarations (scanFrom objectMatcher 0 before text)) = none) ∧
    Avoids assignsObject (render objectDeclarations (scanFrom objectMatcher 0 before text)) := by
  induction before, text using scan_induction object_consumes with
  | nil before =>
      refine ⟨fun _ => rfl, fun rest suffix => ?_⟩
      rw [List.suffix_nil.mp suffix]
      rfl
  | kept before c rest miss ih =>
      obtain ⟨starts, later⟩ := ih
      have edited := replaces_edited objectDeclarations object_consumes before (c :: rest)
      rw [scan_kept before c rest miss] at edited ⊢
      constructor
      · intro line
        rw [Option.eq_none_iff_forall_not_mem]
        intro pair found
        have matched := (object_iff none _).mp (Option.isSome_iff_exists.mpr ⟨pair, found⟩)
        obtain ⟨_, right, headed, after, closed⟩ := matched
        obtain ⟨left, headed', inner⟩ := object_head_edited object_opens (by decide) right edited headed
        obtain ⟨after', closed'⟩ := object_inner_edited inner after closed
        have earlier := (object_iff before _).mpr ⟨line, left, headed', after', closed'⟩
        rw [miss] at earlier
        cases earlier
      · refine (avoids_cons assignsObject c _).mpr ⟨?_, later⟩
        by_cases feed : c = '\n'
        · subst feed
          change (objectMatcher none (render _ _)).isSome = false
          rw [starts rfl]
          rfl
        · unfold assignsObject
          split
          · rename_i line same
            exact absurd (List.cons.inj same).1 feed
          · rfl
  | found before used left properties nonempty hit ih =>
      have changed : ObjectEdit used (objectDeclarations properties) :=
        ⟨before, left, properties, hit, rfl⟩
      rw [scan_found before used left properties nonempty hit, render_cons]
      constructor
      · intro _
        obtain ⟨body, shape⟩ := declarations_shape properties
        rw [Option.eq_none_iff_forall_not_mem]
        intro pair found
        obtain ⟨more, first⟩ := object_first none _ pair.1 pair.2 found
        change objectDeclarations properties ++ _ = _ at first
        rw [shape] at first
        exact absurd (List.cons.inj first).1 (by decide)
      · exact avoids_append assignsObject (objectDeclarations properties) _
          (fun front tail whole unfinished =>
            object_unassigning used front tail _ (whole ▸ changed) unfinished) ih.2

end Objects

end DevServer.CommonJs
