import DevServer.CommonJs.Rewrite
import DevServer.Proofs.Edits

set_option autoImplicit false

namespace DevServer.CommonJs

open Text

def isHead (c : Char) : Bool := c != ';' && c != '{' && c != '}'

theorem head_of (p : Char → Bool) (semicolon : p ';' = false) (opening : p '{' = false)
    (closing : p '}' = false) (c : Char) (holds : p c = true) : isHead c = true := by
  have other (d : Char) (miss : p d = false) : (c != d) = true := by
    rw [bne_iff_ne]
    rintro rfl
    rw [miss] at holds
    cases holds
  simp only [isHead, other _ semicolon, other _ opening, other _ closing, Bool.and_self]

theorem space_head : ∀ c, isSpace c = true → isHead c = true := head_of _ rfl rfl rfl

theorem plain_quote_misses (p : Char → Bool) (single : p '\'' = false) (double : p '"' = false) (c : Char)
    (quotes : isPlainQuote c = true) : p c = false := by
  simp only [isPlainQuote, Bool.or_eq_true, beq_iff_eq] at quotes
  rcases quotes with rfl | rfl
  · exact single
  · exact double

def propertyHead? (text : Text) : Option (Text × Text) := do
  let text ← text.after? "Object.defineProperty("
  let text ← (spaces text).after? "exports"
  let text ← (spaces text).after? ","
  let (_, text) ← char? isPlainQuote (spaces text)
  let (name, text) ← run? isIdentPart text
  let (_, text) ← char? isPlainQuote text
  let text ← (spaces text).after? ","
  let text ← (spaces text).after? "\x7b"
  some (name, text)

def propertyTail? (text : Text) : Option (Text × Text) := do
  let value ← valueOf? (text.takeWhile (· ≠ '}'))
  let (_, text) ← char? (· == '}') (text.dropWhile (· ≠ '}'))
  let text ← (spaces text).after? ")"
  some (value, skipEnd text)

theorem property_parts (before : Option Char) (text : Text) :
    propertyMatcher before text = (propertyHead? text).bind fun (name, rest) =>
      (propertyTail? rest).map fun (value, left) => (⟨name, value⟩, left) := by
  unfold propertyMatcher propertyHead? propertyTail?
  simp only [Option.bind_eq_bind, Option.bind_assoc, Option.map_eq_bind, Option.bind_some]
  rfl

theorem head_parts (text name rest : Text) (found : propertyHead? text = some (name, rest)) :
    ∃ t1 t2 t3 q1 t4 t5 q2 t6 t7, text.after? "Object.defineProperty(" = some t1 ∧
      (spaces t1).after? "exports" = some t2 ∧ (spaces t2).after? "," = some t3 ∧
      char? isPlainQuote (spaces t3) = some (q1, t4) ∧ run? isIdentPart t4 = some (name, t5) ∧
      char? isPlainQuote t5 = some (q2, t6) ∧ (spaces t6).after? "," = some t7 ∧
      (spaces t7).after? "\x7b" = some rest := by
  simp only [propertyHead?, Option.bind_eq_bind, Option.bind_eq_some_iff, Prod.exists,
    Option.some.injEq, Prod.mk.injEq] at found
  obtain ⟨t1, defines, t2, exports, t3, comma, q1, t4, opened, run, t5, named, q2, t6, closed,
    t7, again, t8, brace, rfl, rfl⟩ := found
  exact ⟨t1, t2, t3, q1, t4, t5, q2, t6, t7, defines, exports, comma, opened, named, closed, again, brace⟩

theorem head_some (text name rest : Text) (found : propertyHead? text = some (name, rest)) :
    name.all isIdentPart = true ∧
      ∃ comma, Reads isHead text (',' :: comma) ∧ spaces comma = '{' :: rest := by
  obtain ⟨t1, t2, t3, q1, t4, t5, q2, t6, t7, defines, exports, comma, opened, named, closed, again, brace⟩ :=
    head_parts text name rest found
  have quotes := head_of isPlainQuote rfl rfl rfl
  obtain ⟨_, _, inside⟩ := run_some isIdentPart name named
  refine ⟨inside, t7, ?_, after?_eq_some.mp brace⟩
  have second : Reads isHead t6 (spaces t6) := reads_spaces space_head
  rw [after?_eq_some.mp again] at second
  exact (reads_after _ (by decide) defines).trans <|
    (reads_spaces space_head).trans <| (reads_after _ (by decide) exports).trans <|
    (reads_spaces space_head).trans <| (reads_after _ (by decide) comma).trans <|
    (reads_spaces space_head).trans <| (reads_char _ quotes q1 opened).trans <|
    (reads_run _ (head_of _ rfl rfl rfl) name named).trans <|
    (reads_char _ quotes q2 closed).trans second

theorem value_some (text value : Text) (found : valueOf? text = some value) :
    value <:+: text ∧ value ≠ [] ∧ ∀ c ∈ value, isSpace c = false ∧ c ≠ ',' := by
  induction text with
  | nil => cases found
  | cons c text ih =>
      rw [valueOf?] at found
      split at found
      · rename_i value' rest here
        cases found
        obtain ⟨after, marked, run⟩ := Option.bind_eq_some_iff.mp here
        obtain ⟨whole, some', inside⟩ := run_some _ _ run
        refine ⟨?_, some', fun d member => by simpa using List.all_eq_true.mp inside d member⟩
        have tail := (spaces_suffix after).trans (after_suffix _ _ _ marked)
        rw [whole] at tail
        exact (List.prefix_append value rest).isInfix.trans tail.isInfix
      · obtain ⟨inside, rest⟩ := ih found
        exact ⟨inside.trans (List.suffix_cons c text).isInfix, rest⟩

theorem skip_end_suffix (text : Text) : skipEnd text <:+ text := by
  have tail := spaces_suffix text
  unfold skipEnd
  split
  · rename_i rest same
    rw [same] at tail
    exact (List.suffix_cons ';' rest).trans tail
  · exact tail

theorem until_some (p q : Char → Bool) (text rest : Text) (c : Char)
    (found : char? q (text.dropWhile p) = some (c, rest)) :
    text = text.takeWhile p ++ c :: rest ∧ q c = true ∧ ∀ d ∈ text.takeWhile p, p d = true := by
  obtain ⟨next, holds⟩ := char_some q c found
  refine ⟨?_, holds, List.all_eq_true.mp List.all_takeWhile⟩
  rw [← next, List.takeWhile_append_dropWhile]

theorem tail_some (text value left : Text) (found : propertyTail? text = some (value, left)) :
    ∃ inner rest close, text = inner ++ '}' :: rest ∧ '}' ∉ inner ∧ valueOf? inner = some value ∧
      spaces rest = ')' :: close ∧ left = skipEnd close := by
  simp only [propertyTail?, Option.bind_eq_bind, Option.bind_eq_some_iff, Prod.exists,
    Option.some.injEq, Prod.mk.injEq] at found
  obtain ⟨_, valued, c, rest, brace, close, closed, rfl, rfl⟩ := found
  obtain ⟨whole, same, inside⟩ := until_some _ _ text rest c brace
  rw [beq_iff_eq] at same
  subst same
  refine ⟨_, rest, close, whole, ?_, valued, after?_eq_some.mp closed, rfl⟩
  intro member
  simpa using inside _ member

theorem object_some (before : Option Char) (text inner left : Text)
    (found : objectMatcher before text = some (inner, left)) :
    before.any (· ≠ '\n') = false ∧ (∀ c ∈ inner, c ≠ '{' ∧ c ≠ '}') ∧
      ∃ equals rest, Reads isHead text ('=' :: equals) ∧
        spaces equals = '{' :: (inner ++ '}' :: rest) ∧ left = skipEnd rest := by
  unfold objectMatcher at found
  split at found
  · cases found
  · rename_i starts
    simp only [Option.bind_eq_bind, Option.bind_eq_some_iff, Prod.exists, Option.some.injEq,
      Prod.mk.injEq] at found
    obtain ⟨t1, exports, equals, assigned, t3, brace, c, rest, closed, rfl, rfl⟩ := found
    obtain ⟨whole, same, inside⟩ := until_some _ _ t3 rest c closed
    rw [beq_iff_eq] at same
    subst same
    have second : Reads isHead t1 (spaces t1) := reads_spaces space_head
    rw [after?_eq_some.mp assigned] at second
    refine ⟨by simpa using starts, fun c member => by simpa using inside c member, equals, rest,
      (reads_after _ (by decide) exports).trans second, ?_, rfl⟩
    rw [after?_eq_some.mp brace, ← whole]
    rfl

theorem dots_some (text dots rest : Text) (found : dots? text = some (dots, rest)) :
    text = dots ++ rest ∧ (dots = "../".toList ∨ dots = "./".toList) := by
  unfold dots? at found
  split at found
  · cases found
    exact ⟨rfl, .inl rfl⟩
  · cases found
    exact ⟨rfl, .inr rfl⟩
  · cases found

theorem ends_with_iff (text ending : Text) : text.endsWith ending = true ↔ ending <:+ text := by
  unfold endsWith
  rw [startsWith_iff, ← List.reverse_prefix]
  exact ⟨fun ⟨rest, whole⟩ => ⟨rest, whole.symm⟩, fun ⟨rest, whole⟩ => ⟨rest, whole.symm⟩⟩

theorem relative_some (before : Option Char) (text left : Text) (literal : RelativeLiteral)
    (found : literalMatcher before text = some (literal, left)) :
    isPlainQuote literal.opening = true ∧ isPlainQuote literal.closing = true ∧
      ("./".toList <+: literal.path ∨ "../".toList <+: literal.path) ∧
      (∀ c ∈ literal.path, isPlainQuote c = false ∧ c ≠ '\n') ∧
      text = literal.opening :: (literal.path ++ (defaultExtension ++ literal.closing :: left)) := by
  simp only [literalMatcher, Option.bind_eq_bind, Option.bind_eq_some_iff, Prod.exists] at found
  obtain ⟨opening, inner, opened, dots, rest, dotted, closing, left', closed, found⟩ := found
  split at found
  · rename_i extended
    simp only [Option.some.injEq, Prod.mk.injEq] at found
    obtain ⟨rfl, rfl⟩ := found
    obtain ⟨rfl, opens⟩ := char_some _ _ opened
    obtain ⟨rfl, parents⟩ := dots_some _ _ _ dotted
    obtain ⟨remaining, closes⟩ := char_some _ _ closed
    obtain ⟨front, whole⟩ := (ends_with_iff _ _).mp extended
    generalize run : rest.takeWhile (fun c => !isPlainQuote c && c != '\n') = name at *
    have inside : ∀ c ∈ name, isPlainQuote c = false ∧ c ≠ '\n' := by
      intro c member
      rw [← run] at member
      simpa using List.all_eq_true.mp List.all_takeWhile c member
    have split : rest = name ++ closing :: left' := by
      rw [← remaining]
      obtain ⟨tail, total⟩ := List.takeWhile_prefix (p := fun c => !isPlainQuote c && c != '\n') (l := rest)
      rw [run] at total
      rw [← total, List.drop_left]
    subst whole
    have front' : (front ++ defaultExtension).take
        ((front ++ defaultExtension).length - defaultExtension.length) = front := by
      rw [List.length_append, Nat.add_sub_cancel, List.take_left]
    refine ⟨opens, closes, ?_, ?_, ?_⟩
    · rcases parents with rfl | rfl
      · exact .inr (List.prefix_append _ _)
      · exact .inl (List.prefix_append _ _)
    · intro c member
      rw [front'] at member
      rcases List.mem_append.mp member with dot | named
      · have plain : ∀ c ∈ "../".toList, isPlainQuote c = false ∧ c ≠ '\n' := by simp [isPlainQuote]
        have simple : ∀ c ∈ "./".toList, isPlainQuote c = false ∧ c ≠ '\n' := by simp [isPlainQuote]
        rcases parents with rfl | rfl
        · exact plain c dot
        · exact simple c dot
      · exact inside c (List.mem_append_left _ named)
    · rw [split, front']
      simp
  · cases found

theorem closing_whole (depth : Nat) (quote : Option Char) (text inner rest : Text)
    (found : closingFrom depth quote text = some (inner, rest)) : text = inner ++ ')' :: rest := by
  fun_induction closingFrom depth quote text generalizing inner with
  | case1 => cases found
  | case2 depth q c text ih =>
      obtain ⟨⟨inner', rest'⟩, later, same⟩ := Option.map_eq_some_iff.mp found
      cases same
      rw [ih _ later]
      rfl
  | case3 depth q c text other ih =>
      obtain ⟨⟨inner', rest'⟩, later, same⟩ := Option.map_eq_some_iff.mp found
      cases same
      rw [ih _ later]
      rfl
  | case4 depth c text closes =>
      cases found
      rw [closes.1]
      rfl
  | case5 depth c text open' next ih =>
      obtain ⟨⟨inner', rest'⟩, later, same⟩ := Option.map_eq_some_iff.mp found
      cases same
      rw [ih _ later]
      rfl

theorem load_some (before : Option Char) (text arguments left : Text)
    (found : loadMatcher before text = some (arguments, left)) :
    before.any joinsCall = false ∧ text = loadCall ++ (arguments ++ ')' :: left) := by
  unfold loadMatcher at found
  split at found
  · cases found
  · rename_i outside
    obtain ⟨rest, called, closed⟩ := Option.bind_eq_some_iff.mp found
    refine ⟨by simpa using outside, ?_⟩
    rw [after?_eq_some.mp called, closing_whole 0 none rest arguments left closed]

theorem head_first (text name rest : Text) (found : propertyHead? text = some (name, rest)) :
    ∃ more, text = 'O' :: more := by
  obtain ⟨t1, _, _, _, _, _, _, _, _, defines, _⟩ := head_parts text name rest found
  exact ⟨_, after?_eq_some.mp defines⟩

theorem property_some (before : Option Char) (text left : Text) (property : Property)
    (found : propertyMatcher before text = some (property, left)) :
    ∃ front inner gap stop, text = front ++ inner ++ '}' :: (gap ++ ')' :: stop) ++ left ∧
      (∃ more, front = 'O' :: more) ∧ '}' ∉ front ∧ '}' ∉ inner ∧ gap.all isSpace = true ∧
      valueOf? inner = some property.value ∧ property.name.all isIdentPart = true := by
  rw [property_parts] at found
  simp only [Option.bind_eq_some_iff, Option.map_eq_some_iff, Prod.exists, Prod.mk.injEq] at found
  obtain ⟨name, body, headed, value, rest, tailed, rfl, rfl⟩ := found
  obtain ⟨more, first⟩ := head_first text name body headed
  obtain ⟨named, comma, ⟨head, whole, clean⟩, brace⟩ := head_some text name body headed
  obtain ⟨inner, after, close, rfl, inside, valued, closes, rfl⟩ := tail_some body value _ tailed
  obtain ⟨space, spaced, blank⟩ := space_parts comma
  obtain ⟨gap, gapped, allSpace⟩ := space_parts after
  obtain ⟨stop, stopped⟩ := skip_end_suffix close
  rw [brace] at spaced
  rw [closes, ← stopped] at gapped
  refine ⟨head ++ ',' :: (space ++ ['{']), inner, gap, stop, ?_, ?_, ?_, inside, allSpace, valued, named⟩
  · rw [whole, spaced, gapped]
    simp
  · cases head with
    | nil =>
        rw [whole] at first
        simp at first
    | cons c head =>
        rw [whole] at first
        simp only [List.cons_append, List.cons.injEq] at first
        exact ⟨_, by rw [first.1]; rfl⟩
  · intro member
    simp only [List.mem_append, List.mem_cons, List.not_mem_nil, or_false] at member
    rcases member with early | same | late | same
    · exact absurd (List.all_eq_true.mp clean _ early) (by decide)
    · cases same
    · exact absurd (List.all_eq_true.mp blank _ late) (by decide)
    · cases same

theorem object_first (before : Option Char) (text inner left : Text)
    (found : objectMatcher before text = some (inner, left)) : ∃ more, text = 'm' :: more := by
  unfold objectMatcher at found
  split at found
  · cases found
  · simp only [Option.bind_eq_bind, Option.bind_eq_some_iff] at found
    obtain ⟨t1, exports, _⟩ := found
    exact ⟨_, after?_eq_some.mp exports⟩

theorem object_whole (before : Option Char) (text inner left : Text)
    (found : objectMatcher before text = some (inner, left)) :
    ∃ front gap stop, text = front ++ '=' :: (gap ++ '{' :: (inner ++ '}' :: stop)) ++ left := by
  obtain ⟨_, _, equals, rest, ⟨front, whole, _⟩, brace, rfl⟩ := object_some before text inner left found
  obtain ⟨gap, gapped, _⟩ := space_parts equals
  obtain ⟨stop, stopped⟩ := skip_end_suffix rest
  refine ⟨front, gap, stop, ?_⟩
  generalize skipEnd rest = left at stopped
  rw [whole, gapped, brace, ← stopped]
  simp

theorem property_consumes : Consumes propertyMatcher := by
  intro before text property left found
  obtain ⟨front, inner, gap, stop, whole, _⟩ := property_some before text left property found
  exact ⟨_, by simp, whole⟩

theorem object_consumes : Consumes objectMatcher := by
  intro before text inner left found
  obtain ⟨front, gap, stop, whole⟩ := object_whole before text inner left found
  exact ⟨_, by simp, whole⟩

theorem relative_consumes : Consumes literalMatcher := by
  intro before text literal left found
  obtain ⟨_, _, _, _, whole⟩ := relative_some before text left literal found
  exact ⟨literal.opening :: (literal.path ++ (defaultExtension ++ [literal.closing])), by simp,
    by simp [whole]⟩

theorem relative_used (before : Option Char) (used left : Text) (literal : RelativeLiteral)
    (found : literalMatcher before (used ++ left) = some (literal, left)) :
    used = literal.opening :: (literal.path ++ (defaultExtension ++ [literal.closing])) := by
  obtain ⟨_, _, _, _, whole⟩ := relative_some before _ left literal found
  apply (List.append_cancel_right_eq used left _).mp
  rw [whole]
  simp

theorem load_consumes : Consumes loadMatcher := by
  intro before text arguments left found
  obtain ⟨_, whole⟩ := load_some before text arguments left found
  refine ⟨loadCall ++ (arguments ++ [')']), ?_, ?_⟩
  · exact List.cons_ne_nil _ _
  · rw [whole]
    simp

theorem load_used (before : Option Char) (used left arguments : Text)
    (found : loadMatcher before (used ++ left) = some (arguments, left)) :
    used = loadCall ++ (arguments ++ [')']) := by
  obtain ⟨_, whole⟩ := load_some before _ arguments left found
  apply (List.append_cancel_right_eq used left _).mp
  rw [whole]
  simp

end DevServer.CommonJs
