import DevServer.Proofs.LoadCalls

set_option autoImplicit false

namespace DevServer.CommonJs

open Text

section Calls

structure Argument where
  gap : Text
  opening : Char
  source : Text
  closing : Char
  space : Text
  blank : gap.all isSpace = true
  opens : isQuote opening = true
  some' : source ≠ []
  unquoted : source.all (fun c => !isQuote c) = true
  closes : isQuote closing = true
  clear : space.all isSpace = true

namespace Argument

variable (argument : Argument)

def text (rest : Text) : Text :=
  argument.gap ++ argument.opening :: (argument.source ++ argument.closing ::
    (argument.space ++ ')' :: rest))

end Argument

theorem quote_not_space (c : Char) (quote : isQuote c = true) : isSpace c = false := by
  simp only [isQuote, Bool.or_eq_true, beq_iff_eq] at quote
  obtain (rfl | rfl) | rfl := quote <;> decide

theorem spaces_stop (gap : Text) (c : Char) (rest : Text) (blank : gap.all isSpace = true)
    (solid : isSpace c = false) : spaces (gap ++ c :: rest) = c :: rest :=
  drop_while_stop isSpace gap c rest blank solid

theorem argument_reads (argument : Argument) (rest : Text) :
    spaces (argument.text rest) = argument.opening ::
        (argument.source ++ argument.closing :: (argument.space ++ ')' :: rest)) ∧
      run? (fun c => !isQuote c) (argument.source ++ argument.closing :: (argument.space ++ ')' :: rest)) =
        some (argument.source, argument.closing :: (argument.space ++ ')' :: rest)) ∧
      spaces (argument.space ++ ')' :: rest) = ')' :: rest := by
  have run := take_while_stop (fun c => !isQuote c) argument.source argument.closing
    (argument.space ++ ')' :: rest) argument.unquoted (by simp [argument.closes])
  have behind := drop_while_stop (fun c => !isQuote c) argument.source argument.closing
    (argument.space ++ ')' :: rest) argument.unquoted (by simp [argument.closes])
  refine ⟨?_, ?_, ?_⟩
  · exact spaces_stop _ _ _ argument.blank (quote_not_space _ argument.opens)
  · simp [run?, run, behind, argument.some']
  · exact spaces_stop _ _ _ argument.clear (by decide)

theorem call_iff (text source rest : Text) : call? text = some (source, rest) ↔
    ∃ argument : Argument, argument.source = source ∧ text = loadCall ++ argument.text rest := by
  constructor
  · intro found
    simp only [call?, quoted?, Option.bind_eq_bind, Option.bind_eq_some_iff, Prod.exists,
      Option.some.injEq, Prod.mk.injEq] at found
    obtain ⟨t1, called, inner, t2, ⟨opening, t3, opened, inner', t4, run, closing, t5, closed, rfl, rfl⟩,
      t6, ended, rfl, rfl⟩ := found
    obtain ⟨begun, opens⟩ := char_some _ _ opened
    obtain ⟨rfl, some', unquoted⟩ := run_some _ _ run
    obtain ⟨rfl, closes⟩ := char_some _ _ closed
    obtain ⟨gap, first, blank⟩ := space_parts t1
    obtain ⟨space, second, clear⟩ := space_parts t5
    rw [begun] at first
    rw [after?_eq_some.mp ended] at second
    refine ⟨⟨gap, opening, inner', closing, space, blank, opens, some', unquoted, closes, clear⟩, rfl, ?_⟩
    rw [after?_eq_some.mp called, first, second]
    rfl
  · rintro ⟨argument, rfl, rfl⟩
    obtain ⟨first, run, last⟩ := argument_reads argument rest
    simp [call?, after?_append, quoted?, first, char?, argument.opens, run, argument.closes, last, after?]

end Calls

section Bindings

def keywords : List Text := ["const", "let", "var"]

theorem keyword_some (line text : Text) (found : keyword? line = some text) :
    ∃ word ∈ keywords, line = word ++ text := by
  rw [keyword?] at found
  cases const : line.after? "const" with
  | some rest =>
      rw [const, Option.orElse_some] at found
      cases found
      exact ⟨_, List.mem_cons_self, after?_eq_some.mp const⟩
  | none =>
      rw [const, Option.orElse_none] at found
      cases letting : line.after? "let" with
      | some rest =>
          rw [letting, Option.orElse_some] at found
          cases found
          exact ⟨_, List.mem_cons_of_mem _ List.mem_cons_self, after?_eq_some.mp letting⟩
      | none =>
          rw [letting, Option.orElse_none] at found
          exact ⟨_, List.mem_cons_of_mem _ (List.mem_cons_of_mem _ List.mem_cons_self),
            after?_eq_some.mp found⟩

theorem line_some (line : Text) (load : Load) (found : Load.ofLine? line = some load) :
    ∃ word ∈ keywords, ∃ text, line = word ++ text ∧ (ofName? text = some load ∨ ofMembers? text = some load) := by
  obtain ⟨text, keyed, read⟩ := Option.bind_eq_some_iff.mp found
  obtain ⟨word, member, whole⟩ := keyword_some line text keyed
  refine ⟨word, member, text, whole, ?_⟩
  cases named : ofName? text with
  | some other =>
      rw [named, Option.orElse_some] at read
      exact .inl read
  | none =>
      rw [named, Option.orElse_none] at read
      exact .inr read

theorem assignment_some (text rest : Text) (found : assignment? text = some rest) :
    ∃ gap space : Text, gap.all isSpace = true ∧ space.all isSpace = true ∧
      text = gap ++ '=' :: (space ++ rest) := by
  obtain ⟨after, equals, rfl⟩ := Option.map_eq_some_iff.mp found
  obtain ⟨gap, first, blank⟩ := space_parts text
  obtain ⟨space, second, clear⟩ := space_parts after
  refine ⟨gap, space, blank, clear, ?_⟩
  rw [← second, first]
  exact congrArg (gap ++ ·) (after?_eq_some.mp equals)

theorem some_space_parts (text rest : Text) (found : someSpace? text = some rest) :
    ∃ gap : Text, text = gap ++ rest ∧ gap.all isSpace = true := by
  cases text with
  | nil => cases found
  | cons c text =>
      by_cases space : isSpace c = true
      · simp only [someSpace?, if_pos space, Option.some.injEq] at found
        obtain ⟨gap, whole, blank⟩ := space_parts text
        exact ⟨c :: gap, by rw [← found, List.cons_append, ← whole], by simp [space, blank]⟩
      · simp [someSpace?, space] at found

theorem name_load_parts (text : Text) (load : Load) (found : ofName? text = some load) :
    ∃ start name gap space rest : Text, ∃ argument : Argument, start.all isSpace = true ∧ name ≠ [] ∧
      name.all isIdentPart = true ∧ gap.all isSpace = true ∧ space.all isSpace = true ∧
      named? name argument.source rest = some load ∧
      text = start ++ (name ++ (gap ++ '=' :: (space ++ (loadCall ++ argument.text rest)))) := by
  simp only [ofName?, Option.bind_eq_bind, Option.bind_eq_some_iff, Prod.exists] at found
  obtain ⟨t1, spaced, name, t2, identified, t3, assigned, source, rest, called, named⟩ := found
  obtain ⟨start, rfl, blank⟩ := some_space_parts text t1 spaced
  obtain ⟨rfl, some', inside⟩ := identifier_some name identified
  obtain ⟨gap, space, blank', clear, rfl⟩ := assignment_some t2 t3 assigned
  obtain ⟨argument, rfl, rfl⟩ := (call_iff t3 source rest).mp called
  exact ⟨start, name, gap, space, rest, argument, blank, some', inside, blank', clear, named, rfl⟩

theorem members_load_parts (text : Text) (load : Load) (found : ofMembers? text = some load) :
    ∃ start list gap space rest : Text, ∃ argument : Argument, start.all isSpace = true ∧ '}' ∉ list ∧
      gap.all isSpace = true ∧ space.all isSpace = true ∧ endsStatement rest = true ∧
      load = ⟨.members list, argument.source⟩ ∧
      text = start ++ '{' :: (list ++ '}' :: (gap ++ '=' :: (space ++ (loadCall ++ argument.text rest)))) := by
  simp only [ofMembers?, Option.bind_eq_bind, Option.bind_eq_some_iff, Prod.exists] at found
  obtain ⟨t1, opened, c, t2, closed, t3, assigned, source, rest, called, found⟩ := found
  obtain ⟨start, first, blank⟩ := space_parts text
  obtain ⟨whole, brace, inside⟩ := until_some _ _ t1 t2 c closed
  obtain ⟨gap, space, blank', clear, rfl⟩ := assignment_some t2 t3 assigned
  obtain ⟨argument, rfl, rfl⟩ := (call_iff t3 source rest).mp called
  rw [beq_iff_eq] at brace
  subst brace
  by_cases ends : endsStatement rest = true
  · rw [if_pos ends, Option.some.injEq] at found
    refine ⟨start, t1.takeWhile (· ≠ '}'), gap, space, rest, argument, blank, ?_, blank', clear, ends, found.symm, ?_⟩
    · intro member
      simpa using inside _ member
    · rw [first, after?_eq_some.mp opened, ← whole]
      rfl
  · simp [ends] at found

theorem named_cases (name source rest : Text) (load : Load) (found : named? name source rest = some load) :
    (∃ field more, load = ⟨.member name field, source⟩ ∧ rest = '.' :: (field ++ more) ∧
      field.all isIdentPart = true) ∨
    (∃ tail arguments, load = ⟨.called name arguments, source⟩ ∧ rest = '(' :: tail ∧
      callArguments? tail = some arguments) ∨
    load = ⟨.whole name, source⟩ := by
  unfold named? at found
  split at found
  · simp only [Option.bind_eq_bind, Option.bind_eq_some_iff, Prod.exists] at found
    obtain ⟨field, more, identified, found⟩ := found
    obtain ⟨rfl, _, inside⟩ := identifier_some field identified
    split at found
    · cases found
      exact .inl ⟨field, more, rfl, rfl, inside⟩
    · cases found
  · rename_i tail
    simp only [Option.bind_eq_bind, Option.bind_eq_some_iff, Option.some.injEq] at found
    obtain ⟨arguments, called, rfl⟩ := found
    exact .inr (.inl ⟨tail, arguments, rfl, rfl, called⟩)
  · split at found
    · cases found
      exact .inr (.inr rfl)
    · cases found

theorem count_argument (argument : Argument) (rest : Text) :
    callCount argument.source + callCount rest < callCount (loadCall ++ argument.text rest) := by
  have opened := count_load (argument.text rest)
  have parts : argument.text rest = argument.gap ++ [argument.opening] ++
      (argument.source ++ (argument.closing :: (argument.space ++ [')']) ++ rest)) := by simp [Argument.text]
  have inner := count_append_le argument.source (argument.closing :: (argument.space ++ [')']) ++ rest)
  have behind := count_inside rest (argument.closing :: (argument.space ++ [')']) ++ rest)
    (List.suffix_append _ rest).isInfix
  have outer := count_inside _ _ (List.suffix_append (argument.gap ++ [argument.opening])
    (argument.source ++ (argument.closing :: (argument.space ++ [')']) ++ rest))).isInfix
  rw [← parts] at outer
  omega

theorem arguments_inside (text arguments : Text) (found : callArguments? text = some arguments) :
    arguments <:+: text := by
  unfold callArguments? at found
  dsimp only at found
  split at found
  · rename_i closed same
    cases found
    have ending : ')' :: closed <:+ text.reverse := by
      rw [← same]
      split
      · rename_i rest opened
        have tail := spaces_suffix text.reverse
        rw [opened] at tail
        exact (spaces_suffix rest).trans ((List.suffix_cons ';' rest).trans tail)
      · exact spaces_suffix text.reverse
    have front := (List.suffix_cons ')' closed).trans ending
    rw [← List.reverse_prefix, List.reverse_reverse] at front
    exact front.isInfix
  · cases found

theorem count_from (front source back : Text) :
    callCount (front ++ (fromModule source ++ back)) =
      callCount front + callCount source + callCount back := by
  have extended : callCount (withExtension source) = callCount source := by
    unfold withExtension
    dsimp only
    split
    · rw [← List.append_nil (source ++ defaultExtension), List.append_assoc,
        count_separator source _ [] (by decide)]
      rfl
    · rfl
  unfold fromModule
  simp only [List.append_assoc]
  rw [count_separator front " from \"" _ (by decide), count_separator _ "\";" back (by decide), extended]
  omega

def bindingCount : Binding → Nat
  | .members list => callCount list
  | .called _ arguments => callCount arguments
  | _ => 0

def isNamed : Binding → Prop
  | .whole name => callCount name = 0
  | .members _ => True
  | .member name field => callCount name = 0 ∧ callCount field = 0
  | .called name _ => callCount name = 0

theorem count_binding (source : Text) (load : Load) (named : isNamed load.binding) :
    callCount (load.declaration source) ≤ bindingCount load.binding + callCount load.source := by
  rcases load with ⟨binding, module⟩
  unfold Load.declaration
  cases binding with
  | whole name =>
      have plain := count_from ("import " ++ name) module []
      have starred := count_from ("import * as " ++ name) module []
      rw [count_apart "import " _ (by decide), List.append_nil] at plain
      rw [count_apart "import * as " _ (by decide), List.append_nil] at starred
      change callCount name = 0 at named
      dsimp only
      split
      · rw [starred, named]
        exact Nat.le_of_eq (by simp [callCount, bindingCount])
      · rw [plain, named]
        exact Nat.le_of_eq (by simp [callCount, bindingCount])
  | members list =>
      have printed := count_from ("import \x7b " ++ (importedNames list ++ " \x7d")) module []
      have names := count_separator (importedNames list) " \x7d" [] (by decide)
      have fewer := count_imported_names list
      rw [List.append_nil] at names printed
      rw [count_apart "import \x7b " _ (by decide), names] at printed
      dsimp only
      rw [List.append_assoc "import \x7b ".toList, printed]
      simp only [callCount, bindingCount]
      omega
  | member name field =>
      obtain ⟨unnamed, unfielded⟩ := named
      have printed := count_from ("import \x7b " ++ (field ++ (" as " ++ (name ++ " \x7d")))) module []
      have last := count_separator name " \x7d" [] (by decide)
      rw [List.append_nil] at last printed
      rw [count_apart "import \x7b " _ (by decide), count_separator field " as " _ (by decide), last,
        unnamed, unfielded] at printed
      dsimp only
      simp only [List.append_assoc] at printed ⊢
      rw [printed]
      simp [callCount, bindingCount]
  | called name arguments =>
      change callCount name = 0 at named
      have imported := count_from ("import " ++ (name ++ "Factory")) module
        ("\nconst " ++ (name ++ (" = " ++ (name ++ ("Factory(" ++ (arguments ++ ");"))))))
      have factory := count_separator name "Factory" [] (by decide)
      have last := count_separator arguments ");" [] (by decide)
      rw [List.append_nil] at factory last
      rw [count_apart "import " _ (by decide), factory, count_apart "\nconst " _ (by decide),
        count_separator name " = " _ (by decide), count_separator name "Factory(" _ (by decide), last,
        named] at imported
      dsimp only
      simp only [List.append_assoc] at imported ⊢
      rw [imported]
      simp only [callCount, bindingCount]
      omega

theorem named_load (name source rest : Text) (load : Load) (plain : callCount name = 0)
    (found : named? name source rest = some load) :
    load.source = source ∧ isNamed load.binding ∧ bindingCount load.binding ≤ callCount rest := by
  rcases named_cases name source rest load found with
    ⟨field, more, rfl, _, inside⟩ | ⟨tail, arguments, rfl, rfl, called⟩ | rfl
  · exact ⟨rfl, ⟨plain, count_name field inside⟩, Nat.zero_le _⟩
  · have inner := count_inside _ _ (arguments_inside tail arguments called)
    have outer := count_inside _ _ (List.suffix_cons '(' tail).isInfix
    exact ⟨rfl, plain, Nat.le_trans inner outer⟩
  · exact ⟨rfl, plain, Nat.zero_le _⟩

theorem name_load_count (text : Text) (load : Load) (found : ofName? text = some load) :
    bindingCount load.binding + callCount load.source < callCount text ∧ isNamed load.binding := by
  obtain ⟨start, name, gap, space, rest, argument, _, _, inside, _, _, bound, rfl⟩ :=
    name_load_parts text load found
  obtain ⟨same, named, fewer⟩ := named_load name argument.source rest load (count_name name inside) bound
  have call := count_argument argument rest
  have outer := count_inside (loadCall ++ argument.text rest)
    (start ++ (name ++ (gap ++ '=' :: (space ++ (loadCall ++ argument.text rest)))))
    ⟨start ++ (name ++ (gap ++ '=' :: space)), [], by simp⟩
  rw [same]
  exact ⟨by omega, named⟩

theorem members_load_count (text : Text) (load : Load) (found : ofMembers? text = some load) :
    bindingCount load.binding + callCount load.source < callCount text ∧ isNamed load.binding := by
  obtain ⟨start, list, gap, space, rest, argument, _, _, _, _, _, rfl, rfl⟩ :=
    members_load_parts text load found
  have call := count_argument argument rest
  have parts := count_append_le list ('}' :: (gap ++ '=' :: (space ++ (loadCall ++ argument.text rest))))
  have inner := count_inside (loadCall ++ argument.text rest)
    ('}' :: (gap ++ '=' :: (space ++ (loadCall ++ argument.text rest)))) ⟨'}' :: (gap ++ '=' :: space), [], by simp⟩
  have outer := count_inside (list ++ '}' :: (gap ++ '=' :: (space ++ (loadCall ++ argument.text rest))))
    (start ++ '{' :: (list ++ '}' :: (gap ++ '=' :: (space ++ (loadCall ++ argument.text rest)))))
    ⟨start ++ ['{'], [], by simp⟩
  refine ⟨?_, trivial⟩
  change callCount list + callCount argument.source < _
  omega

theorem load_count (line : Text) (load : Load) (found : Load.ofLine? line = some load) :
    bindingCount load.binding + callCount load.source < callCount line ∧ isNamed load.binding := by
  obtain ⟨word, _, text, rfl, named | listed⟩ := line_some line load found
  · have fewer := count_inside _ _ (List.suffix_append word text).isInfix
    obtain ⟨less, plain⟩ := name_load_count text load named
    exact ⟨by omega, plain⟩
  · have fewer := count_inside _ _ (List.suffix_append word text).isInfix
    obtain ⟨less, plain⟩ := members_load_count text load listed
    exact ⟨by omega, plain⟩

theorem count_import_line (source line : Text) : callCount (importLine source line) ≤ callCount line := by
  unfold importLine
  cases found : Load.ofLine? line with
  | none => exact Nat.le_refl _
  | some load =>
      obtain ⟨less, named⟩ := load_count line load found
      exact Nat.le_trans (count_binding source load named) (Nat.le_of_lt less)

theorem count_import_line_lt (source line : Text) (bound : isBound line = true) :
    callCount (importLine source line) < callCount line := by
  obtain ⟨load, found⟩ := Option.isSome_iff_exists.mp bound
  obtain ⟨less, named⟩ := load_count line load found
  unfold importLine
  rw [found]
  exact Nat.lt_of_le_of_lt (count_binding source load named) less

theorem import_line_empty (source : Text) : importLine source [] = [] := rfl

theorem count_imports (source : Text) : callCount (normalizeImports source) ≤ callCount source :=
  count_lines _ (count_import_line source) (import_line_empty source) source

theorem count_imports_lt (source : Text) (bound : ∃ line ∈ lines source, isBound line = true) :
    callCount (normalizeImports source) < callCount source := by
  obtain ⟨line, member, bound⟩ := bound
  exact count_lines_lt _ (count_import_line source) (import_line_empty source) source
    ⟨line, member, count_import_line_lt source line bound⟩

end Bindings

theorem count_export_line (line : Text) : callCount (exportLine line) ≤ callCount line := by
  rcases export_line_cases line with ⟨_, _, same⟩ | ⟨old, new, value, whole, same, assigned⟩
  · exact Nat.le_of_eq (congrArg callCount same)
  · rw [same, whole]
    exact count_assigned old new [] value assigned

theorem count_exports (source : Text) : callCount (normalizeExports source) ≤ callCount source := by
  have properties := count_edited
    (replaces_edited Property.declaration property_consumes none source) count_property []
  have objects := count_edited
    (replaces_edited objectDeclarations object_consumes none
      (rewrite propertyMatcher Property.declaration source)) count_object []
  have assigned := count_lines exportLine count_export_line (by decide)
    (rewrite objectMatcher objectDeclarations (rewrite propertyMatcher Property.declaration source))
  exact Nat.le_trans assigned (Nat.le_trans objects properties)

theorem count_repaired (tree : FileTree) (file : Path) (source : Text) :
    callCount (repairExtensions tree file source) ≤ callCount source :=
  count_edited (relative_edited tree _ none source) count_extension []

theorem count_globals (source : Text) : callCount (replacePathGlobals source) ≤ callCount source := by
  have files := count_edited (replaces_edited _ (word_consumes "__filename" (by decide)) none source)
    (count_word "__filename" "new URL(import.meta.url).pathname" (by decide)) []
  have dirs := count_edited (replaces_edited _ (word_consumes "__dirname" (by decide)) none
      (replaceWord "__filename" "new URL(import.meta.url).pathname" source))
    (count_word "__dirname" "new URL(\".\", import.meta.url).pathname" (by decide)) []
  exact Nat.le_trans dirs files

end DevServer.CommonJs
