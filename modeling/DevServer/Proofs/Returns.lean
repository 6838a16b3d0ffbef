import DevServer.Proofs.Inert
import DevServer.Proofs.Bindings

set_option autoImplicit false

namespace DevServer.CommonJs

open Text

theorem lift_line_absent (c : Char) (foreign : c ∉ awaited []) (line : Text) (absent : c ∉ line) :
    c ∉ liftLine line := by
  unfold awaited at foreign
  simp only [List.mem_append, not_or] at foreign
  unfold liftLine
  split
  · apply absent_edited c (replaces_edited awaited load_consumes none line) ?_ absent
    rintro old new ⟨before, left, arguments, found, rfl⟩ absent
    rw [load_used before old left arguments found] at absent
    simp only [List.mem_append, not_or] at absent
    unfold awaited
    simp only [List.mem_append, not_or]
    exact ⟨⟨foreign.1.1, absent.2.1⟩, foreign.2⟩
  · exact absent

theorem returns_lift (source : Text) (absent : '\r' ∉ source) : '\r' ∉ lift source := by
  have lifted := lines_absent '\r' (by decide) liftLine (lift_line_absent '\r' (by decide)) source absent
  unfold lift
  dsimp only
  split
  · have trimmed : '\r' ∉ trimEndOf (· == '\n') (mapLines liftLine source) := by
      intro member
      unfold trimEndOf at member
      rw [List.mem_reverse] at member
      exact lifted (List.mem_reverse.mp ((List.dropWhile_suffix _).subset member))
    have opening : '\r' ∉ "(async () => \x7b\n".toList := by decide
    have closing : '\r' ∉ "\n\x7d)();".toList := by decide
    have ending (last : Bool) : '\r' ∉ (if last then "\n" else "").toList := by
      cases last with
      | true => decide
      | false => decide
    have final := ending (decide ((mapLines liftLine source).getLast? = some '\n'))
    simp only [decide_eq_true_eq] at final
    unfold wrap
    simp only [List.mem_append, not_or]
    exact ⟨⟨⟨opening, trimmed⟩, closing⟩, final⟩
  · exact lifted

section Bindings

def Load.texts (load : Load) : List Text :=
  load.source :: match load.binding with
    | .whole name => [name]
    | .members list => [list]
    | .member name field => [name, field]
    | .called name arguments => [name, arguments]

theorem named_texts (name source rest : Text) (load : Load) (found : named? name source rest = some load) :
    ∀ text ∈ load.texts, text = source ∨ text = name ∨ text <:+: rest := by
  intro text member
  rcases named_cases name source rest load found with
    ⟨field, more, rfl, rfl, _⟩ | ⟨tail, arguments, rfl, rfl, called⟩ | rfl
  · simp only [Load.texts, List.mem_cons, List.not_mem_nil, or_false] at member
    rcases member with rfl | rfl | rfl
    · exact .inl rfl
    · exact .inr (.inl rfl)
    · exact .inr (.inr ⟨['.'], more, rfl⟩)
  · have inside := (arguments_inside tail arguments called).trans (List.suffix_cons '(' tail).isInfix
    simp only [Load.texts, List.mem_cons, List.not_mem_nil, or_false] at member
    rcases member with rfl | rfl | rfl
    · exact .inl rfl
    · exact .inr (.inl rfl)
    · exact .inr (.inr inside)
  · simp only [Load.texts, List.mem_cons, List.not_mem_nil, or_false] at member
    rcases member with rfl | rfl
    · exact .inl rfl
    · exact .inr (.inl rfl)

theorem argument_inside (argument : Argument) (rest : Text) :
    argument.source <:+: loadCall ++ argument.text rest ∧ rest <:+: loadCall ++ argument.text rest :=
  ⟨⟨loadCall ++ (argument.gap ++ [argument.opening]), argument.closing :: (argument.space ++ ')' :: rest),
      by simp [Argument.text]⟩,
    ⟨loadCall ++ (argument.gap ++ argument.opening :: (argument.source ++ argument.closing ::
      (argument.space ++ [')']))), [], by simp [Argument.text]⟩⟩

theorem load_texts (line : Text) (load : Load) (found : Load.ofLine? line = some load) :
    ∀ text ∈ load.texts, text <:+: line := by
  intro part member
  obtain ⟨word, _, text, rfl, named | listed⟩ := line_some line load found
  · obtain ⟨start, name, gap, space, rest, argument, _, _, _, _, _, bound, rfl⟩ :=
      name_load_parts text load named
    have call : loadCall ++ argument.text rest <:+: word ++ (start ++ (name ++ (gap ++ '=' :: (space ++
        (loadCall ++ argument.text rest))))) := ⟨word ++ (start ++ (name ++ (gap ++ '=' :: space))), [], by simp⟩
    obtain ⟨literal, behind⟩ := argument_inside argument rest
    rcases named_texts name argument.source rest load bound part member with rfl | rfl | within
    · exact literal.trans call
    · exact ⟨word ++ start, gap ++ '=' :: (space ++ (loadCall ++ argument.text rest)), by simp⟩
    · exact within.trans (behind.trans call)
  · obtain ⟨start, list, gap, space, rest, argument, _, _, _, _, _, rfl, rfl⟩ :=
      members_load_parts text load listed
    have call : loadCall ++ argument.text rest <:+: word ++ (start ++ '{' :: (list ++ '}' :: (gap ++ '=' ::
        (space ++ (loadCall ++ argument.text rest))))) :=
      ⟨word ++ (start ++ '{' :: (list ++ '}' :: (gap ++ '=' :: space))), [], by simp⟩
    simp only [Load.texts, List.mem_cons, List.not_mem_nil, or_false] at member
    rcases member with rfl | rfl
    · exact (argument_inside argument rest).1.trans call
    · exact ⟨word ++ (start ++ ['{']), '}' :: (gap ++ '=' :: (space ++ (loadCall ++ argument.text rest))), by simp⟩

end Bindings

section Imports

variable (c : Char)

theorem absent_imported (part : Text) (foreign : c ∉ " as ".toList) (absent : c ∉ part) :
    c ∉ importedName part := by
  have front : c ∉ part.takeWhile (· ≠ '=') := fun member =>
    absent ((List.takeWhile_prefix _).subset member)
  have trimmed := trim_absent isBlank _ c front
  unfold importedName
  change c ∉ trim _ at trimmed
  dsimp only
  split
  · rename_i field renamed cut
    rw [((cut_at_some ':' _ field renamed).mp cut).1] at trimmed
    simp only [List.mem_append, List.mem_cons, not_or] at trimmed
    simp only [List.mem_append, not_or]
    exact ⟨⟨trim_absent isBlank field c trimmed.1, foreign⟩, trim_absent isBlank renamed c trimmed.2.2⟩
  · exact trimmed

theorem absent_imported_names (list : Text) (foreign : c ∉ " as ".toList) (foreign' : c ∉ ", ".toList)
    (absent : c ∉ list) : c ∉ importedNames list := by
  apply join_absent c _ foreign'
  intro part member
  obtain ⟨entry, kept, rfl⟩ := List.mem_map.mp member
  obtain ⟨piece, within, rfl⟩ := List.mem_map.mp (List.mem_filter.mp kept).1
  apply absent_imported c _ foreign
  exact trim_absent isBlank piece c (split_absent ',' c list piece absent within)

def joints : Text := "import const from as Factory * , . js = \x7b\x7d();\""

theorem absent_joint (foreign : c ∉ joints) (joint : Text) (inside : joint ⊆ joints) : c ∉ joint :=
  fun member => foreign (inside member)

theorem absent_from (foreign : c ∉ joints) (module : Text) (absent : c ∉ module) :
    c ∉ fromModule module := by
  have opening := absent_joint c foreign " from \"" (by decide)
  have closing := absent_joint c foreign "\";" (by decide)
  have extension := absent_joint c foreign defaultExtension (by decide)
  unfold fromModule withExtension
  dsimp only
  split
  · simp only [List.mem_append, not_or]
    exact ⟨⟨opening, absent, extension⟩, closing⟩
  · simp only [List.mem_append, not_or]
    exact ⟨⟨opening, absent⟩, closing⟩

theorem declaration_begins (source : Text) (load : Load) :
    ∃ more : Text, load.declaration source = "import " ++ more := by
  unfold Load.declaration
  cases load.binding with
  | whole name =>
      dsimp only
      split
      · exact ⟨_, rfl⟩
      · exact ⟨_, rfl⟩
  | members list => exact ⟨_, rfl⟩
  | member name field => exact ⟨_, rfl⟩
  | called name arguments => exact ⟨_, rfl⟩

theorem declaration_lines (foreign : c ∉ joints) (source : Text) (load : Load)
    (absent : ∀ text ∈ load.texts, c ∉ text) : ∃ first : Text, c ∉ first ∧
      (load.declaration source = "import " ++ first ∨ ∃ second : Text, c ∉ second ∧
        load.declaration source = "import " ++ (first ++ '\n' :: ("const " ++ second)) ∧
        ∃ name arguments, load.binding = .called name arguments ∧
          second = name ++ " = " ++ name ++ "Factory(" ++ arguments ++ ");") := by
  have joint := absent_joint c foreign
  rcases load with ⟨binding, module⟩
  have origin := absent_from c foreign module (absent module (by simp [Load.texts]))
  unfold Load.declaration
  cases binding with
  | whole name =>
      have named := absent name (by simp [Load.texts])
      have starred : "import * as ".toList = "import ".toList ++ "* as ".toList := by decide
      dsimp only
      split
      · refine ⟨"* as " ++ name ++ fromModule module, ?_, .inl (by rw [starred]; simp)⟩
        simp only [List.mem_append, not_or]
        exact ⟨⟨joint _ (by decide), named⟩, origin⟩
      · refine ⟨name ++ fromModule module, ?_, .inl (by simp)⟩
        simp only [List.mem_append, not_or]
        exact ⟨named, origin⟩
  | members list =>
      have names := absent_imported_names c list (joint _ (by decide)) (joint _ (by decide))
        (absent list (by simp [Load.texts]))
      have opened : "import \x7b ".toList = "import ".toList ++ "\x7b ".toList := by decide
      refine ⟨"\x7b " ++ importedNames list ++ " \x7d" ++ fromModule module, ?_, .inl (by rw [opened]; simp)⟩
      simp only [List.mem_append, not_or]
      exact ⟨⟨⟨joint _ (by decide), names⟩, joint _ (by decide)⟩, origin⟩
  | member name field =>
      have named := absent name (by simp [Load.texts])
      have fielded := absent field (by simp [Load.texts])
      have opened : "import \x7b ".toList = "import ".toList ++ "\x7b ".toList := by decide
      refine ⟨"\x7b " ++ field ++ " as " ++ name ++ " \x7d" ++ fromModule module, ?_,
        .inl (by rw [opened]; simp)⟩
      simp only [List.mem_append, not_or]
      exact ⟨⟨⟨⟨⟨joint _ (by decide), fielded⟩, joint _ (by decide)⟩, named⟩, joint _ (by decide)⟩, origin⟩
  | called name arguments =>
      have named := absent name (by simp [Load.texts])
      have passed := absent arguments (by simp [Load.texts])
      have broken : "\nconst ".toList = '\n' :: "const ".toList := by decide
      refine ⟨name ++ "Factory" ++ fromModule module, ?_, .inr
        ⟨name ++ " = " ++ name ++ "Factory(" ++ arguments ++ ");", ?_, by rw [broken]; simp,
          name, arguments, rfl, rfl⟩⟩
      · simp only [List.mem_append, not_or]
        exact ⟨⟨named, joint _ (by decide)⟩, origin⟩
      · simp only [List.mem_append, not_or]
        exact ⟨⟨⟨⟨⟨named, joint _ (by decide)⟩, named⟩, joint _ (by decide)⟩, passed⟩, joint _ (by decide)⟩

end Imports

theorem returns_declaration (source : Text) (load : Load) (absent : ∀ text ∈ load.texts, '\r' ∉ text) :
    '\r' ∉ load.declaration source := by
  have imports : '\r' ∉ "import ".toList := by decide
  have binds : '\r' ∉ '\n' :: "const ".toList := by decide
  obtain ⟨first, clean, same | ⟨second, rest, same, _⟩⟩ :=
    declaration_lines '\r' (by decide) source load absent
  · rw [same, List.mem_append, not_or]
    exact ⟨imports, clean⟩
  · rw [List.mem_cons, not_or] at binds
    rw [same]
    simp only [List.mem_append, List.mem_cons, not_or]
    exact ⟨imports, clean, binds.1, binds.2, rest⟩

theorem returns_import_line (source line : Text) (absent : '\r' ∉ line) :
    '\r' ∉ importLine source line := by
  unfold importLine
  cases found : Load.ofLine? line with
  | none => exact absent
  | some load =>
      apply returns_declaration source load
      intro text member inside
      exact absent ((load_texts line load found text member).subset inside)

theorem returns_imports (source : Text) (absent : '\r' ∉ source) : '\r' ∉ normalizeImports source :=
  lines_absent '\r' (by decide) _ (returns_import_line source) source absent

theorem returns_properties (source : Text) (absent : '\r' ∉ source) :
    '\r' ∉ rewrite propertyMatcher Property.declaration source := by
  apply absent_edited '\r' (replaces_edited Property.declaration property_consumes none source) ?_ absent
  intro old new changed absent
  obtain ⟨before, left, property, found, rfl⟩ := changed
  obtain ⟨front, inner, gap, stop, whole, _, _, _, _, valued, named⟩ :=
    property_some before _ left property found
  obtain ⟨inside, _⟩ := value_some inner property.value valued
  rw [List.append_cancel_right whole] at absent
  simp only [List.mem_append, not_or] at absent
  have unnamed : '\r' ∉ property.name := fun member =>
    absurd (List.all_eq_true.mp named _ member) (by decide)
  exact absent_constant '\r' (by decide) _ _ unnamed fun member => absent.1.2 (inside.subset member)

theorem returns_objects (source : Text) (absent : '\r' ∉ source) :
    '\r' ∉ rewrite objectMatcher objectDeclarations source := by
  apply absent_edited '\r' (replaces_edited objectDeclarations object_consumes none source) ?_ absent
  intro old new changed absent
  obtain ⟨before, left, properties, found, rfl⟩ := changed
  obtain ⟨front, gap, stop, whole⟩ := object_whole before _ properties left found
  rw [List.append_cancel_right whole] at absent
  simp only [List.mem_append, List.mem_cons, not_or] at absent
  have listing : '\r' ∉ "export \x7b ".toList := by decide
  have closing : '\r' ∉ " \x7d;".toList := by decide
  rw [declarations_parts]
  simp only [List.mem_append, not_or]
  exact ⟨constant_lines_absent '\r' (by decide) properties absent.2.2.2.2.1, listing,
    export_list_absent '\r' (by decide) properties absent.2.2.2.2.1, closing⟩

theorem export_line_absent (c : Char) (foreign : isDeclaring c = false ∧ isIdentPart c = false) (line : Text)
    (absent : c ∉ line) : c ∉ exportLine line := by
  rcases export_line_cases line with ⟨_, _, same⟩ | ⟨old, new, value, rfl, same, assigned⟩
  · rw [same]
    exact absent
  · rw [List.mem_append, not_or] at absent
    rw [same, List.mem_append, not_or]
    refine ⟨?_, absent.2⟩
    intro member
    obtain declares | names := assigned_chars old new assigned c member
    · rw [foreign.1] at declares
      cases declares
    · rw [foreign.2] at names
      cases names

theorem returns_exports (source : Text) (absent : '\r' ∉ source) : '\r' ∉ normalizeExports source :=
  lines_absent '\r' (by decide) exportLine (export_line_absent '\r' (by decide)) _
    (returns_objects _ (returns_properties source absent))

theorem returns_repaired (tree : FileTree) (file : Path) (source : Text) (absent : '\r' ∉ source) :
    '\r' ∉ repairExtensions tree file source := by
  apply absent_edited '\r' (relative_edited tree _ none source) ?_ absent
  intro old new changed _
  rw [changed.2]
  decide

theorem returns_word (word new source : Text) (some' : word ≠ []) (fresh : '\r' ∉ new)
    (absent : '\r' ∉ source) : '\r' ∉ replaceWord word new source := by
  apply absent_edited '\r' (replaces_edited (fun _ => new) (word_consumes word some') none source) ?_ absent
  intro old new' changed _
  rw [(replaced_word old new' changed).2]
  exact fresh

theorem returns_globals (source : Text) (absent : '\r' ∉ source) : '\r' ∉ replacePathGlobals source :=
  returns_word _ _ _ (by decide) (by decide) (returns_word _ _ _ (by decide) (by decide) absent)

theorem returns_module (tree : FileTree) (file : Path) (source : Text) (absent : '\r' ∉ source) :
    '\r' ∉ toModule tree file source :=
  returns_globals _ <| returns_repaired tree file _ <| returns_exports _ <|
    returns_imports _ (returns_lift source absent)

end DevServer.CommonJs
