import DevServer.Proofs.ConstantLines

set_option autoImplicit false

namespace DevServer.CommonJs

open Text

def reservedWords : List Text :=
  ["await", "break", "case", "catch", "class", "const", "continue", "debugger", "default", "delete", "do",
    "else", "enum", "export", "extends", "false", "finally", "for", "function", "if", "implements", "import",
    "in", "instanceof", "interface", "let", "new", "null", "package", "private", "protected", "public",
    "return", "static", "super", "switch", "this", "throw", "true", "try", "typeof", "var", "void", "while",
    "with", "yield"]

def isReserved (name : Text) : Bool := reservedWords.contains name

def isBinding (name : Text) : Bool := isIdentifier name && !isReserved name

-- An entry of a list has the name of a binding, then the name it is exported under.
inductive Declaration where
  | constant (name : Text)
  | whole
  | listed (entries : List (Text × Text))
deriving DecidableEq, Repr

namespace Declaration

def names : Declaration → List Text
  | constant name => [name]
  | whole => ["default"]
  | listed entries => entries.map Prod.snd

def isLegal : Declaration → Bool
  | constant name => !isReserved name
  | whole => true
  | listed entries => entries.all fun entry => isBinding entry.1

end Declaration

def IsWellFormed (declarations : List Declaration) : Prop :=
  (declarations.flatMap Declaration.names).Nodup ∧ ∀ declaration ∈ declarations, declaration.isLegal = true

instance (declarations : List Declaration) : Decidable (IsWellFormed declarations) :=
  inferInstanceAs (Decidable (_ ∧ _))

def readEntry (entry : Text) : Text × Text :=
  match split ' ' entry with
  | [name, ['a', 's'], exported] => (name, exported)
  | _ => (entry, entry)

def readEntries (list : Text) : List (Text × Text) :=
  (((split ',' list).map trim).filter (· ≠ [])).map readEntry

def Declaration.ofLine? (line : Text) : Option Declaration :=
  match line.after? "export const ", line.after? "export default ", line.after? "export \x7b " with
  | some rest, _, _ => some (.constant (rest.takeWhile fun c => !isBlank c))
  | none, some _, _ => some .whole
  | none, none, some rest => some (.listed (readEntries (rest.takeWhile (· ≠ '}'))))
  | none, none, none => none

def declarations (text : Text) : List Declaration := (split '\n' text).filterMap Declaration.ofLine?

section Lines

theorem constant_read (name rest : Text) (solid : ∀ c ∈ name, isBlank c = false) :
    Declaration.ofLine? (exportConst name [] ++ rest) = some (.constant name) := by
  have run : name.all (fun c => !isBlank c) = true := List.all_eq_true.mpr fun c member => by simp [solid c member]
  have space : " = ".toList = ' ' :: "= ".toList := by decide
  have read : (name ++ (" = ".toList ++ rest)).takeWhile (fun c => !isBlank c) = name := by
    rw [space]
    exact take_while_stop _ name ' ' _ run (by decide)
  rw [export_const_parts, List.append_assoc, List.append_assoc, Declaration.ofLine?, after?_append]
  exact congrArg (fun name => some (Declaration.constant name)) read

theorem whole_read (rest : Text) : Declaration.ofLine? ("export default " ++ rest) = some .whole := by
  have other := after_apart "export const " "export default " rest (by decide) (by decide)
  rw [Declaration.ofLine?, other, after?_append]

theorem list_read (rest : Text) : Declaration.ofLine? ("export \x7b " ++ rest) =
    some (.listed (readEntries (rest.takeWhile (· ≠ '}')))) := by
  have other := after_apart "export const " "export \x7b " rest (by decide) (by decide)
  have other' := after_apart "export default " "export \x7b " rest (by decide) (by decide)
  rw [Declaration.ofLine?, other, other', after?_append]

theorem nothing_read (line : Text) (other : isModuleLine line = false) : Declaration.ofLine? line = none := by
  have absent (mark more : Text) (opens : mark = "export " ++ more) : after? line mark = none := by
    cases found : after? line mark with
    | none => rfl
    | some rest =>
        rw [after?_eq_some.mp found, opens, List.append_assoc, module_opens "export " _ (by decide)] at other
        cases other
  rw [Declaration.ofLine?, absent "export const " "const " (by decide), absent "export default " "default " (by decide),
    absent "export \x7b " "\x7b " (by decide)]

end Lines

section Entries

theorem parts_trimmed (gap first : Text) (rest : List Text) (blank : gap.all isBlank = true)
    (clean : ∀ entry ∈ first :: rest, isTrimmed entry = true ∧ ',' ∉ entry) :
    (split ',' (gap ++ (join ", " (first :: rest) ++ [' ']))).map trim = first :: rest := by
  induction rest generalizing gap first with
  | nil =>
      obtain ⟨trimmed, single⟩ := clean first List.mem_cons_self
      have commaless : ',' ∉ gap ++ (first ++ [' ']) := by
        have outside : ',' ∉ gap := fun member => absurd (List.all_eq_true.mp blank _ member) (by decide)
        simp [outside, single]
      rw [join, split_none ',' _ commaless, List.map_singleton, trim_trimmed gap first [' '] blank (by decide) trimmed]
  | cons next rest ih =>
      obtain ⟨trimmed, single⟩ := clean first List.mem_cons_self
      have later := ih [' '] next (by decide) fun entry member => clean entry (List.mem_cons_of_mem _ member)
      have commaless : ',' ∉ gap ++ first := by
        have outside : ',' ∉ gap := fun member => absurd (List.all_eq_true.mp blank _ member) (by decide)
        simp [outside, single]
      have comma : ", ".toList = [',', ' '] := by decide
      have spelled : gap ++ (join ", " (first :: next :: rest) ++ [' ']) =
          gap ++ first ++ ',' :: ([' '] ++ (join ", " (next :: rest) ++ [' '])) := by
        rw [join_cons, comma]
        simp only [List.append_assoc, List.cons_append, List.nil_append]
      have alone := trim_trimmed gap first [] blank rfl trimmed
      rw [List.append_nil] at alone
      rw [spelled, split_append ',' _ _ commaless, List.map_cons, alone, later]

theorem entry_read (entry : Text × Text) (named : isName entry.1 = true) (valued : isName entry.2 = true) :
    readEntry (exportEntry entry) = (entry.2, entry.1) := by
  have solid (name : Text) (named : isName name = true) : ' ' ∉ name :=
    fun member => absurd ((name_parts name named).2 _ member).1 (by decide)
  unfold exportEntry
  split
  · rename_i same
    rw [readEntry, split_none ' ' entry.1 (solid entry.1 named), same]
  · have spelled : entry.2 ++ " as ".toList ++ entry.1 = entry.2 ++ ' ' :: (['a', 's'] ++ ' ' :: entry.1) := by
      have middle : " as ".toList = ' ' :: (['a', 's'] ++ [' ']) := by decide
      rw [middle]
      simp only [List.append_assoc, List.cons_append, List.nil_append]
    rw [readEntry, spelled, split_append ' ' _ _ (solid entry.2 valued), split_append ' ' _ _ (by decide),
      split_none ' ' _ (solid entry.1 named)]
    rfl

theorem export_entry_clean (entry : Text × Text) (named : isName entry.1 = true) (valued : isName entry.2 = true) :
    isTrimmed (exportEntry entry) = true ∧ ',' ∉ exportEntry entry ∧ '}' ∉ exportEntry entry := by
  have outside (name : Text) (named : isName name = true) : ',' ∉ name ∧ '}' ∉ name :=
    ⟨fun member => ((name_parts name named).2 _ member).2.2.2.2.1 rfl,
      fun member => ((name_parts name named).2 _ member).2.2.2.1 rfl⟩
  refine ⟨?_, entry_absent ',' (by decide) entry (outside _ named).1 (outside _ valued).1,
    entry_absent '}' (by decide) entry (outside _ named).2 (outside _ valued).2⟩
  unfold exportEntry
  split
  · exact name_trimmed entry.1 named
  · have first := (name_solid entry.2 valued isBlank fun c outside => outside.1).1
    have last := (name_solid entry.1 named isBlank fun c outside => outside.1).2
    rw [List.append_assoc]
    exact trimmed_append _ _ _ first last

theorem entries_read (listed : List (Text × Text))
    (named : ∀ entry ∈ listed, isName entry.1 = true ∧ isName entry.2 = true) :
    readEntries (join ", " (listed.map exportEntry) ++ [' ']) = listed.map Prod.swap := by
  have clean (part : Text) (member : part ∈ listed.map exportEntry) : isTrimmed part = true ∧ ',' ∉ part := by
    obtain ⟨entry, inside, rfl⟩ := List.mem_map.mp member
    obtain ⟨trimmed, commaless, _⟩ := export_entry_clean entry (named entry inside).1 (named entry inside).2
    exact ⟨trimmed, commaless⟩
  have parts : ((split ',' (join ", " (listed.map exportEntry) ++ [' '])).map trim).filter (· ≠ []) =
      listed.map exportEntry := by
    cases entries : listed.map exportEntry with
    | nil => decide
    | cons first rest =>
        rw [entries] at clean
        have trimmed := parts_trimmed [] first rest rfl clean
        rw [List.nil_append] at trimmed
        rw [trimmed, List.filter_eq_self]
        intro part member
        simpa using trimmed_some part (clean part member).1
  rw [readEntries, parts, List.map_map]
  exact List.map_congr_left fun entry inside => entry_read entry (named entry inside).1 (named entry inside).2

theorem list_text_append (listed : List (Text × Text)) (ending : Text) : listText listed ++ ending =
    "export \x7b ".toList ++ (join ", " (listed.map exportEntry) ++ " \x7d;".toList ++ ending) := by
  unfold listText
  exact List.append_assoc _ _ _

theorem list_text_read (listed : List (Text × Text)) (ending : Text)
    (named : ∀ entry ∈ listed, isName entry.1 = true ∧ isName entry.2 = true) :
    Declaration.ofLine? (listText listed ++ ending) = some (.listed (listed.map Prod.swap)) := by
  have inner : '}' ∉ join ", " (listed.map exportEntry) := by
    apply join_absent '}' ", " (by decide)
    intro part member
    obtain ⟨entry, inside, rfl⟩ := List.mem_map.mp member
    exact (export_entry_clean entry (named entry inside).1 (named entry inside).2).2.2
  have unclosed : '}' ∉ join ", " (listed.map exportEntry) ++ [' '] := by
    rw [List.mem_append, not_or]
    exact ⟨inner, by decide⟩
  have closing : " \x7d;".toList = [' '] ++ '}' :: [';'] := by decide
  have taken : (join ", " (listed.map exportEntry) ++ " \x7d;".toList ++ ending).takeWhile (· ≠ '}') =
      join ", " (listed.map exportEntry) ++ [' '] := by
    rw [closing, ← List.append_assoc (join ", " (listed.map exportEntry)), List.append_assoc, List.cons_append]
    exact take_while_stop (· ≠ '}') _ '}' _ (all_without '}' _ unclosed) (by decide)
  rw [list_text_append, list_read]
  exact congrArg (some ∘ Declaration.listed) ((congrArg readEntries taken).trans (entries_read listed named))

end Entries

section Parts

def readLine (line : Text) : Option Declaration := Declaration.ofLine? (exportLine line)

def AreRead (parts : List Text) (found : List Declaration) : Prop :=
  (∀ part ∈ parts, readLine (chomp part) = readLine part) ∧ parts.filterMap readLine = found

theorem AreRead.append {parts parts' : List Text} {found found' : List Declaration} (first : AreRead parts found)
    (second : AreRead parts' found') : AreRead (parts ++ parts') (found ++ found') := by
  refine ⟨fun part member => ?_, ?_⟩
  · obtain here | later := List.mem_append.mp member
    · exact first.1 part here
    · exact second.1 part later
  · rw [List.filterMap_append, first.2, second.2]

theorem AreRead.single (line : Text) (found : Declaration) (whole : readLine line = some found)
    (chomped : readLine (chomp line) = some found) : AreRead [line] [found] := by
  refine ⟨fun part member => ?_, ?_⟩
  · rw [List.mem_singleton.mp member, whole, chomped]
  · rw [List.filterMap_cons_some whole]
    rfl

theorem plain_reads (parts : List Text) (plain : ∀ part ∈ parts, isAssigned part = false ∧ isModuleLine part = false) :
    AreRead parts [] := by
  have nothing (part : Text) (unassigned : isAssigned part = false) (other : isModuleLine part = false) :
      readLine part = none := by
    rw [readLine, unassigned_same part unassigned]
    exact nothing_read part other
  refine ⟨fun part member => ?_, ?_⟩
  · obtain ⟨unassigned, other⟩ := plain part member
    rw [nothing part unassigned other, nothing (chomp part) ((assigned_chomp part).trans unassigned)
      ((module_chomp part).trans other)]
  · rw [List.filterMap_eq_nil_iff]
    exact fun part member => nothing part (plain part member).1 (plain part member).2

theorem parts_read (parts : List Text) (same : ∀ part ∈ parts, readLine (chomp part) = readLine part) :
    (editParts exportLine parts).filterMap Declaration.ofLine? = parts.filterMap readLine := by
  induction parts with
  | nil => rfl
  | cons line rest ih =>
      have later := ih fun part member => same part (List.mem_cons_of_mem _ member)
      have here : Declaration.ofLine? (exportLine (chomp line)) = readLine line := same line List.mem_cons_self
      cases rest with
      | nil => rfl
      | cons next rest => rw [edit_parts_cons, List.filterMap_cons, List.filterMap_cons, later, here]

theorem lines_read (text : Text) (found : List Declaration) (reads : AreRead (split '\n' text) found) :
    declarations (mapLines exportLine text) = found := by
  rw [declarations, split_map_lines exportLine (by decide) export_line_unbroken, parts_read _ reads.1, reads.2]

theorem module_semicolon (line : Text) : isModuleLine (line ++ [';']) = isModuleLine line := by
  have foreign : ∀ word ∈ moduleWords, ';' ∉ word := by decide
  apply module_same
  intro word member
  have trimmed : trimStart (line ++ [';']) = trimStart line ++ [';'] := trim_over line [] ';' (by decide)
  rw [trimmed]
  exact starts_over (trimStart line) [] word ';' (foreign word member)

theorem constant_reads (entry : Text × Text) (named : isName entry.1 = true)
    (plain : ∀ line ∈ (split '\n' entry.2).tail, isAssigned line = false ∧ isModuleLine line = false) :
    AreRead (split '\n' (constantLine entry)) [.constant entry.1] := by
  obtain ⟨unbroken, clean⟩ := name_line entry.1 named
  obtain ⟨first, rest, parts, same⟩ :=
    constant_line_split entry (constant_front_absent '\n' (by decide) entry.1 unbroken)
  have front (more : Text) : readLine (exportConst entry.1 [] ++ more) = some (.constant entry.1) := by
    rw [readLine, unassigned_same _ (constant_unassigned entry.1 more)]
    exact constant_read entry.1 more fun c member => ((name_parts entry.1 named).2 c member).1
  have chomped := chomp_clean (exportConst entry.1 []) first (constant_front_absent '\r' (by decide) entry.1 clean)
  have none' (p : Text → Bool) (semicolon : ∀ line, p (line ++ [';']) = p line)
      (absent : ∀ line ∈ (split '\n' entry.2).tail, p line = false) (part : Text) (member : part ∈ rest) : p part = false := by
    have tail := (same p semicolon).trans (List.any_eq_false.mpr fun line inside => by simp [absent line inside])
    simpa using List.any_eq_false.mp tail part member
  rw [parts]
  refine (AreRead.single _ _ (front first) (by rw [chomped]; exact front _)).append (plain_reads rest fun part member => ?_)
  exact ⟨none' isAssigned assigned_semicolon (fun line inside => (plain line inside).1) part member,
    none' isModuleLine module_semicolon (fun line inside => (plain line inside).2) part member⟩

theorem constants_read (constants : List (Text × Text)) (named : ∀ entry ∈ constants, isName entry.1 = true)
    (plain : ∀ entry ∈ constants, ∀ line ∈ (split '\n' entry.2).tail, isAssigned line = false ∧ isModuleLine line = false) :
    AreRead (constants.flatMap fun entry => split '\n' (constantLine entry)) (constants.map (.constant ·.1)) := by
  induction constants with
  | nil => exact plain_reads [] (by simp)
  | cons entry constants ih =>
      exact (constant_reads entry (named entry List.mem_cons_self) (plain entry List.mem_cons_self)).append
        (ih (fun other member => named other (List.mem_cons_of_mem _ member))
          fun other member => plain other (List.mem_cons_of_mem _ member))

theorem list_reads (listed : List (Text × Text)) (ending : Text)
    (named : ∀ entry ∈ listed, isName entry.1 = true ∧ isName entry.2 = true) (unbroken : '\n' ∉ ending) :
    AreRead (split '\n' (listText listed ++ ending)) [.listed (listed.map Prod.swap)] := by
  have clean : '\r' ∉ listText listed := list_text_absent '\r' (by decide) listed fun entry inside =>
    ⟨(name_line entry.1 (named entry inside).1).2, (name_line entry.2 (named entry inside).2).2⟩
  have single : '\n' ∉ listText listed := list_text_absent '\n' (by decide) listed fun entry inside =>
    ⟨(name_line entry.1 (named entry inside).1).1, (name_line entry.2 (named entry inside).2).1⟩
  have line (more : Text) : readLine (listText listed ++ more) = some (.listed (listed.map Prod.swap)) := by
    obtain ⟨rest, begins⟩ := list_text_begins listed
    have unassigned : isAssigned (listText listed ++ more) = false := by
      rw [begins, List.append_assoc]
      exact declared_unassigned _
    rw [readLine, unassigned_same _ unassigned]
    exact list_text_read listed more named
  rw [split_none '\n' _ (by rw [List.mem_append, not_or]; exact ⟨single, unbroken⟩)]
  refine AreRead.single _ _ (line ending) ?_
  rw [chomp_clean _ ending clean]
  exact line _

end Parts

end DevServer.CommonJs
