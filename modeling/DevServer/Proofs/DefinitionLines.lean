import DevServer.Env.File
import DevServer.Proofs.Trimming

set_option autoImplicit false

namespace DevServer.Env

open Text

theorem definition_chomp (line : Text) : definition? (chomp line) = definition? line := by
  rw [definition?, definition?, trim_chomp]

theorem definitions_of (parts : List Text) : (linesOf parts).filterMap definition? = parts.filterMap definition? := by
  induction parts with
  | nil => rfl
  | cons part rest ih =>
      cases rest with
      | nil =>
          rw [linesOf]
          by_cases empty : part = []
          · rw [if_pos empty, empty]
            rfl
          · rw [if_neg empty]
      | cons next rest =>
          change (chomp part :: linesOf (next :: rest)).filterMap definition? = _
          rw [List.filterMap_cons, List.filterMap_cons, definition_chomp, ih]

theorem parse_parts (content : Text) : parse content = (split '\n' content).filterMap definition? :=
  definitions_of (split '\n' content)

theorem parse_line (line : Text) (single : '\n' ∉ line) : parse line = (definition? line).toList := by
  rw [parse_parts, split_none '\n' line single, List.filterMap_cons]
  cases definition? line <;> rfl

theorem parse_concat (first second : Text) : parse (first ++ '\n' :: second) = parse first ++ parse second := by
  rw [parse_parts, parse_parts, parse_parts, split_concat, List.filterMap_append]

theorem parse_lines (rows : List Text) (single : ∀ row ∈ rows, '\n' ∉ row) :
    parse (join ['\n'] rows) = rows.filterMap definition? ∧
      parse (rows.flatMap (· ++ ['\n'])) = rows.filterMap definition? := by
  induction rows with
  | nil => exact ⟨rfl, rfl⟩
  | cons row rows ih =>
      obtain ⟨joined, ended⟩ := ih fun row member => single row (List.mem_cons_of_mem _ member)
      have here : parse row = [row].filterMap definition? := by
        rw [parse_line row (single row List.mem_cons_self), List.filterMap_cons]
        cases definition? row <;> rfl
      have parts : (row :: rows).filterMap definition? = parse row ++ rows.filterMap definition? := by
        rw [here, ← List.filterMap_append]
        rfl
      rw [parts]
      constructor
      · cases rows with
        | nil => rw [join, List.filterMap_nil, List.append_nil]
        | cons next rows =>
            rw [join_cons, List.append_assoc, ← joined, ← parse_concat]
            rfl
      · rw [List.flatMap_cons, List.append_assoc, ← ended, ← parse_concat]
        rfl

def IsName (key : Text) : Prop := key ≠ [] ∧ ∀ c ∈ key, isBlank c = false ∧ c ≠ '='

-- A line that defines something has a name, between blanks, before its first equals sign.
def Keyed (line : Text) : Prop :=
  ∃ before key after value : Text, line = before ++ (key ++ (after ++ '=' :: value)) ∧
    before.all isBlank = true ∧ IsName key ∧ after.all isBlank = true

def Commented (line : Text) : Prop :=
  ∃ before rest : Text, line = before ++ '#' :: rest ∧ before.all isBlank = true

theorem key_named (key : Text) (holds : isKey key = true) (single : '=' ∉ key) : IsName key := by
  simp only [isKey, Bool.and_eq_true, decide_eq_true_eq, Bool.not_eq_true', List.any_eq_false] at holds
  refine ⟨holds.1, fun c member => ⟨Bool.eq_false_iff.mpr (holds.2 c member), ?_⟩⟩
  rintro rfl
  exact single member

theorem named_key (key : Text) (named : IsName key) : isKey key = true := by
  simp only [isKey, Bool.and_eq_true, decide_eq_true_eq, Bool.not_eq_true', List.any_eq_false]
  exact ⟨named.1, fun c member => by rw [(named.2 c member).1]; exact Bool.false_ne_true⟩

theorem commented_none (line : Text) (commented : Commented line) : definition? line = none := by
  obtain ⟨before, rest, rfl, blank⟩ := commented
  have start : trimStart (before ++ '#' :: rest) = '#' :: rest :=
    drop_while_stop isBlank before '#' rest blank (by decide)
  have whole : trim (before ++ '#' :: rest) = '#' :: trimEnd rest := by
    change trimEnd (trimStart _) = _
    rw [start, trim_end_solid '#' rest (by decide)]
  have starts : startsWith ('#' :: trimEnd rest) "#" = true := startsWith_iff.mpr ⟨trimEnd rest, rfl⟩
  rw [definition?, whole]
  exact if_pos starts

theorem defined_keyed (line : Text) (pair : Text × Text) (defined : definition? line = some pair) : Keyed line := by
  rw [definition?] at defined
  split at defined
  · cases defined
  · split at defined
    · cases defined
    · rename_i key value cut
      split at defined
      · rename_i holds
        obtain ⟨trimmed, single⟩ := (cut_at_some '=' _ key value).mp cut
        obtain ⟨before, after, whole, begins, ends⟩ := trim_around line
        obtain ⟨front, back, parts, begins', ends'⟩ := trim_around key
        have inside : '=' ∉ trim key := fun member => single (by rw [parts]; simp [member])
        refine ⟨before ++ front, trim key, back, value ++ after, ?_, ?_, key_named _ holds inside, ends'⟩
        · conv => lhs; rw [whole, trimmed, parts]
          simp only [List.append_assoc, List.cons_append]
        · rw [List.all_append, begins, begins']
          rfl
      · cases defined

structure Quoted where
  key : Text
  value : Text
  quote : Char
  named : IsName key
  uncommented : key.head? ≠ some '#'
  quotes : quote = '"' ∨ quote = '\''
  single : '\n' ∉ value

def Quoted.text (printed : Quoted) : Text :=
  printed.key ++ '=' :: (printed.quote :: printed.value ++ [printed.quote])

def Quoted.pair (printed : Quoted) : Text × Text := (printed.key, printed.value)

theorem unquote_quoted (quote : Char) (value : Text) (quotes : quote = '"' ∨ quote = '\'') :
    unquote (quote :: value ++ [quote]) = value := by
  have own : unquoteWith? quote (quote :: value ++ [quote]) = some value := by
    rw [List.cons_append, unquoteWith?, if_pos ⟨rfl, List.getLast?_concat⟩, List.dropLast_concat]
  rcases quotes with rfl | rfl
  · rw [unquote, own]
    rfl
  · have other : unquoteWith? '"' ('\'' :: value ++ ['\'']) = none := by
      rw [List.cons_append, unquoteWith?, if_neg]
      exact fun same => absurd same.1 (by decide)
    rw [unquote, other, own]
    rfl

theorem Quoted.solid (printed : Quoted) : isBlank printed.quote = false := by
  rcases printed.quotes with same | same <;> rw [same] <;> decide

theorem Quoted.read (printed : Quoted) : definition? printed.text = some printed.pair := by
  obtain ⟨key, value, quote, named, uncommented, quotes, single⟩ := printed
  have solid : isBlank quote = false := Quoted.solid ⟨key, value, quote, named, uncommented, quotes, single⟩
  obtain ⟨c, name, rfl⟩ := List.exists_cons_of_ne_nil named.1
  have first : isBlank c = false := (named.2 c List.mem_cons_self).1
  have alone : isTrimmed (c :: name) = true := by
    have last := (named.2 _ (List.getLast_mem (List.cons_ne_nil c name))).1
    rw [isTrimmed, List.getLast?_eq_getLast_of_ne_nil (List.cons_ne_nil c name)]
    simp [first, last]
  have value' : isTrimmed (quote :: value ++ [quote]) = true := by
    have ends := trimmed_append [quote] value [quote]
    simp only [List.head?_cons, List.getLast?_singleton, Option.any_some, solid] at ends
    exact ends rfl rfl
  have line : isTrimmed (c :: name ++ '=' :: (quote :: value ++ [quote])) = true := by
    have ends := trimmed_append (c :: name) ('=' :: quote :: value) [quote]
    simp only [List.head?_cons, List.getLast?_singleton, Option.any_some, solid, first] at ends
    exact ends rfl rfl
  have cut := (cut_at_some '=' _ (c :: name) (quote :: value ++ [quote])).mpr
    ⟨rfl, fun member => (named.2 '=' member).2 rfl⟩
  have plain : startsWith (c :: name ++ '=' :: (quote :: value ++ [quote])) "#" = false := by
    rw [Bool.eq_false_iff]
    intro starts
    obtain ⟨rest, same⟩ := startsWith_iff.mp starts
    exact uncommented (congrArg some (List.cons.inj same).1)
  rw [Quoted.text, definition?]
  dsimp only
  rw [trim_same _ line, plain, cut]
  dsimp only
  rw [trim_same _ alone, named_key _ named, trim_same _ value', unquote_quoted quote value quotes]
  rfl

inductive Row where
  | quoted (printed : Quoted)
  | blank (line : Text) (blank : line.all isBlank = true) (single : '\n' ∉ line)
  | comment (line : Text) (commented : Commented line) (single : '\n' ∉ line)
  | keyless (line : Text) (keyless : ¬ Keyed line) (single : '\n' ∉ line)

def Row.text : Row → Text
  | quoted printed => printed.text
  | blank line _ _ => line
  | comment line _ _ => line
  | keyless line _ _ => line

def Row.pair? : Row → Option (Text × Text)
  | quoted printed => some printed.pair
  | _ => none

theorem unsigned_keyless (line : Text) (unsigned : '=' ∉ line) : ¬ Keyed line := by
  rintro ⟨before, key, after, value, rfl, _⟩
  exact unsigned (by simp)

theorem blank_keyless (line : Text) (blank : line.all isBlank = true) : ¬ Keyed line := by
  refine unsigned_keyless line fun sign => ?_
  exact absurd (List.all_eq_true.mp blank '=' sign) (by decide)

theorem Row.read (row : Row) : definition? row.text = row.pair? := by
  have skipped (line : Text) (keyless : ¬ Keyed line) : definition? line = none :=
    Option.eq_none_iff_forall_ne_some.mpr fun pair defined => keyless (defined_keyed line pair defined)
  cases row with
  | quoted printed => exact printed.read
  | blank line blank single => exact skipped line (blank_keyless line blank)
  | comment line commented single => exact commented_none line commented
  | keyless line keyless single => exact skipped line keyless

theorem Row.single (row : Row) : '\n' ∉ row.text := by
  cases row with
  | quoted printed =>
      have feed : isBlank '\n' = true := by decide
      have unnamed : '\n' ∉ printed.key := fun member => by
        rw [(printed.named.2 _ member).1] at feed
        cases feed
      have unquoted : printed.quote ≠ '\n' := by
        intro same
        rw [← same, printed.solid] at feed
        cases feed
      simp [Row.text, Quoted.text, unnamed, unquoted.symm, printed.single]
  | blank line _ single => exact single
  | comment line _ single => exact single
  | keyless line _ single => exact single

theorem quoted_definitions_read :
    (∀ rows : List Row, parse (join ['\n'] (rows.map Row.text)) = rows.filterMap Row.pair? ∧
      parse ((rows.map Row.text).flatMap (· ++ ['\n'])) = rows.filterMap Row.pair?) ∧
    ∀ first second : Text, parse (first ++ '\n' :: second) = parse first ++ parse second := by
  refine ⟨fun rows => ?_, parse_concat⟩
  have single : ∀ row ∈ rows.map Row.text, '\n' ∉ row := by
    intro line member
    obtain ⟨row, _, rfl⟩ := List.mem_map.mp member
    exact row.single
  have read : (rows.map Row.text).filterMap definition? = rows.filterMap Row.pair? := by
    rw [List.filterMap_map]
    exact List.filterMap_congr fun row _ => row.read
  rw [← read]
  exact parse_lines _ single

def doubleQuoted : Quoted where
  key := "A"
  value := " say \"it's\" = #1\r "
  quote := '"'
  named := key_named _ (by decide) (by decide)
  uncommented := by decide
  quotes := .inl rfl
  single := by decide

def singleQuoted : Quoted where
  key := "A"
  value := "'b' = \"c\" "
  quote := '\''
  named := key_named _ (by decide) (by decide)
  uncommented := by decide
  quotes := .inr rfl
  single := by decide

def mixedRows : List Row :=
  [.comment " # A=1" ⟨" ", " A=1", rfl, rfl⟩ (by decide), .quoted doubleQuoted, .blank " \r" rfl (by decide),
    .keyless "shared" (unsigned_keyless _ (by decide)) (by decide), .quoted singleQuoted]

theorem mixed_values_read :
    parse " # A=1\nA=\" say \"it's\" = #1\r \"\n \r\nshared\nA=''b' = \"c\" '" =
      ([("A", " say \"it's\" = #1\r "), ("A", "'b' = \"c\" ")] : Definitions) := by
  have printed : join ['\n'] (mixedRows.map Row.text) =
      " # A=1\nA=\" say \"it's\" = #1\r \"\n \r\nshared\nA=''b' = \"c\" '".toList := by decide
  rw [← printed, (quoted_definitions_read.1 mixedRows).1]
  rfl

end DevServer.Env
