import DevServer.Proofs.Patterns

set_option autoImplicit false

namespace DevServer.CommonJs

open Text

theorem trim_inside (drop : Char → Bool) (text : Text) : trimOf drop text <:+: text := by
  have start : trimStartOf drop text <:+ text := List.dropWhile_suffix drop
  have ending : trimEndOf drop (trimStartOf drop text) <+: trimStartOf drop text := by
    unfold trimEndOf
    rw [← List.reverse_suffix, List.reverse_reverse]
    exact List.dropWhile_suffix drop
  exact ending.isInfix.trans start.isInfix

theorem trim_absent (drop : Char → Bool) (text : Text) (c : Char) (absent : c ∉ text) :
    c ∉ trimOf drop text := fun member => absent ((trim_inside drop text).subset member)

def glue : Text := "export const  = ;\n as , "

theorem absent_constant (c : Char) (foreign : c ∉ glue) (name value : Text) (unnamed : c ∉ name)
    (unvalued : c ∉ value) : c ∉ exportConst name value ++ ";" := by
  have front : c ∉ "export const ".toList := fun member =>
    foreign ((by decide : "export const ".toList ⊆ glue) member)
  have middle : c ∉ " = ".toList := fun member =>
    foreign ((by decide : " = ".toList ⊆ glue) member)
  have back : c ∉ ";".toList := fun member =>
    foreign ((by decide : ";".toList ⊆ glue) member)
  unfold exportConst
  simp only [List.mem_append, not_or]
  exact ⟨⟨⟨⟨front, unnamed⟩, middle⟩, unvalued⟩, back⟩

theorem absent_entry (c : Char) (foreign : c ∉ glue) (property : Text) (absent : c ∉ property) :
    ∀ text, (ObjectEntry.ofText property).constant? = some text ∨
      (ObjectEntry.ofText property).listed? = some text → c ∉ text := by
  intro text
  unfold ObjectEntry.ofText
  cases cut : cutAt? ':' property with
  | none =>
      dsimp only
      split
      · rintro (none' | same)
        · cases none'
        · cases same
          exact absent
      · rintro (none' | none')
        · cases none'
        · cases none'
  | some pair =>
      rcases pair with ⟨key, value⟩
      rw [((cut_at_some ':' property key value).mp cut).1] at absent
      simp only [List.mem_append, List.mem_cons, not_or] at absent
      have unkeyed := trim_absent (fun c => c == '"' || c == '\'') _ c
        (trim_absent isBlank key c absent.1)
      have unvalued := trim_absent isBlank value c absent.2.2
      have middle : c ∉ " as ".toList := fun member =>
        foreign ((by decide : " as ".toList ⊆ glue) member)
      change c ∉ trim value at unvalued
      change c ∉ trimOf (fun c => c == '"' || c == '\'') (trim key) at unkeyed
      dsimp only
      split
      · split
        · rintro (none' | same)
          · cases none'
          · cases same
            exact unkeyed
        · rintro (none' | same)
          · cases none'
          · cases same
            simp only [List.mem_append, not_or]
            exact ⟨⟨unvalued, middle⟩, unkeyed⟩
      · rintro (same | none')
        · cases same
          exact absent_constant c foreign _ _ unkeyed unvalued
        · cases none'

def constantLines (properties : Text) : Text :=
  ((objectEntries properties).filterMap ObjectEntry.constant?).flatMap (· ++ "\n")

def exportList (properties : Text) : Text :=
  join ", " ((objectEntries properties).filterMap ObjectEntry.listed?)

theorem declarations_parts (properties : Text) : objectDeclarations properties =
    constantLines properties ++ ("export \x7b " ++ (exportList properties ++ " \x7d;")) := by
  unfold objectDeclarations constantLines exportList
  rw [join_snoc, List.append_assoc]

theorem constant_lines_begin (properties : Text) :
    constantLines properties = [] ∨ ∃ more, constantLines properties = "export " ++ more := by
  unfold constantLines
  induction objectEntries properties with
  | nil => exact .inl rfl
  | cons entry rest ih =>
      cases entry with
      | constant name value => exact .inr ⟨_, rfl⟩
      | listed text => exact ih
      | dropped => exact ih

theorem declarations_shape (properties : Text) :
    ∃ body : Text, objectDeclarations properties = "export " ++ (body ++ ";") := by
  rw [declarations_parts]
  rcases constant_lines_begin properties with none' | ⟨more, some'⟩
  · rw [none']
    exact ⟨"\x7b " ++ (exportList properties ++ " \x7d"), by simp⟩
  · rw [some']
    exact ⟨more ++ ("export \x7b " ++ (exportList properties ++ " \x7d")), by simp⟩

theorem entries_absent (c : Char) (foreign : c ∉ glue) (properties : Text) (absent : c ∉ properties) :
    ∀ entry ∈ objectEntries properties, ∀ text,
      entry.constant? = some text ∨ entry.listed? = some text → c ∉ text := by
  intro entry member
  obtain ⟨property, kept, rfl⟩ := List.mem_map.mp member
  obtain ⟨part, within, rfl⟩ := List.mem_map.mp (List.mem_filter.mp kept).1
  apply absent_entry c foreign
  exact trim_absent isBlank part c (split_absent ',' c properties part absent within)

theorem constant_lines_absent (c : Char) (foreign : c ∉ glue) (properties : Text)
    (absent : c ∉ properties) : c ∉ constantLines properties := by
  intro member
  obtain ⟨line, within, inside⟩ := List.mem_flatMap.mp member
  obtain ⟨entry, entered, constant⟩ := List.mem_filterMap.mp within
  rcases List.mem_append.mp inside with early | late
  · exact entries_absent c foreign properties absent entry entered line (.inl constant) early
  · exact foreign ((by decide : "\n".toList ⊆ glue) late)

theorem join_absent (c : Char) (sep : Text) (foreign : c ∉ sep) (parts : List Text)
    (absent : ∀ part ∈ parts, c ∉ part) : c ∉ join sep parts := by
  induction parts with
  | nil => exact List.not_mem_nil
  | cons part rest ih =>
      have here := absent part List.mem_cons_self
      cases rest with
      | nil => exact here
      | cons next rest =>
          have later := ih fun part member => absent part (List.mem_cons_of_mem _ member)
          rw [join_cons]
          simp only [List.mem_append, not_or]
          exact ⟨⟨here, foreign⟩, later⟩

theorem export_list_absent (c : Char) (foreign : c ∉ glue) (properties : Text)
    (absent : c ∉ properties) : c ∉ exportList properties := by
  apply join_absent c _ fun member => foreign ((by decide : ", ".toList ⊆ glue) member)
  intro part member
  obtain ⟨entry, entered, listed⟩ := List.mem_filterMap.mp member
  exact entries_absent c foreign properties absent entry entered part (.inr listed)

structure Assigned (old new : Text) : Prop where
  begins : ∃ c rest, old = c :: rest ∧ isSpace c = false ∧ c ≠ ','
  plain : old.all isHead = true
  declares : new = "export default ".toList ∨
    ∃ name : Text, name.all isIdentPart = true ∧ new = exportConst name []

theorem export_const_append (name value : Text) :
    exportConst name value = exportConst name [] ++ value := by
  unfold exportConst
  rw [List.append_nil]

theorem export_const_parts (name : Text) :
    exportConst name [] = "export const " ++ (name ++ " = ") := by
  unfold exportConst
  rw [List.append_nil, List.append_assoc]

theorem export_const_begins (name value : Text) :
    ∃ more, exportConst name value = "export " ++ more := ⟨_, rfl⟩

theorem assigned_reads (text value : Text) (found : afterAssignment? text = some value) :
    Reads isHead text value := by
  obtain ⟨rest, equals, rfl⟩ := Option.map_eq_some_iff.mp found
  exact (reads_spaces space_head).trans <|
    (reads_after "=" (by decide) equals).trans (reads_spaces space_head)

theorem named_some (line name value : Text) (found : namedExport? line = some (name, value)) :
    ∃ start rest tail : Text, (start = "exports.".toList ∨ start = "module.exports.".toList) ∧
      line = start ++ rest ∧ identifier? rest = some (name, tail) ∧
      afterAssignment? tail = some value := by
  simp only [namedExport?, Option.bind_eq_bind, Option.bind_eq_some_iff, Prod.exists,
    Option.some.injEq, Prod.mk.injEq] at found
  obtain ⟨rest, exports, name', tail, named, value', assigned, rfl, rfl⟩ := found
  have exported := after?_eq_some.mp exports
  cases moduled : line.after? "module." with
  | none =>
      rw [moduled] at exported
      exact ⟨_, rest, tail, .inl rfl, exported, named, assigned⟩
  | some shorter =>
      rw [moduled] at exported
      refine ⟨_, rest, tail, .inr rfl, ?_, named, assigned⟩
      rw [after?_eq_some.mp moduled]
      exact congrArg ("module.".toList ++ ·) exported

theorem named_reads (rest name tail value : Text) (named : identifier? rest = some (name, tail))
    (assigned : afterAssignment? tail = some value) :
    name.all isIdentPart = true ∧ Reads isHead rest value := by
  obtain ⟨whole, _, inside⟩ := identifier_some name named
  have read : Reads isHead rest tail :=
    ⟨name, whole, all_weaken isIdentPart (head_of _ rfl rfl rfl) name inside⟩
  exact ⟨inside, read.trans (assigned_reads tail value assigned)⟩

theorem assigned_of (start rest value new : Text) (line : Text) (whole : line = start ++ rest)
    (reads : Reads isHead rest value)
    (begins : ∃ c more, start = c :: more ∧ isSpace c = false ∧ c ≠ ',') (plain : start.all isHead = true)
    (declares : new = "export default ".toList ∨
      ∃ name : Text, name.all isIdentPart = true ∧ new = exportConst name []) :
    ∃ old, line = old ++ value ∧ Assigned old new := by
  obtain ⟨used, rfl, clean⟩ := reads
  obtain ⟨c, more, rfl, solid⟩ := begins
  refine ⟨c :: more ++ used, by rw [whole, List.append_assoc], ⟨c, more ++ used, rfl, solid⟩, ?_, declares⟩
  rw [List.all_append, plain, clean]
  rfl

theorem export_line_cases (line : Text) :
    (namedExport? line = none ∧ (line.after? "module.exports").bind afterAssignment? = none ∧
      exportLine line = line) ∨
    ∃ old new value, line = old ++ value ∧ exportLine line = new ++ value ∧ Assigned old new := by
  unfold exportLine
  cases named : namedExport? line with
  | some pair =>
      rcases pair with ⟨name, value⟩
      obtain ⟨start, rest, tail, starts, whole, identified, assigns⟩ := named_some line name value named
      obtain ⟨inside, reads⟩ := named_reads rest name tail value identified assigns
      have begins : ∃ c more, start = c :: more ∧ isSpace c = false ∧ c ≠ ',' := by
        rcases starts with rfl | rfl
        · exact ⟨'e', _, rfl, rfl, by decide⟩
        · exact ⟨'m', _, rfl, rfl, by decide⟩
      have plain : start.all isHead = true := by
        rcases starts with rfl | rfl
        · decide
        · decide
      refine .inr ?_
      by_cases default' : name = "default"
      · obtain ⟨old, cut, assigned⟩ := assigned_of start rest value "export default " line whole reads
          begins plain (.inl rfl)
        exact ⟨old, _, value, cut, by simp only [if_pos default'], assigned⟩
      · obtain ⟨old, cut, assigned⟩ := assigned_of start rest value _ line whole reads begins plain
          (.inr ⟨name, inside, rfl⟩)
        refine ⟨old, _, value, cut, ?_, assigned⟩
        simp only [if_neg default']
        exact export_const_append name value
  | none =>
      cases whole : (line.after? "module.exports").bind afterAssignment? with
      | none => exact .inl ⟨rfl, rfl, rfl⟩
      | some value =>
          obtain ⟨rest, exports, assigns⟩ := Option.bind_eq_some_iff.mp whole
          obtain ⟨old, cut, assigned⟩ := assigned_of _ rest value "export default " line
            (after?_eq_some.mp exports) (assigned_reads rest value assigns)
            ⟨'m', _, rfl, rfl, by decide⟩ (by decide) (.inl rfl)
          exact .inr ⟨old, _, value, cut, rfl, assigned⟩

def Replaces {α : Type} (matcher : Matcher α) (print : α → Text) (old new : Text) : Prop :=
  ∃ before left found, matcher before (old ++ left) = some (found, left) ∧ new = print found

theorem replaces_edited {α : Type} {matcher : Matcher α} (print : α → Text)
    (consumes : Consumes matcher) (before : Option Char) (text : Text) :
    Edited (Replaces matcher print) text (render print (scanFrom matcher 0 before text)) :=
  rewrite_edited consumes
    (fun before _ left found hit => .single ⟨before, left, found, hit, rfl⟩) before text

theorem export_lines_edited (text : Text) (absent : '\r' ∉ text) :
    Edited Assigned text (mapLines exportLine text) := by
  apply map_lines_edited exportLine (by decide) ?_ text absent
  intro line _ _
  rcases export_line_cases line with ⟨_, _, same⟩ | ⟨old, new, value, rfl, same, assigned⟩
  · rw [same]
    exact .refl line
  · rw [same]
    exact .change assigned (.refl value)

def ExtensionEdit (old new : Text) : Prop := old = defaultExtension ∧ new = fallbackExtension

def isMisnamed (tree : FileTree) (dir : Path) (literal : RelativeLiteral) : Bool :=
  literal.opening = literal.closing ∧
    !tree.isPresent (dir.join (literal.path ++ defaultExtension)) ∧
    tree.isPresent (dir.join (literal.path ++ fallbackExtension))

theorem repaired_parts (tree : FileTree) (dir : Path) (literal : RelativeLiteral) :
    repaired tree dir literal = literal.opening :: (literal.path ++
      ((if isMisnamed tree dir literal then fallbackExtension else defaultExtension) ++
        [literal.closing])) := by
  unfold repaired isMisnamed
  simp only [decide_eq_true_eq, List.append_assoc, List.cons_append]

theorem relative_edited (tree : FileTree) (dir : Path) (before : Option Char) (text : Text) :
    Edited ExtensionEdit text
      (render (repaired tree dir) (scanFrom literalMatcher 0 before text)) := by
  apply rewrite_edited relative_consumes
  intro before used left literal hit
  rw [relative_used before used left literal hit, repaired_parts]
  split
  · exact ((Edited.refl literal.path).append (.change ⟨rfl, rfl⟩ (.refl [literal.closing]))).keep _
  · exact .refl _

end DevServer.CommonJs
