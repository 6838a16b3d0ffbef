import DevServer.Proofs.LoadStatements

set_option autoImplicit false

namespace DevServer.Text

section Between

-- A text that fills a line between these: the one ends a line, if it is there at all, and
-- the other begins with the end of this one.
structure FillsLine (above line below : Text) : Prop where
  begins : above = [] ∨ above.getLast? = some '\n'
  single : '\n' ∉ line
  unreturned : line.getLast? ≠ some '\r'
  ends : below = [] ∨ ∃ rest, below = '\n' :: rest ∨ below = '\r' :: '\n' :: rest

theorem map_lines_line (edit : Text → Text) (line rest : Text) (single : '\n' ∉ line) :
    mapLines edit (line ++ '\n' :: rest) = edit (chomp line) ++ '\n' :: mapLines edit rest := by
  rw [map_lines_concat, split_none '\n' line single]
  simp

variable (edit : Text → Text) (empty : edit [] = [])

include empty

theorem map_lines_front (line below : Text) (single : '\n' ∉ line) (unreturned : line.getLast? ≠ some '\r')
    (ends : below = [] ∨ ∃ rest, below = '\n' :: rest ∨ below = '\r' :: '\n' :: rest) :
    mapLines edit (line ++ below) = edit line ++ mapLines edit below := by
  have feed (rest : Text) : mapLines edit ('\n' :: rest) = '\n' :: mapLines edit rest := by
    have whole := map_lines_line edit [] rest List.not_mem_nil
    rwa [chomp, empty] at whole
  have returned (rest : Text) : mapLines edit ('\r' :: '\n' :: rest) = '\n' :: mapLines edit rest := by
    have whole := map_lines_line edit ['\r'] rest (by decide)
    rwa [chomp, empty] at whole
  have kept : chomp line = line := by
    obtain same | cut := chomp_cases line
    · exact same.symm
    · rw [cut] at unreturned
      simp at unreturned
  obtain rfl | ⟨rest, rfl | rfl⟩ := ends
  · have nothing := map_lines_single edit empty [] List.not_mem_nil
    rw [nothing, empty, List.append_nil, List.append_nil, map_lines_single edit empty line single]
  · rw [map_lines_line edit line rest single, kept, feed]
  · have whole := map_lines_line edit (line ++ ['\r']) rest (by simp [single])
    rw [List.append_assoc, chomp_over line ['\r'] (List.cons_ne_nil _ _), chomp, List.append_nil] at whole
    rw [returned]
    exact whole

theorem map_lines_between (above line below : Text) (fills : FillsLine above line below) :
    mapLines edit (above ++ (line ++ below)) = mapLines edit above ++ (edit line ++ mapLines edit below) := by
  have nothing : mapLines edit [] = [] := (map_lines_single edit empty [] List.not_mem_nil).trans empty
  have behind := map_lines_front edit empty line below fills.single fills.unreturned fills.ends
  obtain rfl | last := fills.begins
  · rw [nothing]
    exact behind
  · obtain ⟨front, rfl⟩ := List.getLast?_eq_some_iff.mp last
    rw [List.append_assoc, List.singleton_append, map_lines_concat, map_lines_concat edit front [], nothing,
      List.append_nil, behind]

end Between

end DevServer.Text

namespace DevServer.CommonJs

open Text

section Extensions

def lastPart (source : Text) : Text := (split '/' source).getLast (split_ne_nil '/' source)

def extended (source : Text) : Text :=
  if (source.head? = some '.' ∨ source.head? = some '/') ∧ source.getLast? ≠ some '/' ∧
      lastPart source ≠ ['.'] ∧ lastPart source ≠ ['.', '.'] ∧ '.' ∉ (lastPart source).tail
  then source ++ defaultExtension else source

theorem segment_cut (source : Text) : '/' ∉ lastSegment source ∧
    (source = lastSegment source ∨ ∃ front, source = front ++ '/' :: lastSegment source) := by
  have absent : '/' ∉ lastSegment source := by
    intro member
    have inside := List.all_eq_true.mp List.all_takeWhile _ (List.mem_reverse.mp member)
    cases inside
  refine ⟨absent, ?_⟩
  have whole : source = (source.reverse.dropWhile (· ≠ '/')).reverse ++ lastSegment source := by
    rw [lastSegment, ← List.reverse_append, List.takeWhile_append_dropWhile, List.reverse_reverse]
  cases rest : source.reverse.dropWhile (· ≠ '/') with
  | nil =>
      rw [rest] at whole
      exact .inl whole
  | cons c front =>
      have stops := List.head?_dropWhile_not (· ≠ '/') source.reverse
      rw [rest] at stops whole
      obtain rfl : c = '/' := by simpa using stops
      exact .inr ⟨front.reverse, by simpa using whole⟩

theorem last_segment_part (source : Text) : lastSegment source = lastPart source := by
  obtain ⟨absent, same | ⟨front, cut⟩⟩ := segment_cut source
  · have single := split_none '/' _ absent
    rw [← same] at single ⊢
    simp [lastPart, single]
  · have parts := split_concat '/' front (lastSegment source)
    rw [split_none '/' _ absent, ← cut] at parts
    simp [lastPart, parts]

theorem last_part_some (source : Text) (some' : source ≠ []) :
    lastPart source ≠ [] ↔ source.getLast? ≠ some '/' := by
  rw [← last_segment_part]
  obtain ⟨absent, same | ⟨front, cut⟩⟩ := segment_cut source
  · rw [← same] at absent ⊢
    exact iff_of_true some' fun last => absent (List.mem_of_getLast? last)
  · have last : source.getLast? = some ((lastSegment source).getLast?.getD '/') := by
      conv_lhs => rw [cut]
      rw [List.getLast?_append, List.getLast?_cons]
      rfl
    rw [last]
    cases ends : (lastSegment source).getLast? with
    | none => simp [List.getLast?_eq_none_iff.mp ends]
    | some c =>
        have member := List.mem_of_getLast? ends
        have other : c ≠ '/' := by
          rintro rfl
          exact absent member
        simp [other, List.ne_nil_of_mem member]

theorem relative_iff (source : Text) :
    isRelative source = true ↔ source.head? = some '.' ∨ source.head? = some '/' := by
  cases source with
  | nil => decide
  | cons c source => simp [isRelative, startsWith, after?]

theorem extension_none (name : Text) : (Path.extensionOf? name).isNone = true ↔ '.' ∉ name.tail := by
  cases cut : cutAt? '.' name.reverse with
  | none =>
      have undotted : '.' ∉ name := by simpa using (cut_at_none '.' name.reverse).mp cut
      simp only [Path.extensionOf?, cut]
      exact iff_of_true rfl fun member => undotted (List.mem_of_mem_tail member)
  | some parts =>
      obtain ⟨last, front⟩ := parts
      obtain ⟨whole, undotted⟩ := (cut_at_some '.' name.reverse last front).mp cut
      obtain rfl : name = front.reverse ++ '.' :: last.reverse := by
        rw [← List.reverse_reverse name, whole]
        simp
      cases turned : front with
      | nil =>
          rw [turned] at cut
          simp only [Path.extensionOf?, cut]
          exact iff_of_true rfl (by simpa using undotted)
      | cons c stem =>
          rw [turned] at cut
          have dotted : '.' ∈ ((c :: stem).reverse ++ '.' :: last.reverse).tail := by
            rw [List.tail_append_of_ne_nil (by simp)]
            exact List.mem_append_right _ List.mem_cons_self
          simp only [Path.extensionOf?, cut]
          exact iff_of_false Bool.false_ne_true fun outside => outside dotted

theorem with_extension_extended (source : Text) : withExtension source = extended source := by
  rw [withExtension, extended, last_segment_part]
  refine if_congr ?_ rfl rfl
  rw [Bool.and_eq_true, Bool.and_eq_true, relative_iff, extension_none, Bool.not_eq_true', decide_eq_false_iff_not,
    not_or, not_or, and_assoc, and_assoc, and_assoc]
  refine and_congr_right fun relative => and_congr_left' ?_
  refine last_part_some source ?_
  rintro rfl
  simp at relative

end Extensions

section Uses

def IsUsed (source name : Text) : Prop :=
  ∃ front c rest, source = front ++ (name ++ '.' :: c :: rest) ∧ isIdentStart c = true ∧
    ∀ d, front.getLast? = some d → isIdentPart d = false ∧ d ≠ '.'

theorem member_matched (name : Text) (before : Option Char) (text : Text) :
    (memberMatcher name before text).isSome = true ↔
      (∀ d, before = some d → isIdentPart d = false ∧ d ≠ '.') ∧
        ∃ c rest, text = name ++ '.' :: c :: rest ∧ isIdentStart c = true := by
  have tried : memberMatcher name before text = (text.after? name).bind fun behind =>
      if before.any joinsCall then none
      else (behind.after? ".").bind fun rest => (char? isIdentStart rest).map fun found => ((), found.2) := by
    cases named : text.after? name with
    | none => simp only [memberMatcher, named, Option.bind_none]
    | some behind =>
        simp only [memberMatcher, named, Option.bind_some, Option.map_eq_bind]
        rfl
  rw [tried, ← joins_none]
  cases joined : before.any joinsCall with
  | true => simp
  | false =>
      simp only [Bool.false_eq_true, if_false, true_and, Option.isSome_iff_exists, Option.bind_eq_some_iff,
        Option.map_eq_some_iff]
      constructor
      · intro ⟨_, behind, named, after, dotted, (c, rest), starts, _⟩
        obtain ⟨rfl, start⟩ := char_some _ c starts
        exact ⟨c, rest, by rw [after?_eq_some.mp named, after?_eq_some.mp dotted]; rfl, start⟩
      · intro ⟨c, rest, whole, start⟩
        exact ⟨_, _, after?_eq_some.mpr whole, c :: rest, rfl, (c, rest), by rw [char?, if_pos start], rfl⟩

theorem used_iff (source name : Text) : usesMember source name = true ↔ IsUsed source name := by
  rw [usesMember, matches?, matches_iff]
  constructor
  · intro ⟨front, d, more, whole, matched⟩
    obtain ⟨apart, c, rest, here, start⟩ := (member_matched name _ _).mp matched
    rw [Option.or_none] at apart
    exact ⟨front, c, rest, by rw [whole, here], start, apart⟩
  · intro ⟨front, c, rest, whole, start, apart⟩
    obtain ⟨d, more, here⟩ : ∃ d more, name ++ '.' :: c :: rest = d :: more := by
      cases name with
      | nil => exact ⟨'.', c :: rest, rfl⟩
      | cons d name => exact ⟨d, name ++ '.' :: c :: rest, rfl⟩
    refine ⟨front, d, more, by rw [whole, here], (member_matched name _ _).mpr ?_⟩
    rw [Option.or_none]
    exact ⟨apart, c, rest, here.symm, start⟩

instance (source name : Text) : Decidable (IsUsed source name) := decidable_of_iff _ (used_iff source name)

end Uses

section Imports

def importedFrom (source : Text) : Text := " from \"" ++ extended source ++ "\";"

def wholeImport (source name : Text) : Text :=
  if IsUsed source name then "import * as " ++ name else "import " ++ name

def Form.imported (form : Form) (source loaded : Text) : Text :=
  match form with
  | .whole name => wholeImport source name ++ importedFrom loaded
  | .member name field => "import \x7b " ++ field ++ " as " ++ name ++ " \x7d" ++ importedFrom loaded
  | .called name arguments =>
    "import " ++ name ++ "Factory" ++ importedFrom loaded ++
      "\nconst " ++ name ++ " = " ++ name ++ "Factory(" ++ arguments ++ ");"
  | .members list _ => "import \x7b " ++ join ", " (list.map Destructured.imported) ++ " \x7d" ++ importedFrom loaded

theorem form_imported (form : Form) (source loaded : Text) (formed : form.isFormed = true) :
    Load.declaration source ⟨form.binding, loaded⟩ = form.imported source loaded := by
  have named : importedFrom loaded = fromModule loaded := by
    unfold fromModule importedFrom
    rw [with_extension_extended]
  unfold Form.imported
  rw [named]
  cases form with
  | whole name =>
      have matched := used_iff source name
      by_cases used : IsUsed source name
      · simp only [Load.declaration, Form.binding, wholeImport, if_pos used, if_pos (matched.mpr used)]
      · simp only [Load.declaration, Form.binding, wholeImport, if_neg used, if_neg (mt matched.mp used)]
  | member name field => rfl
  | called name arguments => rfl
  | members list trailing =>
      simp only [Load.declaration, Form.binding, list_imported list trailing (trailing_blank list trailing formed)]

theorem loads_imported (statement : LoadStatement) (source above below : Text)
    (whole : source = above ++ (statement.text ++ below)) (fills : FillsLine above statement.text below) :
    normalizeImports source = mapLines (importLine source) above ++
      (statement.form.imported source statement.argument.source ++ mapLines (importLine source) below) := by
  have line : importLine source statement.text = statement.form.imported source statement.argument.source := by
    rw [importLine, statement_read]
    exact form_imported statement.form source statement.argument.source statement.formed
  have parts := map_lines_between (importLine source) rfl above statement.text below fills
  rwa [← whole, line] at parts

def namesStatement : LoadStatement where
  keyword := "const"
  start := []
  form := .members
    [⟨[], "a", none, [], none, by decide, by decide, by decide, by simp⟩,
      ⟨"\t", "b", some ⟨[], "\t", "c", by decide, by decide, by decide⟩, "\t", some (" 1".toList), by decide, by decide,
        by decide, by simp⟩] (some (" ".toList))
  gap := " "
  space := " "
  argument := ⟨" ", '\'', "./lib.d/m", '\'', [], by decide, by decide, by decide, by decide, by decide, by decide⟩
  ending := ⟨" ", true, [], by decide, by decide⟩
  known := by decide
  apart := by decide
  parted := by simp [Form.name?]
  formed := by decide
  blank := by decide
  clear := by decide

theorem names_imported : namesStatement.text = "const\x7ba,\tb:\tc\t= 1, \x7d = require( './lib.d/m') ;".toList ∧
    FillsLine "'use strict';\n" namesStatement.text "\r\nc(a);" ∧
    normalizeImports ("'use strict';\n" ++ (namesStatement.text ++ "\r\nc(a);")) =
      "'use strict';\nimport \x7b a, b as c \x7d from \"./lib.d/m.js\";\nc(a);".toList := by
  have fills : FillsLine "'use strict';\n" namesStatement.text "\r\nc(a);" :=
    ⟨.inr (by decide), by decide, by decide, .inr ⟨"c(a);", .inr rfl⟩⟩
  refine ⟨by decide, fills, ?_⟩
  rw [loads_imported namesStatement _ _ _ rfl fills]
  decide

end Imports

end DevServer.CommonJs
