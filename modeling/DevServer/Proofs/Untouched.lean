import Mathlib.Data.List.Infix
import DevServer.Proofs.ModuleLines
import DevServer.Proofs.Settled

set_option autoImplicit false

namespace DevServer

open Text

namespace Text

theorem returns_replaced (text : Text) : replace text "\r\n" "\n" = dropReturns text := by
  change replace.go "\n" '\r' ['\n'] 0 text = dropReturns text
  fun_induction dropReturns text with
  | case1 => rfl
  | case2 text ih =>
      have opens : startsWith ('\r' :: '\n' :: text) ['\r', '\n'] = true := startsWith_iff.mpr ⟨text, rfl⟩
      rw [replace.go, if_pos opens, ← ih]
      rfl
  | case3 c text other ih =>
      have apart : ¬ startsWith (c :: text) ['\r', '\n'] = true := by
        intro starts
        obtain ⟨rest, whole⟩ := startsWith_iff.mp starts
        obtain ⟨return', feed⟩ := List.cons.inj whole
        exact other rest return' feed
      rw [replace.go, if_neg apart, ih]

end Text

namespace CommonJs

section Lines

variable (line : Text)

theorem comment_chomp : isComment (chomp line) = isComment line := by
  have slashes := trim_starts_chomp line "//" (by decide)
  have opening := trim_starts_chomp line "/*" (by decide)
  have star := trim_starts_chomp line "*" (by decide)
  simp only [isComment, slashes, opening, star]

theorem keyword_uncommented (text : Text) (found : keyword? line = some text) :
    isComment line = false := by
  obtain ⟨word, member, rfl⟩ := keyword_some line text found
  have solid : ∀ word ∈ keywords, (word.head?.any fun c => !isBlank c && c != '/' && c != '*') = true := by
    decide
  have first := solid word member
  cases word with
  | nil => cases first
  | cons c rest =>
      simp only [List.head?_cons, Option.any_some, Bool.and_eq_true, Bool.not_eq_true', bne_iff_ne] at first
      obtain ⟨⟨blank, slash⟩, star⟩ := first
      have whole : trimStart (c :: rest ++ text) = c :: (rest ++ text) :=
        List.dropWhile_cons_of_neg (by simp [blank])
      rw [isComment, whole]
      simp [startsWith, after?, slash, star]

theorem counted_call (text : Text) (some' : callCount text ≠ 0) : loadCall <:+: text := by
  induction text with
  | nil => exact absurd rfl some'
  | cons c text ih =>
      by_cases starts : startsWith (c :: text) loadCall = true
      · obtain ⟨rest, whole⟩ := startsWith_iff.mp starts
        rw [whole]
        exact (List.prefix_append loadCall rest).isInfix
      · rw [callCount, if_neg starts, Nat.zero_add] at some'
        exact (ih some').trans (List.suffix_cons c text).isInfix

theorem bound_call (bound : isBound line = true) : loadCall <:+: line ∧ isComment line = false := by
  obtain ⟨load, found⟩ := Option.isSome_iff_exists.mp bound
  have fewer := (load_count line load found).1
  rw [Load.ofLine?, Option.bind_eq_bind, Option.bind_eq_some_iff] at found
  obtain ⟨text, keyword, _⟩ := found
  exact ⟨counted_call line (by omega), keyword_uncommented line text keyword⟩

end Lines

def isQuiet (line : Text) : Bool := !line.includes loadCall || isComment line

theorem quiet_chomp (line : Text) (quiet : isQuiet line = true) : isQuiet (chomp line) = true := by
  rw [isQuiet, comment_chomp, Bool.or_eq_true]
  rw [isQuiet, Bool.or_eq_true] at quiet
  refine quiet.imp_left fun absent => ?_
  rw [Bool.not_eq_true', ← Bool.not_eq_true, includes_within] at absent ⊢
  exact fun inside => absent (inside.trans (chomp_front line).isInfix)

theorem quiet_unbound (line : Text) (quiet : isQuiet line = true) : isBound line = false := by
  rw [Bool.eq_false_iff]
  intro bound
  obtain ⟨called, uncommented⟩ := bound_call line bound
  rw [isQuiet, (includes_within line loadCall).mpr called, uncommented] at quiet
  cases quiet

theorem quiet_unlifted (line : Text) (quiet : isQuiet line = true) : isLifted line = false := by
  have unliftable : isLiftable line = false := by
    rw [isQuiet, Bool.or_eq_true, Bool.not_eq_true'] at quiet
    rcases quiet with absent | comment
    · rw [isLiftable, absent, Bool.and_false]
    · rw [isLiftable, comment, Bool.not_true, Bool.and_false, Bool.false_and]
  rw [isLifted, unliftable, Bool.false_and]

section Marked

variable (before : Option Char) (text : Text)

theorem property_exports (property : Property) (left : Text)
    (found : propertyMatcher before text = some (property, left)) : "exports".toList <:+: text := by
  rw [property_parts] at found
  obtain ⟨⟨name, rest⟩, headed, _⟩ := Option.bind_eq_some_iff.mp found
  obtain ⟨t1, t2, _, _, _, _, _, _, _, defines, exports, _⟩ := head_parts text name rest headed
  have opens : "exports".toList <:+: spaces t1 := ⟨[], t2, (after?_eq_some.mp exports).symm⟩
  exact opens.trans ((spaces_suffix t1).trans (after_suffix _ _ _ defines)).isInfix

theorem object_exports (inner left : Text) (found : objectMatcher before text = some (inner, left)) :
    "exports".toList <:+: text := by
  rw [objectMatcher] at found
  split at found
  · cases found
  · rw [Option.bind_eq_bind, Option.bind_eq_some_iff] at found
    obtain ⟨rest, exports, _⟩ := found
    exact ⟨"module.".toList, rest, (after?_eq_some.mp exports).symm⟩

theorem assigned_exports (line : Text) (assigned : isAssigned line = true) :
    "exports".toList <:+: line := by
  rw [isAssigned, Bool.or_eq_true] at assigned
  rcases assigned with named | whole
  · obtain ⟨⟨name, value⟩, found⟩ := Option.isSome_iff_exists.mp named
    obtain ⟨start, rest, _, starts, same, _⟩ := named_some line name value found
    rcases starts with rfl | rfl
    · exact ⟨[], '.' :: rest, same.symm⟩
    · exact ⟨"module.".toList, '.' :: rest, same.symm⟩
  · obtain ⟨value, found⟩ := Option.isSome_iff_exists.mp whole
    obtain ⟨rest, exports, _⟩ := Option.bind_eq_some_iff.mp found
    exact ⟨"module.".toList, rest, (after?_eq_some.mp exports).symm⟩

end Marked

def RelativeLiteral.text (literal : RelativeLiteral) : Text :=
  literal.opening :: (literal.path ++ (defaultExtension ++ [literal.closing]))

structure RelativeLiteral.IsRelative (literal : RelativeLiteral) : Prop where
  opening : isPlainQuote literal.opening = true
  closing : isPlainQuote literal.closing = true
  begins : "./".toList <+: literal.path ∨ "../".toList <+: literal.path
  inside : ∀ c ∈ literal.path, isPlainQuote c = false ∧ c ≠ '\n'

theorem RelativeLiteral.IsRelative.unbroken {literal : RelativeLiteral} (relative : literal.IsRelative) :
    '\n' ∉ literal.text := by
  have plain : ∀ c : Char, isPlainQuote c = true → '\n' ≠ c := by
    rintro c quote rfl
    cases quote
  have extension : '\n' ∉ defaultExtension := by decide
  simp only [RelativeLiteral.text, List.mem_cons, List.mem_append, List.not_mem_nil, or_false, not_or]
  exact ⟨plain _ relative.opening, fun member => (relative.inside _ member).2 rfl, extension,
    plain _ relative.closing⟩

theorem literal_relative (before : Option Char) (text left : Text) (literal : RelativeLiteral)
    (found : literalMatcher before text = some (literal, left)) :
    literal.IsRelative ∧ text = literal.text ++ left := by
  obtain ⟨opening, closing, begins, inside, whole⟩ := relative_some before text left literal found
  exact ⟨⟨opening, closing, begins, inside⟩, by rw [whole, RelativeLiteral.text]; simp⟩

theorem literal_read (before : Option Char) (literal : RelativeLiteral) (relative : literal.IsRelative)
    (left : Text) : literalMatcher before (literal.text ++ left) = some (literal, left) := by
  rcases literal with ⟨opening, path, closing⟩
  obtain ⟨opens, closes, begins, inside⟩ := relative
  have dotted : ∃ dots name, path = dots ++ name ∧ ∀ rest, dots? (path ++ rest) = some (dots, name ++ rest) := by
    rcases begins with ⟨name, rfl⟩ | ⟨name, rfl⟩
    · exact ⟨_, name, rfl, fun rest => rfl⟩
    · exact ⟨_, name, rfl, fun rest => rfl⟩
  obtain ⟨dots, name, rfl, read⟩ := dotted
  have plain : (name ++ defaultExtension).all (fun c => !isPlainQuote c && c != '\n') = true := by
    rw [List.all_append, Bool.and_eq_true]
    refine ⟨List.all_eq_true.mpr fun c member => ?_, by decide⟩
    obtain ⟨unquoted, unbroken⟩ := inside c (List.mem_append_right dots member)
    simp [unquoted, unbroken]
  have run := take_while_stop _ (name ++ defaultExtension) closing left plain (by simp [closes])
  have quoted : RelativeLiteral.text ⟨opening, dots ++ name, closing⟩ ++ left =
      opening :: (dots ++ name ++ (defaultExtension ++ closing :: left)) := by
    simp [RelativeLiteral.text]
  have first : char? isPlainQuote (opening :: (dots ++ name ++ (defaultExtension ++ closing :: left))) =
      some (opening, dots ++ name ++ (defaultExtension ++ closing :: left)) := if_pos opens
  have last : char? isPlainQuote (closing :: left) = some (closing, left) := if_pos closes
  have ends : endsWith (name ++ defaultExtension) defaultExtension = true :=
    (ends_with_iff _ _).mpr (List.suffix_append name defaultExtension)
  rw [quoted, literalMatcher]
  simp only [first, Option.bind_eq_bind, Option.bind_some, read]
  rw [← List.append_assoc, run, List.drop_left, last, Option.bind_some, if_pos ends,
    List.length_append, Nat.add_sub_cancel, List.take_left]

def namesFiles (tree : FileTree) (dir : Path) (text : Text) : Bool :=
  text.tails.all fun place => (literalMatcher none place).all fun found => !isMisnamed tree dir found.1

theorem names_files_iff (tree : FileTree) (dir : Path) (text : Text) : namesFiles tree dir text = true ↔
    ∀ literal : RelativeLiteral, literal.IsRelative → literal.text <:+: text →
      isMisnamed tree dir literal = false := by
  simp only [namesFiles, List.all_eq_true, List.mem_tails, Option.all_eq_true, Bool.not_eq_true',
    Prod.forall]
  constructor
  · intro named literal relative ⟨front, left, whole⟩
    have place : literal.text ++ left <:+ text := ⟨front, by rw [← List.append_assoc, whole]⟩
    exact named _ place literal left (literal_read none literal relative left)
  · intro named place suffix literal left found
    obtain ⟨relative, whole⟩ := literal_relative none place left literal found
    refine named literal relative (List.IsInfix.trans ?_ suffix.isInfix)
    rw [whole]
    exact (List.prefix_append _ left).isInfix

-- A text in which nothing reads as a load, as an export, as a name of the file's path or
-- as a quoted name of a missing file beside which the one with the fallback extension is.
structure Silent (tree : FileTree) (file : Path) (text : Text) : Prop where
  loads : ∀ line ∈ lines text, line.includes loadCall = true → isComment line = true
  exports : text.includes "exports" = false
  fileName : text.includes "__filename" = false
  dirName : text.includes "__dirname" = false
  literals : ∀ literal : RelativeLiteral, literal.IsRelative → literal.text <:+: text →
    isMisnamed tree (homeOf file) literal = false

instance (tree : FileTree) (file : Path) (text : Text) : Decidable (Silent tree file text) :=
  decidable_of_iff
    ((∀ line ∈ lines text, line.includes loadCall = true → isComment line = true) ∧
      text.includes "exports" = false ∧ text.includes "__filename" = false ∧
      text.includes "__dirname" = false ∧ namesFiles tree (homeOf file) text = true)
    ⟨fun ⟨loads, exports, fileName, dirName, named⟩ =>
        ⟨loads, exports, fileName, dirName, (names_files_iff tree (homeOf file) text).mp named⟩,
      fun silent => ⟨silent.loads, silent.exports, silent.fileName, silent.dirName,
        (names_files_iff tree (homeOf file) text).mpr silent.literals⟩⟩

section Silent

variable {tree : FileTree} {file : Path} {text : Text}

theorem Silent.quiet (silent : Silent tree file text) : ∀ line ∈ lines text, isQuiet line = true := by
  intro line member
  rw [isQuiet]
  cases called : line.includes loadCall with
  | false => rfl
  | true => exact silent.loads line member called

theorem Silent.lifted (silent : Silent tree file text) : lift text = dropReturns text :=
  lift_returns fun line member => quiet_unlifted line (silent.quiet line member)

theorem Silent.imported (silent : Silent tree file text) : normalizeImports text = dropReturns text :=
  imports_returns fun line member => quiet_unbound line (silent.quiet line member)

theorem Silent.exported (silent : Silent tree file text) : normalizeExports text = dropReturns text := by
  have absent : ¬ "exports".toList <:+: text := by
    rw [← includes_within, silent.exports]
    exact Bool.false_ne_true
  have properties : rewrite propertyMatcher Property.declaration text = text :=
    scan_unmatched _ none text (unmarked_unmatched _ property_exports none text absent)
  have objects : rewrite objectMatcher objectDeclarations text = text :=
    scan_unmatched _ none text (unmarked_unmatched _ object_exports none text absent)
  rw [normalizeExports, properties, objects]
  apply map_lines_returns
  intro line member
  apply unassigned_same
  rw [Bool.eq_false_iff]
  intro assigned
  exact absent ((assigned_exports line assigned).trans (lines_inside text line member))

theorem Silent.repaired (silent : Silent tree file text) : repairExtensions tree file text = text := by
  apply repaired_same tree (homeOf file) none text
  intro literal found
  obtain ⟨before, place, left, inside, hit⟩ := found_place 0 none text literal found
  obtain ⟨relative, whole⟩ := literal_relative before place left literal hit
  refine silent.literals literal relative (List.IsInfix.trans ?_ inside.isInfix)
  rw [whole]
  exact (List.prefix_append _ _).isInfix

theorem word_same (word new : Text) (absent : text.includes word = false) :
    replaceWord word new text = text := by
  have marked : ∀ before text found left, wholeWord word before text = some (found, left) →
      word <:+: text := by
    intro before text found left hit
    rw [(word_some word left before text found hit).1]
    exact (List.prefix_append word left).isInfix
  refine scan_unmatched _ none text (unmarked_unmatched word marked none text ?_)
  rw [← includes_within, absent]
  exact Bool.false_ne_true

theorem Silent.unnamed (silent : Silent tree file text) : replacePathGlobals text = text := by
  rw [replacePathGlobals, word_same "__filename" _ silent.fileName, word_same "__dirname" _ silent.dirName]

theorem Silent.returned (silent : Silent tree file text) : Silent tree file (dropReturns text) := by
  have kept (mark : Text) (unbroken : '\n' ∉ mark) (absent : text.includes mark = false) :
      (dropReturns text).includes mark = false := by
    rw [← Bool.not_eq_true, includes_within] at absent ⊢
    exact fun inside => absent (returns_inside mark text unbroken inside)
  constructor
  · intro line member called
    obtain ⟨other, within, same⟩ := mem_lines_returns text line member
    have quiet : isQuiet line = true := by
      rcases same with rfl | rfl
      · exact silent.quiet line within
      · exact quiet_chomp other (silent.quiet other within)
    rwa [isQuiet, called, Bool.not_true, Bool.false_or] at quiet
  · exact kept "exports" (by decide) silent.exports
  · exact kept "__filename" (by decide) silent.fileName
  · exact kept "__dirname" (by decide) silent.dirName
  · intro literal relative inside
    exact silent.literals literal relative (returns_inside _ text relative.unbroken inside)

theorem silent_rounds (silent : Silent tree file text) :
    toModule tree file text = dropReturns (dropReturns (dropReturns text)) := by
  have second := silent.returned
  have third := second.returned
  have last := third.returned
  rw [toModule, silent.lifted, second.imported, third.exported, last.repaired, last.unnamed]

theorem silent_untouched (tree : FileTree) (file : Path) (source : Text) (silent : Silent tree file source) :
    let round (text : Text) : Text := text.replace "\r\n" "\n"
    toModule tree file source = round (round (round source)) ∧
      (source.includes "\r\n" = false → toModule tree file source = source) := by
  intro round
  have rounds := silent_rounds silent
  refine ⟨?_, fun absent => ?_⟩
  · simp only [round, returns_replaced]
    exact rounds
  · rw [← Bool.not_eq_true, includes_within] at absent
    have same := drop_returns_same source absent
    rw [rounds, same, same, same]

end Silent

def commentedLoad : Text := "import a from './a.js';\r\n  // once require('../lib/c')\r\r\nrun(a);"

theorem commented_load_untouched :
    Silent sampleTree sampleFile commentedLoad ∧ toModule sampleTree sampleFile commentedLoad =
      "import a from './a.js';\n  // once require('../lib/c')\nrun(a);" := by
  have silent : Silent sampleTree sampleFile commentedLoad := by decide +kernel
  refine ⟨silent, ?_⟩
  rw [(silent_untouched sampleTree sampleFile commentedLoad silent).1]
  decide +kernel

end CommonJs
end DevServer
