import DevServer.Proofs.Assignments
import DevServer.Proofs.Marks

set_option autoImplicit false

namespace DevServer.CommonJs

open Text

theorem module_nil : isModuleLine [] = false := by decide

theorem module_same (line other : Text)
    (same : ∀ word ∈ moduleWords, (trimStart line).startsWith word = (trimStart other).startsWith word) :
    isModuleLine line = isModuleLine other := any_same _ _ moduleWords same

theorem module_chomp (line : Text) : isModuleLine (chomp line) = isModuleLine line := by
  have unreturned : ∀ word ∈ moduleWords, '\r' ∉ word := by decide
  apply module_same
  intro word member
  exact trim_starts_chomp line word (unreturned word member)

theorem module_opens (word rest : Text) (member : word ∈ moduleWords) :
    isModuleLine (word ++ rest) = true := by
  have solid : ∀ word ∈ moduleWords, (word.head?.any fun c => !isBlank c) = true := by decide
  have first := solid word member
  have same : trimStart (word ++ rest) = word ++ rest := by
    cases word with
    | nil => cases first
    | cons c word =>
        have stop : isBlank c = false := by simpa using first
        exact List.dropWhile_cons_of_neg (by simp [stop])
  unfold isModuleLine
  rw [same]
  exact List.any_eq_true.mpr ⟨word, member, startsWith_iff.mpr ⟨rest, rfl⟩⟩

theorem module_parts (text : Text) : hasModuleSyntax text = (split '\n' text).any isModuleLine :=
  any_lines isModuleLine module_nil module_chomp text

section Edited

variable {edit : Text → Text → Prop} {a b : Text}

def isOther (c : Char) : Bool := !isBlank c && moduleWords.all fun word => !word.contains c

-- An edit within a line that neither takes away nor puts in the start of a module line.
structure Aside (edit : Text → Text → Prop) : Prop where
  old : ∀ old new, edit old new → ∃ c rest, old = c :: rest ∧ isOther c = true ∧ '\n' ∉ old
  new : ∀ old new, edit old new → ∃ c rest, new = c :: rest ∧ isOther c = true ∧ '\n' ∉ new

variable (aside : Aside edit)
include aside

theorem trim_edited (edited : Edited edit a b) : Edited edit (trimStart a) (trimStart b) := by
  unfold trimStart trimStartOf
  have solid (c : Char) (other : isOther c = true) : ¬ isBlank c = true := by
    unfold isOther at other
    simp only [Bool.and_eq_true, Bool.not_eq_true'] at other
    simp [other.1]
  induction edited with
  | nil => exact .nil
  | keep c edited ih =>
      by_cases blank : isBlank c = true
      · simpa only [List.dropWhile_cons, if_pos blank] using ih
      · simpa only [List.dropWhile_cons, if_neg blank] using edited.keep c
  | change changed edited ih =>
      obtain ⟨c, rest, rfl, first, _⟩ := aside.old _ _ changed
      obtain ⟨d, more, rfl, second, _⟩ := aside.new _ _ changed
      have whole := edited.change changed
      simpa only [List.cons_append, List.dropWhile_cons, if_neg (solid c first), if_neg (solid d second)]
        using whole

theorem starts_edited (word : Text) (member : word ∈ moduleWords) (edited : Edited edit a b) :
    startsWith a word = startsWith b word := by
  have foreign (c : Char) (other : isOther c = true) : c ∉ word := by
    unfold isOther at other
    simp only [Bool.and_eq_true] at other
    simpa using List.all_eq_true.mp other.2 word member
  clear member
  induction word generalizing a b with
  | nil => simp [startsWith, after?]
  | cons d word ih =>
      have later (c : Char) (other : isOther c = true) : c ≠ d ∧ c ∉ word := by
        simpa only [List.mem_cons, not_or] using foreign c other
      cases edited with
      | nil => rfl
      | keep c edited =>
          by_cases same : c = d
          · simpa only [startsWith, after?, if_pos same] using ih edited fun c other => (later c other).2
          · simp only [startsWith, after?, if_neg same]
      | change changed edited =>
          obtain ⟨c, rest, rfl, first, _⟩ := aside.old _ _ changed
          obtain ⟨e, more, rfl, second, _⟩ := aside.new _ _ changed
          simp only [List.cons_append, startsWith, after?, if_neg (later c first).1,
            if_neg (later e second).1]

theorem module_line_edited (edited : Edited edit a b) : isModuleLine a = isModuleLine b :=
  module_same a b fun word member => starts_edited aside word member (trim_edited aside edited)

theorem any_edited (edited : Edited edit a b) : ∃ head tail head' tail',
    split '\n' a = head :: tail ∧ split '\n' b = head' :: tail' ∧ Edited edit head head' ∧
      tail.any isModuleLine = tail'.any isModuleLine := by
  induction edited with
  | nil => exact ⟨[], [], [], [], rfl, rfl, .nil, rfl⟩
  | keep c edited ih =>
      obtain ⟨head, tail, head', tail', first, second, front, rest⟩ := ih
      rw [split, split, first, second]
      by_cases feed : c = '\n'
      · rw [if_pos feed, if_pos feed]
        refine ⟨[], _, [], _, rfl, rfl, .nil, ?_⟩
        rw [List.any_cons, List.any_cons, rest, module_line_edited aside front]
      · rw [if_neg feed, if_neg feed]
        exact ⟨_, _, _, _, rfl, rfl, front.keep c, rest⟩
  | change changed edited ih =>
      obtain ⟨head, tail, head', tail', first, second, front, rest⟩ := ih
      obtain ⟨_, _, _, _, unbroken⟩ := aside.old _ _ changed
      obtain ⟨_, _, _, _, unbroken'⟩ := aside.new _ _ changed
      exact ⟨_, _, _, _, split_unbroken _ _ _ _ unbroken first, split_unbroken _ _ _ _ unbroken' second,
        front.change changed, rest⟩

theorem module_edited (edited : Edited edit a b) : hasModuleSyntax b = hasModuleSyntax a := by
  obtain ⟨head, tail, head', tail', first, second, front, rest⟩ := any_edited aside edited
  rw [module_parts, module_parts, first, second, List.any_cons, List.any_cons, rest,
    module_line_edited aside front]

end Edited

theorem extension_aside : Aside ExtensionEdit where
  old := by
    rintro old new ⟨rfl, rfl⟩
    exact ⟨'.', _, rfl, by decide, by decide⟩
  new := by
    rintro old new ⟨rfl, rfl⟩
    exact ⟨'.', _, rfl, by decide, by decide⟩

theorem word_aside (word new : Text) (old : ∃ c rest, word = c :: rest ∧ isOther c = true ∧ '\n' ∉ word)
    (new' : ∃ c rest, new = c :: rest ∧ isOther c = true ∧ '\n' ∉ new) :
    Aside (Replaces (wholeWord word) fun _ => new) where
  old := by
    intro old' new' changed
    rw [(replaced_word old' new' changed).1]
    exact old
  new := by
    intro old' new'' changed
    rw [(replaced_word old' new'' changed).2]
    exact new'

theorem file_aside : Aside (Replaces (wholeWord "__filename") fun _ => "new URL(import.meta.url).pathname") :=
  word_aside _ _ ⟨'_', _, rfl, by decide, by decide⟩ ⟨'n', _, rfl, by decide, by decide⟩

theorem dir_aside :
    Aside (Replaces (wholeWord "__dirname") fun _ => "new URL(\".\", import.meta.url).pathname") :=
  word_aside _ _ ⟨'_', _, rfl, by decide, by decide⟩ ⟨'n', _, rfl, by decide, by decide⟩

theorem repaired_module (tree : FileTree) (file : Path) (text : Text) :
    hasModuleSyntax (repairExtensions tree file text) = hasModuleSyntax text :=
  module_edited extension_aside (relative_edited tree _ none text)

theorem globals_module (text : Text) : hasModuleSyntax (replacePathGlobals text) = hasModuleSyntax text := by
  have files := module_edited file_aside
    (replaces_edited _ (word_consumes "__filename" (by decide)) none text)
  exact (module_edited dir_aside (replaces_edited _ (word_consumes "__dirname" (by decide)) none _)).trans
    files

section Exports

theorem module_export_line (line : Text) :
    isModuleLine (exportLine line) = (isModuleLine line || isAssigned line) := by
  cases assigned : isAssigned line with
  | false => rw [unassigned_same line assigned, Bool.or_false]
  | true =>
      rw [Bool.or_true]
      rcases export_line_cases line with ⟨named, whole, _⟩ | ⟨old, new, value, _, same, declared⟩
      · unfold isAssigned at assigned
        rw [named, whole] at assigned
        cases assigned
      · obtain ⟨⟨more, rfl⟩, _⟩ := assigned_opens old new declared
        rw [same, List.append_assoc]
        exact module_opens "export " _ (by decide)

theorem unbroken_parts (p : Text → Bool) (line : Text) (unbroken : '\n' ∉ line) :
    (split '\n' line).any p = p line := by
  rw [split_none '\n' line unbroken, List.any_cons, List.any_nil, Bool.or_false]

def declaresLine (line : Text) : Bool := isModuleLine line || isAssigned line

theorem export_lines_module (text : Text) :
    hasModuleSyntax (mapLines exportLine text) = (lines text).any declaresLine := by
  rw [module_parts, any_map_lines isModuleLine module_nil]
  apply any_same
  intro line member
  rw [unbroken_parts _ _ (export_line_unbroken line (lines_unbroken text line member)),
    module_export_line]
  rfl

theorem object_line (before : Option Char) (text : Text)
    (found : matchesFrom objectMatcher before text = true) :
    ∃ more : Text, '\n' :: ("export " ++ more) <:+
        render objectDeclarations (scanFrom objectMatcher 0 before text) ∨
      before.any (· ≠ '\n') = false ∧
        render objectDeclarations (scanFrom objectMatcher 0 before text) = "export " ++ more := by
  induction before, text using scan_induction object_consumes with
  | nil before => cases found
  | kept before c rest miss ih =>
      rw [matchesFrom, miss, Option.isSome_none, Bool.false_or] at found
      rw [scan_kept before c rest miss, render_cons]
      obtain ⟨more, inside | ⟨starts, same⟩⟩ := ih found
      · exact ⟨more, .inl (inside.trans (List.suffix_cons c _))⟩
      · have feed : c = '\n' := by simpa using starts
        refine ⟨more, .inl ?_⟩
        rw [same, feed]
        exact List.suffix_refl _
  | found before used left properties nonempty hit ih =>
      obtain ⟨starts, _⟩ := object_some before _ properties left hit
      obtain ⟨body, shape⟩ := declarations_shape properties
      rw [scan_found before used left properties nonempty hit, render_cons]
      refine ⟨body ++ ";" ++ render objectDeclarations (scanFrom objectMatcher 0 used.getLast? left),
        .inr ⟨starts, ?_⟩⟩
      change objectDeclarations properties ++ _ = _
      rw [shape, List.append_assoc]

-- Whether the export pass declares something: a line is a declaration or an assigned
-- export, or an object is assigned that may go over several lines.
def declares (text : Text) : Bool := (lines text).any declaresLine || matches? objectMatcher text

theorem assigned_chomp (line : Text) : isAssigned (chomp line) = isAssigned line := by
  rcases chomp_cases line with same | cut
  · rw [← same]
  · rw [Bool.eq_iff_iff]
    constructor
    · intro assigned
      obtain ⟨front, right, whole, _, again⟩ := assigned_front _ assigned
      rw [cut, whole, List.append_assoc]
      exact again _
    · intro assigned
      obtain ⟨front, right, whole, _, again⟩ := assigned_front _ assigned
      have shorter := congrArg List.dropLast (cut.symm.trans whole)
      rw [List.dropLast_concat] at shorter
      cases right with
      | nil =>
          have last := congrArg List.getLast? (cut.symm.trans whole)
          simp at last
      | cons c right =>
          rw [shorter]
          simpa using again (c :: right).dropLast

theorem declares_parts (text : Text) : (lines text).any declaresLine = (split '\n' text).any declaresLine := by
  apply any_lines declaresLine (by decide)
  intro line
  unfold declaresLine
  rw [module_chomp, assigned_chomp]

theorem exports_module (text : Text) :
    hasModuleSyntax (normalizeExports text) = declares (rewrite propertyMatcher Property.declaration text) := by
  unfold normalizeExports declares
  rw [export_lines_module]
  generalize rewrite propertyMatcher Property.declaration text = text
  cases found : matches? objectMatcher text with
  | false =>
      have same : rewrite objectMatcher objectDeclarations text = text := scan_unmatched _ none text found
      rw [same, Bool.or_false]
  | true =>
      rw [Bool.or_true, declares_parts]
      obtain ⟨more, place⟩ := object_line none text found
      have suffix : '\n' :: ("export " ++ more) <:+ '\n' :: rewrite objectMatcher objectDeclarations text := by
        rcases place with inside | ⟨_, same⟩
        · exact inside.trans (List.suffix_cons _ _)
        · have whole : rewrite objectMatcher objectDeclarations text = "export " ++ more := same
          exact whole ▸ List.suffix_refl _
      have line := (mem_split_iff _ _).mpr ⟨_, suffix, rfl⟩
      refine List.any_eq_true.mpr ⟨_, line, ?_⟩
      rw [line_opens "export " more (by decide)]
      unfold declaresLine
      rw [module_opens "export " _ (by decide)]
      rfl

theorem rewrite_module (tree : FileTree) (file : Path) (source : Text) :
    hasModuleSyntax (toModule tree file source) =
      declares (rewrite propertyMatcher Property.declaration (normalizeImports (lift source))) := by
  unfold toModule
  rw [globals_module, repaired_module, exports_module]

end Exports

end DevServer.CommonJs
