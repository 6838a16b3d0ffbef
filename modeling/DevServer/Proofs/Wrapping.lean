import DevServer.Proofs.ModuleLines
import DevServer.Proofs.Settled

set_option autoImplicit false

namespace DevServer.CommonJs

open Text

def opening : Text := "(async () => \x7b"
def closing : Text := "\x7d)();"

def Wraps (inner text : Text) : Prop :=
  ∃ feed : Text, (feed = [] ∨ feed = ['\n']) ∧ text = opening ++ '\n' :: (inner ++ (closing ++ feed))

theorem module_closing (inner feed : Text) (ends : feed = [] ∨ feed = ['\n']) :
    hasModuleSyntax (inner ++ (closing ++ feed)) = hasModuleSyntax inner := by
  have plain : ∀ word ∈ moduleWords, '}' ∉ word := by decide
  have last (line : Text) : isModuleLine (line ++ closing) = isModuleLine line := by
    apply module_same
    intro word member
    change (trimStart (line ++ '}' :: ")();".toList)).startsWith word = _
    rw [trim_over line _ '}' (by decide)]
    exact starts_over _ _ word '}' (plain word member)
  have closed : hasModuleSyntax (inner ++ closing) = hasModuleSyntax inner := by
    have parts := List.dropLast_concat_getLast (split_ne_nil '\n' inner)
    rw [module_parts, module_parts, split_last_line inner closing (by decide), List.any_append, List.any_cons,
      last, ← List.any_cons (l := []), ← List.any_append]
    exact congrArg (List.any · isModuleLine) parts
  rcases ends with rfl | rfl
  · rw [List.append_nil, closed]
  · rw [← closed, ← List.append_assoc, module_parts, module_parts, split_concat, List.any_append]
    simp [split, module_nil]

theorem module_wraps (inner text : Text) (wraps : Wraps inner text) :
    hasModuleSyntax text = hasModuleSyntax inner := by
  obtain ⟨feed, ends, rfl⟩ := wraps
  have first : (split '\n' opening).any isModuleLine = false := by decide
  rw [← module_closing inner feed ends, module_parts, split_concat, List.any_append, first,
    Bool.false_or, ← module_parts]

section Unwrapped

theorem starts_before {edit : Text → Text → Prop} {a b start : Text} (opens : Opens edit start) (mark : Text)
    (apart : isApart mark start = true) (edited : Edited edit a b) (starts : startsWith b mark = true) :
    startsWith a mark = true := by
  obtain ⟨right, found⟩ := Option.isSome_iff_exists.mp starts
  obtain ⟨left, found', _⟩ := after_edited opens mark right apart edited found
  exact Option.isSome_iff_exists.mpr ⟨left, found'⟩

def functionMark : Text := "(async () =>"

theorem word_before (word new text : Text) (begins : ∃ more, new = "new URL(" ++ more)
    (solid : ∃ c rest, word = c :: rest ∧ isSpace c = false ∧ c ≠ ',')
    (starts : startsWith (replaceWord word new text) functionMark = true) :
    startsWith text functionMark = true := by
  have some' : word ≠ [] := by
    obtain ⟨c, rest, rfl, _⟩ := solid
    exact List.cons_ne_nil _ _
  exact starts_before (word_opens "new URL(" begins solid) functionMark (by decide)
    (replaces_edited _ (word_consumes word some') none text) starts

theorem import_line_before (source line : Text)
    (starts : startsWith (importLine source line) functionMark = true) :
    startsWith line functionMark = true := by
  unfold importLine at starts
  cases found : Load.ofLine? line with
  | none =>
      rw [found] at starts
      exact starts
  | some load =>
      obtain ⟨more, same⟩ := declaration_begins source load
      rw [found] at starts
      dsimp only at starts
      rw [same] at starts
      cases starts

theorem export_line_before (line : Text) (starts : startsWith (exportLine line) functionMark = true) :
    startsWith line functionMark = true := by
  rcases export_line_cases line with ⟨_, _, same⟩ | ⟨old, new, value, _, same, assigned⟩
  · rwa [same] at starts
  · obtain ⟨⟨more, rfl⟩, _⟩ := assigned_opens old new assigned
    rw [same, List.append_assoc] at starts
    cases starts

-- No pass writes the start of the function, so it comes from the lifted text.
theorem function_before (tree : FileTree) (file : Path) (source : Text)
    (starts : startsWith (toModule tree file source) functionMark = true) :
    startsWith (lift source) functionMark = true := by
  unfold toModule replacePathGlobals at starts
  have dirs := word_before _ _ _ ⟨_, rfl⟩ ⟨'_', _, rfl, rfl, by decide⟩ starts
  have files := word_before _ _ _ ⟨_, rfl⟩ ⟨'_', _, rfl, rfl, by decide⟩ dirs
  have literals := starts_before extension_opens functionMark (by decide)
    (relative_edited tree _ none _) files
  have lines := map_lines_starts exportLine functionMark (by decide) export_line_before _ literals
  have objects := starts_before object_opens functionMark (by decide)
    (replaces_edited objectDeclarations object_consumes none _) lines
  have properties := starts_before property_opens functionMark (by decide)
    (replaces_edited Property.declaration property_consumes none _) objects
  exact map_lines_starts _ functionMark (by decide) (import_line_before _) _ properties

theorem pending_unwrapped (tree : FileTree) (file : Path) (source : Text)
    (pending : hasPendingModuleSyntax source = true)
    (alone : hasAsyncWrapper (mapLines liftLine source) = false) :
    ¬ ∃ inner, Wraps inner (toModule tree file source) := by
  rintro ⟨inner, feed, _, same⟩
  have starts : startsWith (toModule tree file source) functionMark = true := by
    rw [same]
    exact startsWith_iff.mpr ⟨" \x7b" ++ '\n' :: (inner ++ (closing ++ feed)), rfl⟩
  have earlier := function_before tree file source starts
  have unlifted : lift source = mapLines liftLine source := by
    unfold lift
    rw [pending]
    simp
  rw [unlifted] at earlier
  obtain ⟨rest, whole⟩ := startsWith_iff.mp earlier
  have included : (mapLines liftLine source).includes functionMark = true :=
    (includes_iff _ _).mpr ⟨[], rest, whole⟩
  unfold hasAsyncWrapper at alone
  change (_ || includes _ functionMark || _) = false at alone
  rw [included] at alone
  simp at alone

end Unwrapped

section Wrapped

theorem trim_feeds (text : Text) : ∃ feeds, text = trimEndOf (· == '\n') text ++ feeds ∧
    ∀ c ∈ feeds, c = '\n' := by
  refine ⟨(text.reverse.takeWhile (· == '\n')).reverse, ?_, ?_⟩
  · unfold trimEndOf
    rw [← List.reverse_append, List.takeWhile_append_dropWhile, List.reverse_reverse]
  · intro c member
    have inside := List.all_eq_true.mp List.all_takeWhile c (List.mem_reverse.mp member)
    exact beq_iff_eq.mp inside

theorem wrap_wraps (text : Text) : Wraps (trimEndOf (· == '\n') text ++ ['\n']) (wrap text) := by
  have first : "(async () => \x7b\n".toList = opening ++ ['\n'] := by decide
  have last : "\n\x7d)();".toList = '\n' :: closing := by decide
  refine ⟨(if text.getLast? = some '\n' then "\n" else "").toList, ?_, ?_⟩
  · split
    · exact .inr (by decide)
    · exact .inl (by decide)
  · unfold wrap
    rw [first, last]
    simp

section Parts

variable (p : Text → Bool) (silent : p [] = false)
include silent

theorem wraps_parts (first : p opening = false) (last : p closing = false) (inner text : Text)
    (wraps : Wraps (inner ++ ['\n']) text) : (split '\n' text).any p = (split '\n' inner).any p := by
  obtain ⟨feed, ends, rfl⟩ := wraps
  have opened := unbroken_parts p opening (by decide)
  have closed : (split '\n' (closing ++ feed)).any p = false := by
    rcases ends with rfl | rfl
    · rw [List.append_nil, unbroken_parts p closing (by decide), last]
    · rw [split_concat, List.any_append, unbroken_parts p closing (by decide), last]
      simp [split, silent]
  rw [List.append_assoc, split_concat, List.any_append, opened, first, Bool.false_or, List.singleton_append,
    split_concat, List.any_append, closed, Bool.or_false]

omit silent in
theorem trim_parts (text : Text) (none' : (split '\n' text).any p = false) :
    (split '\n' (trimEndOf (· == '\n') text)).any p = false := by
  obtain ⟨feeds, whole, all⟩ := trim_feeds text
  generalize trimEndOf (· == '\n') text = trimmed at whole
  cases feeds with
  | nil => rwa [whole, List.append_nil] at none'
  | cons c feeds =>
      rw [whole, all c List.mem_cons_self, split_concat, List.any_append, Bool.or_eq_false_iff] at none'
      exact none'.1

theorem wrap_parts (first : p opening = false) (last : p closing = false) (text : Text)
    (none' : (split '\n' text).any p = false) : (split '\n' (wrap text)).any p = false := by
  rw [wraps_parts p silent first last _ _ (wrap_wraps text)]
  exact trim_parts p text none'

end Parts

theorem map_lines_wraps (edit : Text → Text) (empty : edit [] = []) (first : edit opening = opening)
    (last : edit closing = closing) (inner text : Text) (wraps : Wraps (inner ++ ['\n']) text) :
    ∃ inner, Wraps (inner ++ ['\n']) (mapLines edit text) := by
  obtain ⟨feed, ends, rfl⟩ := wraps
  have closed : mapLines edit (closing ++ feed) = closing ++ feed := by
    rcases ends with rfl | rfl
    · rw [List.append_nil, map_lines_single edit empty closing (by decide), last]
    · rw [map_lines_concat, split_none '\n' closing (by decide)]
      have kept : edit (chomp closing) = closing := last
      simp [kept, mapLines, linewise, linewiseOf, split]
  have opened : (split '\n' opening).flatMap (fun line => edit (chomp line) ++ ['\n']) = opening ++ ['\n'] := by
    have kept : edit (chomp opening) = opening := first
    rw [split_none '\n' opening (by decide)]
    simp [kept]
  refine ⟨(split '\n' inner).dropLast.flatMap (fun line => edit (chomp line) ++ ['\n']) ++
    edit (chomp (lastLine inner)), feed, ends, ?_⟩
  have parts := List.dropLast_concat_getLast (split_ne_nil '\n' inner)
  rw [List.append_assoc, map_lines_concat, opened, List.singleton_append, map_lines_concat, closed]
  conv => lhs; rw [← parts]
  rw [List.flatMap_append]
  simp [lastLine]

structure Inside (edit : Text → Text → Prop) : Prop where
  first : ∀ old new, edit old new → ∃ c rest, old = c :: rest ∧ c ∉ opening ++ ['\n']
  last : ∀ old new, edit old new → ∃ rest c, old = rest ++ [c] ∧ c ∉ '\n' :: closing

theorem edited_wraps {edit : Text → Text → Prop} {a b : Text} (within : Inside edit)
    (edited : Edited edit a b) (inner : Text) (wraps : Wraps (inner ++ ['\n']) a) :
    ∃ inner, Wraps (inner ++ ['\n']) b := by
  obtain ⟨feed, ends, rfl⟩ := wraps
  have whole : opening ++ '\n' :: (inner ++ ['\n'] ++ (closing ++ feed)) =
      (opening ++ ['\n']) ++ (inner ++ '\n' :: (closing ++ feed)) := by simp
  rw [whole] at edited
  obtain ⟨text, rfl, later⟩ := edited_front _ within.first edited
  have last (old new : Text) (changed : edit old new) :
      ∃ rest c, old = rest ++ [c] ∧ c ∉ '\n' :: (closing ++ feed) := by
    obtain ⟨rest, c, same, absent⟩ := within.last old new changed
    refine ⟨rest, c, same, ?_⟩
    simp only [List.mem_cons, List.mem_append, not_or] at absent ⊢
    refine ⟨absent.1, absent.2, ?_⟩
    rcases ends with rfl | rfl
    · exact List.not_mem_nil
    · simpa using absent.1
  obtain ⟨inner', rfl⟩ := edited_back _ last later
  exact ⟨inner', feed, ends, by simp⟩

theorem extension_inside : Inside ExtensionEdit where
  first := by
    rintro old new ⟨rfl, _⟩
    exact ⟨'.', _, rfl, by decide⟩
  last := by
    rintro old new ⟨rfl, _⟩
    exact ⟨".j", 's', by decide, by decide⟩

theorem word_inside (word new : Text) (first : ∃ c rest, word = c :: rest ∧ c ∉ opening ++ ['\n'])
    (last : ∃ rest c, word = rest ++ [c] ∧ c ∉ '\n' :: closing) :
    Inside (Replaces (wholeWord word) fun _ => new) where
  first := by
    intro old new' changed
    rw [(replaced_word old new' changed).1]
    exact first
  last := by
    intro old new' changed
    rw [(replaced_word old new' changed).1]
    exact last

theorem globals_wraps (inner text : Text) (wraps : Wraps (inner ++ ['\n']) text) :
    ∃ inner, Wraps (inner ++ ['\n']) (replacePathGlobals text) := by
  have file := word_inside "__filename" "new URL(import.meta.url).pathname" ⟨'_', _, rfl, by decide⟩
    ⟨"__filenam", 'e', by decide, by decide⟩
  have dir := word_inside "__dirname" "new URL(\".\", import.meta.url).pathname" ⟨'_', _, rfl, by decide⟩
    ⟨"__dirnam", 'e', by decide, by decide⟩
  obtain ⟨inner', files⟩ := edited_wraps file
    (replaces_edited _ (word_consumes "__filename" (by decide)) none text) inner wraps
  exact edited_wraps dir (replaces_edited _ (word_consumes "__dirname" (by decide)) none _) inner' files

end Wrapped

end DevServer.CommonJs
