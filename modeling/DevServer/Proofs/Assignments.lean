import Mathlib.Data.List.TakeWhile
import DevServer.Proofs.Inert

set_option autoImplicit false

namespace DevServer.CommonJs

open Text

def isAssigned (line : Text) : Bool :=
  (namedExport? line).isSome || ((line.after? "module.exports").bind afterAssignment?).isSome

def isTarget (c : Char) : Bool := isIdentPart c || c == '.' || isSpace c

theorem sign_ends_name (gap value : Text) (blank : gap.all isSpace = true) :
    (gap ++ '=' :: value).head?.any isIdentPart = false := by
  cases gap with
  | nil => rfl
  | cons c gap =>
      have space : isSpace c = true := by simpa using List.all_eq_true.mp blank c List.mem_cons_self
      exact space_ends_name c space

theorem assignment_parts (text value : Text) (found : afterAssignment? text = some value) :
    ∃ gap rest, text = gap ++ '=' :: rest ∧ gap.all isSpace = true := by
  obtain ⟨rest, equals, rfl⟩ := Option.map_eq_some_iff.mp found
  obtain ⟨gap, whole, blank⟩ := space_parts text
  exact ⟨gap, rest, by rw [whole, after?_eq_some.mp equals]; rfl, blank⟩

theorem assignment_again (gap more : Text) (blank : gap.all isSpace = true) :
    (afterAssignment? (gap ++ '=' :: more)).isSome = true := by
  unfold afterAssignment? spaces
  rw [drop_while_stop isSpace gap '=' more blank (by decide), Option.isSome_map]
  exact startsWith_iff.mpr ⟨more, rfl⟩

theorem named_again (start rest name tail : Text)
    (starts : start = "exports.".toList ∨ start = "module.exports.".toList)
    (named : identifier? rest = some (name, tail)) (assigned : (afterAssignment? tail).isSome = true) :
    isAssigned (start ++ rest) = true := by
  have exports : after? ("exports." ++ rest) "exports." = some rest := after?_append _ rest
  obtain ⟨value, assigned⟩ := Option.isSome_iff_exists.mp assigned
  have found : (namedExport? (start ++ rest)).isSome = true := by
    unfold namedExport?
    rcases starts with rfl | rfl
    · have other : after? ("exports." ++ rest) "module." = none :=
        after_apart "module." "exports." rest (by decide) (by decide)
      simp only [other, Option.getD_none, exports, named, assigned, Option.bind_eq_bind,
        Option.bind_some]
      rfl
    · have split : "module.exports.".toList = "module.".toList ++ "exports.".toList := by decide
      have behind : after? ("module.exports." ++ rest) "module." = some ("exports." ++ rest) := by
        rw [split, List.append_assoc]
        exact after?_append _ _
      simp only [behind, Option.getD_some, exports, named, assigned, Option.bind_eq_bind,
        Option.bind_some]
      rfl
  unfold isAssigned
  rw [found]
  rfl

theorem assigned_front (line : Text) (assigned : isAssigned line = true) :
    ∃ front right, line = front ++ '=' :: right ∧ front.all isTarget = true ∧
      ∀ other, isAssigned (front ++ '=' :: other) = true := by
  have spaced := all_weaken isSpace fun c (space : isSpace c = true) => show isTarget c = true by
    simp [isTarget, space]
  cases named : namedExport? line with
  | some pair =>
      rcases pair with ⟨name, value⟩
      obtain ⟨start, rest, tail, starts, rfl, identified, assigns⟩ := named_some line name value named
      obtain ⟨gap, right, rfl, blank⟩ := assignment_parts tail value assigns
      obtain ⟨rfl, _, inside⟩ := identifier_some name identified
      refine ⟨start ++ (name ++ gap), right, by simp, ?_, ?_⟩
      · have begun : start.all isTarget = true := by
          rcases starts with rfl | rfl
          · decide
          · decide
        have called : name.all isTarget = true :=
          all_weaken isIdentPart (fun c part => by simp [isTarget, part]) name inside
        rw [List.all_append, List.all_append, begun, called, spaced gap blank]
        rfl
      · intro other
        have ends := sign_ends_name gap other blank
        have again := identifier_again _ name _ (gap ++ '=' :: other) identified ends
        have whole := named_again start _ name _ starts again (assignment_again gap other blank)
        simpa using whole
  | none =>
      unfold isAssigned at assigned
      rw [named, Option.isSome_none, Bool.false_or] at assigned
      obtain ⟨value, found⟩ := Option.isSome_iff_exists.mp assigned
      obtain ⟨rest, exports, assigns⟩ := Option.bind_eq_some_iff.mp found
      obtain ⟨gap, right, rfl, blank⟩ := assignment_parts rest value assigns
      refine ⟨"module.exports" ++ gap, right, ?_, ?_, ?_⟩
      · rw [after?_eq_some.mp exports, List.append_assoc]
      · rw [List.all_append, spaced gap blank]
        decide
      · intro other
        have behind : after? ("module.exports" ++ gap ++ '=' :: other) "module.exports" =
            some (gap ++ '=' :: other) := by
          rw [List.append_assoc]
          exact after?_append _ _
        unfold isAssigned
        rw [behind, Option.bind_some, assignment_again gap other blank, Bool.or_true]

theorem unassigned_same (line : Text) (other : isAssigned line = false) : exportLine line = line := by
  unfold isAssigned at other
  rw [Bool.or_eq_false_iff, Option.isSome_eq_false_iff, Option.isSome_eq_false_iff,
    Option.isNone_iff_eq_none, Option.isNone_iff_eq_none] at other
  unfold exportLine
  rw [other.1, other.2]

theorem declared_unassigned (line : Text) : isAssigned ("export " ++ line) = false := by
  have moduled : after? ("export " ++ line) "module." = none :=
    after_apart "module." "export " line (by decide) (by decide)
  have exported : after? ("export " ++ line) "exports." = none :=
    after_apart "exports." "export " line (by decide) (by decide)
  have whole : after? ("export " ++ line) "module.exports" = none :=
    after_apart "module.exports" "export " line (by decide) (by decide)
  unfold isAssigned namedExport?
  simp only [moduled, Option.getD_none, exported, whole, Option.bind_eq_bind, Option.bind_none]
  rfl

theorem export_line_unassigned (line : Text) : isAssigned (exportLine line) = false := by
  rcases export_line_cases line with ⟨named, whole, same⟩ | ⟨old, new, value, _, same, assigned⟩
  · unfold isAssigned
    rw [same, named, whole]
    rfl
  · obtain ⟨⟨more, rfl⟩, _⟩ := assigned_opens old new assigned
    rw [same, List.append_assoc]
    exact declared_unassigned (more ++ value)

def assignsExport : Text → Bool
  | '\n' :: text => isAssigned (text.takeWhile (· ≠ '\n'))
  | _ => false

theorem assigns_iff (text : Text) : Avoids assignsExport ('\n' :: text) ↔
    ∀ part ∈ split '\n' text, isAssigned part = false := by
  constructor
  · intro avoids part member
    obtain ⟨rest, suffix, rfl⟩ := (mem_split_iff text part).mp member
    exact avoids ('\n' :: rest) suffix
  · intro parts rest suffix
    unfold assignsExport
    split
    · rename_i line
      exact parts _ ((mem_split_iff text _).mpr ⟨line, suffix, rfl⟩)
    · rfl

theorem export_line_unbroken (line : Text) (unbroken : '\n' ∉ line) : '\n' ∉ exportLine line := by
  rcases export_line_cases line with ⟨_, _, same⟩ | ⟨old, new, value, rfl, same, assigned⟩
  · rw [same]
    exact unbroken
  · rw [same, List.mem_append, not_or]
    rw [List.mem_append, not_or] at unbroken
    exact ⟨assigned_inert.unbroken old new assigned, unbroken.2⟩

theorem export_lines_unassigned (text : Text) :
    Avoids assignsExport ('\n' :: mapLines exportLine text) := by
  rw [assigns_iff, split_map_lines exportLine (by decide) export_line_unbroken]
  generalize split '\n' text = parts
  induction parts with
  | nil =>
      intro part member
      cases member
  | cons part rest ih =>
      cases rest with
      | nil =>
          intro line member
          rw [List.mem_singleton.mp member]
          exact export_line_unassigned part
      | cons next rest =>
          intro line member
          rcases List.mem_cons.mp member with rfl | later
          · exact export_line_unassigned (chomp part)
          · exact ih line later

section Blocked

variable {edit : Text → Text → Prop} {a b : Text}

theorem blocked_assignments
    (blocked : ∀ old new, edit old new → ∃ d ∈ new.takeWhile (· != '='), isTarget d = false)
    (unbroken : ∀ old new, edit old new → '\n' ∉ old ∧ '\n' ∉ new)
    (edited : Edited edit a b) (avoids : Avoids assignsExport a) : Avoids assignsExport b := by
  apply avoids_edited assignsExport edited ?_ ?_ avoids
  · intro a b edited found
    unfold assignsExport at found
    split at found
    · rename_i text
      -- No edit begins with a line feed, so the line began where it begins now.
      have behind : ∃ source, a = '\n' :: source ∧ Edited edit source text := by
        generalize same : '\n' :: text = target at edited
        cases edited with
        | nil => cases same
        | keep c rest =>
            cases same
            exact ⟨_, rfl, rest⟩
        | @change old new a b changed rest =>
            cases new with
            | nil =>
                obtain ⟨d, member, _⟩ := blocked old [] changed
                cases member
            | cons c new =>
                have broken := (unbroken old _ changed).2
                rw [← (List.cons.inj same).1] at broken
                simp at broken
      obtain ⟨source, rfl, related⟩ := behind
      obtain ⟨line, _⟩ := while_edited (fun c => decide (c ≠ '\n')) (fun old new changed =>
        ⟨all_without '\n' old (unbroken old new changed).1,
          all_without '\n' new (unbroken old new changed).2⟩) related
      obtain ⟨front, right, whole, targets, again⟩ := assigned_front _ found
      rw [whole] at line
      obtain ⟨left, same⟩ := front_edited isTarget '=' blocked front right targets line
      change isAssigned _ = true
      rw [same]
      exact again left
    · cases found
  · intro old front tail more changed _ unfinished
    cases tail with
    | nil => exact absurd rfl unfinished
    | cons c tail =>
        have other : c ≠ '\n' := by
          rintro rfl
          exact (unbroken old _ changed).2 (by simp)
        unfold assignsExport
        split
        · rename_i line same
          exact absurd (List.cons.inj same).1 other
        · rfl

theorem repaired_assignments (tree : FileTree) (dir : Path) (text : Text)
    (avoids : Avoids assignsExport ('\n' :: text)) :
    Avoids assignsExport ('\n' :: rewrite literalMatcher (repaired tree dir) text) := by
  have edited := (replaces_edited (repaired tree dir) relative_consumes none text).keep '\n'
  apply blocked_assignments ?_ ?_ edited avoids
  · rintro old new ⟨before, left, literal, found, rfl⟩
    obtain ⟨opens, _⟩ := relative_some before _ left literal found
    rw [repaired_parts]
    have sign : (literal.opening != '=') = true ∧ isTarget literal.opening = false := by
      simp only [isPlainQuote, Bool.or_eq_true, beq_iff_eq] at opens
      rcases opens with same | same
      · rw [same]
        decide
      · rw [same]
        decide
    refine ⟨literal.opening, ?_, sign.2⟩
    rw [List.takeWhile_cons, if_pos sign.1]
    exact List.mem_cons_self
  · rintro old new ⟨before, left, literal, found, rfl⟩
    obtain ⟨opens, closes, _, inside, _⟩ := relative_some before _ left literal found
    have quoteless (c : Char) (quotes : isPlainQuote c = true) : '\n' ≠ c := by
      rintro rfl
      exact absurd quotes (by decide)
    have unbroken : '\n' ∉ literal.path := fun member => (inside _ member).2 rfl
    have standard : '\n' ∉ defaultExtension := by decide
    have fallback : '\n' ∉ fallbackExtension := by decide
    constructor
    · rw [relative_used before old left literal found]
      simp [quoteless _ opens, quoteless _ closes, unbroken, standard]
    · rw [repaired_parts]
      split
      · simp [quoteless _ opens, quoteless _ closes, unbroken, fallback]
      · simp [quoteless _ opens, quoteless _ closes, unbroken, standard]

theorem word_assignments (word new : Text)
    (blocked : ∃ d ∈ new.takeWhile (· != '='), isTarget d = false) (unbroken : '\n' ∉ word)
    (unbroken' : '\n' ∉ new) (some' : word ≠ []) (text : Text)
    (avoids : Avoids assignsExport ('\n' :: text)) :
    Avoids assignsExport ('\n' :: replaceWord word new text) := by
  have edited := (replaces_edited (fun _ => new) (word_consumes word some') none text).keep '\n'
  apply blocked_assignments ?_ ?_ edited avoids
  · intro old new' changed
    rw [(replaced_word old new' changed).2]
    exact blocked
  · intro old new' changed
    rw [(replaced_word old new' changed).1, (replaced_word old new' changed).2]
    exact ⟨unbroken, unbroken'⟩

end Blocked

section Words

variable {edit : Text → Text → Prop} {a b : Text}

-- What makes it safe to put `new` for `word` as far as `other` is looked for.
structure Rewords (word new other : Text) : Prop where
  apart : isApart other new = true
  absent : ∃ c rest, other = c :: rest ∧ c ∉ new
  begins : word.head?.any isWord = true ∧ new.head?.any isWord = true
  ends : word.getLast?.any isWord = true ∧ new.getLast?.any isWord = true
  solid : ∃ c rest, word = c :: rest ∧ isSpace c = false ∧ c ≠ ','

section Rewording

variable {word new other : Text} (rewords : Rewords word new other)

include rewords

theorem head_reworded (edited : Edited (Replaces (wholeWord word) fun _ => new) a b) :
    a.head?.any isWord = b.head?.any isWord := by
  cases edited with
  | nil => rfl
  | keep c _ => rfl
  | change changed _ =>
      obtain ⟨rfl, rfl⟩ := replaced_word _ _ changed
      have first (text more : Text) (begins : text.head?.any isWord = true) :
          (text ++ more).head?.any isWord = true := by
        cases text with
        | nil => cases begins
        | cons c text => exact begins
      rw [first _ _ rewords.begins.1, first _ _ rewords.begins.2]

theorem words_reworded (before before' : Option Char) (text : Text)
    (alike : before.any isWord = before'.any isWord)
    (free : other = word ∨ matchesFrom (wholeWord other) before text = false) :
    matchesFrom (wholeWord other) before'
      (render (fun _ => new) (scanFrom (wholeWord word) 0 before text)) = false := by
  have consumes : Consumes (wholeWord word) := by
    obtain ⟨c, rest, rfl, _⟩ := rewords.solid
    exact word_consumes _ (List.cons_ne_nil _ _)
  have opens : Opens (Replaces (wholeWord word) fun _ => new) new :=
    word_opens new ⟨[], (List.append_nil new).symm⟩ rewords.solid
  induction before, text using scan_induction consumes generalizing before' with
  | nil before => rfl
  | kept before c rest miss ih =>
      have edited := replaces_edited (fun _ => new) consumes before (c :: rest)
      rw [scan_kept before c rest miss] at edited ⊢
      have absent : wholeWord other before (c :: rest) = none := by
        rcases free with rfl | none'
        · exact miss
        · rw [matchesFrom, Bool.or_eq_false_iff, Option.isSome_eq_false_iff,
            Option.isNone_iff_eq_none] at none'
          exact none'.1
      have later := ih (some c) rfl (free.imp id fun none' => by
        rw [matchesFrom, Bool.or_eq_false_iff] at none'
        exact none'.2)
      change matchesFrom _ before' (c :: render _ _) = false
      rw [matchesFrom, later, Bool.or_false, Bool.eq_false_iff]
      intro found
      obtain ⟨outside, right, marked, ends⟩ := (word_iff other before' _).mp found
      obtain ⟨left, marked', related⟩ := after_edited opens other right rewords.apart edited marked
      rw [← head_reworded rewords related] at ends
      have earlier := (word_iff other before _).mpr ⟨alike.trans outside, left, marked', ends⟩
      rw [absent] at earlier
      cases earlier
  | found before used left found nonempty hit ih =>
      obtain ⟨whole, _, _⟩ := word_some word left before _ found hit
      have same := List.append_cancel_right whole
      subst same
      have last (text : Text) (before : Option Char) (ends : text.getLast?.any isWord = true) :
          (text.getLast?.or before).any isWord = true := by
        cases final : text.getLast? with
        | none => simp [final] at ends
        | some c => simpa [final] using ends
      rw [scan_found before used left found nonempty hit, render_cons]
      change matchesFrom _ before' (new ++ _) = false
      rw [matches_behind other before' new _ rewords.absent]
      apply ih
      · rw [rewords.ends.1, last new before' rewords.ends.2]
      · apply free.imp id
        intro none'
        have later := matches_later before used left none'
        cases final : used.getLast? with
        | none => exact absurd (List.getLast?_eq_none_iff.mp final) nonempty
        | some c =>
            rw [final] at later
            exact later

end Rewording

theorem globals_replaced (source : Text) :
    matchesFrom (wholeWord "__filename") none (replacePathGlobals source) = false ∧
      matchesFrom (wholeWord "__dirname") none (replacePathGlobals source) = false := by
  have file : Rewords "__filename" "new URL(import.meta.url).pathname" "__filename" :=
    ⟨by decide, ⟨'_', _, rfl, by decide⟩, by decide, by decide, ⟨'_', _, rfl, rfl, by decide⟩⟩
  have dir : Rewords "__dirname" "new URL(\".\", import.meta.url).pathname" "__dirname" :=
    ⟨by decide, ⟨'_', _, rfl, by decide⟩, by decide, by decide, ⟨'_', _, rfl, rfl, by decide⟩⟩
  have kept : Rewords "__dirname" "new URL(\".\", import.meta.url).pathname" "__filename" :=
    ⟨by decide, ⟨'_', _, rfl, by decide⟩, by decide, by decide, ⟨'_', _, rfl, rfl, by decide⟩⟩
  have files := words_reworded file none none source rfl (.inl rfl)
  exact ⟨words_reworded kept none none _ rfl (.inr files), words_reworded dir none none _ rfl (.inl rfl)⟩

theorem globals_settled (source : Text) :
    replacePathGlobals (replacePathGlobals source) = replacePathGlobals source := by
  obtain ⟨files, dirs⟩ := globals_replaced source
  have first : replaceWord "__filename" "new URL(import.meta.url).pathname"
      (replacePathGlobals source) = replacePathGlobals source := scan_unmatched _ none _ files
  have second : replaceWord "__dirname" "new URL(\".\", import.meta.url).pathname"
      (replacePathGlobals source) = replacePathGlobals source := scan_unmatched _ none _ dirs
  conv => lhs; unfold replacePathGlobals
  change replaceWord _ _ (replaceWord _ _ (replacePathGlobals source)) = _
  rw [first, second]

end Words

end DevServer.CommonJs
