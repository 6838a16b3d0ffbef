import Mathlib.Algebra.BigOperators.Group.List.Basic
import Mathlib.Algebra.Ring.Nat
import DevServer.Proofs.Declarations

set_option autoImplicit false

namespace DevServer.CommonJs

open Text

def callCount : Text → Nat
  | [] => 0
  | c :: text => (if startsWith (c :: text) loadCall then 1 else 0) + callCount text

def isSeparator (mark : Text) : Bool := isApart loadCall.tail mark && isApart mark loadCall

section Counting

theorem starts_uncut (mark text more : Text)
    (uncut : ∀ rest, rest ≠ [] → mark = text ++ rest → startsWith more rest = false) :
    startsWith (text ++ more) mark = startsWith text mark := by
  rw [Bool.eq_iff_iff, startsWith_iff, startsWith_iff]
  constructor
  · rintro ⟨left, whole⟩
    rcases List.append_eq_append_iff.mp whole with ⟨rest, same, behind⟩ | ⟨rest, same, _⟩
    · by_cases none : rest = []
      · exact ⟨[], by rw [same, none, List.append_nil, List.append_nil]⟩
      · have miss := uncut rest none same
        rw [startsWith_iff.mpr ⟨left, behind⟩] at miss
        cases miss
    · exact ⟨rest, same⟩
  · rintro ⟨rest, rfl⟩
    exact ⟨rest ++ more, List.append_assoc mark rest more⟩

theorem starts_separated (mark start text more : Text) (some' : text ≠ [])
    (apart : isApart mark.tail start = true) :
    startsWith (text ++ (start ++ more)) mark = startsWith text mark := by
  refine starts_uncut mark text (start ++ more) fun rest behind whole => ?_
  obtain ⟨c, front, rfl⟩ := List.exists_cons_of_ne_nil some'
  rw [whole, List.cons_append, List.tail_cons] at apart
  rw [startsWith, after_apart rest start more behind (apart_behind front rest start apart)]
  rfl

theorem count_apart (mark text : Text) (apart : isApart mark loadCall = true) :
    callCount (mark ++ text) = callCount text := by
  induction mark with
  | nil => rfl
  | cons c mark ih =>
      have later : isApart mark loadCall = true := by
        simp only [isApart, Bool.and_eq_true] at apart
        exact apart.2
      have here : startsWith (c :: (mark ++ text)) loadCall = false := by
        rw [Bool.eq_false_iff]
        intro starts
        obtain ⟨rest, whole⟩ := startsWith_iff.mp starts
        exact apart_append c mark loadCall text rest apart whole
      rw [List.cons_append, callCount, here, ih later]
      simp

theorem count_separator (text mark more : Text) (separator : isSeparator mark = true) :
    callCount (text ++ (mark ++ more)) = callCount text + callCount more := by
  simp only [isSeparator, Bool.and_eq_true] at separator
  induction text with
  | nil => rw [List.nil_append, count_apart mark more separator.2, callCount, Nat.zero_add]
  | cons c text ih =>
      have same := starts_separated loadCall mark (c :: text) more (List.cons_ne_nil _ _) separator.1
      rw [List.cons_append] at same ⊢
      rw [callCount, callCount, same, ih, Nat.add_assoc]

theorem count_append_le (text more : Text) :
    callCount text + callCount more ≤ callCount (text ++ more) := by
  induction text with
  | nil => simp [callCount]
  | cons c text ih =>
      have kept : startsWith (c :: text) loadCall = true →
          startsWith (c :: (text ++ more)) loadCall = true := by
        intro starts
        obtain ⟨rest, whole⟩ := startsWith_iff.mp starts
        refine startsWith_iff.mpr ⟨rest ++ more, ?_⟩
        rw [← List.cons_append, whole, List.append_assoc]
      rw [List.cons_append, callCount, callCount]
      by_cases starts : startsWith (c :: text) loadCall = true
      · rw [if_pos starts, if_pos (kept starts)]
        omega
      · rw [if_neg starts]
        omega

theorem count_parts_le (front part back : Text) :
    callCount front + callCount part + callCount back ≤ callCount (front ++ (part ++ back)) := by
  have whole := count_append_le front (part ++ back)
  have half := count_append_le part back
  omega

theorem count_inside (part text : Text) (inside : part <:+: text) :
    callCount part ≤ callCount text := by
  obtain ⟨front, back, rfl⟩ := inside
  have parts := count_parts_le front part back
  rw [List.append_assoc]
  omega

theorem count_load (text : Text) : callCount (loadCall ++ text) = 1 + callCount text := by
  have opens : startsWith (loadCall ++ text) loadCall = true := startsWith_iff.mpr ⟨text, rfl⟩
  have rest := count_apart loadCall.tail text (by decide)
  change startsWith ('r' :: (loadCall.tail ++ text)) loadCall = true at opens
  change callCount ('r' :: (loadCall.tail ++ text)) = _
  rw [callCount, opens, rest]
  rfl

theorem count_none (text : Text) (absent : '(' ∉ text) : callCount text = 0 := by
  induction text with
  | nil => rfl
  | cons c text ih =>
      have miss : ¬ startsWith (c :: text) loadCall = true := by
        intro starts
        obtain ⟨rest, whole⟩ := startsWith_iff.mp starts
        rw [whole] at absent
        exact absent (List.mem_append_left _ (by decide))
      simp only [List.mem_cons, not_or] at absent
      rw [callCount, if_neg miss, ih absent.2]

theorem starts_closed (mark text more : Text) (some' : text ≠ [])
    (closed : ∀ c, text.getLast? = some c → c ∉ mark.dropLast) :
    startsWith (text ++ more) mark = startsWith text mark := by
  refine starts_uncut mark text more fun rest behind whole => ?_
  refine absurd ?_ (closed _ (List.getLast?_eq_some_getLast some'))
  rw [whole, List.dropLast_append_of_ne_nil behind]
  exact List.mem_append_left _ (List.getLast_mem some')

theorem count_closed (text more : Text)
    (closed : ∀ c, text.getLast? = some c → c ∉ loadCall.dropLast) :
    callCount (text ++ more) = callCount text + callCount more := by
  induction text with
  | nil => rw [List.nil_append, callCount, Nat.zero_add]
  | cons c text ih =>
      have same := starts_closed loadCall (c :: text) more (List.cons_ne_nil _ _) closed
      rw [List.cons_append] at same ⊢
      rw [callCount, callCount, same, Nat.add_assoc]
      congr 1
      cases text with
      | nil => simp [callCount]
      | cons d text =>
          apply ih
          intro last ends
          exact closed last (by rw [List.getLast?_cons_cons]; exact ends)

end Counting

section Passes

variable {edit : Text → Text → Prop} {a b : Text}

theorem count_edited (edited : Edited edit a b)
    (fewer : ∀ old new front back, edit old new →
      callCount (front ++ (new ++ back)) ≤ callCount (front ++ (old ++ back)))
    (front : Text) : callCount (front ++ b) ≤ callCount (front ++ a) := by
  induction edited generalizing front with
  | nil => exact Nat.le_refl _
  | keep c _ ih => simpa using ih (front ++ [c])
  | @change old new a b changed _ ih =>
      have later := ih (front ++ new)
      rw [List.append_assoc, List.append_assoc] at later
      exact Nat.le_trans later (fewer old new front a changed)

theorem count_extension (old new front back : Text) (changed : ExtensionEdit old new) :
    callCount (front ++ (new ++ back)) ≤ callCount (front ++ (old ++ back)) := by
  obtain ⟨rfl, rfl⟩ := changed
  have before := count_separator front defaultExtension back (by decide)
  have after := count_separator front fallbackExtension back (by decide)
  exact Nat.le_of_eq (after.trans before.symm)

theorem count_constant (front name value back : Text) :
    callCount (front ++ (exportConst name value ++ (";" ++ back))) =
      callCount front + callCount name + callCount value + callCount back := by
  unfold exportConst
  simp only [List.append_assoc]
  rw [count_separator front "export const " _ (by decide), count_separator name " = " _ (by decide),
    count_separator value ";" back (by decide)]
  omega

theorem count_name (name : Text) (inside : name.all isIdentPart = true) : callCount name = 0 := by
  apply count_none
  intro member
  exact absurd (List.all_eq_true.mp inside _ member) (by decide)

theorem count_property (old new front back : Text)
    (changed : Replaces propertyMatcher Property.declaration old new) :
    callCount (front ++ (new ++ back)) ≤ callCount (front ++ (old ++ back)) := by
  obtain ⟨before, left, property, found, rfl⟩ := changed
  obtain ⟨start, inner, gap, stop, whole, _, _, _, _, valued, named⟩ :=
    property_some before _ left property found
  have same := List.append_cancel_right whole
  have inside : property.value <:+: old := by
    obtain ⟨part, _⟩ := value_some inner property.value valued
    rw [same]
    exact part.trans ⟨start, _, rfl⟩
  have value := count_inside property.value old inside
  have printed := count_constant front property.name property.value back
  rw [count_name property.name named] at printed
  have parts := count_parts_le front old back
  unfold Property.declaration
  rw [List.append_assoc, printed]
  omega

theorem count_word (word new : Text) (separator : isSeparator new = true) (old new' front back : Text)
    (changed : Replaces (wholeWord word) (fun _ => new) old new') :
    callCount (front ++ (new' ++ back)) ≤ callCount (front ++ (old ++ back)) := by
  obtain ⟨_, _, _, _, rfl⟩ := changed
  have parts := count_parts_le front old back
  rw [count_separator front _ back separator]
  omega

theorem count_assigned (old new front back : Text) (changed : Assigned old new) :
    callCount (front ++ (new ++ back)) ≤ callCount (front ++ (old ++ back)) := by
  have none' : callCount (front ++ (new ++ back)) = callCount front + callCount back := by
    rcases changed.declares with rfl | ⟨name, inside, rfl⟩
    · exact count_separator front "export default " back (by decide)
    · unfold exportConst
      simp only [List.append_assoc, List.nil_append]
      rw [count_separator front "export const " _ (by decide),
        count_separator name " = " back (by decide), count_name name inside, Nat.zero_add]
  have parts := count_parts_le front old back
  omega

theorem count_join (sep : Text) (separator : isSeparator sep = true) (parts : List Text) :
    callCount (join sep parts) = (parts.map callCount).sum := by
  induction parts with
  | nil => rfl
  | cons part rest ih =>
      cases rest with
      | nil => simp [join]
      | cons next rest =>
          rw [join_cons, List.append_assoc, count_separator part sep _ separator, ih]
          rfl

theorem count_trim (drop : Char → Bool) (text : Text) :
    callCount (trimOf drop text) ≤ callCount text :=
  count_inside _ _ (trim_inside drop text)

theorem count_entries (cost : Text → Nat) (cheap : ∀ part, cost part ≤ callCount part) (text : Text) :
    ((((split ',' text).map trim).filter (· ≠ [])).map cost).sum ≤ callCount text := by
  have whole := count_join [','] (by decide) (split ',' text)
  rw [join_split] at whole
  rw [whole]
  generalize split ',' text = parts
  induction parts with
  | nil => exact Nat.le_refl _
  | cons part rest ih =>
      have here := cheap (trim part)
      have shorter := count_trim isBlank part
      change callCount (trim part) ≤ _ at shorter
      rw [List.map_cons, List.filter_cons]
      split
      · rw [List.map_cons, List.map_cons, List.sum_cons, List.sum_cons]
        omega
      · rw [List.map_cons, List.sum_cons]
        omega

theorem count_cut (sep : Char) (separator : isSeparator [sep] = true) (text left right : Text)
    (cut : cutAt? sep text = some (left, right)) :
    callCount text = callCount left + callCount right := by
  rw [((cut_at_some sep text left right).mp cut).1]
  exact count_separator left [sep] right separator

theorem count_imported (part : Text) : callCount (importedName part) ≤ callCount part := by
  have front := count_inside _ _ (List.takeWhile_prefix (l := part) (· ≠ '=')).isInfix
  have trimmed := count_trim isBlank (part.takeWhile (· ≠ '='))
  unfold importedName
  change callCount (trim _) ≤ _ at trimmed
  dsimp only
  split
  · rename_i field renamed cut
    have parts := count_cut ':' (by decide) _ field renamed cut
    have left := count_trim isBlank field
    have right := count_trim isBlank renamed
    change callCount (trim field) ≤ _ at left
    change callCount (trim renamed) ≤ _ at right
    rw [List.append_assoc, count_separator (trim field) " as " _ (by decide)]
    omega
  · omega

theorem count_imported_names (list : Text) : callCount (importedNames list) ≤ callCount list := by
  unfold importedNames
  rw [count_join ", " (by decide), List.map_map]
  exact count_entries (callCount ∘ importedName) count_imported list

def entryCount (entry : ObjectEntry) : Nat :=
  ((entry.constant?).map callCount).getD 0 + ((entry.listed?).map callCount).getD 0

theorem count_entry (property : Text) :
    entryCount (ObjectEntry.ofText property) ≤ callCount property := by
  unfold ObjectEntry.ofText
  cases cut : cutAt? ':' property with
  | none =>
      simp only
      split
      · simp [entryCount, ObjectEntry.constant?, ObjectEntry.listed?]
      · simp [entryCount, ObjectEntry.constant?, ObjectEntry.listed?]
  | some pair =>
      rcases pair with ⟨key, value⟩
      have parts := count_cut ':' (by decide) _ key value cut
      have blanks := count_trim isBlank key
      have quotes := count_trim (fun c => c == '"' || c == '\'') (trim key)
      have right := count_trim isBlank value
      change callCount (trim key) ≤ _ at blanks
      change callCount (trim value) ≤ _ at right
      dsimp only
      generalize trimOf (fun c => c == '"' || c == '\'') (trim key) = key' at quotes ⊢
      split
      · split
        · simp only [entryCount, ObjectEntry.constant?, ObjectEntry.listed?, Option.map_none,
            Option.map_some, Option.getD_none, Option.getD_some]
          omega
        · have named := count_separator (trim value) " as " key' (by decide)
          simp only [entryCount, ObjectEntry.constant?, ObjectEntry.listed?, Option.map_none,
            Option.map_some, Option.getD_none, Option.getD_some, List.append_assoc, named]
          omega
      · have printed := count_constant [] key' (trim value) []
        simp only [List.nil_append, List.append_nil, callCount] at printed
        simp only [entryCount, ObjectEntry.constant?, ObjectEntry.listed?, Option.map_none,
          Option.map_some, Option.getD_none, Option.getD_some, printed]
        omega

theorem sum_filtered (part? : ObjectEntry → Option Text) (entries : List ObjectEntry) :
    ((entries.filterMap part?).map callCount).sum =
      (entries.map fun entry => ((part? entry).map callCount).getD 0).sum := by
  induction entries with
  | nil => rfl
  | cons entry rest ih =>
      rw [List.filterMap_cons, List.map_cons, List.sum_cons, ← ih]
      cases part? entry with
      | none => simp
      | some text => simp

theorem count_filtered (entries : List ObjectEntry) :
    ((entries.filterMap ObjectEntry.constant?).map callCount).sum +
        ((entries.filterMap ObjectEntry.listed?).map callCount).sum =
      (entries.map entryCount).sum := by
  rw [sum_filtered, sum_filtered]
  exact List.sum_map_add.symm

theorem count_declarations (properties : Text) :
    callCount (objectDeclarations properties) ≤ callCount properties := by
  have entries := count_entries (entryCount ∘ ObjectEntry.ofText) count_entry properties
  rw [← List.map_map] at entries
  have split := count_filtered (objectEntries properties)
  have list := count_apart "export \x7b " (join ", " ((objectEntries properties).filterMap
    ObjectEntry.listed?) ++ (" \x7d;".toList ++ [])) (by decide)
  rw [count_separator _ " \x7d;" [] (by decide), count_join ", " (by decide), List.append_nil] at list
  unfold objectDeclarations
  rw [count_join "\n" (by decide), List.map_append, List.sum_append, List.map_singleton,
    List.sum_singleton, List.append_assoc, list]
  change _ + (_ + 0) ≤ _
  rw [Nat.add_zero, split]
  exact entries

theorem count_object (old new front back : Text)
    (changed : Replaces objectMatcher objectDeclarations old new) :
    callCount (front ++ (new ++ back)) ≤ callCount (front ++ (old ++ back)) := by
  obtain ⟨before, left, properties, found, rfl⟩ := changed
  obtain ⟨start, gap, stop, whole⟩ := object_whole before _ properties left found
  have same := List.append_cancel_right whole
  have inside : properties <:+: old := by
    refine ⟨start ++ '=' :: (gap ++ ['{']), '}' :: stop, ?_⟩
    rw [same]
    simp
  have fewer := Nat.le_trans (count_declarations properties) (count_inside properties old inside)
  have alone : callCount (front ++ (objectDeclarations properties ++ back)) =
      callCount front + callCount (objectDeclarations properties) + callCount back := by
    obtain ⟨body, shape⟩ := declarations_shape properties
    have itself : callCount (objectDeclarations properties) = callCount body := by
      rw [shape, count_apart "export " _ (by decide), ← List.append_nil ";".toList,
        count_separator body _ [] (by decide)]
      rfl
    rw [itself, shape, List.append_assoc, List.append_assoc, count_separator front _ _ (by decide),
      count_separator body _ back (by decide), Nat.add_assoc]
  have parts := count_parts_le front old back
  omega

theorem count_chomp (line : Text) : callCount (chomp line) ≤ callCount line :=
  count_inside _ _ (chomp_front line).isInfix

section Lines

variable (line' : Text → Text) (fewer : ∀ line, callCount (line' line) ≤ callCount line)

include fewer

theorem count_edit_parts (parts : List Text) :
    ((editParts line' parts).map callCount).sum ≤ (parts.map callCount).sum := by
  induction parts with
  | nil => exact Nat.le_refl _
  | cons part rest ih =>
      cases rest with
      | nil => simpa [editParts] using fewer part
      | cons next rest =>
          have here := fewer (chomp part)
          have chomped := count_chomp part
          change callCount (line' (chomp part)) + ((editParts line' (next :: rest)).map callCount).sum ≤
            callCount part + ((next :: rest).map callCount).sum
          omega

theorem count_edit_parts_lt (parts : List Text)
    (less : ∃ line ∈ linesOf parts, callCount (line' line) < callCount line) :
    ((editParts line' parts).map callCount).sum < (parts.map callCount).sum := by
  obtain ⟨line, member, less⟩ := less
  induction parts with
  | nil => cases member
  | cons part rest ih =>
      cases rest with
      | nil =>
          rw [linesOf] at member
          split at member
          · cases member
          · rw [List.mem_singleton] at member
            rw [member] at less
            simpa [editParts] using less
      | cons next rest =>
          have here := fewer (chomp part)
          have chomped := count_chomp part
          have others := count_edit_parts line' fewer (next :: rest)
          change callCount (line' (chomp part)) + ((editParts line' (next :: rest)).map callCount).sum <
            callCount part + ((next :: rest).map callCount).sum
          rcases List.mem_cons.mp member with same | later
          · rw [same] at less
            omega
          · have later := ih later
            omega

theorem count_lines (empty : line' [] = []) (text : Text) :
    callCount (mapLines line' text) ≤ callCount text := by
  have parts := count_edit_parts line' fewer (split '\n' text)
  rw [← count_join ['\n'] (by decide), ← count_join ['\n'] (by decide), join_split] at parts
  rw [mapLines, linewise, linewise_join line' empty]
  exact parts

-- One line that loses a call is enough, since the others open none.
theorem count_lines_lt (empty : line' [] = []) (text : Text)
    (less : ∃ line ∈ lines text, callCount (line' line) < callCount line) :
    callCount (mapLines line' text) < callCount text := by
  have parts := count_edit_parts_lt line' fewer (split '\n' text) less
  rw [← count_join ['\n'] (by decide), ← count_join ['\n'] (by decide), join_split] at parts
  rw [mapLines, linewise, linewise_join line' empty]
  exact parts

end Lines

theorem count_lifted (before : Option Char) (text front : Text)
    (closed : ∀ c, front.getLast? = some c → c ∈ loadCall.dropLast → before = some c) :
    callCount (front ++ render awaited (scanFrom loadMatcher 0 before text)) +
        (if matchesFrom loadMatcher before text then 1 else 0) ≤ callCount (front ++ text) := by
  induction before, text using scan_induction load_consumes generalizing front with
  | nil before => exact Nat.le_refl _
  | kept before c rest miss ih =>
      have later := ih (front ++ [c]) fun last ends _ => by simpa using ends
      rw [List.append_assoc, List.append_assoc] at later
      rw [scan_kept before c rest miss, matchesFrom, miss]
      exact later
  | found before used left arguments nonempty hit ih =>
      obtain ⟨outside, whole⟩ := load_some before _ arguments left hit
      -- A call is lifted only where no character before it could begin it elsewhere.
      have alone : ∀ c, front.getLast? = some c → c ∉ loadCall.dropLast := by
        intro c ends member
        rw [closed c ends member] at outside
        have joins : ∀ c ∈ loadCall.dropLast, joinsCall c = true := List.all_eq_true.mp (by decide)
        simp [joins c member] at outside
      have later := ih (front ++ awaited arguments) fun last ends member => by
        unfold awaited at ends
        rw [← List.append_assoc, List.getLast?_append] at ends
        cases ends
        exact absurd member (by decide)
      have lifted : callCount (front ++ (awaited arguments ++ left)) =
          callCount front + callCount arguments + callCount left := by
        unfold awaited
        rw [count_closed front _ alone, List.append_assoc, List.append_assoc,
          count_apart "(await import(" _ (by decide),
          count_separator arguments ")).default" left (by decide), Nat.add_assoc]
      have original : callCount (front ++ (used ++ left)) =
          callCount front + 1 + callCount arguments + callCount left := by
        have closing := count_separator arguments [')'] left (by decide)
        rw [whole, count_closed front _ alone, count_load]
        change _ + (1 + callCount (arguments ++ ([')'] ++ left))) = _
        omega
      rw [List.append_assoc, List.append_assoc] at later
      rw [scan_found before used left arguments nonempty hit, render_cons]
      change callCount (front ++ (awaited arguments ++ render awaited _)) + _ ≤ _
      split
      · omega
      · omega

theorem count_lift_calls (line : Text) :
    callCount (liftCalls line) + (if hasCall line then 1 else 0) ≤ callCount line :=
  count_lifted none line [] fun _ none' => by cases none'

theorem count_lift_line (line : Text) : callCount (liftLine line) ≤ callCount line := by
  have lifted := count_lift_calls line
  unfold liftLine
  split
  · omega
  · exact Nat.le_refl _

theorem count_lift_line_lt (line : Text) (lifted : isLifted line = true) :
    callCount (liftLine line) < callCount line := by
  have fewer := count_lift_calls line
  simp only [isLifted, Bool.and_eq_true] at lifted
  rw [if_pos lifted.2] at fewer
  unfold liftLine
  rw [if_pos lifted.1]
  omega

theorem count_wrap (text : Text) : callCount (wrap text) ≤ callCount text := by
  have inside : trimEndOf (· == '\n') text <+: text := by
    unfold trimEndOf
    rw [← List.reverse_suffix, List.reverse_reverse]
    exact List.dropWhile_suffix _
  have fewer := count_inside _ _ inside.isInfix
  have ending : callCount (if text.getLast? = some '\n' then "\n" else "").toList = 0 := by
    split
    · decide
    · decide
  unfold wrap
  rw [List.append_assoc, List.append_assoc, count_apart _ _ (by decide),
    count_separator _ "\n\x7d)();" _ (by decide), ending]
  exact fewer

theorem count_lift_le (source : Text) : callCount (lift source) ≤ callCount (mapLines liftLine source) := by
  unfold lift
  dsimp only
  split
  · exact count_wrap _
  · exact Nat.le_refl _

theorem count_lift (source : Text) : callCount (lift source) ≤ callCount source :=
  Nat.le_trans (count_lift_le source) (count_lines liftLine count_lift_line (by decide) source)

theorem count_lift_lt (source : Text) (lifted : ∃ line ∈ lines source, isLifted line = true) :
    callCount (lift source) < callCount source := by
  obtain ⟨line, member, lifted⟩ := lifted
  exact Nat.lt_of_le_of_lt (count_lift_le source) <|
    count_lines_lt liftLine count_lift_line (by decide) source
      ⟨line, member, count_lift_line_lt line lifted⟩

end Passes

end DevServer.CommonJs
