import DevServer.Proofs.Edits
import DevServer.Proofs.KeyScans

set_option autoImplicit false

namespace DevServer.Text

section Rewritten

variable {α : Type} {matcher : Matcher α} {print : α → Text} {mark new : Text} (some' : mark ≠ [])
  (marked : ∀ before text a left, matcher before text = some (a, left) → text = mark ++ left ∧ print a = new)

include some' marked in
theorem mark_consumed : Consumes matcher := fun before text a left found =>
  ⟨mark, some', (marked before text a left found).1⟩

include some' marked in
theorem rewritten_found (before : Option Char) (text left : Text) (a : α)
    (found : matcher before text = some (a, left)) :
    text = mark ++ left ∧ render print (scanFrom matcher 0 before text) =
      new ++ render print (scanFrom matcher 0 mark.getLast? left) := by
  obtain ⟨rfl, printed⟩ := marked before text a left found
  refine ⟨rfl, ?_⟩
  rw [scan_found before mark left a some' found, render_cons, Piece.render, printed]

include some' marked in
theorem rewritten_front (front rest : Text) (other : ∀ c ∈ mark.head?, c ∉ front) (before : Option Char) :
    render print (scanFrom matcher 0 before (front ++ rest)) =
      front ++ render print (scanFrom matcher 0 (front.getLast?.or before) rest) := by
  induction front generalizing before with
  | nil => rfl
  | cons d front ih =>
      have miss : matcher before (d :: (front ++ rest)) = none := by
        cases hit : matcher before (d :: (front ++ rest)) with
        | none => rfl
        | some found =>
            obtain ⟨whole, _⟩ := marked before _ found.1 found.2 hit
            obtain ⟨c, mark, rfl⟩ := List.exists_cons_of_ne_nil some'
            obtain ⟨rfl, _⟩ := List.cons.inj whole
            exact absurd List.mem_cons_self (other d rfl)
      rw [List.cons_append, scan_kept before d _ miss, render_cons, ih (fun c first member =>
        other c first (List.mem_cons_of_mem d member)), last_cons]
      rfl

include some' marked in
theorem rewritten_begins (wanted : Text) (apart : isApart wanted new = true) (before : Option Char) (text right : Text)
    (begins : render print (scanFrom matcher 0 before text) = wanted ++ right) : ∃ left, text = wanted ++ left ∧
      right = render print (scanFrom matcher 0 (wanted.getLast?.or before) left) := by
  induction wanted generalizing before text with
  | nil => exact ⟨text, rfl, begins.symm⟩
  | cons d wanted ih =>
      cases text with
      | nil => cases begins
      | cons c rest =>
          cases hit : matcher before (c :: rest) with
          | some found =>
              obtain ⟨_, printed⟩ := rewritten_found some' marked before _ found.2 found.1 hit
              rw [printed] at begins
              exact absurd begins.symm (apart_append d wanted new right _ apart)
          | none =>
              rw [scan_kept before c rest hit] at begins
              obtain ⟨rfl, later⟩ := List.cons.inj begins
              simp only [isApart, Bool.and_eq_true] at apart
              obtain ⟨left, rfl, same⟩ := ih apart.2 (some c) rest later
              exact ⟨left, rfl, by rw [last_cons, same]⟩

include some' marked in
theorem rewritten_absent (wanted : Text) (begins : isApart wanted new = true) (inside : isApart new wanted = true)
    (some'' : wanted ≠ []) (before : Option Char) (text : Text)
    (kept : ∀ before c rest, c :: rest <:+ text → matcher before (c :: rest) = none → ¬ wanted <+: c :: rest) :
    ¬ wanted <:+: render print (scanFrom matcher 0 before text) := by
  induction before, text using scan_induction (mark_consumed some' marked) with
  | nil before => exact fun found => some'' (List.infix_nil.mp found)
  | kept before c rest miss ih =>
      have later := ih fun before d behind suffix => kept before d behind (suffix.trans (List.suffix_cons c rest))
      intro found
      rw [scan_kept before c rest miss] at found
      rcases List.infix_cons_iff.mp found with ⟨right, here⟩ | behind
      · have whole : render print (scanFrom matcher 0 before (c :: rest)) = wanted ++ right := by
          rw [here, scan_kept before c rest miss]
          rfl
        obtain ⟨left, same, _⟩ := rewritten_begins some' marked wanted begins before (c :: rest) right whole
        exact kept before c rest List.suffix_rfl miss ⟨left, same.symm⟩
      · exact later behind
  | found before used left a nonempty hit ih =>
      obtain ⟨whole, printed⟩ := rewritten_found some' marked before _ left a hit
      obtain rfl := List.append_cancel_right whole
      have later := ih fun before d behind suffix => kept before d behind (suffix.trans (List.suffix_append used left))
      rw [printed]
      intro found
      obtain ⟨front, back, place⟩ := found
      rw [List.append_assoc] at place
      rcases List.append_eq_append_iff.mp place with ⟨tail, put, rest⟩ | ⟨gap, _, rest⟩
      · cases tail with
        | nil => exact later ⟨[], back, rest⟩
        | cons d tail =>
            rw [put] at inside
            exact absurd rest.symm (apart_append d tail wanted _ back (apart_behind front (d :: tail) wanted inside))
      · exact later ⟨gap, back, by rw [List.append_assoc, ← rest]⟩

end Rewritten

-- What a matcher answers at the places of a text is the same when more text follows.
def Local {α : Type} (matcher : Matcher α) (before : Option Char) (left right : Text) : Prop :=
  ∀ front back, left = front ++ back → back ≠ [] → matcher (front.getLast?.or before) (back ++ right) =
    (matcher (front.getLast?.or before) back).map fun found => (found.1, found.2 ++ right)

section Cuts

theorem local_behind {α : Type} {matcher : Matcher α} {before : Option Char} (front : Text) {left right : Text}
    (apart : Local matcher before (front ++ left) right) : Local matcher (front.getLast?.or before) left right := by
  intro inner back whole some'
  have here := apart (front ++ inner) back (by rw [whole, List.append_assoc]) some'
  rwa [List.getLast?_append, Option.or_assoc] at here

theorem scan_cut {α : Type} {matcher : Matcher α} (consumes : Consumes matcher) (before : Option Char)
    (left right : Text) (apart : Local matcher before left right) :
    scanFrom matcher 0 before (left ++ right) =
      scanFrom matcher 0 before left ++ scanFrom matcher 0 (left.getLast?.or before) right := by
  induction before, left using scan_induction consumes with
  | nil before => rfl
  | kept before c rest miss ih =>
      have here := apart [] (c :: rest) rfl (List.cons_ne_nil c rest)
      rw [List.getLast?_nil, Option.none_or, miss, Option.map_none] at here
      have behind := ih (local_behind [c] apart)
      rw [List.cons_append] at here ⊢
      rw [scan_kept before c _ here, scan_kept before c rest miss, behind, last_cons]
      rfl
  | found before used left a some' hit ih =>
      have here := apart [] (used ++ left) rfl (List.append_ne_nil_of_left_ne_nil some' left)
      rw [List.getLast?_nil, Option.none_or, hit, Option.map_some, List.append_assoc] at here
      have last : used.getLast?.or before = used.getLast? := by
        cases final : used.getLast? with
        | none => exact absurd (List.getLast?_eq_none_iff.mp final) some'
        | some c => rfl
      have behind := ih (last ▸ local_behind used apart)
      rw [List.append_assoc, scan_found before used _ a some' here, scan_found before used left a some' hit, behind,
        List.getLast?_append, Option.or_assoc, last]
      rfl

theorem scan_context {α : Type} {matcher : Matcher α} (before before' : Option Char) (text : Text)
    (same : matcher before text = matcher before' text) :
    scanFrom matcher 0 before text = scanFrom matcher 0 before' text := by
  cases text with
  | nil => rfl
  | cons c rest => rw [scanFrom, scanFrom, same]

theorem key_context {keys : List Text} (before before' : Option Char) (text : Text) :
    scanFrom (keyAt keys) 0 before text = scanFrom (keyAt keys) 0 before' text := scan_context before before' text rfl

theorem prefix_places (mark left right : Text) (begins : mark <+: left ++ right) :
    mark <+: left ∨ ∃ rest, mark = left ++ rest ∧ rest ≠ [] ∧ rest <+: right := by
  rcases List.prefix_or_prefix_of_prefix begins (List.prefix_append left right) with here | ⟨rest, rfl⟩
  · exact .inl here
  · cases rest with
    | nil => exact .inl (by rw [List.append_nil])
    | cons c rest => exact .inr ⟨c :: rest, rfl, List.cons_ne_nil c rest, (List.prefix_append_right_inj left).mp begins⟩

theorem suffix_places (mark left right : Text) (ends : mark <:+ left ++ right) :
    mark <:+ right ∨ ∃ rest, mark = rest ++ right ∧ rest ≠ [] ∧ rest <:+ left := by
  rcases List.suffix_or_suffix_of_suffix ends (List.suffix_append left right) with here | ⟨rest, rfl⟩
  · exact .inl here
  · cases rest with
    | nil => exact .inl List.suffix_rfl
    | cons c rest =>
        obtain ⟨front, whole⟩ := ends
        rw [← List.append_assoc] at whole
        exact .inr ⟨c :: rest, rfl, List.cons_ne_nil c rest, front, List.append_cancel_right whole⟩

def Straddles (mark left right : Text) : Prop :=
  ∃ front back, front ≠ [] ∧ back ≠ [] ∧ mark = front ++ back ∧ front <:+ left ∧ back <+: right

theorem unstraddled_head (mark left right : Text) (other : ∀ c ∈ right.head?, c ∉ mark.tail) :
    ¬ Straddles mark left right := by
  rintro ⟨front, back, some', some'', rfl, _, rest, rfl⟩
  obtain ⟨c, front, rfl⟩ := List.exists_cons_of_ne_nil some'
  obtain ⟨d, back, rfl⟩ := List.exists_cons_of_ne_nil some''
  exact other d rfl (by simp)

theorem unstraddled_apart (mark left right : Text) (apart : isApart left mark = true) :
    ¬ Straddles mark left right := by
  rintro ⟨front, back, some', _, rfl, ⟨before, rfl⟩, _⟩
  obtain ⟨c, front, rfl⟩ := List.exists_cons_of_ne_nil some'
  have same : c :: front ++ back = c :: front ++ back ++ [] := (List.append_nil _).symm
  exact apart_append c front _ back [] (apart_behind before _ _ apart) same

end Cuts

section Replaced

variable {mark new : Text}

theorem replaced_marked (before : Option Char) (text key left : Text)
    (found : keyAt [mark] before text = some (key, left)) : text = mark ++ left ∧ valueOf [(mark, new)] key = new := by
  obtain ⟨member, whole, _⟩ := key_longest [mark] before text key left found
  rw [List.mem_singleton.mp member] at whole ⊢
  exact ⟨whole, value_one new⟩

theorem replace_scans (some' : mark ≠ []) (text : Text) :
    replace text mark new = render (valueOf [(mark, new)]) (scanFrom (keyAt [mark]) 0 none text) :=
  replace_substitutes some' new text

variable (some' : mark ≠ [])
include some'

theorem replaced_found (rest : Text) : replace (mark ++ rest) mark new = new ++ replace rest mark new := by
  rw [replace_scans some', replace_scans some',
    (rewritten_found some' replaced_marked none _ rest mark (one_found none rest)).2, key_context mark.getLast?]

theorem replaced_front (front rest : Text) (other : ∀ c ∈ mark.head?, c ∉ front) :
    replace (front ++ rest) mark new = front ++ replace rest mark new := by
  rw [replace_scans some', replace_scans some', rewritten_front some' replaced_marked front rest other,
    key_context (front.getLast?.or none)]

theorem replaced_same (text : Text) (absent : ¬ mark <:+: text) : replace text mark new = text := by
  rw [replace_scans some']
  refine scan_unmatched _ none text (unmarked_unmatched mark (fun before text key left found => ?_) none text absent)
  obtain ⟨member, whole, _⟩ := key_longest [mark] before text key left found
  rw [whole, List.mem_singleton.mp member]
  exact (List.prefix_append mark left).isInfix

theorem replaced_absent (wanted text : Text) (some'' : wanted ≠ []) (begins : isApart wanted new = true)
    (inside : isApart new wanted = true) (absent : wanted = mark ∨ ¬ wanted <:+: text) :
    ¬ wanted <:+: replace text mark new := by
  rw [replace_scans some']
  refine rewritten_absent some' replaced_marked wanted begins inside some'' none text
    fun before c rest suffix miss here => ?_
  rcases absent with rfl | absent
  · exact (key_none [wanted] before _).mp miss wanted List.mem_cons_self here
  · exact absent (here.isInfix.trans suffix.isInfix)

theorem replaced_begins (wanted text : Text) (apart : isApart wanted new = true)
    (begins : wanted <+: replace text mark new) : wanted <+: text := by
  obtain ⟨right, whole⟩ := begins
  rw [replace_scans some'] at whole
  obtain ⟨left, same, _⟩ := rewritten_begins some' replaced_marked wanted apart none text right whole.symm
  exact ⟨left, same.symm⟩

theorem replaced_cut (left right : Text) (apart : ¬ Straddles mark left right) :
    replace (left ++ right) mark new = replace left mark new ++ replace right mark new := by
  have places : Local (keyAt [mark]) none left right := by
    rintro front back rfl some''
    by_cases begins : mark <+: back
    · obtain ⟨rest, rfl⟩ := begins
      rw [one_found, List.append_assoc, one_found]
      rfl
    · have absent : ¬ mark <+: back ++ right := by
        intro whole
        rcases prefix_places mark back right whole with here | ⟨rest, rfl, behind, more⟩
        · exact begins here
        · exact apart ⟨back, rest, some'', behind, rfl, List.suffix_append front back, more⟩
      have miss (text : Text) (absent : ¬ mark <+: text) : keyAt [mark] (front.getLast?.or none) text = none :=
        (key_none [mark] _ text).mpr fun key member => by rwa [List.mem_singleton.mp member]
      rw [miss _ absent, miss _ begins]
      rfl
  rw [replace_scans some', replace_scans some', replace_scans some',
    scan_cut (keys_consume (one_filled some')) none left right places, render_append,
    key_context (left.getLast?.or none) none right]

theorem replaced_head (begins : mark.head?.any isWord = true) (text : Text) (other : text.head?.any isWord = false) :
    (replace text mark new).head?.any isWord = false := by
  cases text with
  | nil => rwa [replaced_same some' [] (mt List.infix_nil.mp some')]
  | cons c rest =>
      have foreign : ∀ d ∈ mark.head?, d ∉ [c] := fun d first member => by
        rw [Option.mem_def.mp first, List.mem_singleton.mp member] at begins
        exact absurd (begins.symm.trans other) (by decide)
      rw [← List.singleton_append, replaced_front some' [c] rest foreign]
      exact other

theorem replaced_last (ends : mark.getLast?.any isWord = true) (text : Text)
    (other : text.getLast?.any isWord = false) :
    (replace text mark new).getLast?.any isWord = false := by
  rcases List.eq_nil_or_concat text with rfl | ⟨front, c, rfl⟩
  · rwa [replaced_same some' [] (mt List.infix_nil.mp some')]
  rw [List.concat_eq_append] at other ⊢
  rw [List.getLast?_concat] at other
  have apart (back : Text) (some'' : back ≠ []) (begins : back <+: [c]) : ¬ back <:+ mark := by
    rintro ⟨before, rfl⟩
    rcases List.prefix_cons_iff.mp begins with rfl | ⟨_, rfl, rest⟩
    · exact some'' rfl
    · rw [List.prefix_nil.mp rest, List.getLast?_concat] at ends
      exact absurd (ends.symm.trans other) (by decide)
  have single : ¬ mark <:+: [c] := fun inside => by
    rcases List.infix_cons_iff.mp inside with begins | behind
    · exact apart mark some' begins List.suffix_rfl
    · exact some' (List.infix_nil.mp behind)
  rw [replaced_cut some' front [c] fun ⟨_, back, _, behind, whole, _, more⟩ => apart back behind more ⟨_, whole.symm⟩,
    replaced_same some' [c] single, List.getLast?_concat]
  exact other

end Replaced

section Words

variable {word : Text} (some' : word ≠ []) (solid : word.all isWord = true)

def HasWord (word text : Text) : Prop :=
  ∃ front rest, text = front ++ (word ++ rest) ∧ front.getLast?.any isWord = false ∧ rest.head?.any isWord = false

include some' in
theorem has_word_iff (text : Text) : matches? (wholeWord word) text = true ↔ HasWord word text := by
  rw [matches?, matches_iff]
  constructor
  · rintro ⟨front, c, rest, whole, hit⟩
    obtain ⟨⟨found, left⟩, hit⟩ := Option.isSome_iff_exists.mp hit
    obtain ⟨same, outside, ends⟩ := word_some word left _ _ found hit
    rw [Option.or_none] at outside
    exact ⟨front, left, by rw [whole, same], outside, ends⟩
  · rintro ⟨front, rest, rfl, outside, ends⟩
    have hit := word_here word rest (front.getLast?.or none) (by rwa [Option.or_none]) ends
    obtain ⟨c, word, rfl⟩ := List.exists_cons_of_ne_nil some'
    exact ⟨front, c, word ++ rest, rfl, Option.isSome_iff_exists.mpr ⟨_, hit⟩⟩

include some' solid in
theorem word_ends : word.head?.any isWord = true ∧ word.getLast?.any isWord = true := by
  obtain ⟨c, rest, rfl⟩ := List.exists_cons_of_ne_nil some'
  refine ⟨List.all_eq_true.mp solid c List.mem_cons_self, ?_⟩
  rw [List.getLast?_eq_some_getLast some']
  exact List.all_eq_true.mp solid _ (List.getLast_mem some')

theorem word_inside (before : Option Char) (text : Text) (inside : before.any isWord = true) :
    wholeWord word before text = none := by
  rw [wholeWord, if_pos inside]

include some' solid in
theorem word_missed (before : Option Char) (text : Text) (other : text.head?.any isWord = false) :
    wholeWord word before text = none := by
  cases hit : wholeWord word before text with
  | none => rfl
  | some found =>
      obtain ⟨rfl, _⟩ := word_some word found.2 before text found.1 hit
      obtain ⟨c, rest, rfl⟩ := List.exists_cons_of_ne_nil some'
      exact absurd ((word_ends some' solid).1.symm.trans other) (by decide)

theorem word_context (before before' : Option Char) (text : Text) (same : before.any isWord = before'.any isWord) :
    wholeWord word before text = wholeWord word before' text := by
  rw [wholeWord, wholeWord, same]

theorem words_marked (new : Text) (before : Option Char) (text : Text) (found : Unit) (left : Text)
    (hit : wholeWord word before text = some (found, left)) : text = word ++ left ∧ (fun _ => new) found = new :=
  ⟨(word_some word left before text found hit).1, rfl⟩

include some' solid in
theorem words_begin (print : Unit → Text) (before : Option Char) (text : Text) (other : text.head?.any isWord = false) :
    scanFrom (wholeWord word) 0 before text = scanFrom (wholeWord word) 0 none text ∧
      (render print (scanFrom (wholeWord word) 0 before text)).head? = text.head? := by
  have miss (before : Option Char) := word_missed some' solid before text other
  refine ⟨scan_context before none text ((miss before).trans (miss none).symm), ?_⟩
  cases text with
  | nil => rfl
  | cons c rest =>
      rw [scan_kept before c rest (miss before)]
      rfl

include some' solid in
theorem matches_begin (before before' : Option Char) (text : Text) (other : text.head?.any isWord = false) :
    matchesFrom (wholeWord word) before text = matchesFrom (wholeWord word) before' text := by
  have miss (before : Option Char) := word_missed some' solid before text other
  cases text with
  | nil => rfl
  | cons c rest => rw [matchesFrom, matchesFrom, miss before, miss before']

include some' solid in
-- A kept place at which the rewritten text has the word had it before: the word and the character behind it are kept.
theorem words_kept (new : Text) (apart : isApart word new = true) (before before' : Option Char) (text : Text)
    (same : before.any isWord = before'.any isWord) (miss : wholeWord word before text = none) :
    wholeWord word before' (render (fun _ => new) (scanFrom (wholeWord word) 0 before text)) = none := by
  cases hit : wholeWord word before' (render (fun _ => new) (scanFrom (wholeWord word) 0 before text)) with
  | none => rfl
  | some found =>
      obtain ⟨whole, outside, ends⟩ := word_some word found.2 before' _ found.1 hit
      obtain ⟨left, rfl, behind⟩ := rewritten_begins some' (words_marked new) word apart before text found.2 whole
      have stays : left.head?.any isWord = false := by
        cases left with
        | nil => rfl
        | cons c left =>
            have inside : (word.getLast?.or before).any isWord = true := by
              rw [List.getLast?_eq_some_getLast some']
              exact List.all_eq_true.mp solid _ (List.getLast_mem some')
            rw [behind, scan_kept _ c left (word_inside _ _ inside)] at ends
            exact ends
      rw [word_here word left before (same.trans outside) stays] at miss
      cases miss

include some' solid in
theorem words_absent (new : Text) (apart : isApart word new = true) (foreign : new.any isWord = false)
    (before before' : Option Char) (text : Text) (same : before.any isWord = before'.any isWord) :
    matchesFrom (wholeWord word) before' (render (fun _ => new) (scanFrom (wholeWord word) 0 before text)) = false := by
  induction before, text using scan_induction (word_consumes word some') generalizing before' with
  | nil before => rfl
  | kept before c rest miss ih =>
      have here := words_kept some' solid new apart before before' (c :: rest) same miss
      rw [scan_kept before c rest miss, render_cons, Piece.render, List.singleton_append] at here ⊢
      rw [matchesFrom, here, ih (some c) rfl]
      rfl
  | found before used left a nonempty hit ih =>
      obtain ⟨_, _, ends⟩ := word_some word left before _ a hit
      have absent : ∃ c rest, word = c :: rest ∧ c ∉ new := by
        obtain ⟨c, rest, rfl⟩ := List.exists_cons_of_ne_nil some'
        refine ⟨c, rest, rfl, fun member => ?_⟩
        exact List.any_eq_false.mp foreign c member (List.all_eq_true.mp solid c List.mem_cons_self)
      have begins := words_begin some' solid (fun _ => new) used.getLast? left ends
      rw [scan_found before used left a nonempty hit, render_cons, Piece.render,
        matches_behind word before' new _ absent, matches_begin some' solid _ used.getLast? _ (begins.2 ▸ ends)]
      exact ih _ rfl

include some' solid in
theorem word_parted (before : Option Char) (left right : Text) (some'' : left ≠ [])
    (parted : left.getLast?.any isWord = false ∨ right.head?.any isWord = false) :
    wholeWord word before (left ++ right) =
      (wholeWord word before left).map fun found => (found.1, found.2 ++ right) := by
  cases hit : wholeWord word before left with
  | some found =>
      obtain ⟨rfl, outside, ends⟩ := word_some word found.2 before left found.1 hit
      have stops : (found.2 ++ right).head?.any isWord = false := by
        cases rest : found.2 with
        | cons c rest => rwa [rest] at ends
        | nil =>
            rcases parted with last | next
            · rw [rest, List.append_nil, (word_ends some' solid).2] at last
              cases last
            · exact next
      rw [List.append_assoc, word_here word _ before outside stops]
      rfl
  | none =>
      cases hit' : wholeWord word before (left ++ right) with
      | none => rfl
      | some found =>
          obtain ⟨whole, outside, ends⟩ := word_some word found.2 before _ found.1 hit'
          rcases prefix_places word left right ⟨found.2, whole.symm⟩ with ⟨rest, rfl⟩ | ⟨rest, rfl, behind, more, rfl⟩
          · rw [List.append_assoc] at whole
            rw [← List.append_cancel_left whole] at ends
            have stops : rest.head?.any isWord = false := by
              cases rest with
              | nil => rfl
              | cons c rest => exact ends
            rw [word_here word rest before outside stops] at hit
            cases hit
          · rw [List.all_append, Bool.and_eq_true] at solid
            have last := (word_ends some'' solid.1).2
            have next := (word_ends behind solid.2).1
            rw [List.head?_append_of_ne_nil _ behind, last, next] at parted
            rcases parted with none | none <;> cases none

include some' solid in
theorem words_cut (print : Unit → Text) (left right : Text)
    (parted : left.getLast?.any isWord = false ∨ right.head?.any isWord = false) :
    rewrite (wholeWord word) print (left ++ right) =
      rewrite (wholeWord word) print left ++ rewrite (wholeWord word) print right := by
  have places : Local (wholeWord word) none left right := by
    rintro front back rfl some''
    rw [List.getLast?_append_of_ne_nil front some''] at parted
    exact word_parted some' solid _ back right some'' parted
  have context : wholeWord word (left.getLast?.or none) right = wholeWord word none right := by
    rcases parted with last | next
    · rw [Option.or_none]
      exact word_context _ _ right last
    · rw [word_missed some' solid _ right next, word_missed some' solid _ right next]
  rw [rewrite, rewrite, rewrite, scan, scan, scan, scan_cut (word_consumes word some') none left right places,
    render_append, scan_context _ none right context]

end Words

end DevServer.Text
