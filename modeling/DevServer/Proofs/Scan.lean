import DevServer.Text.Scan

set_option autoImplicit false

namespace DevServer.Text

section Scans

variable {α : Type} {matcher : Matcher α}

-- What a matcher finds ends where the text it leaves over begins.
def Consumes (matcher : Matcher α) : Prop :=
  ∀ before text a left, matcher before text = some (a, left) →
    ∃ used, used ≠ [] ∧ text = used ++ left

theorem last_cons (c : Char) (used : Text) (before : Option Char) :
    (c :: used).getLast?.or before = used.getLast?.or (some c) := by
  rw [List.getLast?_cons]
  cases used.getLast? <;> rfl

theorem scan_skip (used : Text) (before : Option Char) (rest : Text) :
    scanFrom matcher used.length before (used ++ rest) =
      scanFrom matcher 0 (used.getLast?.or before) rest := by
  induction used generalizing before with
  | nil => rfl
  | cons c used ih =>
      rw [last_cons, ← ih (some c)]
      rfl

theorem scan_kept (before : Option Char) (c : Char) (rest : Text)
    (miss : matcher before (c :: rest) = none) :
    scanFrom matcher 0 before (c :: rest) = .kept c :: scanFrom matcher 0 (some c) rest := by
  rw [scanFrom, miss]

theorem scan_found (before : Option Char) (used left : Text) (a : α) (some' : used ≠ [])
    (hit : matcher before (used ++ left) = some (a, left)) :
    scanFrom matcher 0 before (used ++ left) =
      .found a :: scanFrom matcher 0 used.getLast? left := by
  cases used with
  | nil => exact absurd rfl some'
  | cons c used =>
      have skipped : (used ++ left).length - left.length = used.length := by simp
      rw [List.cons_append] at hit ⊢
      rw [scanFrom, hit]
      simp only [skipped, scan_skip]
      cases used <;> simp [List.getLast?_cons]

-- The induction follows the scan: one character is kept, or a match is taken.
theorem scan_induction (consumes : Consumes matcher) {motive : Option Char → Text → Prop}
    (nil : ∀ before, motive before [])
    (kept : ∀ before c rest, matcher before (c :: rest) = none → motive (some c) rest →
      motive before (c :: rest))
    (found : ∀ before used left a, used ≠ [] → matcher before (used ++ left) = some (a, left) →
      motive used.getLast? left → motive before (used ++ left))
    (before : Option Char) (text : Text) : motive before text := by
  cases text with
  | nil => exact nil before
  | cons c rest =>
      cases hit : matcher before (c :: rest) with
      | none => exact kept before c rest hit (scan_induction consumes nil kept found (some c) rest)
      | some pair =>
          rcases pair with ⟨a, left⟩
          obtain ⟨used, nonempty, whole⟩ := consumes before (c :: rest) a left hit
          have shorter : left.length < (c :: rest).length := by
            have positive := List.length_pos_iff.mpr nonempty
            rw [whole, List.length_append]
            omega
          rw [whole] at hit ⊢
          exact found before used left a nonempty hit
            (scan_induction consumes nil kept found used.getLast? left)
termination_by text.length
decreasing_by
  · simp
  · exact shorter

theorem scan_unmatched (print : α → Text) (before : Option Char) (text : Text)
    (miss : matchesFrom matcher before text = false) :
    render print (scanFrom matcher 0 before text) = text := by
  induction text generalizing before with
  | nil => rfl
  | cons c rest ih =>
      rw [matchesFrom, Bool.or_eq_false_iff, Option.isSome_eq_false_iff, Option.isNone_iff_eq_none] at miss
      rw [scan_kept before c rest miss.1]
      exact congrArg (List.cons c) (ih (some c) miss.2)

theorem found_place (skip : Nat) (before : Option Char) (text : Text) (a : α)
    (member : .found a ∈ scanFrom matcher skip before text) :
    ∃ behind place left, place <:+ text ∧ matcher behind place = some (a, left) := by
  induction text generalizing skip before with
  | nil => cases skip <;> cases member
  | cons c rest ih =>
      have deeper (skip : Nat) (later : .found a ∈ scanFrom matcher skip (some c) rest) :
          ∃ behind place left, place <:+ c :: rest ∧ matcher behind place = some (a, left) := by
        obtain ⟨behind, place, left, suffix, hit⟩ := ih skip (some c) later
        exact ⟨behind, place, left, suffix.trans (List.suffix_cons c rest), hit⟩
      cases skip with
      | succ skip => exact deeper skip member
      | zero =>
          rw [scanFrom] at member
          cases hit : matcher before (c :: rest) with
          | none =>
              rw [hit] at member
              exact deeper 0 (List.mem_of_ne_of_mem (by simp) member)
          | some found =>
              rcases found with ⟨b, left⟩
              rw [hit] at member
              rcases List.mem_cons.mp member with here | later
              · cases here
                exact ⟨before, c :: rest, left, List.suffix_rfl, hit⟩
              · exact deeper _ later

theorem matches_iff (before : Option Char) (text : Text) : matchesFrom matcher before text = true ↔
    ∃ front c rest, text = front ++ c :: rest ∧ (matcher (front.getLast?.or before) (c :: rest)).isSome = true := by
  induction text generalizing before with
  | nil => simp [matchesFrom]
  | cons d text ih =>
      rw [matchesFrom, Bool.or_eq_true, ih]
      constructor
      · intro hit
        obtain here | ⟨front, c, rest, rfl, later⟩ := hit
        · exact ⟨[], d, text, rfl, here⟩
        · exact ⟨d :: front, c, rest, rfl, by rwa [last_cons]⟩
      · intro ⟨front, c, rest, whole, hit⟩
        cases front with
        | nil =>
            cases whole
            exact .inl hit
        | cons e front =>
            obtain ⟨rfl, rfl⟩ := List.cons.inj whole
            exact .inr ⟨front, c, rest, rfl, by rwa [last_cons] at hit⟩

theorem matches_later (before : Option Char) (used rest : Text)
    (miss : matchesFrom matcher before (used ++ rest) = false) :
    matchesFrom matcher (used.getLast?.or before) rest = false := by
  induction used generalizing before with
  | nil => exact miss
  | cons c used ih =>
      rw [List.cons_append, matchesFrom, Bool.or_eq_false_iff] at miss
      rw [last_cons]
      exact ih (some c) miss.2

end Scans

theorem render_append {α : Type} (print : α → Text) (first second : List (Piece α)) :
    render print (first ++ second) = render print first ++ render print second := by
  unfold render
  rw [List.flatMap_append]

theorem render_cons {α : Type} (print : α → Text) (piece : Piece α) (rest : List (Piece α)) :
    render print (piece :: rest) = piece.render print ++ render print rest := rfl

theorem space_ends_name (c : Char) (space : isSpace c = true) : isIdentPart c = false := by
  have cases' : c.toNat = 9 ∨ c.toNat = 10 ∨ c.toNat = 11 ∨ c.toNat = 12 ∨ c.toNat = 13 ∨
      c.toNat = 32 := by
    simp only [isSpace, Bool.or_eq_true, Bool.and_eq_true, decide_eq_true_eq, beq_iff_eq] at space
    omega
  rw [← Char.ofNat_toNat c]
  rcases cases' with same | same | same | same | same | same
  all_goals
    rw [same]
    decide

def Reads (clean : Char → Bool) (text rest : Text) : Prop :=
  ∃ used, text = used ++ rest ∧ used.all clean = true

section Reading

variable {clean : Char → Bool} {text rest : Text}

theorem Reads.trans {next : Text} (first : Reads clean text rest) (second : Reads clean rest next) :
    Reads clean text next := by
  obtain ⟨used, rfl, here⟩ := first
  obtain ⟨more, rfl, later⟩ := second
  exact ⟨used ++ more, (List.append_assoc _ _ _).symm, by rw [List.all_append, here, later]; rfl⟩

theorem reads_after (mark : Text) (check : mark.all clean = true) (found : after? text mark = some rest) :
    Reads clean text rest := ⟨mark, after?_eq_some.mp found, check⟩

theorem after_suffix (text mark rest : Text) (found : after? text mark = some rest) : rest <:+ text :=
  ⟨mark, (after?_eq_some.mp found).symm⟩

theorem spaces_suffix (text : Text) : spaces text <:+ text := List.dropWhile_suffix isSpace

theorem all_weaken (p : Char → Bool) (check : ∀ c, p c = true → clean c = true) (run : Text)
    (inside : run.all p = true) : run.all clean = true :=
  List.all_eq_true.mpr fun c member => check c (List.all_eq_true.mp inside c member)

theorem space_parts (text : Text) : ∃ gap, text = gap ++ spaces text ∧ gap.all isSpace = true :=
  ⟨text.takeWhile isSpace, List.takeWhile_append_dropWhile.symm, List.all_takeWhile⟩

theorem reads_spaces (check : ∀ c, isSpace c = true → clean c = true) :
    Reads clean text (spaces text) := by
  obtain ⟨gap, whole, blank⟩ := space_parts text
  exact ⟨gap, whole, all_weaken isSpace check gap blank⟩

theorem char_some (p : Char → Bool) (c : Char) (found : char? p text = some (c, rest)) :
    text = c :: rest ∧ p c = true := by
  cases text with
  | nil => cases found
  | cons d text =>
      by_cases holds : p d = true
      · simp only [char?, if_pos holds, Option.some.injEq, Prod.mk.injEq] at found
        obtain ⟨rfl, rfl⟩ := found
        exact ⟨rfl, holds⟩
      · simp [char?, holds] at found

theorem reads_char (p : Char → Bool) (check : ∀ c, p c = true → clean c = true) (c : Char)
    (found : char? p text = some (c, rest)) : Reads clean text rest := by
  obtain ⟨rfl, holds⟩ := char_some p c found
  exact ⟨[c], rfl, by simp [check c holds]⟩

theorem run_some (p : Char → Bool) (run : Text) (found : run? p text = some (run, rest)) :
    text = run ++ rest ∧ run ≠ [] ∧ run.all p = true := by
  unfold run? at found
  split at found
  · cases found
  · rename_i some'
    cases found
    exact ⟨List.takeWhile_append_dropWhile.symm, some', List.all_takeWhile⟩

theorem reads_run (p : Char → Bool) (check : ∀ c, p c = true → clean c = true) (run : Text)
    (found : run? p text = some (run, rest)) : Reads clean text rest := by
  obtain ⟨whole, _, inside⟩ := run_some p run found
  exact ⟨run, whole, all_weaken p check run inside⟩

end Reading

theorem identifier_read (name more : Text) (identified : isIdentifier name = true)
    (ends : more.head?.any isIdentPart = false) : identifier? (name ++ more) = some (name, more) := by
  cases name with
  | nil => cases identified
  | cons c name =>
      simp only [isIdentifier, Bool.and_eq_true] at identified
      have run := List.all_eq_true.mp identified.2
      have stop : more.takeWhile isIdentPart = [] ∧ more.dropWhile isIdentPart = more := by
        cases more with
        | nil => exact ⟨rfl, rfl⟩
        | cons d more =>
            have other : ¬ isIdentPart d = true := by simpa using ends
            rw [List.takeWhile_cons, if_neg other, List.dropWhile_cons, if_neg other]
            exact ⟨rfl, rfl⟩
      rw [List.cons_append, identifier?, if_pos identified.1, List.takeWhile_append_of_pos run,
        List.dropWhile_append_of_pos run, stop.1, stop.2, List.append_nil]

theorem identifier_iff (text name rest : Text) : identifier? text = some (name, rest) ↔
    text = name ++ rest ∧ isIdentifier name = true ∧ rest.head?.any isIdentPart = false := by
  constructor
  · intro found
    cases text with
    | nil => cases found
    | cons c text =>
        by_cases starts : isIdentStart c = true
        · simp only [identifier?, if_pos starts, Option.some.injEq, Prod.mk.injEq] at found
          obtain ⟨rfl, rfl⟩ := found
          refine ⟨by simp, by rw [isIdentifier, starts, List.all_takeWhile]; rfl, ?_⟩
          have stop := List.head?_dropWhile_not isIdentPart text
          cases next : (text.dropWhile isIdentPart).head? with
          | none => rfl
          | some d => simpa [next] using stop
        · simp [identifier?, starts] at found
  · rintro ⟨rfl, identified, ends⟩
    exact identifier_read name rest identified ends

theorem identifier_some {text rest : Text} (name : Text) (found : identifier? text = some (name, rest)) :
    text = name ++ rest ∧ name ≠ [] ∧ name.all isIdentPart = true := by
  obtain ⟨whole, identified, _⟩ := (identifier_iff text name rest).mp found
  cases name with
  | nil => cases identified
  | cons c name =>
      simp only [isIdentifier, Bool.and_eq_true] at identified
      refine ⟨whole, List.cons_ne_nil c name, ?_⟩
      rw [List.all_cons, isIdentPart_of_isIdentStart identified.1, identified.2]
      rfl

theorem identifier_again (text name rest more : Text) (found : identifier? text = some (name, rest))
    (ends : more.head?.any isIdentPart = false) : identifier? (name ++ more) = some (name, more) :=
  identifier_read name more ((identifier_iff text name rest).mp found).2.1 ends

theorem unmarked_unmatched {α : Type} {matcher : Matcher α} (mark : Text)
    (marked : ∀ before text a left, matcher before text = some (a, left) → mark <:+: text)
    (before : Option Char) (text : Text) (absent : ¬ mark <:+: text) :
    matchesFrom matcher before text = false := by
  induction text generalizing before with
  | nil => rfl
  | cons c rest ih =>
      have later := ih (some c) fun inside => absent (inside.trans (List.suffix_cons c rest).isInfix)
      cases hit : matcher before (c :: rest) with
      | none => rw [matchesFrom, hit, later]; rfl
      | some found => exact absurd (marked before (c :: rest) found.1 found.2 hit) absent

theorem word_some (word left : Text) (before : Option Char) (text : Text) (found : Unit)
    (hit : wholeWord word before text = some (found, left)) :
    text = word ++ left ∧ before.any isWord = false ∧ left.head?.any isWord = false := by
  unfold wholeWord at hit
  split at hit
  · cases hit
  · rename_i outside
    split at hit
    · rename_i rest after
      split at hit
      · cases hit
      · rename_i ends
        cases hit
        exact ⟨after?_eq_some.mp after, by simpa using outside, by simpa using ends⟩
    · cases hit

theorem word_consumes (word : Text) (some' : word ≠ []) : Consumes (wholeWord word) :=
  fun before text found left hit => ⟨word, some', (word_some word left before text found hit).1⟩

theorem word_here (word left : Text) (before : Option Char) (outside : before.any isWord = false)
    (ends : left.head?.any isWord = false) : wholeWord word before (word ++ left) = some ((), left) := by
  rw [wholeWord, outside, if_neg Bool.false_ne_true, after?_append]
  dsimp only
  rw [ends, if_neg Bool.false_ne_true]

theorem word_iff (word : Text) (before : Option Char) (text : Text) :
    (wholeWord word before text).isSome = true ↔ before.any isWord = false ∧
      ∃ rest, after? text word = some rest ∧ rest.head?.any isWord = false := by
  unfold wholeWord
  cases before.any isWord with
  | true => simp
  | false =>
      cases after? text word with
      | none => simp
      | some rest =>
          cases ends : rest.head?.any isWord with
          | true => simp [ends]
          | false => simp [ends]

theorem matches_behind (other : Text) (before : Option Char) (front rest : Text)
    (absent : ∃ c rest, other = c :: rest ∧ c ∉ front) :
    matchesFrom (wholeWord other) before (front ++ rest) =
      matchesFrom (wholeWord other) (front.getLast?.or before) rest := by
  obtain ⟨c, mark, rfl, absent⟩ := absent
  induction front generalizing before with
  | nil => rfl
  | cons d front ih =>
      simp only [List.mem_cons, not_or] at absent
      have miss : wholeWord (c :: mark) before (d :: (front ++ rest)) = none := by
        unfold wholeWord
        rw [after?, if_neg (Ne.symm absent.1)]
        simp
      rw [List.cons_append, matchesFrom, miss, last_cons, ← ih (some d) absent.2]
      rfl

end DevServer.Text
