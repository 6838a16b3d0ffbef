import DevServer.Page
import DevServer.Proofs.Bytes

set_option autoImplicit false

namespace DevServer.Page

open Text

section Letters

def Alike (c d : Char) : Prop := c = d ∨ 'a' ≤ d ∧ d ≤ 'z' ∧ c.toNat + 32 = d.toNat

def Closes (right : Text) : Prop := ∃ tag rest, right = tag ++ rest ∧ List.Forall₂ Alike tag "</body>"

theorem lower_value (c : Char) :
    c.toLower.toNat = if 65 ≤ c.toNat ∧ c.toNat ≤ 90 then c.toNat + 32 else c.toNat := by
  have capital : (c.val ≥ 'A'.val ∧ c.val ≤ 'Z'.val) ↔ 65 ≤ c.toNat ∧ c.toNat ≤ 90 := by
    simp only [ge_iff_le, UInt32.le_iff_toNat_le]
    rfl
  by_cases large : c.val ≥ 'A'.val ∧ c.val ≤ 'Z'.val
  · have bound := capital.mp large
    have lowered : c.toLower.toNat = (c.val + 32).toNat := congrArg Char.toNat (dif_pos large)
    rw [if_pos bound, lowered, UInt32.toNat_add]
    exact Nat.mod_eq_of_lt (Nat.lt_of_le_of_lt (Nat.add_le_add_right bound.2 32) (by decide))
  · have same : c.toLower = c := dif_neg large
    rw [if_neg fun bound => large (capital.mpr bound), same]

theorem lower_iff (c d : Char) (small : d.toNat < 65 ∨ 90 < d.toNat) : c.toLower = d ↔ Alike c d := by
  have letter : ('a' ≤ d ∧ d ≤ 'z') ↔ 97 ≤ d.toNat ∧ d.toNat ≤ 122 := by
    simp only [Char.le_def, UInt32.le_iff_toNat_le]
    rfl
  rw [Alike, ← and_assoc, letter, ← Char.toNat_inj, lower_value, ← Char.toNat_inj]
  split <;> omega

theorem lower_all (tag mark : Text) (small : ∀ d ∈ mark, d.toNat < 65 ∨ 90 < d.toNat) :
    tag.map Char.toLower = mark ↔ List.Forall₂ Alike tag mark := by
  induction tag generalizing mark with
  | nil =>
      cases mark with
      | nil => exact iff_of_true rfl .nil
      | cons d mark => exact iff_of_false nofun nofun
  | cons c tag ih =>
      cases mark with
      | nil => exact iff_of_false nofun nofun
      | cons d mark =>
          obtain ⟨first, rest⟩ := List.forall_mem_cons.mp small
          rw [List.map_cons, List.cons.injEq, List.forall₂_cons, lower_iff c d first, ih mark rest]

theorem body_end_iff (right : Text) : isBodyEnd right = true ↔ Closes right := by
  have small : ∀ d ∈ ("</body>" : Text), d.toNat < 65 ∨ 90 < d.toNat :=
    List.forall_iff_forall_mem.mp (by decide)
  rw [isBodyEnd, startsWith_iff]
  constructor
  · rintro ⟨rest, lower⟩
    obtain ⟨tag, rest, rfl, same, _⟩ := List.map_eq_append_iff.mp lower
    exact ⟨tag, rest, rfl, (lower_all tag _ small).mp same⟩
  · rintro ⟨tag, rest, rfl, alike⟩
    refine ⟨rest.map Char.toLower, ?_⟩
    rw [List.map_append, (lower_all tag _ small).mpr alike]
    rfl

theorem lower_length (text : Text) : (utf8 (text.map Char.toLower)).length = (utf8 text).length := by
  induction text with
  | nil => rfl
  | cons c text ih =>
      rw [List.map_cons, utf8_cons, utf8_cons, List.length_append, List.length_append, ih]
      have value := lower_value c
      split at value
      · have small : c.toNat < 128 := by omega
        rw [ascii_bytes c small, ascii_bytes c.toLower (by omega)]
        rfl
      · rw [Char.toNat_inj.mp value]

end Letters

section Cutting

def IsLastEnd (page left right : Text) : Prop :=
  page = left ++ right ∧ Closes right ∧
    ∀ left' right', page = left' ++ right' → Closes right' → left'.length ≤ left.length

theorem cut_none (page : Text) (cut : cutAtBodyEnd? page = none) (left right : Text) (whole : page = left ++ right) :
    ¬ Closes right := by
  rw [← body_end_iff]
  induction page generalizing left with
  | nil =>
      obtain ⟨rfl, rfl⟩ := List.append_eq_nil_iff.mp whole.symm
      exact Bool.false_ne_true
  | cons c page ih =>
      rw [cutAtBodyEnd?] at cut
      cases later : cutAtBodyEnd? page with
      | some parts =>
          rw [later] at cut
          cases cut
      | none =>
          rw [later] at cut
          cases left with
          | nil =>
              intro closes
              rw [List.nil_append] at whole
              rw [← whole] at closes
              rw [if_pos closes] at cut
              cases cut
          | cons d left => exact ih later left (List.cons.inj whole).2

theorem cut_some (page left right : Text) (cut : cutAtBodyEnd? page = some (left, right)) : IsLastEnd page left right := by
  induction page generalizing left with
  | nil => cases cut
  | cons c page ih =>
      rw [cutAtBodyEnd?] at cut
      cases later : cutAtBodyEnd? page with
      | some parts =>
          rw [later] at cut
          cases cut
          obtain ⟨whole, closes, last⟩ := ih _ later
          refine ⟨congrArg (c :: ·) whole, closes, fun left' right' whole' closes' => ?_⟩
          cases left' with
          | nil => exact Nat.zero_le _
          | cons d left' => exact Nat.succ_le_succ (last left' right' (List.cons.inj whole').2 closes')
      | none =>
          rw [later] at cut
          by_cases closes : isBodyEnd (c :: page) = true
          · rw [if_pos closes] at cut
            cases cut
            refine ⟨rfl, (body_end_iff _).mp closes, fun left' right' whole' closes' => ?_⟩
            cases left' with
            | nil => exact Nat.le_refl 0
            | cons d left' => exact absurd closes' (cut_none page later left' right' (List.cons.inj whole').2)
          · rw [if_neg closes] at cut
            cases cut

end Cutting

section Offsets

def lastOffset? (mark : List UInt8) : List UInt8 → Option Nat
  | [] => none
  | b :: bytes =>
    match lastOffset? mark bytes with
    | some n => some (n + 1)
    | none => if mark <+: b :: bytes then some 0 else none

variable (mark : List UInt8) (some' : mark ≠ [])
include some'

theorem offset_none (bytes : List UInt8) (none' : lastOffset? mark bytes = none) (n : Nat) : ¬ mark <+: bytes.drop n := by
  induction bytes generalizing n with
  | nil =>
      rw [List.drop_nil]
      exact fun front => some' (List.prefix_nil.mp front)
  | cons b bytes ih =>
      rw [lastOffset?] at none'
      cases later : lastOffset? mark bytes with
      | some m =>
          rw [later] at none'
          cases none'
      | none =>
          rw [later] at none'
          cases n with
          | succ n => exact ih later n
          | zero =>
              intro front
              rw [List.drop_zero] at front
              rw [if_pos front] at none'
              cases none'

theorem offset_some (bytes : List UInt8) (n : Nat) (found : lastOffset? mark bytes = some n) :
    mark <+: bytes.drop n ∧ ∀ m, mark <+: bytes.drop m → m ≤ n := by
  induction bytes generalizing n with
  | nil => cases found
  | cons b bytes ih =>
      rw [lastOffset?] at found
      cases later : lastOffset? mark bytes with
      | some k =>
          rw [later] at found
          cases found
          obtain ⟨front, last⟩ := ih k later
          refine ⟨front, fun m front' => ?_⟩
          cases m with
          | zero => exact Nat.zero_le _
          | succ m => exact Nat.succ_le_succ (last m front')
      | none =>
          rw [later] at found
          by_cases front : mark <+: b :: bytes
          · rw [if_pos front] at found
            cases found
            refine ⟨front, fun m front' => ?_⟩
            cases m with
            | zero => exact Nat.le_refl 0
            | succ m => exact absurd front' (offset_none mark some' bytes later m)
          · rw [if_neg front] at found
            cases found

end Offsets

section Slices

-- Slices a text at an offset among its bytes; it fails inside of a character.
def sliceAt? : Text → Nat → Option (Text × Text)
  | text, 0 => some ([], text)
  | [], _ + 1 => none
  | c :: text, n + 1 =>
    if c.utf8Size ≤ n + 1 then (sliceAt? text (n + 1 - c.utf8Size)).map fun parts => (c :: parts.1, parts.2)
    else none

theorem slice_iff (text left right : Text) (n : Nat) :
    sliceAt? text n = some (left, right) ↔ text = left ++ right ∧ n = (utf8 left).length := by
  rw [utf8_length]
  constructor
  · intro sliced
    induction text generalizing left n with
    | nil =>
        cases n with
        | zero =>
            cases sliced
            exact ⟨rfl, rfl⟩
        | succ n => cases sliced
    | cons c text ih =>
        cases n with
        | zero =>
            cases sliced
            exact ⟨rfl, rfl⟩
        | succ n =>
            rw [sliceAt?] at sliced
            by_cases whole : c.utf8Size ≤ n + 1
            · rw [if_pos whole] at sliced
              obtain ⟨parts, inner, same⟩ := Option.map_eq_some_iff.mp sliced
              cases same
              obtain ⟨rfl, bytes⟩ := ih parts.1 _ inner
              refine ⟨rfl, ?_⟩
              rw [size]
              omega
            · rw [if_neg whole] at sliced
              cases sliced
  · rintro ⟨rfl, rfl⟩
    induction left with
    | nil => cases right <;> rfl
    | cons c left ih =>
        have some' := c.utf8Size_pos
        obtain ⟨n, succ⟩ : ∃ n, c.utf8Size + size left = n + 1 := ⟨c.utf8Size + size left - 1, by omega⟩
        rw [size, succ, List.cons_append, sliceAt?, if_pos (by omega), ← succ, Nat.add_sub_cancel_left, ih]
        rfl

def injectSliced? (page entry : Text) : Option Text :=
  match lastOffset? (utf8 bodyEnd) (utf8 (page.map Char.toLower)) with
  | some n => (sliceAt? page n).map fun parts => parts.1 ++ bootstrapTags entry ++ parts.2
  | none => some (page ++ lineEnd page ++ bootstrapTags entry)

theorem place_iff (page : Text) (n : Nat) : utf8 bodyEnd <+: (utf8 (page.map Char.toLower)).drop n ↔
    ∃ left right, page = left ++ right ∧ n = (utf8 left).length ∧ Closes right := by
  have ascii : ∀ c ∈ bodyEnd, c.toNat < 128 := List.forall_iff_forall_mem.mp (by decide)
  rw [ascii_place bodyEnd ascii (by decide)]
  constructor
  · rintro ⟨lowered, lowered', whole, rfl, front⟩
    obtain ⟨left, right, rfl, rfl, rfl⟩ := List.map_eq_append_iff.mp whole
    refine ⟨left, right, rfl, lower_length left, (body_end_iff right).mp ?_⟩
    obtain ⟨rest, same⟩ := front
    exact startsWith_iff.mpr ⟨rest, same.symm⟩
  · rintro ⟨left, right, rfl, rfl, closes⟩
    obtain ⟨rest, same⟩ := startsWith_iff.mp ((body_end_iff right).mpr closes)
    exact ⟨left.map Char.toLower, right.map Char.toLower, List.map_append, (lower_length left).symm, rest, same.symm⟩

theorem last_offset (page left right : Text) (last : IsLastEnd page left right) :
    lastOffset? (utf8 bodyEnd) (utf8 (page.map Char.toLower)) = some (utf8 left).length := by
  have some' : utf8 bodyEnd ≠ [] := by decide
  obtain ⟨whole, closes, last⟩ := last
  have front := (place_iff page _).mpr ⟨left, right, whole, rfl, closes⟩
  cases found : lastOffset? (utf8 bodyEnd) (utf8 (page.map Char.toLower)) with
  | none => exact absurd front (offset_none _ some' _ found _)
  | some n =>
      obtain ⟨front', largest⟩ := offset_some _ some' _ n found
      obtain ⟨left', right', whole', rfl, closes'⟩ := (place_iff page n).mp front'
      have within : left' <+: left := List.prefix_of_prefix_length_le ⟨right', whole'.symm⟩ ⟨right, whole.symm⟩
        (last left' right' whole' closes')
      obtain ⟨more, rfl⟩ := within
      have bound := largest _ front
      rw [utf8_append, List.length_append] at bound ⊢
      congr 1
      omega

theorem no_offset (page : Text) (none' : ∀ left right, page = left ++ right → ¬ Closes right) :
    lastOffset? (utf8 bodyEnd) (utf8 (page.map Char.toLower)) = none := by
  cases found : lastOffset? (utf8 bodyEnd) (utf8 (page.map Char.toLower)) with
  | none => rfl
  | some n =>
      obtain ⟨front, _⟩ := offset_some _ (by decide) _ n found
      obtain ⟨left, right, whole, _, closes⟩ := (place_iff page n).mp front
      exact absurd closes (none' left right whole)

end Slices

def EndsLine (page gap : Text) : Prop :=
  (page = [] ∨ page.getLast? = some '\n') ∧ gap = [] ∨ page ≠ [] ∧ page.getLast? ≠ some '\n' ∧ gap = ['\n']

def cutOut (text start inserted : Text) : Text := text.take start.length ++ text.drop (start.length + inserted.length)

theorem cut_out (left inserted right : Text) : cutOut (left ++ (inserted ++ right)) left inserted = left ++ right := by
  rw [cutOut, List.take_left, ← List.drop_drop, List.drop_left, List.drop_left]

-- The tags stand right before the last closing body tag, at an offset that is found in the
-- copy and is one between characters of the page, or else on a line of their own at the end.
theorem bootstrap_placed (page entry : Text) :
    ((∃ left right, IsLastEnd page left right ∧
        lastOffset? (utf8 "</body>") (utf8 (page.map Char.toLower)) = some (utf8 left).length ∧
          sliceAt? page (utf8 left).length = some (left, right) ∧
            inject page entry = left ++ (bootstrapTags entry ++ right) ∧
              cutOut (inject page entry) left (bootstrapTags entry) = page) ∨
      ((∀ left right, page = left ++ right → ¬ Closes right) ∧
        lastOffset? (utf8 "</body>") (utf8 (page.map Char.toLower)) = none ∧
          ∃ gap, EndsLine page gap ∧ inject page entry = page ++ (gap ++ bootstrapTags entry) ∧
            cutOut (inject page entry) page (gap ++ bootstrapTags entry) = page)) ∧
      injectSliced? page entry = some (inject page entry) := by
  cases cut : cutAtBodyEnd? page with
  | some parts =>
      obtain ⟨left, right⟩ := parts
      have last := cut_some page left right cut
      have offset := last_offset page left right last
      have sliced := (slice_iff page left right _).mpr ⟨last.1, rfl⟩
      have put : inject page entry = left ++ (bootstrapTags entry ++ right) := by
        rw [inject, cut, ← List.append_assoc]
      refine ⟨.inl ⟨left, right, last, offset, sliced, put, ?_⟩, ?_⟩
      · rw [put, cut_out, last.1]
      · rw [injectSliced?, offset, put, ← List.append_assoc]
        simp only [sliced, Option.map_some]
  | none =>
      have none' := cut_none page cut
      have offset := no_offset page none'
      have put : inject page entry = page ++ (lineEnd page ++ bootstrapTags entry) := by
        rw [inject, cut, ← List.append_assoc]
      refine ⟨.inr ⟨none', offset, lineEnd page, ?_, put, ?_⟩, ?_⟩
      · rw [lineEnd, EndsLine]
        by_cases ended : page = [] ∨ page.getLast? = some '\n'
        · exact .inl ⟨ended, if_pos ended⟩
        · exact .inr ⟨fun empty => ended (.inl empty), fun last => ended (.inr last), if_neg ended⟩
      · have whole := cut_out page (lineEnd page ++ bootstrapTags entry) []
        rwa [List.append_nil, List.append_nil, ← put] at whole
      · rw [injectSliced?, offset, put, ← List.append_assoc]

end DevServer.Page
