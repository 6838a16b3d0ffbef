import DevServer.FileTree.Basic
import DevServer.Text.Basic
import Mathlib.Data.List.Lex
import Mathlib.Tactic.SplitIfs

set_option autoImplicit false

namespace DevServer.Text

def utf8 (text : Text) : List UInt8 := text.flatMap String.utf8EncodeChar

theorem utf8_append (text other : Text) : utf8 (text ++ other) = utf8 text ++ utf8 other := List.flatMap_append

theorem utf8_cons (c : Char) (text : Text) : utf8 (c :: text) = String.utf8EncodeChar c ++ utf8 text :=
  List.flatMap_cons

theorem utf8_length (text : Text) : (utf8 text).length = size text := by
  induction text with
  | nil => rfl
  | cons c text ih => rw [utf8_cons, List.length_append, String.length_utf8EncodeChar, ih, size]

section Order

theorem byte_less (m n : Nat) (small : m < 256) (small' : n < 256) : UInt8.ofNat m < UInt8.ofNat n ↔ m < n := by
  rw [UInt8.lt_iff_toNat_lt, UInt8.toNat_ofNat', UInt8.toNat_ofNat', Nat.mod_eq_of_lt small, Nat.mod_eq_of_lt small']

theorem byte_same (m n : Nat) (small : m < 256) (small' : n < 256) : UInt8.ofNat m = UInt8.ofNat n ↔ m = n := by
  rw [← UInt8.toNat_inj, UInt8.toNat_ofNat', UInt8.toNat_ofNat', Nat.mod_eq_of_lt small, Nat.mod_eq_of_lt small']

theorem smaller_first (c d : Char) (smaller : c.toNat < d.toNat) (rest other : List UInt8) :
    String.utf8EncodeChar c ++ rest < String.utf8EncodeChar d ++ other := by
  have bound := d.valid
  simp only [UInt32.isValidChar, Nat.isValidChar] at bound
  change c.val.toNat < d.val.toNat at smaller
  unfold String.utf8EncodeChar
  dsimp only
  generalize c.val.toNat = m at smaller
  generalize d.val.toNat = n at smaller bound
  have digits (k : Nat) : k / 64 / 64 = k / 4096 ∧ k / 4096 / 64 = k / 262144 :=
    ⟨Nat.div_div_eq_div_mul k 64 64, Nat.div_div_eq_div_mul k 4096 64⟩
  have left := digits m
  have right := digits n
  clear digits
  -- The first byte of a longer form is larger; in one form the bytes are digits.
  split_ifs <;> try omega
  all_goals
    simp only [List.cons_append, List.nil_append, List.cons_lt_cons_iff]
    simp (disch := omega) only [byte_less, byte_same, Nat.mod_eq_of_lt]
    omega

theorem common_front (front text other : List UInt8) : front ++ text < front ++ other ↔ text < other := by
  induction front with
  | nil => rfl
  | cons b front ih =>
      rw [List.cons_append, List.cons_append, List.cons_lt_cons_iff, ih]
      have same : ¬ b < b := UInt8.lt_irrefl b
      simp [same]

theorem before_iff (text other : Text) : isBefore text other = true ↔ utf8 text ≤ utf8 other := by
  induction text generalizing other with
  | nil => simp [isBefore, utf8]
  | cons c text ih =>
      cases other with
      | nil =>
          have some' : utf8 (c :: text) ≠ [] := by
            rw [utf8_cons]
            exact List.append_ne_nil_of_left_ne_nil String.utf8EncodeChar_ne_nil _
          obtain ⟨b, rest, bytes⟩ := List.exists_cons_of_ne_nil some'
          rw [isBefore, bytes, ← List.not_lt]
          simp [utf8]
      | cons d other =>
          rw [isBefore, utf8_cons, utf8_cons, ← List.not_lt]
          rcases Nat.lt_trichotomy c.toNat d.toNat with less | same | more
          · have first := smaller_first c d less (utf8 text) (utf8 other)
            have not' := List.lt_asymm first
            simp [less, not']
          · obtain rfl : c = d := Char.toNat_inj.mp same
            rw [common_front, List.not_lt, ← ih other]
            simp
          · have first := smaller_first d c more (utf8 other) (utf8 text)
            have apart : c ≠ d := by
              rintro rfl
              omega
            simp [first, apart, Nat.le_of_lt more]

theorem before_total (text other : Text) : (isBefore text other || isBefore other text) = true := by
  rw [Bool.or_eq_true, before_iff, before_iff]
  exact List.le_total (utf8 text) (utf8 other)

theorem before_trans (text middle other : Text) (first : isBefore text middle = true)
    (second : isBefore middle other = true) : isBefore text other = true := by
  rw [before_iff] at first second ⊢
  exact List.le_trans first second

theorem before_antisymm (text other : Text) (first : isBefore text other = true) (second : isBefore other text = true) :
    text = other := by
  induction text generalizing other with
  | nil =>
      cases other with
      | nil => rfl
      | cons d other => cases second
  | cons c text ih =>
      cases other with
      | nil => cases first
      | cons d other =>
          simp only [isBefore, Bool.or_eq_true, decide_eq_true_eq, Bool.and_eq_true, beq_iff_eq] at first second
          rcases first with less | ⟨rfl, first⟩
          · rcases second with more | ⟨rfl, _⟩
            · omega
            · omega
          · rcases second with more | ⟨_, second⟩
            · omega
            · rw [ih other first second]

theorem before_apart (text other : Text) (first : isBefore text other = true) (apart : text ≠ other) :
    utf8 text < utf8 other := by
  by_contra after
  have second : isBefore other text = true := (before_iff other text).mpr (List.not_lt.mp after)
  exact apart (before_antisymm text other first second)

theorem sorted_names {α : Type} (rows : List (Text × α)) (apart : rows.Pairwise fun a b => a.1 ≠ b.1) :
    (rows.mergeSort fun a b => a.1.isBefore b.1).Pairwise fun a b => utf8 a.1 < utf8 b.1 := by
  have perm := List.mergeSort_perm rows fun a b => a.1.isBefore b.1
  have sorted := List.pairwise_mergeSort (fun (a b c : Text × α) => before_trans a.1 b.1 c.1)
    (fun a b => before_total a.1 b.1) rows
  have apart' := apart.perm perm.symm Ne.symm
  exact (sorted.and apart').imp fun {a b} ordered => before_apart a.1 b.1 ordered.1 ordered.2

end Order

section Ascii

theorem ascii_bytes (c : Char) (small : c.toNat < 128) : String.utf8EncodeChar c = [UInt8.ofNat c.toNat] := by
  have within : c.val.toNat ≤ 127 := Nat.le_of_lt_succ small
  rw [String.utf8EncodeChar, if_pos within]
  rfl

theorem high_bytes (c : Char) (large : 128 ≤ c.toNat) (b : UInt8) (inside : b ∈ String.utf8EncodeChar c) :
    128 ≤ b.toNat := by
  change 128 ≤ c.val.toNat at large
  unfold String.utf8EncodeChar at inside
  dsimp only at inside
  generalize c.val.toNat = n at large inside
  split_ifs at inside
  · omega
  all_goals
    simp only [List.mem_cons, List.not_mem_nil, or_false] at inside
    rcases inside with rfl | rfl | rfl | rfl
  all_goals
    rw [UInt8.toNat_ofNat', Nat.mod_eq_of_lt (by omega)]
    omega

variable (mark : Text) (ascii : ∀ c ∈ mark, c.toNat < 128)

theorem ascii_first (c : Char) (rest : Text) (small : c.toNat < 128) :
    utf8 (c :: rest) = UInt8.ofNat c.toNat :: utf8 rest := by
  rw [utf8_cons, ascii_bytes c small, List.singleton_append]

include ascii

theorem ascii_front (text : Text) : utf8 mark <+: utf8 text ↔ mark <+: text := by
  induction mark generalizing text with
  | nil => simp [utf8]
  | cons m mark ih =>
      obtain ⟨small, ascii⟩ := List.forall_mem_cons.mp ascii
      have same (front : m :: mark <+: text) : utf8 (m :: mark) <+: utf8 text := by
        obtain ⟨rest, rfl⟩ := front
        exact ⟨utf8 rest, (utf8_append _ rest).symm⟩
      refine ⟨fun front => ?_, same⟩
      rw [ascii_first m mark small] at front
      cases text with
      | nil => simp [utf8] at front
      | cons c text =>
          by_cases small' : c.toNat < 128
          · rw [ascii_first c text small', List.cons_prefix_cons, byte_same _ _ (by omega) (by omega)] at front
            obtain rfl : m = c := Char.toNat_inj.mp front.1
            exact List.cons_prefix_cons.mpr ⟨rfl, (ih ascii text).mp front.2⟩
          · obtain ⟨b, more, bytes⟩ := List.exists_cons_of_ne_nil (@String.utf8EncodeChar_ne_nil c)
            have high := high_bytes c (Nat.le_of_not_lt small') b (by rw [bytes]; exact List.mem_cons_self)
            rw [utf8_cons, bytes, List.cons_append, List.cons_prefix_cons] at front
            rw [← front.1, UInt8.toNat_ofNat', Nat.mod_eq_of_lt (by omega)] at high
            omega

-- No byte inside of a character is an ASCII one.
theorem ascii_inside (some' : mark ≠ []) (c : Char) (rest : List UInt8) (i : Nat) (start : i ≠ 0)
    (inside : i < (String.utf8EncodeChar c).length) : ¬ utf8 mark <+: (String.utf8EncodeChar c ++ rest).drop i := by
  intro front
  obtain ⟨m, more, rfl⟩ := List.exists_cons_of_ne_nil some'
  have small := ascii m List.mem_cons_self
  have large : 128 ≤ c.toNat := by
    by_contra small'
    rw [ascii_bytes c (Nat.lt_of_not_le small'), List.length_singleton] at inside
    omega
  rw [List.drop_append_of_le_length (Nat.le_of_lt inside), List.drop_eq_getElem_cons inside, ascii_first m more small,
    List.cons_append, List.cons_prefix_cons] at front
  have high := high_bytes c large _ (List.getElem_mem inside)
  rw [← front.1, UInt8.toNat_ofNat', Nat.mod_eq_of_lt (by omega)] at high
  omega

theorem ascii_place (some' : mark ≠ []) (text : Text) (i : Nat) : utf8 mark <+: (utf8 text).drop i ↔
    ∃ left right, text = left ++ right ∧ i = (utf8 left).length ∧ mark <+: right := by
  constructor
  · intro front
    induction text generalizing i with
    | nil =>
        have nothing : mark <+: [] := (ascii_front mark ascii []).mp (by simpa [utf8] using front)
        exact absurd (List.prefix_nil.mp nothing) some'
    | cons c text ih =>
        by_cases start : i = 0
        · subst start
          rw [List.drop_zero, ascii_front mark ascii] at front
          exact ⟨[], c :: text, rfl, rfl, front⟩
        · rw [utf8_cons] at front
          by_cases inside : i < (String.utf8EncodeChar c).length
          · exact absurd front (ascii_inside mark ascii some' c (utf8 text) i start inside)
          · have behind := Nat.le_of_not_lt inside
            rw [List.drop_append, List.drop_eq_nil_of_le behind, List.nil_append] at front
            obtain ⟨left, right, rfl, place, front⟩ := ih _ front
            refine ⟨c :: left, right, rfl, ?_, front⟩
            rw [utf8_cons, List.length_append]
            omega
  · rintro ⟨left, right, rfl, rfl, front⟩
    rw [utf8_append, List.drop_left]
    exact (ascii_front mark ascii right).mpr front

end Ascii

end DevServer.Text
