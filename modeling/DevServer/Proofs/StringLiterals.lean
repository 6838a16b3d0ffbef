import Mathlib.Data.List.Basic
import DevServer.Json.Quote
import DevServer.Json.Reader

set_option autoImplicit false

namespace DevServer.Json

def escapes : List (Char × Char) :=
  [('"', '"'), ('\\', '\\'), ('/', '/'), ('b', '\x08'), ('f', '\x0c'), ('n', '\n'), ('r', '\r'), ('t', '\t')]

def IsUnit (digits : Text) (n : Nat) : Prop :=
  ∃ a b c d i j k l, digits = [a, b, c, d] ∧ Reader.hexValue? a = some i ∧ Reader.hexValue? b = some j ∧
    Reader.hexValue? c = some k ∧ Reader.hexValue? d = some l ∧ n = ((i * 16 + j) * 16 + k) * 16 + l

def joinHalves (high low : Nat) : Nat := (high - 0xD800) * 1024 + (low - 0xDC00) + 0x10000

inductive Escaped : Text → Char → Prop where
  | plain {c d : Char} : (c, d) ∈ escapes → Escaped [c] d
  | code {digits : Text} {n : Nat} : IsUnit digits n → Reader.isLow n = false → Reader.isHigh n = false →
      Escaped ('u' :: digits) (Char.ofNat n)
  | halves {digits digits' : Text} {high low : Nat} : IsUnit digits high → Reader.isHigh high = true →
      IsUnit digits' low → Reader.isLow low = true →
      Escaped ('u' :: digits ++ '\\' :: 'u' :: digits') (Char.ofNat (joinHalves high low))

inductive LooselyEscaped : Text → Char → Prop where
  | plain {c d : Char} : (c, d) ∈ escapes → LooselyEscaped [c] d
  | code {digits : Text} {n : Nat} : IsUnit digits n → LooselyEscaped ('u' :: digits) 'u'

inductive Spelled (Escape : Text → Char → Prop) : Text → Text → Prop where
  | nil : Spelled Escape [] []
  | plain {c : Char} {inside text : Text} : ' ' ≤ c → c ≠ '"' → c ≠ '\\' → Spelled Escape inside text →
      Spelled Escape (c :: inside) (c :: text)
  | escape {used : Text} {c : Char} {inside text : Text} : Escape used c → Spelled Escape inside text →
      Spelled Escape ('\\' :: (used ++ inside)) (c :: text)

def Literal (Escape : Text → Char → Prop) (literal text : Text) : Prop :=
  ∃ inside, literal = '"' :: (inside ++ ['"']) ∧ Spelled Escape inside text

def Denotes (literal text : Text) : Prop := Literal Escaped literal text

section Escapes

theorem bind_iff {α β : Type} (first : Except Fault α) (next : α → Except Fault β) (b : β) :
    first >>= next = .ok b ↔ ∃ a, first = .ok a ∧ next a = .ok b := by
  cases first with
  | error fault => simp [bind, Except.bind]
  | ok a => simp [bind, Except.bind]

theorem plain_escape_iff (c d : Char) : Reader.plainEscape? c = some d ↔ (c, d) ∈ escapes := by
  simp only [escapes, List.mem_cons, Prod.mk.injEq, List.not_mem_nil, or_false]
  constructor
  · intro found
    unfold Reader.plainEscape? at found
    split at found <;> simp_all [eq_comm]
  · rintro (⟨rfl, rfl⟩ | ⟨rfl, rfl⟩ | ⟨rfl, rfl⟩ | ⟨rfl, rfl⟩ | ⟨rfl, rfl⟩ | ⟨rfl, rfl⟩ | ⟨rfl, rfl⟩ | ⟨rfl, rfl⟩) <;>
      rfl

theorem size_length (text : Text) : text.length ≤ Text.size text := by
  induction text with
  | nil => exact Nat.le_refl 0
  | cons c text ih =>
      have some' := c.utf8Size_pos
      rw [List.length_cons, Text.size]
      omega

theorem unit_iff (text rest : Text) (n : Nat) :
    Reader.unit text = .ok (n, rest) ↔ ∃ digits, text = digits ++ rest ∧ IsUnit digits n := by
  constructor
  · intro read
    unfold Reader.unit at read
    split at read
    · cases read
    · split at read
      · rename_i a b c d left _
        split at read
        · rename_i i j k l hi hj hk hl
          cases read
          exact ⟨[a, b, c, d], rfl, a, b, c, d, i, j, k, l, rfl, hi, hj, hk, hl, rfl⟩
        · cases read
      · cases read
  · rintro ⟨digits, rfl, a, b, c, d, i, j, k, l, rfl, hi, hj, hk, hl, rfl⟩
    have whole : ¬ Text.size (([a, b, c, d] ++ rest).take 4) < 4 :=
      Nat.not_lt.mpr (size_length [a, b, c, d])
    unfold Reader.unit
    rw [if_neg whole]
    simp only [List.cons_append, List.nil_append, hi, hj, hk, hl]

theorem low_half_iff (high : Nat) (text rest : Text) (c : Char) : Reader.lowHalf high text = .ok (c, rest) ↔
    ∃ digits low, text = '\\' :: 'u' :: (digits ++ rest) ∧ IsUnit digits low ∧ Reader.isLow low = true ∧
      c = Char.ofNat (joinHalves high low) := by
  constructor
  · intro read
    unfold Reader.lowHalf at read
    split at read
    · cases read
    · cases read
    · rename_i left
      obtain ⟨⟨low, behind⟩, unit, halved⟩ := (bind_iff _ _ _).mp read
      obtain ⟨digits, whole, isUnit⟩ := (unit_iff left behind low).mp unit
      dsimp only at halved
      by_cases half : Reader.isLow low = true
      · rw [if_pos half] at halved
        simp only [Except.ok.injEq, Prod.mk.injEq] at halved
        exact ⟨digits, low, by rw [whole, halved.2], isUnit, half, halved.1.symm⟩
      · rw [if_neg half] at halved
        cases halved
    · cases read
  · rintro ⟨digits, low, rfl, isUnit, half, same⟩
    have unit := (unit_iff _ rest low).mpr ⟨digits, rfl, isUnit⟩
    rw [Reader.lowHalf, bind_iff]
    refine ⟨(low, rest), unit, ?_⟩
    dsimp only
    rw [if_pos half, same, joinHalves]

theorem halves_apart (n : Nat) (high : Reader.isHigh n = true) : Reader.isLow n = false := by
  simp only [Reader.isHigh, Reader.isLow, Bool.and_eq_true, decide_eq_true_eq, Bool.and_eq_false_iff,
    decide_eq_false_iff_not] at high ⊢
  omega

theorem code_iff (text rest : Text) (c : Char) : Reader.escape ('u' :: text) = .ok (c, rest) ↔
    ∃ digits n behind, text = digits ++ behind ∧ IsUnit digits n ∧ Reader.isLow n = false ∧
      (Reader.isHigh n = true ∧ Reader.lowHalf n behind = .ok (c, rest) ∨
        Reader.isHigh n = false ∧ behind = rest ∧ c = Char.ofNat n) := by
  rw [Reader.escape, bind_iff]
  constructor
  · rintro ⟨⟨n, behind⟩, unit, read⟩
    obtain ⟨digits, whole, isUnit⟩ := (unit_iff text behind n).mp unit
    dsimp only at read
    cases low : Reader.isLow n with
    | true =>
        rw [if_pos low] at read
        cases read
    | false =>
        rw [if_neg (Bool.eq_false_iff.mp low)] at read
        refine ⟨digits, n, behind, whole, isUnit, low, ?_⟩
        cases high : Reader.isHigh n with
        | true => exact .inl ⟨rfl, by rwa [if_pos high] at read⟩
        | false =>
            rw [if_neg (Bool.eq_false_iff.mp high)] at read
            cases read
            exact .inr ⟨rfl, rfl, rfl⟩
  · rintro ⟨digits, n, behind, rfl, isUnit, low, ends⟩
    refine ⟨(n, behind), (unit_iff _ behind n).mpr ⟨digits, rfl, isUnit⟩, ?_⟩
    dsimp only
    rw [if_neg (Bool.eq_false_iff.mp low)]
    rcases ends with ⟨high, half⟩ | ⟨high, rfl, rfl⟩
    · rw [if_pos high, half]
    · rw [if_neg (Bool.eq_false_iff.mp high)]

theorem plain_iff (d : Char) (text rest : Text) (c : Char) (other : d ≠ 'u') :
    Reader.escape (d :: text) = .ok (c, rest) ↔ text = rest ∧ (d, c) ∈ escapes := by
  rw [Reader.escape, ← plain_escape_iff]
  · cases Reader.plainEscape? d with
    | none => simp
    | some e => simp [and_comm]
  · exact other

theorem escape_iff (text rest : Text) (c : Char) :
    Reader.escape text = .ok (c, rest) ↔ ∃ used, text = used ++ rest ∧ Escaped used c := by
  constructor
  · intro read
    cases text with
    | nil => cases read
    | cons d text =>
        by_cases coded : d = 'u'
        · subst coded
          obtain ⟨digits, n, behind, rfl, isUnit, low, ⟨high, half⟩ | ⟨high, rfl, rfl⟩⟩ := (code_iff text rest c).mp read
          · obtain ⟨digits', n', rfl, isUnit', low', same⟩ := (low_half_iff n behind rest c).mp half
            rw [same]
            exact ⟨'u' :: digits ++ '\\' :: 'u' :: digits', by simp, .halves isUnit high isUnit' low'⟩
          · exact ⟨'u' :: digits, rfl, .code isUnit low high⟩
        · obtain ⟨rfl, listed⟩ := (plain_iff d text rest c coded).mp read
          exact ⟨[d], rfl, .plain listed⟩
  · rintro ⟨used, rfl, escaped⟩
    cases escaped with
    | @plain d _ listed =>
        have other : d ≠ 'u' := by
          rintro rfl
          cases (plain_escape_iff 'u' c).mpr listed
        exact (plain_iff d rest rest c other).mpr ⟨rfl, listed⟩
    | @code digits n isUnit low high =>
        exact (code_iff _ rest _).mpr ⟨digits, n, rest, rfl, isUnit, low, .inr ⟨high, rfl, rfl⟩⟩
    | @halves digits digits' n n' isUnit high isUnit' low =>
        have half := (low_half_iff n _ rest _).mpr ⟨digits', n', rfl, isUnit', low, rfl⟩
        refine (code_iff _ rest _).mpr ⟨digits, n, _, ?_, isUnit, halves_apart n high, .inl ⟨high, half⟩⟩
        simp

end Escapes

section Reading

theorem map_iff {α β : Type} (first : Except Fault α) (next : α → β) (b : β) :
    first.map next = .ok b ↔ ∃ a, first = .ok a ∧ next a = b := by
  cases first with
  | error fault => simp [Except.map]
  | ok a => simp [Except.map]

variable {escape : Text → Except Fault (Char × Text)} {Escape : Text → Char → Prop}

theorem string_skips (used left : Text) :
    Reader.stringFrom escape used.length (used ++ left) = Reader.stringFrom escape 0 left := by
  induction used with
  | nil => rfl
  | cons c used ih =>
      rw [List.cons_append, List.length_cons, Reader.stringFrom]
      exact ih

theorem string_behind (used left inner rest : Text) (c : Char) (escaped : escape (used ++ left) = .ok (c, left)) :
    Reader.stringFrom escape 0 ('\\' :: (used ++ left)) = .ok (c :: inner, rest) ↔
      Reader.stringFrom escape 0 left = .ok (inner, rest) := by
  have taken : (used ++ left).length - left.length = used.length := by
    rw [List.length_append]
    omega
  rw [Reader.stringFrom, if_neg (by decide), if_pos rfl, escaped]
  dsimp only
  rw [taken, string_skips, map_iff]
  simp

theorem string_plain (c : Char) (text rest inner : Text) (visible : ' ' ≤ c) (open' : c ≠ '"') (whole : c ≠ '\\') :
    Reader.stringFrom escape 0 (c :: text) = .ok (c :: inner, rest) ↔
      Reader.stringFrom escape 0 text = .ok (inner, rest) := by
  rw [Reader.stringFrom, if_neg open', if_neg whole, if_neg (Char.not_lt.mpr visible), map_iff]
  simp

variable (escapes : ∀ text rest c, escape text = .ok (c, rest) ↔ ∃ used, text = used ++ rest ∧ Escape used c)
include escapes

theorem spelled_read (inside text rest : Text) (spelled : Spelled Escape inside text) :
    Reader.stringFrom escape 0 (inside ++ '"' :: rest) = .ok (text, rest) := by
  induction spelled with
  | nil =>
      rw [List.nil_append, Reader.stringFrom, if_pos rfl]
  | plain visible open' whole _ ih => exact (string_plain _ _ rest _ visible open' whole).mpr ih
  | @escape used c inside text escaped _ ih =>
      have read := (escapes (used ++ (inside ++ '"' :: rest)) _ c).mpr ⟨used, rfl, escaped⟩
      rw [List.cons_append, List.append_assoc]
      exact (string_behind used _ text rest c read).mpr ih

end Reading

theorem literals_apart (literal other text text' rest rest' : Text) (first : Denotes literal text)
    (second : Denotes other text') (same : literal ++ rest = other ++ rest') :
    literal = other ∧ text = text' ∧ rest = rest' := by
  obtain ⟨inside, rfl, spelled⟩ := first
  obtain ⟨inside', rfl, spelled'⟩ := second
  simp only [List.cons_append, List.append_assoc, List.nil_append, List.cons.injEq, true_and] at same
  have read := spelled_read escape_iff inside text rest spelled
  rw [same, spelled_read escape_iff inside' text' rest' spelled'] at read
  cases read
  exact ⟨by rw [List.append_cancel_right same], rfl, rfl⟩

section Quoting

theorem hex_digit (n : Nat) (small : n < 16) : Reader.hexValue? (hexChar n) = some n ∧ ' ' ≤ hexChar n := by
  decide +revert

theorem code_escaped (c : Char) (control : c.toNat < 32) :
    Escaped ['u', '0', '0', hexChar (c.toNat / 16), hexChar (c.toNat % 16)] c := by
  have high := hex_digit (c.toNat / 16) (by omega)
  have low := hex_digit (c.toNat % 16) (by omega)
  have whole : c.toNat = ((0 * 16 + 0) * 16 + c.toNat / 16) * 16 + c.toNat % 16 := by omega
  have unit : IsUnit ['0', '0', hexChar (c.toNat / 16), hexChar (c.toNat % 16)] c.toNat :=
    ⟨_, _, _, _, 0, 0, _, _, rfl, rfl, rfl, high.1, low.1, whole⟩
  have low' : Reader.isLow c.toNat = false := by
    simp only [Reader.isLow, Bool.and_eq_false_iff, decide_eq_false_iff_not]
    omega
  have high' : Reader.isHigh c.toNat = false := by
    simp only [Reader.isHigh, Bool.and_eq_false_iff, decide_eq_false_iff_not]
    omega
  have stands := Escaped.code unit low' high'
  rwa [Char.ofNat_toNat] at stands

theorem escaped_cases (c : Char) : (' ' ≤ c ∧ c ≠ '"' ∧ c ≠ '\\' ∧ escaped c = [c]) ∨
    ∃ used, escaped c = '\\' :: used ∧ Escaped used c ∧ ∀ d ∈ used, ' ' ≤ d := by
  have short (d : Char) (visible : ' ' ≤ d) (listed : (d, c) ∈ escapes) (same : escaped c = ['\\', d]) :
      ∃ used, escaped c = '\\' :: used ∧ Escaped used c ∧ ∀ d ∈ used, ' ' ≤ d :=
    ⟨[d], same, .plain listed, by simpa using visible⟩
  by_cases quotes : c = '"'
  · subst quotes
    exact .inr (short '"' (by decide) (by decide) rfl)
  by_cases slash : c = '\\'
  · subst slash
    exact .inr (short '\\' (by decide) (by decide) rfl)
  by_cases back : c = '\x08'
  · subst back
    exact .inr (short 'b' (by decide) (by decide) rfl)
  by_cases page : c = '\x0c'
  · subst page
    exact .inr (short 'f' (by decide) (by decide) rfl)
  by_cases feed : c = '\n'
  · subst feed
    exact .inr (short 'n' (by decide) (by decide) rfl)
  by_cases carriage : c = '\r'
  · subst carriage
    exact .inr (short 'r' (by decide) (by decide) rfl)
  by_cases tab : c = '\t'
  · subst tab
    exact .inr (short 't' (by decide) (by decide) rfl)
  have rest : escaped c = if c.toNat < 32 then
      ['\\', 'u', '0', '0', hexChar (c.toNat / 16), hexChar (c.toNat % 16)] else [c] := by
    rw [escaped, if_neg quotes, if_neg slash, if_neg back, if_neg page, if_neg feed, if_neg carriage, if_neg tab]
  by_cases control : c.toNat < 32
  · rw [rest, if_pos control]
    refine .inr ⟨_, rfl, code_escaped c control, ?_⟩
    have high := (hex_digit (c.toNat / 16) (by omega)).2
    have low := (hex_digit (c.toNat % 16) (by omega)).2
    simp [high, low]
  · rw [rest, if_neg control]
    exact .inl ⟨Nat.not_lt.mp control, quotes, slash, rfl⟩

theorem quoted_spelled (text : Text) : Spelled Escaped (text.flatMap escaped) text := by
  induction text with
  | nil => exact .nil
  | cons c text ih =>
      rw [List.flatMap_cons]
      rcases escaped_cases c with ⟨visible, open', whole, same⟩ | ⟨used, same, stands, _⟩
      · rw [same]
        exact .plain visible open' whole ih
      · rw [same]
        exact .escape stands ih

theorem quote_denotes (text : Text) : Denotes (quote text) text := ⟨_, rfl, quoted_spelled text⟩

theorem quote_visible (text : Text) (c : Char) (member : c ∈ quote text) : ' ' ≤ c := by
  have inside (member : c ∈ text.flatMap escaped) : ' ' ≤ c := by
    obtain ⟨d, _, shown⟩ := List.mem_flatMap.mp member
    rcases escaped_cases d with ⟨visible, _, _, same⟩ | ⟨used, same, _, visible⟩
    · rw [same, List.mem_singleton] at shown
      rwa [shown]
    · rw [same, List.mem_cons] at shown
      rcases shown with rfl | later
      · decide
      · exact visible c later
  simp only [quote, List.cons_append, List.mem_cons, List.mem_append, List.not_mem_nil, or_false] at member
  rcases member with rfl | member | rfl
  · decide
  · exact inside member
  · decide

end Quoting

end DevServer.Json
