import DevServer.Proofs.Patterns

set_option autoImplicit false

namespace DevServer.CommonJs

open Text

inductive Region where
  | code
  | literal (quote : Char)
  | escape (quote : Char)
deriving DecidableEq

namespace Region

def next : Region → Char → Region
  | code, c => if isQuote c then literal c else code
  | literal quote, c => if c = '\\' then escape quote else if c = quote then code else literal quote
  | escape quote, _ => literal quote

def behind (region : Region) (text : Text) : Region := text.foldl next region

def marks (mark : Char) : Region → Text → Nat
  | _, [] => 0
  | region, c :: text => (if region = code ∧ c = mark then 1 else 0) + marks mark (region.next c) text

end Region

-- At this offset a parenthesis outside of literals closes what is open, with as many opened
-- as closed before it.
def IsClosing (text : Text) (offset : Nat) : Prop :=
  ∃ inner rest, text = inner ++ ')' :: rest ∧ size inner = offset ∧ Region.code.behind inner = .code ∧
    Region.code.marks '(' inner = Region.code.marks ')' inner

def closingOffset? (text : Text) : Option Nat := (closing? text).map fun (inner, _) => size inner

inductive Count where
  | closed (offset : Nat)
  | unclosed
  | fault
deriving DecidableEq, Repr

namespace Count

def past (c : Char) : Count → Count
  | closed offset => closed (c.utf8Size + offset)
  | unclosed => unclosed
  | fault => fault

def ofSplit : Option (Text × Text) → Count
  | some (inner, _) => closed (size inner)
  | none => unclosed

def IsFirst (holds : Nat → Prop) : Count → Prop
  | closed offset => holds offset ∧ ∀ earlier < offset, ¬ holds earlier
  | unclosed => ∀ offset, ¬ holds offset
  | fault => False

end Count

def countFrom : Nat → Region → Text → Count
  | _, _, [] => .unclosed
  | depth, region, c :: text =>
    if region ≠ .code then (countFrom depth (region.next c) text).past c
    else if c = '(' then (countFrom (depth + 1) (region.next c) text).past c
    else if c = ')' then
      match depth with
      | 0 => .fault
      | 1 => .closed 0
      | depth + 2 => (countFrom (depth + 1) (region.next c) text).past c
    else (countFrom depth (region.next c) text).past c

def countCalls (text : Text) : Count := countFrom 1 .code text

section Counting

def regionOf : Option Char → Region
  | some quote => .literal quote
  | none => .code

theorem region_quoted (quote : Char) : regionOf (some quote) ≠ .code := Region.noConfusion

theorem region_kept (quote c : Char) (unescaped : c ≠ '\\') :
    (regionOf (some quote)).next c = regionOf (if c = quote then none else some quote) := by
  unfold regionOf
  rw [Region.next, if_neg unescaped]
  split
  · rfl
  · rfl

theorem region_opened (c : Char) :
    (regionOf none).next c = regionOf (if isQuote c then some c else none) := by
  unfold regionOf
  rw [Region.next]
  split
  · rfl
  · rfl

theorem past_split (c : Char) (found : Option (Text × Text)) :
    (Count.ofSplit found).past c = .ofSplit (found.map fun (inner, rest) => (c :: inner, rest)) := by
  cases found with
  | none => rfl
  | some pair => rfl

theorem scan_inside (depth : Nat) (region : Region) (c : Char) (text : Text) (inside : region ≠ .code) :
    countFrom depth region (c :: text) = (countFrom depth (region.next c) text).past c := by
  conv => lhs; unfold countFrom
  rw [if_pos inside]

theorem scan_plain (depth : Nat) (c : Char) (text : Text) (opens : c ≠ '(') (closes : c ≠ ')') :
    countFrom depth .code (c :: text) = (countFrom depth (Region.code.next c) text).past c := by
  conv => lhs; unfold countFrom
  rw [if_neg (by decide), if_neg opens, if_neg closes]

theorem scan_opened (depth : Nat) (text : Text) :
    countFrom depth .code ('(' :: text) = (countFrom (depth + 1) .code text).past '(' := by
  conv => lhs; unfold countFrom
  rfl

theorem scan_lowered (depth : Nat) (text : Text) :
    countFrom (depth + 2) .code (')' :: text) = (countFrom (depth + 1) .code text).past ')' := by
  conv => lhs; unfold countFrom
  rfl

-- The scan takes an escape in two steps where the search takes both characters at once, and
-- counts the call itself, which the search does not.
theorem scan_closing (depth : Nat) (quote : Option Char) (text : Text) :
    countFrom (depth + 1) (regionOf quote) text = .ofSplit (closingFrom depth quote text) := by
  fun_induction closingFrom depth quote text with
  | case1 => rfl
  | case2 depth quote c text ih =>
      have inside := scan_inside (depth + 1) (regionOf (some quote)) '\\' (c :: text) (region_quoted quote)
      have escaped := scan_inside (depth + 1) (.escape quote) c text Region.noConfusion
      change _ = (countFrom (depth + 1) (regionOf (some quote)) text).past c at escaped
      rw [inside]
      change (countFrom (depth + 1) (.escape quote) (c :: text)).past '\\' = _
      rw [escaped, ih, past_split, past_split, Option.map_map]
      rfl
  | case3 depth quote c text other ih =>
      rw [scan_inside _ _ c text (region_quoted quote), ← past_split, ← ih]
      by_cases escapes : c = '\\'
      · cases text with
        | nil => rfl
        | cons d text => exact absurd rfl (other d text escapes)
      · rw [region_kept quote c escapes]
  | case4 depth c text closes =>
      obtain ⟨rfl, rfl⟩ := closes
      rfl
  | case5 depth c text open' next ih =>
      rw [← past_split, ← ih, ← region_opened]
      by_cases opens : c = '('
      · subst opens
        exact scan_opened _ text
      · by_cases closes : c = ')'
        · subst closes
          cases depth with
          | zero => exact absurd ⟨rfl, rfl⟩ open'
          | succ depth => exact scan_lowered depth text
        · have kept : next = depth := by simp [next, opens, closes]
          rw [kept]
          exact scan_plain _ c text opens closes

end Counting

section Ends

def ClosesFrom (depth : Nat) (region : Region) (text : Text) (offset : Nat) : Prop :=
  ∃ inner rest, text = inner ++ ')' :: rest ∧ size inner = offset ∧ region.behind inner = .code ∧
    depth + region.marks '(' inner = region.marks ')' inner + 1

theorem closes_first (text : Text) : ClosesFrom 1 .code (')' :: text) 0 :=
  ⟨[], text, rfl, rfl, rfl, rfl⟩

theorem closes_past (depth after : Nat) (region : Region) (c : Char) (text : Text)
    (open' : ¬ (region = .code ∧ c = ')' ∧ depth = 1))
    (counted : depth + region.marks '(' [c] = after + region.marks ')' [c]) (offset : Nat) :
    ClosesFrom depth region (c :: text) offset ↔
      ∃ later, offset = c.utf8Size + later ∧ ClosesFrom after (region.next c) text later := by
  constructor
  · rintro ⟨inner, rest, whole, rfl, outside, balanced⟩
    cases inner with
    | nil =>
        cases whole
        exact absurd ⟨outside, rfl, by simpa [Region.marks] using balanced⟩ open'
    | cons d inner =>
        obtain ⟨rfl, later⟩ := List.cons.inj whole
        refine ⟨size inner, rfl, inner, rest, later, rfl, outside, ?_⟩
        simp only [Region.marks] at counted balanced
        omega
  · rintro ⟨_, rfl, inner, rest, rfl, rfl, outside, balanced⟩
    refine ⟨c :: inner, rest, rfl, rfl, outside, ?_⟩
    simp only [Region.marks] at counted ⊢
    omega

theorem past_first (depth after : Nat) (region : Region) (c : Char) (text : Text) (found : Count)
    (open' : ¬ (region = .code ∧ c = ')' ∧ depth = 1))
    (counted : depth + region.marks '(' [c] = after + region.marks ')' [c])
    (first : found.IsFirst (ClosesFrom after (region.next c) text)) :
    (found.past c).IsFirst (ClosesFrom depth region (c :: text)) := by
  have behind := closes_past depth after region c text open' counted
  cases found with
  | closed offset =>
      refine ⟨(behind _).mpr ⟨offset, rfl, first.1⟩, fun earlier less here => ?_⟩
      obtain ⟨rest, rfl, sooner⟩ := (behind earlier).mp here
      exact first.2 rest (Nat.lt_of_add_lt_add_left less) sooner
  | unclosed =>
      intro offset here
      obtain ⟨rest, _, later⟩ := (behind offset).mp here
      exact first rest later
  | fault => exact first

-- By induction on the text: while a call is open, the count meets the first parenthesis
-- that closes it, and is not lowered below zero before.
theorem scan_first (depth : Nat) (region : Region) (text : Text) (some' : 0 < depth) :
    (countFrom depth region text).IsFirst (ClosesFrom depth region text) := by
  induction text generalizing depth region with
  | nil =>
      rintro offset ⟨inner, rest, whole, _⟩
      cases inner <;> cases whole
  | cons c text ih =>
      by_cases outside : region = .code
      · subst outside
        by_cases opens : c = '('
        · subst opens
          rw [scan_opened]
          exact past_first depth _ .code '(' text _ (by simp) rfl (ih (depth + 1) .code (Nat.succ_pos depth))
        · by_cases closes : c = ')'
          · subst closes
            match depth, some' with
            | 1, _ => exact ⟨closes_first text, fun earlier less => absurd less (Nat.not_lt_zero _)⟩
            | depth + 2, _ =>
                rw [scan_lowered]
                exact past_first _ _ .code ')' text _ (by simp) rfl (ih (depth + 1) .code (Nat.succ_pos depth))
          · have counted : depth + Region.code.marks '(' [c] = depth + Region.code.marks ')' [c] := by
              simp [Region.marks, opens, closes]
            rw [scan_plain depth c text opens closes]
            exact past_first depth _ .code c text _ (by simp [closes]) counted (ih depth _ some')
      · have counted : depth + region.marks '(' [c] = depth + region.marks ')' [c] := by
          simp [Region.marks, outside]
        rw [scan_inside depth region c text outside]
        exact past_first depth _ region c text _ (by simp [outside]) counted (ih depth _ some')

theorem closing_iff (text : Text) (offset : Nat) : ClosesFrom 1 .code text offset ↔ IsClosing text offset := by
  have counts (inner : Text) : 1 + Region.code.marks '(' inner = Region.code.marks ')' inner + 1 ↔
      Region.code.marks '(' inner = Region.code.marks ')' inner := by omega
  simp only [ClosesFrom, IsClosing, counts]

theorem scan_calls (text : Text) : countCalls text = .ofSplit (closing? text) :=
  scan_closing 0 none text

theorem first_closing (text : Text) : (Count.ofSplit (closing? text)).IsFirst (IsClosing text) := by
  have first := scan_first 1 .code text (by decide)
  have same : ClosesFrom 1 .code text = IsClosing text := funext fun offset => propext (closing_iff text offset)
  rw [same] at first
  exact scan_calls text ▸ first

theorem closing_offset_iff (text : Text) (offset : Nat) : closingOffset? text = some offset ↔
    IsClosing text offset ∧ ∀ earlier < offset, ¬ IsClosing text earlier := by
  have first := first_closing text
  rw [closingOffset?]
  cases found : closing? text with
  | none =>
      rw [found] at first
      exact ⟨nofun, fun here => absurd here.1 (first offset)⟩
  | some split =>
      rw [found] at first
      constructor
      · intro same
        cases same
        exact first
      · intro ⟨here, least⟩
        obtain less | same | more := Nat.lt_trichotomy offset (size split.1)
        · exact absurd here (first.2 offset less)
        · rw [same]
          rfl
        · exact absurd first.1 (least _ more)

theorem unclosed_iff (text : Text) : closingOffset? text = none ↔ ∀ offset, ¬ IsClosing text offset := by
  have first := first_closing text
  rw [closingOffset?, Option.map_eq_none_iff]
  cases found : closing? text with
  | none =>
      rw [found] at first
      exact ⟨fun _ => first, fun _ => rfl⟩
  | some split =>
      rw [found] at first
      exact ⟨nofun, fun unclosed => absurd first.1 (unclosed _)⟩

end Ends

theorem call_ends_exact (text : Text) :
    (∀ offset, closingOffset? text = some offset ↔
      IsClosing text offset ∧ ∀ earlier < offset, ¬ IsClosing text earlier) ∧
    (closingOffset? text = none ↔ ∀ offset, ¬ IsClosing text offset) ∧
    (∀ inner rest, closing? text = some (inner, rest) → text = inner ++ ')' :: rest) ∧
    countCalls text = (match closingOffset? text with
      | some offset => .closed offset
      | none => .unclosed) := by
  refine ⟨closing_offset_iff text, unclosed_iff text, closing_whole 0 none text, ?_⟩
  rw [scan_calls, closingOffset?]
  cases closing? text with
  | none => rfl
  | some split => rfl

example : closingOffset? "g(1, '\\')'), 2) + (3)" = some 14 := by decide

end DevServer.CommonJs
