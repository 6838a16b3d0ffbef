import DevServer.Text.Classes

set_option autoImplicit false

namespace DevServer.Http

open Text

inductive Range where
  | fromTo (first last : Nat)
  | since (first : Nat)
  | final (count : Nat)
deriving DecidableEq, Repr

namespace Range

def maxNumber : Nat := 18446744073709551615

def number? (digits : Text) : Option Nat := do
  if digits.length ≠ 1 ∧ digits.head? = some '0' then none
  else
    let n ← toNat? digits
    if n ≤ maxNumber then some n else none

def ofText? (text : Text) : Option Range := do
  let (first, last) ← cutAt? '-' text
  if first = [] then
    let count ← number? last
    if count = 0 then none else some (final count)
  else if last = [] then some (since (← number? first))
  else some (fromTo (← number? first) (← number? last))

def part? (text : Text) : Option Range :=
  if text.getLast?.any isBlank ∨ 1 < (text.filter isBlank).length then none
  else ofText? (trim text)

def parse? (text : Text) : Option (List Range) := do
  let ranges ← text.after? "bytes="
  if ranges.head?.any isBlank then none
  else (Text.split ',' ranges).mapM part?

def bounds? (size : Nat) : Range → Option (Nat × Nat)
  | fromTo first last => ordered first (min last (size - 1))
  | since first => ordered first (size - 1)
  | final count => if size < count then none else ordered (size - count) (size - 1)
where
  ordered (first last : Nat) : Option (Nat × Nat) := if last < first then none else some (first, last)

def disjoint (a b : Nat × Nat) : Bool := a.2 < b.1 || b.2 < a.1

inductive Demand where
  | one (first last : Nat)
  | several
  | unmet
deriving DecidableEq, Repr

def demand (size : Nat) (text : Text) : Demand :=
  match (parse? text).bind fun ranges => ranges.mapM (bounds? size) with
  | none => .unmet
  | some [(first, last)] => .one first last
  | some bounds => if bounds.Pairwise fun a b => disjoint a b then .several else .unmet

end Range
end DevServer.Http
