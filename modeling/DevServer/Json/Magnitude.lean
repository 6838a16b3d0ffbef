import DevServer.Text.Basic

set_option autoImplicit false

namespace DevServer.Json

structure Magnitude where
  significand : Nat
  exponent : Int
deriving DecidableEq, Repr

namespace Magnitude

def maxSignificand : Nat := 18446744073709551615

-- Appends digits to a significand while it fits; the others are left.
def keep (n : Nat) : Text → Nat × Text
  | [] => (n, [])
  | c :: digits =>
    let next := n * 10 + (c.toNat - 48)
    if next ≤ maxSignificand then keep next digits else (n, c :: digits)

def ofDigits (whole fraction : Text) (scale : Int) : Magnitude :=
  let (n, dropped) := keep 0 whole
  let (n, ignored) := keep n fraction
  ⟨n, scale + dropped.length - (fraction.length - ignored.length)⟩

-- The nearest number of 53 bits, of two the even one.
def rounded (n : Nat) : Nat :=
  let unit := Nat.pow 2 (Nat.log2 n + 1 - 53)
  let rest := n % unit
  let below := n / unit
  if unit < 2 * rest ∨ (2 * rest = unit ∧ below % 2 = 1) then (below + 1) * unit else below * unit

-- Half a unit above the largest double.
def limit : Nat := Nat.pow 2 1024 - Nat.pow 2 970

def maxExponent : Int := 308

def isFinite (m : Magnitude) : Bool :=
  m.significand == 0 || m.exponent < 0 ||
    (m.exponent ≤ maxExponent &&
      rounded m.significand * rounded (Nat.pow 10 m.exponent.toNat) < limit)

end Magnitude
end DevServer.Json
