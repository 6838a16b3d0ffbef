import Mathlib.Data.List.TakeWhile
import DevServer.Proofs.JsonTexts

set_option autoImplicit false

namespace DevServer.Json

open Reader

def isDigits (ds : Text) : Bool := ds ≠ [] && ds.all isDigit

def IsWhole (ds : Text) : Prop := isDigits ds = true ∧ ∀ d rest, ds ≠ '0' :: d :: rest

inductive Fraction : Text → Prop where
  | none : Fraction []
  | some {ds : Text} : isDigits ds = true → Fraction ('.' :: ds)

inductive Exponent : Text → Prop where
  | none : Exponent []
  | some {mark : Char} {sign ds : Text} : mark = 'e' ∨ mark = 'E' → sign ∈ [[], ['+'], ['-']] →
      isDigits ds = true → Exponent (mark :: (sign ++ ds))

inductive IsNumber : Text → Prop where
  | mk {sign whole part scale : Text} : sign = [] ∨ sign = ['-'] → IsWhole whole → Fraction part → Exponent scale →
      IsNumber (sign ++ (whole ++ (part ++ scale)))

end DevServer.Json
