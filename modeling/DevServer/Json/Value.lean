import DevServer.Text.Basic

set_option autoImplicit false

namespace DevServer.Json

structure Number where
  mantissa : Int
  exponent : Int
deriving DecidableEq, Repr

inductive Value where
  | null
  | bool (value : Bool)
  | number (value : Number)
  | string (text : Text)
  | array (items : List Value)
  | object (members : List (Text × Value))
deriving Repr, Inhabited

abbrev Members := List (Text × Value)

namespace Members

def get? (query : Text) : Members → Option Value
  | [] => none
  | (name, value) :: rest => if query = name then some value else get? query rest

def put (query : Text) (new : Value) : Members → Members
  | [] => [(query, new)]
  | (name, value) :: rest =>
    if query = name then (name, new) :: rest else (name, value) :: put query new rest

theorem get?_put (query name : Text) (new : Value) (members : Members) :
    get? query (put name new members) =
      if query = name then some new else get? query members := by
  induction members with
  | nil => simp [put, get?]
  | cons member rest ih =>
    obtain ⟨other, value⟩ := member
    by_cases same : name = other
    · subst same
      by_cases hit : query = name <;> simp [put, get?, hit]
    · by_cases hit : query = other
      · simp [put, get?, same, hit, Ne.symm same]
      · simp [put, get?, same, hit, ih]

end Members

namespace Value

def text? : Value → Option Text
  | string text => some text
  | _ => none

def member? (name : Text) : Value → Option Value
  | object members => Members.get? name members
  | _ => none

end Value

end DevServer.Json
