import DevServer.FileTree.Basic

set_option autoImplicit false

namespace DevServer.Http.Percent

def digit? (b : UInt8) : Option UInt8 :=
  if 48 ≤ b ∧ b ≤ 57 then some (b - 48)
  else if 65 ≤ b ∧ b ≤ 70 then some (b - 55)
  else if 97 ≤ b ∧ b ≤ 102 then some (b - 87)
  else none

def sign : UInt8 := 37

def byte? (b high low : UInt8) : Option UInt8 :=
  if b = sign then
    match digit? high, digit? low with
    | some high, some low => some (high * 16 + low)
    | _, _ => none
  else none

def decode : List UInt8 → List UInt8
  | b :: high :: low :: rest =>
    match byte? b high low with
    | some byte => byte :: decode rest
    | none => b :: decode (high :: low :: rest)
  | rest => rest

def decodeText? (text : Text) : Option Text :=
  Text.ofBytes? ⟨(decode (Text.bytes text).toList).toArray⟩

end DevServer.Http.Percent
