import DevServer.Json.Magnitude
import DevServer.Json.Value

set_option autoImplicit false

namespace DevServer.Json

inductive Fault where
  | malformed
  | ended
  | mismatched
deriving DecidableEq, Repr

-- What a message says of a fault. Readers keep no positions, so it is a placeholder.
def Fault.message : Fault → Text := fun _ => "<json>"

abbrev Reader (α : Type) := StateT Text (Except Fault) α

namespace Reader

def isSpace (c : Char) : Bool := c == ' ' || c == '\n' || c == '\t' || c == '\r'

def isDigit (c : Char) : Bool := '0' ≤ c && c ≤ '9'

def peek : Reader (Option Char) := do return (← get).head?

def skipSpace : Reader (Option Char) := do
  modify fun text => text.dropWhile isSpace
  peek

def drop : Reader Unit := modify List.tail

def take? : Reader (Option Char) := do
  let c ← peek
  drop
  return c

def word : Text → Reader Unit
  | [] => pure ()
  | c :: rest => do
    match ← take? with
    | none => throw .ended
    | some d => if d = c then word rest else throw .malformed

def digits : Reader Text := do
  let text ← get
  set (text.dropWhile isDigit)
  return text.takeWhile isDigit

def hexValue? (c : Char) : Option Nat :=
  if '0' ≤ c ∧ c ≤ '9' then some (c.toNat - 48)
  else if 'a' ≤ c ∧ c ≤ 'f' then some (c.toNat - 87)
  else if 'A' ≤ c ∧ c ≤ 'F' then some (c.toNat - 55)
  else none

-- Four digits of a unit; the text has ended when fewer than four bytes remain.
def unit (text : Text) : Except Fault (Nat × Text) :=
  if Text.size (text.take 4) < 4 then .error .ended
  else match text with
    | a :: b :: c :: d :: rest =>
      match hexValue? a, hexValue? b, hexValue? c, hexValue? d with
      | some a, some b, some c, some d => .ok (((a * 16 + b) * 16 + c) * 16 + d, rest)
      | _, _, _, _ => .error .malformed
    | _ => .error .malformed

def isHigh (n : Nat) : Bool := 0xD800 ≤ n && n ≤ 0xDBFF
def isLow (n : Nat) : Bool := 0xDC00 ≤ n && n ≤ 0xDFFF

def lowHalf (high : Nat) : Text → Except Fault (Char × Text)
  | [] => .error .ended
  | ['\\'] => .error .ended
  | '\\' :: 'u' :: text => do
    let (low, rest) ← unit text
    if isLow low then
      .ok (Char.ofNat ((high - 0xD800) * 1024 + (low - 0xDC00) + 0x10000), rest)
    else .error .malformed
  | _ => .error .malformed

def plainEscape? (c : Char) : Option Char :=
  match c with
  | '"' => some '"'
  | '\\' => some '\\'
  | '/' => some '/'
  | 'b' => some '\x08'
  | 'f' => some '\x0c'
  | 'n' => some '\n'
  | 'r' => some '\r'
  | 't' => some '\t'
  | _ => none

def escape : Text → Except Fault (Char × Text)
  | [] => .error .ended
  | 'u' :: text => do
    let (n, rest) ← unit text
    if isLow n then .error .malformed
    else if isHigh n then lowHalf n rest
    else .ok (Char.ofNat n, rest)
  | c :: text =>
    match plainEscape? c with
    | some d => .ok (d, text)
    | none => .error .malformed

def looseEscape : Text → Except Fault (Char × Text)
  | 'u' :: text => do
    let (_, rest) ← unit text
    .ok ('u', rest)
  | text => escape text

def stringFrom (escape : Text → Except Fault (Char × Text)) :
    Nat → Text → Except Fault (Text × Text)
  | _, [] => .error .ended
  | skip + 1, _ :: text => stringFrom escape skip text
  | 0, c :: text =>
    if c = '"' then .ok ([], text)
    else if c = '\\' then
      match escape text with
      | .error fault => .error fault
      | .ok (d, left) =>
        (stringFrom escape (text.length - left.length) text).map
          fun (inner, rest) => (d :: inner, rest)
    else if c < ' ' then .error .malformed
    else (stringFrom escape 0 text).map fun (inner, rest) => (c :: inner, rest)

def string : Reader Text := fun text => stringFrom escape 0 text

def looseString : Reader Text := fun text => stringFrom looseEscape 0 text

def natOf (digits : Text) : Nat := digits.foldl (fun n c => n * 10 + (c.toNat - 48)) 0

structure Numeral where
  value : Number
  isInteger : Bool
deriving DecidableEq, Repr

def someDigits (atEnd : Fault) : Reader Text := do
  let ds ← digits
  if ds ≠ [] then return ds
  match ← peek with
  | none => throw atEnd
  | some _ => throw .malformed

def fraction (atEnd : Fault) : Reader (Option Text) := do
  if (← peek) = some '.' then
    drop
    return some (← someDigits atEnd)
  return none

def exponent (atEnd : Fault) : Reader (Option Int) := do
  match ← peek with
  | some 'e' | some 'E' =>
    drop
    let sign ← peek
    if sign = some '+' ∨ sign = some '-' then drop
    let n : Int := natOf (← someDigits atEnd)
    return some (if sign = some '-' then -n else n)
  | _ => return none

def integerDigits (atEnd : Fault) : Reader Text := do
  let ds ← someDigits atEnd
  match ds with
  | '0' :: _ :: _ => throw .malformed
  | _ => return ds

def numeralAfter (negative : Bool) (atEnd : Fault) : Reader (Numeral × Bool) := do
  let whole ← integerDigits atEnd
  let part ← fraction atEnd
  let scale ← exponent atEnd
  let places := part.getD []
  let n := natOf (whole ++ places)
  let power := scale.getD 0
  let number : Number := ⟨if negative then -n else n, power - places.length⟩
  return (⟨number, part.isNone && scale.isNone⟩, (Magnitude.ofDigits whole places power).isFinite)

def sign : Reader Bool := do
  if (← peek) = some '-' then
    drop
    return true
  return false

def numeral : Reader Numeral := do
  let (n, finite) ← numeralAfter (← sign) .ended
  if finite then return n else throw .malformed

def looseNumeral : Reader Unit := do
  let _ ← numeralAfter (← sign) .malformed

def hasItem (first : Bool) : Reader Bool := do
  match ← skipSpace with
  | none => throw .ended
  | some ']' => return false
  | some c =>
    if first then return true
    if c ≠ ',' then throw .malformed
    drop
    match ← skipSpace with
    | none => throw .ended
    | some ']' => throw .malformed
    | some _ => return true

def hasMember (first : Bool) : Reader Bool := do
  match ← skipSpace with
  | none => throw .ended
  | some '}' => return false
  | some c =>
    if first then
      if c = '"' then return true else throw .malformed
    if c ≠ ',' then throw .malformed
    drop
    match ← skipSpace with
    | none => throw .ended
    | some '"' => return true
    | some _ => throw .malformed

def close (bracket : Char) : Reader Unit := do
  match ← skipSpace with
  | none => throw .ended
  | some c => if c = bracket then drop else throw .malformed

def colon : Reader Unit := close ':'

def itemsFrom {α : Type} (item : Reader α) : Nat → Bool → Reader (List α)
  | 0, _ => throw .ended
  | fuel + 1, first => do
    if ← hasItem first then
      let a ← item
      return a :: (← itemsFrom item fuel false)
    return []

def items {α : Type} (item : Reader α) : Reader (List α) := do
  let all ← itemsFrom item ((← get).length + 1) true
  close ']'
  return all

def membersFrom {σ : Type} (name : Reader Text) (member : σ → Text → Reader σ) :
    Nat → Bool → σ → Reader σ
  | 0, _, _ => throw .ended
  | fuel + 1, first, state => do
    if ← hasMember first then
      drop
      membersFrom name member fuel false (← member state (← name))
    else return state

def members {σ : Type} (name : Reader Text) (member : σ → Text → Reader σ) (start : σ) :
    Reader σ := do
  let last ← membersFrom name member ((← get).length + 1) true start
  close '}'
  return last

-- A value whose arrays and objects hold what `inner` reads; without it they are
-- nested too deep.
def valueWith (inner : Option (Reader Value)) : Reader Value := do
  match ← skipSpace with
  | none => throw .ended
  | some 'n' => word "null"; return .null
  | some 't' => word "true"; return .bool true
  | some 'f' => word "false"; return .bool false
  | some '"' => drop; return .string (← string)
  | some '[' =>
    let some inner := inner | throw .malformed
    drop
    return .array (← items inner)
  | some '{' =>
    let some inner := inner | throw .malformed
    drop
    return .object (← members string (fun all name => do
      colon
      return Members.put name (← inner) all) [])
  | some c =>
    if c = '-' ∨ isDigit c then return .number (← numeral).value else throw .malformed

def valueAt : Nat → Reader Value
  | 0 => valueWith none
  | depth + 1 => valueWith (some (valueAt depth))

def maxDepth : Nat := 127

def value : Reader Value := valueAt maxDepth

def skipFrom : Nat → Reader Unit
  | 0 => throw .ended
  | fuel + 1 => do
    match ← skipSpace with
    | none => throw .ended
    | some 'n' => word "null"
    | some 't' => word "true"
    | some 'f' => word "false"
    | some '"' => drop; let _ ← looseString
    | some '[' => drop; let _ ← items (skipFrom fuel)
    | some '{' =>
      drop
      members looseString (fun _ _ => do
        colon
        skipFrom fuel) ()
    | some c => if c = '-' ∨ isDigit c then looseNumeral else throw .malformed

def skip : Reader Unit := do skipFrom ((← get).length + 1)

def mismatch {α : Type} : Reader α := do
  match ← skipSpace with
  | none => throw .ended
  | some '[' | some '{' => throw .mismatched
  | some _ =>
    let _ ← valueWith none
    throw .mismatched

def text : Reader Text := do
  match ← skipSpace with
  | some '"' => drop; string
  | _ => mismatch

def flag : Reader Bool := do
  match ← skipSpace with
  | some 't' => word "true"; return true
  | some 'f' => word "false"; return false
  | _ => mismatch

def natural (limit : Nat) : Reader Nat := do
  match ← skipSpace with
  | some c =>
    if c = '-' ∨ isDigit c then
      let n ← numeral
      if c ≠ '-' ∧ n.isInteger ∧ n.value.mantissa.toNat ≤ limit then
        return n.value.mantissa.toNat
      throw .mismatched
    mismatch
  | none => mismatch

def list {α : Type} (item : Reader α) : Reader (List α) := do
  match ← skipSpace with
  | some '[' => drop; items item
  | _ => mismatch

def table {α : Type} (item : Reader α) : Reader (List (Text × α)) := do
  match ← skipSpace with
  | some '{' =>
    drop
    members string (fun all name => do
      colon
      let a ← item
      return all.filter (·.1 ≠ name) ++ [(name, a)]) []
  | _ => mismatch

def once {α : Type} (old : Option α) (item : Reader α) : Reader (Option α) := do
  if old.isSome then throw .mismatched
  colon
  return some (← item)

def next? {α : Type} (first : Bool) (item : Reader α) : Reader (Option α) := do
  if ← hasItem first then return some (← item)
  return none

end Reader

def read {α : Type} (reader : Reader α) (text : Text) : Except Fault α := do
  let (a, rest) ← reader text
  if rest.dropWhile Reader.isSpace = [] then .ok a else .error .malformed

end DevServer.Json
