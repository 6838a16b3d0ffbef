import DevServer.Text.Classes

set_option autoImplicit false

namespace DevServer.Text

inductive Piece (α : Type) where
  | kept (c : Char)
  | found (a : α)
deriving DecidableEq, Repr

abbrev Matcher (α : Type) := Option Char → Text → Option (α × Text)

namespace Piece

def render {α : Type} (print : α → Text) : Piece α → Text
  | kept c => [c]
  | found a => print a

def found? {α : Type} : Piece α → Option α
  | kept _ => none
  | found a => some a

end Piece

def scanFrom {α : Type} (matcher : Matcher α) : Nat → Option Char → Text → List (Piece α)
  | _, _, [] => []
  | skip + 1, _, c :: rest => scanFrom matcher skip (some c) rest
  | 0, before, c :: rest =>
    match matcher before (c :: rest) with
    | some (a, left) => .found a :: scanFrom matcher (rest.length - left.length) (some c) rest
    | none => .kept c :: scanFrom matcher 0 (some c) rest

def scan {α : Type} (matcher : Matcher α) (text : Text) : List (Piece α) :=
  scanFrom matcher 0 none text

def render {α : Type} (print : α → Text) (pieces : List (Piece α)) : Text :=
  pieces.flatMap (Piece.render print)

def rewrite {α : Type} (matcher : Matcher α) (print : α → Text) (text : Text) : Text :=
  render print (scan matcher text)

def matchesFrom {α : Type} (matcher : Matcher α) : Option Char → Text → Bool
  | _, [] => false
  | before, c :: rest =>
    (matcher before (c :: rest)).isSome || matchesFrom matcher (some c) rest

def matches? {α : Type} (matcher : Matcher α) (text : Text) : Bool := matchesFrom matcher none text

theorem scanFrom_any_found {α : Type} (matcher : Matcher α) (before : Option Char) (text : Text) :
    ((scanFrom matcher 0 before text).any fun piece => piece.found?.isSome) =
      matchesFrom matcher before text := by
  induction text generalizing before with
  | nil => rfl
  | cons c rest ih =>
    unfold scanFrom matchesFrom
    cases hit : matcher before (c :: rest) with
    | none => simpa [Piece.found?] using ih (some c)
    | some found => simp [Piece.found?]

def wholeWord (word : Text) : Matcher Unit := fun before text =>
  if before.any isWord then none
  else match after? text word with
    | some rest => if rest.head?.any isWord then none else some ((), rest)
    | none => none

def spaces (text : Text) : Text := text.dropWhile isSpace

def someSpace? : Text → Option Text
  | [] => none
  | c :: text => if isSpace c then some (spaces text) else none

def char? (p : Char → Bool) : Text → Option (Char × Text)
  | [] => none
  | c :: text => if p c then some (c, text) else none

def run? (p : Char → Bool) (text : Text) : Option (Text × Text) :=
  if text.takeWhile p = [] then none else some (text.takeWhile p, text.dropWhile p)

def identifier? : Text → Option (Text × Text)
  | [] => none
  | c :: text =>
    if isIdentStart c then some (c :: text.takeWhile isIdentPart, text.dropWhile isIdentPart)
    else none

end DevServer.Text
