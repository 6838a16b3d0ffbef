import DevServer.Text.Basic

set_option autoImplicit false

namespace DevServer

abbrev Path := Text

inductive Component where
  | root
  | here
  | parent
  | name (text : Text)
deriving DecidableEq, Repr

namespace Component

def ofSegment? (segment : Text) : Option Component :=
  if segment = [] ∨ segment = ['.'] then none
  else if segment = ['.', '.'] then some parent
  else some (name segment)

def name? : Component → Option Text
  | name text => some text
  | _ => none

def isInner : Component → Bool
  | here => true
  | name _ => true
  | _ => false

end Component

namespace Path

def isAbsolute : Path → Bool
  | '/' :: _ => true
  | _ => false

def segments : Path → List Text
  | '/' :: rest => Text.split '/' rest
  | path => Text.split '/' path

def components (path : Path) : List Component :=
  if isAbsolute path then .root :: (segments path).filterMap Component.ofSegment?
  else match segments path with
    | ['.'] :: rest => .here :: rest.filterMap Component.ofSegment?
    | all => all.filterMap Component.ofSegment?

def names (path : Path) : List Text := (components path).filterMap Component.name?

def same (a b : Path) : Bool := components a == components b

def join (base path : Path) : Path :=
  if isAbsolute path then path
  else if base = [] ∨ base.getLast? = some '/' then base ++ path
  else base ++ '/' :: path

def extend (base : Path) (names : List Text) : Path := names.foldl join base

-- Segments up to the last that is a component; only the first of a relative path may
-- be a dot.
def significant (absolute : Bool) (parts : List Text) : List Text :=
  match absolute, parts with
  | false, ['.'] :: rest => ['.'] :: ends rest
  | _, parts => ends parts
where
  ends (parts : List Text) : List Text :=
    (parts.reverse.dropWhile fun part => part = [] ∨ part = ['.']).reverse

def ofSegments (absolute : Bool) (parts : List Text) : Path :=
  if absolute then '/' :: Text.join ['/'] parts else Text.join ['/'] parts

def parent? (path : Path) : Option Path :=
  let absolute := isAbsolute path
  match significant absolute (segments path) with
  | [] => none
  | part :: parts =>
    some (ofSegments absolute (significant absolute (part :: parts).dropLast))

def fileName? (path : Path) : Option Text := (components path).getLast?.bind Component.name?

def extensionOf? (name : Text) : Option Text :=
  match Text.cutAt? '.' name.reverse with
  | some (_, []) => none
  | some (ending, _) => some ending.reverse
  | none => none

def extension? (path : Path) : Option Text := (fileName? path).bind extensionOf?

def dropComponents? : List Component → List Component → Option (List Component)
  | parts, [] => some parts
  | [], _ :: _ => none
  | part :: parts, base :: bases => if part = base then dropComponents? parts bases else none

def below? (path base : Path) : Option (List Component) :=
  dropComponents? (components path) (components base)

def isWithin (path base : Path) : Bool := (below? path base).isSome

def relativeTo (path base : Path) : List Component :=
  (below? path base).getD (components path)

def foldStep (names : List Text) : Component → List Text
  | .parent => names.dropLast
  | .name text => names ++ [text]
  | _ => names

def normalize (path : Path) : Path :=
  ofSegments (isAbsolute path) ((components path).foldl foldStep [])

end Path
end DevServer
