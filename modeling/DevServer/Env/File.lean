import DevServer.FileTree.Basic
import DevServer.Text.Classes
import DevServer.Text.Lines

set_option autoImplicit false

namespace DevServer.Env

open Text

abbrev Definitions := List (Text × Text)

def lookup? (key : Text) (definitions : Definitions) : Option Text :=
  (definitions.reverse.find? fun definition => definition.1 = key).map Prod.snd

def unquoteWith? (quote : Char) : Text → Option Text
  | [] => none
  | c :: rest => if c = quote ∧ rest.getLast? = some quote then some rest.dropLast else none

def unquote (value : Text) : Text :=
  ((unquoteWith? '"' value).orElse fun _ => unquoteWith? '\'' value).getD value

def isKey (key : Text) : Bool := key ≠ [] && !key.any isBlank

def definition? (line : Text) : Option (Text × Text) :=
  let line := trim line
  if line.startsWith "#" then none
  else match cutAt? '=' line with
    | none => none
    | some (key, value) =>
      if isKey (trim key) then some (trim key, unquote (trim value)) else none

def parse (content : Text) : Definitions := (lines content).filterMap definition?

def fileNames (mode : Text) : List Text :=
  [".env", ".env.local", ".env." ++ mode, ".env." ++ mode ++ ".local"]

def load (tree : FileTree) (root : Path) (mode : Text) : Definitions :=
  (fileNames mode).flatMap fun name =>
    match tree.readText (Path.join root name) with
    | .ok content => parse content
    | .error _ => []

end DevServer.Env
