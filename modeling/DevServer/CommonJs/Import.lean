import DevServer.CommonJs.Extension
import DevServer.CommonJs.Load
import DevServer.Text.Lines

set_option autoImplicit false

namespace DevServer.CommonJs

open Text

def importedName (part : Text) : Text :=
  let part := trim (part.takeWhile (· ≠ '='))
  match cutAt? ':' part with
  | some (field, renamed) => trim field ++ " as " ++ trim renamed
  | none => part

def importedNames (list : Text) : Text :=
  join ", " ((((split ',' list).map trim).filter (· ≠ [])).map importedName)

def memberMatcher (name : Text) : Matcher Unit := fun before text =>
  match text.after? name with
  | none => none
  | some text =>
    if before.any fun c => isIdentPart c || c == '.' then none
    else do
      let (_, rest) ← char? isIdentStart (← text.after? ".")
      some ((), rest)

def usesMember (source name : Text) : Bool := matches? (memberMatcher name) source

def fromModule (source : Text) : Text := " from \"" ++ withExtension source ++ "\";"

def Load.declaration (source : Text) (load : Load) : Text :=
  match load.binding with
  | .member name field =>
    "import \x7b " ++ field ++ " as " ++ name ++ " \x7d" ++ fromModule load.source
  | .called name arguments =>
    "import " ++ name ++ "Factory" ++ fromModule load.source ++
      "\nconst " ++ name ++ " = " ++ name ++ "Factory(" ++ arguments ++ ");"
  | .members list => "import \x7b " ++ importedNames list ++ " \x7d" ++ fromModule load.source
  | .whole name =>
    if usesMember source name then "import * as " ++ name ++ fromModule load.source
    else "import " ++ name ++ fromModule load.source

def importLine (source line : Text) : Text :=
  match Load.ofLine? line with
  | some load => load.declaration source
  | none => line

def normalizeImports (source : Text) : Text := mapLines (importLine source) source

end DevServer.CommonJs
