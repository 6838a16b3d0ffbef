import DevServer.Text.Lines
import DevServer.Text.Scan

set_option autoImplicit false

namespace DevServer.CommonJs

open Text

structure Property where
  name : Text
  value : Text
deriving DecidableEq, Repr

def valueOf? : Text → Option Text
  | [] => none
  | c :: text =>
    match (after? (c :: text) "value:").bind fun rest =>
        run? (fun d => !isSpace d && d != ',') (spaces rest) with
    | some (value, _) => some value
    | none => valueOf? text

-- A semicolon after spaces, and the spaces even without one.
def skipEnd (text : Text) : Text :=
  match spaces text with
  | ';' :: rest => rest
  | rest => rest

def propertyMatcher : Matcher Property := fun _ text => do
  let text ← text.after? "Object.defineProperty("
  let text ← (spaces text).after? "exports"
  let text ← (spaces text).after? ","
  let (_, text) ← char? (fun c => c == '\'' || c == '"') (spaces text)
  let (name, text) ← run? isIdentPart text
  let (_, text) ← char? (fun c => c == '\'' || c == '"') text
  let text ← (spaces text).after? ","
  let text ← (spaces text).after? "\x7b"
  let value ← valueOf? (text.takeWhile (· ≠ '}'))
  let (_, text) ← char? (· == '}') (text.dropWhile (· ≠ '}'))
  let text ← (spaces text).after? ")"
  some (⟨name, value⟩, skipEnd text)

def exportConst (name value : Text) : Text := "export const " ++ name ++ " = " ++ value

def Property.declaration (property : Property) : Text :=
  exportConst property.name property.value ++ ";"

def objectMatcher : Matcher Text := fun before text =>
  if before.any (· ≠ '\n') then none
  else do
    let text ← text.after? "module.exports"
    let text ← (spaces text).after? "="
    let text ← (spaces text).after? "\x7b"
    let isInner (c : Char) : Bool := c != '{' && c != '}'
    let (_, rest) ← char? (· == '}') (text.dropWhile isInner)
    some (text.takeWhile isInner, skipEnd rest)

inductive ObjectEntry where
  | constant (name value : Text)
  | listed (entry : Text)
  | dropped
deriving DecidableEq, Repr

def ObjectEntry.ofText (property : Text) : ObjectEntry :=
  match cutAt? ':' property with
  | some (key, value) =>
    let key := trimOf (fun c => c == '"' || c == '\'') (trim key)
    let value := trim value
    if isIdentifier value then .listed (if value = key then key else value ++ " as " ++ key)
    else .constant key value
  | none => if isIdentifier property then .listed property else .dropped

def ObjectEntry.constant? : ObjectEntry → Option Text
  | constant name value => some (exportConst name value ++ ";")
  | _ => none

def ObjectEntry.listed? : ObjectEntry → Option Text
  | listed entry => some entry
  | _ => none

def objectEntries (properties : Text) : List ObjectEntry :=
  (((split ',' properties).map trim).filter (· ≠ [])).map ObjectEntry.ofText

def objectDeclarations (properties : Text) : Text :=
  let entries := objectEntries properties
  join "\n" (entries.filterMap ObjectEntry.constant? ++
    ["export \x7b " ++ join ", " (entries.filterMap ObjectEntry.listed?) ++ " \x7d;"])

def afterAssignment? (text : Text) : Option Text := ((spaces text).after? "=").map spaces

def namedExport? (line : Text) : Option (Text × Text) := do
  let text ← ((line.after? "module.").getD line).after? "exports."
  let (name, text) ← identifier? text
  some (name, ← afterAssignment? text)

def exportLine (line : Text) : Text :=
  match namedExport? line with
  | some (name, value) =>
    if name = "default" then "export default " ++ value else exportConst name value
  | none =>
    match (line.after? "module.exports").bind afterAssignment? with
    | some value => "export default " ++ value
    | none => line

def normalizeExports (source : Text) : Text :=
  mapLines exportLine
    (rewrite objectMatcher objectDeclarations
      (rewrite propertyMatcher Property.declaration source))

end DevServer.CommonJs
