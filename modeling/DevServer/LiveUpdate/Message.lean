import DevServer.Json.Quote
import DevServer.Json.Reader
import DevServer.Path

set_option autoImplicit false

namespace DevServer.LiveUpdate

inductive Message where
  | update (path : Text)
  | reload
deriving DecidableEq, Repr

inductive Kind where
  | update
  | reload
deriving DecidableEq, Repr

def Kind.name : Kind → Text
  | update => "update"
  | reload => "reload"

def Kind.all : List Kind := [update, reload]

def kindName : Text := "kind"
def pathName : Text := "path"

namespace Message

def encode : Message → Text
  | update path => "\x7b\"kind\":\"update\",\"path\":" ++ Json.quote path ++ "\x7d"
  | reload => "\x7b\"kind\":\"reload\"\x7d"

open Json Json.Reader

def kind : Reader Kind := do
  let name ← text
  match Kind.all.find? fun kind => kind.name = name with
  | some kind => return kind
  | none => throw .mismatched

def ofMembers : Kind → List (Text × Value) → Except Fault Message
  | .reload, _ => .ok reload
  | .update, members =>
    match members.filter fun member => member.1 = pathName with
    | [(_, .string path)] => .ok (update path)
    | _ => .error .mismatched

def ofItems : Kind → List Value → Except Fault Message
  | .reload, [] => .ok reload
  | .update, [.string path] => .ok (update path)
  | _, _ => .error .mismatched

def inner : Reader Value := valueAt (maxDepth - 1)

def member (state : Option Kind × List (Text × Value)) (name : Text) :
    Reader (Option Kind × List (Text × Value)) := do
  if name = kindName then
    return (← once state.1 kind, state.2)
  colon
  return (state.1, state.2 ++ [(name, ← inner)])

def reader : Reader Message := do
  match ← skipSpace with
  | some '{' =>
    drop
    match ← members string member (none, []) with
    | (some kind, members) => ofMembers kind members
    | (none, _) => throw .mismatched
  | some '[' =>
    drop
    let some kind ← next? true kind | throw .mismatched
    let rest ← itemsFrom inner ((← get).length + 1) false
    close ']'
    ofItems kind rest
  | _ => mismatch

def decode (text : Text) : Except Fault Message := read reader text

end Message

def projectPath (path root : Path) : Text :=
  '/' :: Text.join "/" ((Path.relativeTo path root).filterMap Component.name?)

def codeExtensions : List Text := ["js", "jsx", "ts", "tsx"]

def classify (path root : Path) : Message :=
  if (Path.extension? path).any fun ending => codeExtensions.contains ending
  then .update (projectPath path root) else .reload

end DevServer.LiveUpdate
