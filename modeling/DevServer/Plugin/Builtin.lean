import DevServer.Config.Basic
import DevServer.Env.Client
import DevServer.Plugin.Basic

set_option autoImplicit false

namespace DevServer.Plugin

open Text

def ofTransform (name : Text) (transform : Text → Text → Option Text) : Plugin where
  name := name
  transform := fun code module => .ok (transform code module)
  transformPage := HookFunction.pass

def env (client : Env.Client) : Plugin :=
  ofTransform "env" fun code _ =>
    if Env.readsKey code then some (client.substitute code) else none

def styleModule (style : Text) : Text :=
  "const style = document.createElement('style');\n" ++
  "style.setAttribute('data-kindle-css', '');\n" ++
  "style.textContent = " ++ Json.quote style ++ ";\n" ++
  "document.head.appendChild(style);\nexport default \x7b\x7d;\n"

def css : Plugin :=
  ofTransform "css" fun code module =>
    if module.endsWith ".css" then some (styleModule code) else none

def replaceOne (code : Option Text × Text) (pair : Text × Text) : Option Text × Text :=
  if code.2.includes pair.1 then
    let new := code.2.replace pair.1 pair.2
    (some new, new)
  else code

-- Replaces each key in turn, in what the ones before have left.
def replaceAll (table : List (Text × Text)) (code : Text) : Option Text :=
  (table.foldl replaceOne (none, code)).1

def define (table : List (Text × Text)) : Plugin :=
  ofTransform "define" fun code _ => replaceAll table code

def ofName (client : Env.Client) (name : Text) : Except SetupError Plugin :=
  if name = "env" then .ok (env client)
  else if name = "css" then .ok css
  else .error (.unknownPlugin name)

def ofNames (client : Env.Client) (table : List (Text × Text)) (names : List Text) :
    Except SetupError Pipeline := do
  let named ← names.mapM (ofName client)
  return (if table = [] then named else define table :: named)

end DevServer.Plugin
