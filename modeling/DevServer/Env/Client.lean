import DevServer.Env.File
import DevServer.Json.Quote
import DevServer.Text.Scan

set_option autoImplicit false

namespace DevServer.Env

open Text

def developmentMode : Text := "development"

structure Client where
  mode : Text
  process : Definitions
  files : Definitions

namespace Client

def load (tree : FileTree) (process : Definitions) (root : Path) (mode : Text) : Client :=
  ⟨mode, process, Env.load tree root mode⟩

def bool (b : Bool) : Text := if b then "true" else "false"

-- What follows a name in a process variable that is written `NAME=value`; the name
-- may reach into the value.
def valueNamed? (name : Text) (definition : Text × Text) : Option Text :=
  if name = [] then none else (definition.1 ++ '=' :: definition.2).after? (name ++ ['='])

def value (client : Client) (key : Text) : Text :=
  ((client.process.reverse.findSome? (valueNamed? key)).orElse fun _ =>
    lookup? key client.files).getD []

def literal (client : Client) (key : Text) : Text :=
  let isDevelopment : Bool := client.mode = developmentMode
  if key = "MODE" then Json.quote client.mode
  else if key = "DEV" then bool isDevelopment
  else if key = "PROD" then bool !isDevelopment
  else Json.quote (client.value key)

def keyMatcher : Matcher Text := fun _ text => do
  identifier? (← text.after? "import.meta.env.")

def substitute (client : Client) (code : Text) : Text := rewrite keyMatcher client.literal code

end Client

def readsKey (code : Text) : Bool := matches? Client.keyMatcher code

def substituteDependency (code : Text) : Text :=
  let code := code.replace "process.env.NODE_ENV" "\"development\""
  let code := replace code "process.env.BROWSER" "true"
  rewrite (wholeWord "process") (fun _ => "\x7b\x7d") code

end DevServer.Env
