import DevServer.App.Startup
import DevServer.CommandLine.Arguments

set_option autoImplicit false

namespace DevServer.CommandLine

open Text

def versionNumber : Text := "0.1.0"
def versionText : Text := "kindle " ++ versionNumber

def usageText : Text := Text.join "\n"
  ["An unbundled development server with live updates",
   "",
   "Usage: kindle [OPTIONS] [COMMAND]",
   "",
   "Commands:",
   "  version  Print version information",
   "  dev      Start the development server",
   "  help     Print this message"]

inductive Intent where
  | version
  | usage
  | refuse
  | launch (launch : Launch)
deriving DecidableEq, Repr

def rootOf (workDir : Path) : Option Path → Path
  | some root => workDir.join root
  | none => workDir

def launchOf (here : Path) (arguments : Arguments) : Launch where
  root := rootOf ((arguments.value? .cwd).getD here) arguments.operand
  config := arguments.value? .config
  mode := (arguments.value? .mode).getD Env.developmentMode
  flags :=
    { host := arguments.value? .host
      port := (arguments.value? .port).bind port?
      livePort := (arguments.value? .livePort).bind port? }

def intent (here : Path) (arguments : List Text) : Intent :=
  match Arguments.ofList arguments with
  | .error .help => .usage
  | .error .version => .version
  | .error .invalid => .refuse
  | .ok arguments =>
    match arguments.command with
    | some .dev => .launch (launchOf here arguments)
    | _ => .version

structure Exit where
  code : Nat
  out : Text
  err : Text
deriving DecidableEq, Repr

inductive Outcome where
  | exit (exit : Exit)
  | serve (started : Started)

def startFault (fault : SetupError) : Exit := ⟨1, [], "Error: " ++ fault.message⟩

def run (tree : FileTree) (process : Env.Definitions) (here : Path) (arguments : List Text) :
    Outcome :=
  match intent here arguments with
  | .version => .exit ⟨0, versionText ++ "\n", []⟩
  | .usage => .exit ⟨0, usageText ++ "\n", []⟩
  | .refuse => .exit ⟨2, [], "error: bad command line"⟩
  | .launch launch =>
    match launch.start tree process with
    | .ok started => .serve started
    | .error fault => .exit (startFault fault)

end DevServer.CommandLine
