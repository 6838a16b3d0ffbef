import DevServer.App.Basic
import DevServer.Text.Quoted

set_option autoImplicit false

namespace DevServer

structure Launch where
  root : Path
  config : Option Path
  mode : Text
  flags : Flags
deriving DecidableEq, Repr

structure Started where
  settings : Settings
  app : App

def Launch.start (launch : Launch) (tree : FileTree) (process : Env.Definitions) :
    Except SetupError Started :=
  match tree.realPath launch.root with
  | .error _ => .error (.rootNotFound launch.root)
  | .ok root => do
    let (_, config) ← Config.load tree root launch.config
    let settings := Settings.resolve launch.flags config
    let app ← App.new tree process root config launch.mode settings.livePort
    return ⟨settings, app⟩

def Started.notice (started : Started) (mode : Text) : Text :=
  "plugin pipeline ready plugins=" ++ Text.quotedList started.app.server.plugins.names ++ " mode=" ++ mode

end DevServer
