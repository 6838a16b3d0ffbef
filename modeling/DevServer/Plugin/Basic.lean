import DevServer.Text.Basic

set_option autoImplicit false

namespace DevServer

inductive Hook where
  | transform
  | transformPage
deriving DecidableEq, Repr

def Hook.name : Hook → Text
  | transform => "transform"
  | transformPage => "transformIndexHtml"

structure PluginError where
  plugin : Text
  hook : Hook
  message : Text
deriving DecidableEq, Repr

def PluginError.text (error : PluginError) : Text :=
  "[" ++ error.plugin ++ "] " ++ error.hook.name ++ ": " ++ error.message

-- A hook gets the code and the id of its module; `none` keeps the code.
abbrev HookFunction := Text → Text → Except PluginError (Option Text)

def HookFunction.pass : HookFunction := fun _ _ => .ok none

structure Plugin where
  name : Text
  transform : HookFunction
  transformPage : HookFunction

def Plugin.hook (plugin : Plugin) : Hook → HookFunction
  | .transform => plugin.transform
  | .transformPage => plugin.transformPage

structure Call where
  plugin : Text
  hook : Hook
  module : Text
deriving DecidableEq, Repr

structure PipelineError where
  index : Nat
  plugin : Text
  module : Text
  cause : PluginError
deriving DecidableEq, Repr

def PipelineError.message (error : PipelineError) : Text :=
  "plugin #" ++ Text.ofNat error.index ++ " `" ++ error.plugin ++ "` failed on " ++
    error.module ++ ": " ++ error.cause.text

structure Run where
  calls : List Call
  outcome : Except PipelineError Text

abbrev Pipeline := List Plugin

namespace Pipeline

def names (plugins : Pipeline) : List Text := plugins.map Plugin.name

def runFrom (hook : Hook) (module : Text) : Nat → List Plugin → Text → Run
  | _, [], code => ⟨[], .ok code⟩
  | index, plugin :: rest, code =>
    let call : Call := ⟨plugin.name, hook, module⟩
    match plugin.hook hook code module with
    | .error cause => ⟨[call], .error ⟨index, plugin.name, module, cause⟩⟩
    | .ok new =>
      let later := runFrom hook module (index + 1) rest (new.getD code)
      ⟨call :: later.calls, later.outcome⟩

def run (plugins : Pipeline) (hook : Hook) (code module : Text) : Run :=
  runFrom hook module 0 plugins code

end Pipeline
end DevServer
