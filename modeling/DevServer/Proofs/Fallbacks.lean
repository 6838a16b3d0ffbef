import DevServer.Plugin.Builtin
import DevServer.Proofs.UrlFiles

set_option autoImplicit false

namespace DevServer

namespace Pipeline

variable {hook : Hook} {module : Text}

def callOf (hook : Hook) (module : Text) (plugin : Plugin) : Call := ⟨plugin.name, hook, module⟩

-- A plugin fails in its turn, on the code that those before it have made.
inductive FailsAt (hook : Hook) (module : Text) :
    Pipeline → Text → Pipeline → Plugin → PluginError → Prop where
  | here {failing : Plugin} {after : Pipeline} {code : Text} {cause : PluginError} :
      failing.hook hook code module = .error cause →
      FailsAt hook module (failing :: after) code [] failing cause
  | later {plugin failing : Plugin} {rest before : Pipeline} {code : Text} {new : Option Text}
      {cause : PluginError} : plugin.hook hook code module = .ok new →
      FailsAt hook module rest (new.getD code) before failing cause →
      FailsAt hook module (plugin :: rest) code (plugin :: before) failing cause

theorem fails_run {plugins before : Pipeline} {failing : Plugin} {code : Text} {cause : PluginError}
    (fails : FailsAt hook module plugins code before failing cause) (index : Nat) :
    runFrom hook module index plugins code =
      ⟨(before ++ [failing]).map (callOf hook module),
        .error ⟨index + before.length, failing.name, module, cause⟩⟩ := by
  induction fails generalizing index with
  | here answered =>
      rw [runFrom, answered]
      rfl
  | later answered _ ih =>
      rw [runFrom, answered]
      dsimp only
      rw [ih (index + 1), List.length_cons, Nat.add_assoc, Nat.add_comm 1]
      rfl

theorem fails_listed {plugins before : Pipeline} {failing : Plugin} {code : Text} {cause : PluginError}
    (fails : FailsAt hook module plugins code before failing cause) : before ++ [failing] <+: plugins := by
  induction fails with
  | here _ => exact List.prefix_append _ _
  | later _ _ ih => exact List.cons_prefix_cons.mpr ⟨rfl, ih⟩

theorem failed_at (plugins : Pipeline) (index : Nat) (code : Text) (error : PipelineError)
    (failed : (runFrom hook module index plugins code).outcome = .error error) :
    ∃ before failing cause, FailsAt hook module plugins code before failing cause := by
  induction plugins generalizing index code with
  | nil => cases failed
  | cons plugin rest ih =>
      rw [runFrom] at failed
      cases answered : plugin.hook hook code module with
      | error cause => exact ⟨[], plugin, cause, .here answered⟩
      | ok new =>
          rw [answered] at failed
          obtain ⟨before, failing, cause, fails⟩ := ih (index + 1) (new.getD code) failed
          exact ⟨plugin :: before, failing, cause, .later answered fails⟩

end Pipeline

namespace Server

open Pipeline

def handedOver (server : Server) (tree : FileTree) (file : Path) (text : Text) : Text :=
  Specifier.rewriteBare (server.convert tree file text).code

def withoutPlugins (server : Server) : Server := { server with plugins := [] }

def withoutLowering (server : Server) : Server :=
  { server with toolchain := { server.toolchain with lower := Toolchain.passthrough.lower } }

section Failures

variable {server : Server} {tree : FileTree} {file : Path} {text : Text}

theorem convert_failed (outside : isInPackages file = false) (error : PipelineError)
    (failed : (server.plugins.run .transform (CommonJs.toModule tree file text) file).outcome =
      .error error) :
    (server.convert tree file text).code = (server.withoutPlugins.convert tree file text).code ∧
      ∃ before failing cause, FailsAt .transform file server.plugins (CommonJs.toModule tree file text)
          before failing cause ∧
        (server.convert tree file text).calls = (before ++ [failing]).map (callOf .transform file) := by
  obtain ⟨before, failing, cause, fails⟩ := failed_at server.plugins 0 _ error failed
  have ran := fails_run fails 0
  have own : server.convert tree file text =
      ⟨(before ++ [failing]).map (callOf .transform file), CommonJs.toModule tree file text⟩ := by
    rw [convert, outside, if_neg Bool.false_ne_true, projectCode, run, ran]
  have bare : server.withoutPlugins.convert tree file text = ⟨[], CommonJs.toModule tree file text⟩ := by
    rw [convert, outside, if_neg Bool.false_ne_true]
    rfl
  rw [own, bare]
  exact ⟨rfl, before, failing, cause, fails, rfl⟩

theorem lowered_failed (toolchain : Toolchain) (code message : Text)
    (failed : toolchain.lower code file (Loader.ofPath file) = .error message) :
    lowered toolchain file code = code := by
  rw [lowered, failed]

end Failures

theorem failures_fall_back (server : Server) (tree : FileTree) (url : Text) (file : Path) (text : Text)
    (named : fileForUrl? server.root url = some file) (readable : tree.readText file = .ok text)
    (outside : isInPackages file = false) :
    let pluginFails (error : PipelineError) : Prop :=
      (server.plugins.run .transform (CommonJs.toModule tree file text) file).outcome = .error error
    let loweringFails (message : Text) : Prop := server.toolchain.lower
      (server.handedOver tree file text) file (Loader.ofPath file) = .error message
    (∀ error, pluginFails error →
      (server.source tree url).answer = (server.withoutPlugins.source tree url).answer ∧
      ∃ before failing cause, FailsAt .transform file server.plugins (CommonJs.toModule tree file text)
          before failing cause ∧ before ++ [failing] <+: server.plugins ∧
        (server.source tree url).calls = (before ++ [failing]).map (callOf .transform file)) ∧
    (∀ message, loweringFails message →
      server.source tree url = server.withoutLowering.source tree url) ∧
    (∀ error message, pluginFails error → loweringFails message →
      (server.source tree url).answer =
        (server.withoutPlugins.withoutLowering.source tree url).answer) ∧
    ∃ code, (server.source tree url).answer = .ok ⟨code, some file⟩ := by
  intro pluginFails loweringFails
  have own := @source_read server tree url file text named readable
  have bare := @source_read server.withoutPlugins tree url file text named readable
  have raw := @source_read server.withoutLowering tree url file text named readable
  have plain := @source_read server.withoutPlugins.withoutLowering tree url file text named readable
  refine ⟨fun error failed => ?_, fun message failed => ?_, fun error message failed failed' => ?_, ?_⟩
  · obtain ⟨same, before, failing, cause, fails, called⟩ := convert_failed outside error failed
    rw [own, bare, same]
    exact ⟨rfl, before, failing, cause, fails, fails_listed fails, called⟩
  · have kept : lowered server.toolchain file (Specifier.rewriteBare (server.convert tree file text).code) =
        server.handedOver tree file text := lowered_failed server.toolchain _ message failed
    rw [own, raw, kept]
    rfl
  · obtain ⟨same, _⟩ := convert_failed outside error failed
    have kept : lowered server.toolchain file (Specifier.rewriteBare (server.convert tree file text).code) =
        server.handedOver tree file text := lowered_failed server.toolchain _ message failed'
    rw [own, plain, kept, handedOver, same]
    rfl
  · rw [own]
    exact ⟨_, rfl⟩

def shout : Plugin := .ofTransform "shout" fun code _ => some (code ++ "!")

def broken : Plugin where
  name := "broken"
  transform := fun _ _ => .error ⟨"broken", .transform, "no"⟩
  transformPage := HookFunction.pass

def faulty : Server where
  root := "/p"
  plugins := [shout, broken, shout]
  toolchain := { Toolchain.passthrough with lower := fun _ _ _ => .error "no" }

theorem faulty_falls_back :
    (faulty.source flatProject "/a.js").answer =
        (faulty.withoutPlugins.withoutLowering.source flatProject "/a.js").answer ∧
      (faulty.source flatProject "/a.js").answer.toOption = some ⟨"1", some "/p/a.js".toList⟩ ∧
      ∃ before failing cause, FailsAt .transform "/p/a.js" faulty.plugins "1" before failing cause ∧
        (faulty.source flatProject "/a.js").calls = (before ++ [failing]).map (callOf .transform "/p/a.js") := by
  have named : fileForUrl? faulty.root "/a.js" = some "/p/a.js".toList := by decide
  have readable : flatProject.readText "/p/a.js" = .ok "1" :=
    (Package.to_option_some _ _).mp (by decide +kernel)
  obtain ⟨plugins, _, both, _⟩ :=
    failures_fall_back faulty flatProject "/a.js" "/p/a.js" "1" named readable (by decide)
  have code : CommonJs.toModule flatProject "/p/a.js" "1" = "1" := by decide +kernel
  rw [code] at plugins both
  have answer := both ⟨1, "broken", "/p/a.js", ⟨"broken", .transform, "no"⟩⟩ "no" rfl rfl
  obtain ⟨_, before, failing, cause, fails, _, called⟩ := plugins _ rfl
  refine ⟨answer, ?_, before, failing, cause, fails, called⟩
  decide +kernel

end Server

end DevServer
