import DevServer.Proofs.Fallbacks

set_option autoImplicit false

namespace DevServer

-- The failure as it is told when `n` more plugins stand in front.
def PipelineError.behind (n : Nat) (error : PipelineError) : PipelineError :=
  { error with index := n + error.index }

def PipelineError.around (n : Nat) (error : PipelineError) : PipelineError :=
  if error.index < n then error else error.behind 1

namespace Pipeline

variable {hook : Hook} {module : Text}

theorem run_behind (n index : Nat) (plugins : Pipeline) (code : Text) :
    runFrom hook module (n + index) plugins code =
      ⟨(runFrom hook module index plugins code).calls,
        (runFrom hook module index plugins code).outcome.mapError (PipelineError.behind n)⟩ := by
  induction plugins generalizing index code with
  | nil => rfl
  | cons plugin rest ih =>
      rw [runFrom, runFrom]
      cases answered : plugin.hook hook code module with
      | error cause => rfl
      | ok new =>
          dsimp only
          rw [Nat.add_assoc, ih (index + 1)]

theorem run_append_failed (index : Nat) (before after : Pipeline) (code : Text) (error : PipelineError)
    (failed : (runFrom hook module index before code).outcome = .error error) :
    runFrom hook module index (before ++ after) code = runFrom hook module index before code := by
  induction before generalizing index code with
  | nil => cases failed
  | cons plugin rest ih =>
      rw [List.cons_append, runFrom, runFrom]
      rw [runFrom] at failed
      cases answered : plugin.hook hook code module with
      | error cause => rfl
      | ok new =>
          rw [answered] at failed
          dsimp only
          rw [ih (index + 1) (new.getD code) failed]

theorem run_append_ok (index : Nat) (before after : Pipeline) (code made : Text)
    (ran : (runFrom hook module index before code).outcome = .ok made) :
    runFrom hook module index (before ++ after) code =
      ⟨before.map (callOf hook module) ++ (runFrom hook module (index + before.length) after made).calls,
        (runFrom hook module (index + before.length) after made).outcome⟩ := by
  induction before generalizing index code with
  | nil =>
      cases ran
      rfl
  | cons plugin rest ih =>
      rw [runFrom] at ran
      rw [List.cons_append, runFrom]
      cases answered : plugin.hook hook code module with
      | error cause =>
          rw [answered] at ran
          cases ran
      | ok new =>
          rw [answered] at ran
          dsimp only
          rw [ih (index + 1) (new.getD code) ran, List.length_cons, Nat.add_assoc, Nat.add_comm 1]
          rfl

theorem run_append (before after : Pipeline) (code made : Text)
    (ran : (run before hook code module).outcome = .ok made) :
    run (before ++ after) hook code module =
      ⟨before.map (callOf hook module) ++ (run after hook made module).calls,
        (run after hook made module).outcome.mapError (PipelineError.behind before.length)⟩ := by
  have placed := @run_behind hook module before.length 0 after made
  rw [Nat.add_zero] at placed
  rw [run, run_append_ok 0 before after code made ran, Nat.zero_add, placed]
  rfl

theorem failed_place (plugins : Pipeline) (code : Text) (error : PipelineError)
    (failed : (run plugins hook code module).outcome = .error error) : error.index < plugins.length ∧
      ∃ called, called <+: plugins ∧ (run plugins hook code module).calls = called.map (callOf hook module) := by
  obtain ⟨before, failing, cause, fails⟩ := failed_at plugins 0 code error failed
  have ran := fails_run fails 0
  have listed := fails_listed fails
  have length := listed.length_le
  rw [List.length_append, List.length_singleton] at length
  rw [run, ran] at failed ⊢
  cases failed
  exact ⟨by rw [Nat.zero_add]; exact length, before ++ [failing], listed, rfl⟩

theorem run_skipped (plugin : Plugin) (rest : Pipeline) (code : Text)
    (skips : plugin.hook hook = HookFunction.pass) :
    run (plugin :: rest) hook code module = ⟨callOf hook module plugin :: (run rest hook code module).calls,
      (run rest hook code module).outcome.mapError (PipelineError.behind 1)⟩ := by
  have single : (run [plugin] hook code module).outcome = .ok code := by
    rw [run, runFrom, skips]
    rfl
  exact run_append [plugin] rest code code single

theorem map_error_around (n : Nat) (outcome : Except PipelineError Text) :
    (outcome.mapError (PipelineError.behind 1)).mapError (PipelineError.behind n) =
      (outcome.mapError (PipelineError.behind n)).mapError (PipelineError.around n) := by
  cases outcome with
  | ok made => rfl
  | error error =>
      have later : ¬ n + error.index < n := by omega
      have moved : n + (1 + error.index) = 1 + (n + error.index) := by omega
      have around : (error.behind n).around n = (error.behind n).behind 1 := if_neg later
      change Except.error ((error.behind 1).behind n) = Except.error ((error.behind n).around n)
      rw [around]
      simp only [PipelineError.behind, moved]

theorem pipelines_compose (hook : Hook) (before after : Pipeline) (code module : Text) :
    (∀ error, (run before hook code module).outcome = .error error →
      run (before ++ after) hook code module = run before hook code module ∧
      ∃ called, called <+: before ∧
        (run (before ++ after) hook code module).calls = called.map (callOf hook module)) ∧
    (∀ made, (run before hook code module).outcome = .ok made →
      (run (before ++ after) hook code module).calls =
        before.map (callOf hook module) ++ (run after hook made module).calls ∧
      (∀ result, (run after hook made module).outcome = .ok result →
        (run (before ++ after) hook code module).outcome = .ok result) ∧
      ∀ error, (run after hook made module).outcome = .error error →
        (run (before ++ after) hook code module).outcome =
          .error ⟨before.length + error.index, error.plugin, error.module, error.cause⟩) ∧
    run [] hook code module = ⟨[], .ok code⟩ ∧
    ∀ plugin : Plugin, plugin.hook hook = HookFunction.pass →
      (run (before ++ plugin :: after) hook code module).outcome =
        (run (before ++ after) hook code module).outcome.mapError (PipelineError.around before.length) ∧
      ((run (before ++ plugin :: after) hook code module).calls =
          (run (before ++ after) hook code module).calls ∨
        ∃ later, (run (before ++ after) hook code module).calls = before.map (callOf hook module) ++ later ∧
          (run (before ++ plugin :: after) hook code module).calls =
            before.map (callOf hook module) ++ callOf hook module plugin :: later) := by
  refine ⟨fun error failed => ?_, fun made ran => ?_, rfl, fun plugin skips => ?_⟩
  · have same := run_append_failed 0 before after code error failed
    exact ⟨same, by rw [run, same]; exact (failed_place before code error failed).2⟩
  · rw [run_append before after code made ran]
    refine ⟨rfl, fun result answered => ?_, fun error answered => ?_⟩
    · rw [answered]
      rfl
    · rw [answered]
      rfl
  · cases ran : (run before hook code module).outcome with
    | error error =>
        have first (rest : Pipeline) : run (before ++ rest) hook code module = run before hook code module :=
          run_append_failed 0 before rest code error ran
        have kept : error.around before.length = error := if_pos (failed_place before code error ran).1
        have mapped : (Except.error error : Except PipelineError Text).mapError (PipelineError.around before.length) =
            .error error := congrArg Except.error kept
        rw [first, first, ran, mapped]
        exact ⟨rfl, .inl rfl⟩
    | ok made =>
        rw [run_append before (plugin :: after) code made ran, run_append before after code made ran,
          run_skipped plugin after made skips]
        exact ⟨map_error_around _ _, .inr ⟨_, rfl, rfl⟩⟩

def pageOnly : Plugin where
  name := "page"
  transform := HookFunction.pass
  transformPage := fun page _ => .ok (some (page ++ "!"))

theorem skipped_failure_moved :
    (run ([Server.shout] ++ [Server.broken]) .transform "x" "/a.js").outcome =
        .error ⟨1, "broken", "/a.js", ⟨"broken", .transform, "no"⟩⟩ ∧
      (run ([Server.shout] ++ pageOnly :: [Server.broken]) .transform "x" "/a.js").outcome =
        .error ⟨2, "broken", "/a.js", ⟨"broken", .transform, "no"⟩⟩ := by
  obtain ⟨_, joined, _, inserted⟩ :=
    pipelines_compose .transform [Server.shout] [Server.broken] "x" "/a.js"
  have failed := (joined "x!" rfl).2.2 ⟨0, "broken", "/a.js", ⟨"broken", .transform, "no"⟩⟩ rfl
  refine ⟨failed, ?_⟩
  rw [(inserted pageOnly rfl).1, failed]
  rfl

end Pipeline
end DevServer
