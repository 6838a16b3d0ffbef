import DevServer.LiveUpdate.Hub

set_option autoImplicit false

namespace DevServer.LiveUpdate

inductive Stage where
  | waiting
  | holding (id : Nat)
  | returned (id : Nat)
deriving DecidableEq, Repr

def Stage.id? : Stage → Option Nat
  | waiting => none
  | holding id => some id
  | returned id => some id

structure Shared where
  hub : Hub
  stages : Nat → Stage

-- What is done under one lock. A client leaves by the call that registered it.
inductive Action where
  | take (call : Nat)
  | insert (call : Nat)
  | unregister (call : Nat)
  | broadcast (message : Message)
deriving DecidableEq, Repr

namespace Shared

def start (root : Path) : Shared := ⟨Hub.empty root, fun _ => .waiting⟩

def enter (shared : Shared) (call : Nat) (stage : Stage) (hub : Hub) : Shared :=
  ⟨hub, fun other => if other = call then stage else shared.stages other⟩

def act (shared : Shared) : Action → Option Shared
  | .take call =>
    match shared.stages call with
    | .waiting => let (id, hub) := shared.hub.takeId; some (shared.enter call (.holding id) hub)
    | _ => none
  | .insert call =>
    match shared.stages call with
    | .holding id => some (shared.enter call (.returned id) (shared.hub.insert id))
    | _ => none
  | .unregister call =>
    match shared.stages call with
    | .returned id => some { shared with hub := shared.hub.unregister id }
    | _ => none
  | .broadcast message => some { shared with hub := (shared.hub.broadcast message).2 }

def run : Shared → List Action → Option Shared
  | shared, [] => some shared
  | shared, action :: actions => (shared.act action).bind fun shared => shared.run actions

inductive Acts (before : Shared) : Action → Shared → Prop where
  | take {call : Nat} : before.stages call = .waiting →
      Acts before (.take call) (before.enter call (.holding before.hub.takeId.1) before.hub.takeId.2)
  | insert {call id : Nat} : before.stages call = .holding id →
      Acts before (.insert call) (before.enter call (.returned id) (before.hub.insert id))
  | unregister {call id : Nat} : before.stages call = .returned id →
      Acts before (.unregister call) { before with hub := before.hub.unregister id }
  | broadcast {message : Message} :
      Acts before (.broadcast message) { before with hub := (before.hub.broadcast message).2 }

theorem acts_iff (before after : Shared) (action : Action) :
    before.act action = some after ↔ Acts before action after := by
  constructor
  · intro acted
    cases action with
    | broadcast message =>
        cases acted
        exact .broadcast
    | take call =>
        cases stage : before.stages call with
        | waiting =>
            rw [act, stage] at acted
            cases acted
            exact .take stage
        | _ =>
            rw [act, stage] at acted
            cases acted
    | insert call =>
        cases stage : before.stages call with
        | holding id =>
            rw [act, stage] at acted
            cases acted
            exact .insert stage
        | _ =>
            rw [act, stage] at acted
            cases acted
    | unregister call =>
        cases stage : before.stages call with
        | returned id =>
            rw [act, stage] at acted
            cases acted
            exact .unregister stage
        | _ =>
            rw [act, stage] at acted
            cases acted
  · intro acts
    cases acts with
    | take waiting => rw [act, waiting]
    | insert holding => rw [act, holding]
    | unregister returned => rw [act, returned]
    | broadcast => rfl

theorem register_alone (shared : Shared) (call : Nat) (waiting : shared.stages call = .waiting) :
    ∃ after, shared.run [.take call, .insert call] = some after ∧ after.hub = shared.hub.register.2 ∧
      after.stages call = .returned shared.hub.register.1 := by
  have taken := (acts_iff shared _ _).mpr (.take waiting)
  have holding : (shared.enter call (.holding shared.hub.takeId.1) shared.hub.takeId.2).stages call =
      .holding shared.hub.takeId.1 := if_pos rfl
  have inserted := (acts_iff _ _ _).mpr (.insert holding)
  rw [run, taken, Option.bind_some, run, inserted]
  exact ⟨_, rfl, rfl, if_pos rfl⟩

end Shared
end DevServer.LiveUpdate
