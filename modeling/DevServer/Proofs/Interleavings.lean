import DevServer.LiveUpdate.Shared
import DevServer.Proofs.Delivery

set_option autoImplicit false

namespace DevServer.LiveUpdate

namespace Hub

theorem insert_agree (hub : Hub) (id other : Nat) (differs : other ≠ id) :
    Agree other (hub.insert id) hub where
  root := rfl
  nextId := rfl
  registered := by simp [insert, differs]
  queue := (lookup_other _ other id _ differs).trans (lookup_filter hub.queues other id differs)

theorem unregister_agree (hub : Hub) (id other : Nat) (differs : other ≠ id) :
    Agree other (hub.unregister id) hub :=
  hidden_step_agree ⟨rfl, rfl, rfl, rfl⟩ (.unregister id) (beq_eq_false_iff_ne.mpr (Ne.symm differs))

theorem count_registered (hub : Hub) (id : Nat) (once : hub.registered.Nodup)
    (inside : id ∈ hub.registered) : (hub.unregister id).clientCount + 1 = hub.clientCount := by
  have erased : (hub.unregister id).registered = hub.registered.erase id := by
    rw [once.erase_eq_filter]
    exact List.filter_congr fun other _ => by rw [Bool.eq_iff_iff, decide_eq_true_iff, bne_iff_ne]
  rw [clientCount, clientCount, erased, List.length_erase_of_mem inside]
  exact Nat.sub_add_cancel (List.length_pos_of_mem inside)

theorem registered_others (hub : Hub) (id : Nat) (absent : id ∉ hub.registered) :
    hub.registered.filter (fun other => decide (other ≠ id)) = hub.registered := by
  refine List.filter_eq_self.mpr fun other member => decide_eq_true ?_
  rintro rfl
  exact absent member

end Hub

def Action.leaver? : Action → Option Nat
  | unregister call => some call
  | _ => none

def Action.isInsert : Action → Bool
  | insert _ => true
  | _ => false

namespace Shared

def leavers (done : List Action) : List Nat := (done.filterMap Action.leaver?).eraseDups

def inserts (done : List Action) : Nat := done.countP Action.isInsert

section Leavers

variable (done : List Action)

theorem leavers_kept (action : Action) (stays : action.leaver? = none) :
    leavers (done ++ [action]) = leavers done := by
  simp [leavers, List.filterMap_append, stays]

theorem leavers_unregister (call : Nat) : leavers (done ++ [.unregister call]) =
    if call ∈ leavers done then leavers done else leavers done ++ [call] := by
  have split : leavers (done ++ [.unregister call]) =
      leavers done ++ ([call].removeAll (done.filterMap Action.leaver?)).eraseDups := by
    rw [leavers, List.filterMap_append, List.eraseDups_append]
    rfl
  have member : call ∈ leavers done ↔ call ∈ done.filterMap Action.leaver? := List.mem_eraseDups
  rw [split]
  by_cases again : call ∈ leavers done
  · rw [if_pos again, List.removeAll, List.filter_cons_of_neg (by simp [member.mp again])]
    exact List.append_nil _
  · rw [if_neg again, List.removeAll, List.filter_cons_of_pos (by simp [mt member.mpr again])]
    rfl

theorem mem_leavers (call other : Nat) :
    other ∈ leavers (done ++ [.unregister call]) ↔ other = call ∨ other ∈ leavers done := by
  simp [leavers, List.mem_eraseDups, Action.leaver?, or_comm]

end Leavers

theorem enter_here (shared : Shared) (call : Nat) (stage : Stage) (hub : Hub) :
    (shared.enter call stage hub).stages call = stage := if_pos rfl

theorem enter_other (shared : Shared) (call other : Nat) (stage : Stage) (hub : Hub)
    (differs : other ≠ call) : (shared.enter call stage hub).stages other = shared.stages other :=
  if_neg differs

structure Issued (shared : Shared) : Prop where
  bounded : ∀ call id, (shared.stages call).id? = some id → id < shared.hub.nextId
  distinct : ∀ call other id, (shared.stages call).id? = some id → (shared.stages other).id? = some id →
    call = other

-- The registry after a history holds the ids of the calls that have returned and whose
-- clients have not left.
structure Tallied (done : List Action) (shared : Shared) : Prop where
  left : ∀ call ∈ leavers done, ∃ id, shared.stages call = .returned id
  present : ∀ id, id ∈ shared.hub.registered ↔
    ∃ call, shared.stages call = .returned id ∧ call ∉ leavers done
  once : shared.hub.registered.Nodup
  count : shared.hub.clientCount + (leavers done).length = inserts done

theorem start_issued (root : Path) : (start root).Issued := ⟨nofun, nofun⟩

theorem start_tallied (root : Path) : (start root).Tallied [] where
  left := nofun
  present := fun _ => ⟨nofun, fun ⟨_, stage, _⟩ => nomatch stage⟩
  once := .nil
  count := rfl

section Issued

variable {before after : Shared} {action : Action} {call id : Nat}

theorem take_issued (issued : before.Issued) :
    (before.enter call (.holding before.hub.takeId.1) before.hub.takeId.2).Issued := by
  have fresh (other : Nat) : (before.stages other).id? ≠ some before.hub.nextId :=
    fun given => Nat.lt_irrefl _ (issued.bounded other _ given)
  constructor
  · intro other id given
    by_cases here : other = call
    · rw [here, enter_here] at given
      cases given
      exact Nat.lt_succ_self _
    · rw [enter_other _ _ _ _ _ here] at given
      exact Nat.lt_succ_of_lt (issued.bounded other id given)
  · intro one other id given given'
    by_cases here : one = call
    · by_cases here' : other = call
      · rw [here, here']
      · rw [here, enter_here] at given
        rw [enter_other _ _ _ _ _ here'] at given'
        cases given
        exact absurd given' (fresh other)
    · rw [enter_other _ _ _ _ _ here] at given
      by_cases here' : other = call
      · rw [here', enter_here] at given'
        cases given'
        exact absurd given (fresh one)
      · rw [enter_other _ _ _ _ _ here'] at given'
        exact issued.distinct one other id given given'

theorem insert_id (holding : before.stages call = .holding id) (other : Nat) :
    ((before.enter call (.returned id) (before.hub.insert id)).stages other).id? =
      (before.stages other).id? := by
  by_cases here : other = call
  · rw [here, enter_here, holding]
    rfl
  · rw [enter_other _ _ _ _ _ here]

theorem insert_issued (issued : before.Issued) (holding : before.stages call = .holding id) :
    (before.enter call (.returned id) (before.hub.insert id)).Issued := by
  have same := insert_id holding
  constructor
  · intro other id given
    exact issued.bounded other id ((same other).symm.trans given)
  · intro one other id given given'
    exact issued.distinct one other id ((same one).symm.trans given) ((same other).symm.trans given')

theorem acts_id (acts : Acts before action after) (given : (before.stages call).id? = some id) :
    (after.stages call).id? = some id := by
  cases acts with
  | unregister _ => exact given
  | broadcast => exact given
  | insert holding => exact (insert_id holding call).trans given
  | @take other waiting =>
      have differs : call ≠ other := by
        rintro rfl
        rw [waiting] at given
        cases given
      rw [enter_other _ _ _ _ _ differs]
      exact given

theorem run_id (actions : List Action) (ran : before.run actions = some after)
    (given : (before.stages call).id? = some id) : (after.stages call).id? = some id := by
  induction actions generalizing before with
  | nil =>
      cases ran
      exact given
  | cons action rest ih =>
      obtain ⟨middle, acted, ran⟩ := Option.bind_eq_some_iff.mp ran
      exact ih ran (acts_id ((acts_iff before middle action).mp acted) given)

theorem acts_issued (issued : before.Issued) (acts : Acts before action after) : after.Issued := by
  cases acts with
  | take _ => exact take_issued issued
  | insert holding => exact insert_issued issued holding
  | unregister _ => exact ⟨issued.bounded, issued.distinct⟩
  | broadcast => exact ⟨issued.bounded, issued.distinct⟩

-- An id that is held is not registered: only the call that it was given to inserts it.
theorem held_absent {done : List Action} (issued : before.Issued) (tallied : before.Tallied done)
    (holding : before.stages call = .holding id) : id ∉ before.hub.registered := by
  intro inside
  obtain ⟨other, returned, _⟩ := (tallied.present id).mp inside
  have same := issued.distinct call other id (by rw [holding]; rfl) (by rw [returned]; rfl)
  rw [same, returned] at holding
  cases holding

theorem returned_iff (issued : before.Issued) (returned : before.stages call = .returned id)
    (other : Nat) : before.stages other = .returned id ↔ other = call := by
  constructor
  · intro returned'
    exact issued.distinct other call id (by rw [returned']; rfl) (by rw [returned]; rfl)
  · rintro rfl
    exact returned

end Issued

section Tallied

variable {done : List Action} {before after : Shared} {action : Action} {call id : Nat}

theorem Tallied.stayed (tallied : before.Tallied done) (early : ∀ id, before.stages call ≠ .returned id) :
    call ∉ leavers done := by
  intro left
  obtain ⟨id, returned⟩ := tallied.left call left
  exact early id returned

theorem Tallied.left_enter (tallied : before.Tallied done) (early : ∀ id, before.stages call ≠ .returned id)
    (stage : Stage) (hub : Hub) :
    ∀ other ∈ leavers done, ∃ id, (before.enter call stage hub).stages other = .returned id := by
  intro other left
  have differs : other ≠ call := by
    rintro rfl
    exact tallied.stayed early left
  rw [enter_other _ _ _ _ _ differs]
  exact tallied.left other left

theorem take_tallied (tallied : before.Tallied done) (waiting : before.stages call = .waiting) :
    (before.enter call (.holding before.hub.takeId.1) before.hub.takeId.2).Tallied
      (done ++ [.take call]) := by
  have kept := leavers_kept done (.take call) rfl
  have early (id : Nat) : before.stages call ≠ .returned id := by simp [waiting]
  constructor
  · rw [kept]
    exact tallied.left_enter early _ _
  · intro id
    have same (other : Nat) :
        (before.enter call (.holding before.hub.takeId.1) before.hub.takeId.2).stages other = .returned id ↔
          before.stages other = .returned id := by
      by_cases here : other = call
      · rw [here, enter_here]
        simp [waiting]
      · rw [enter_other _ _ _ _ _ here]
    simp only [same, kept]
    exact tallied.present id
  · exact tallied.once
  · rw [kept, inserts, List.countP_append]
    exact tallied.count

theorem insert_tallied (issued : before.Issued) (tallied : before.Tallied done)
    (holding : before.stages call = .holding id) :
    (before.enter call (.returned id) (before.hub.insert id)).Tallied (done ++ [.insert call]) := by
  have kept := leavers_kept done (.insert call) rfl
  have early (id : Nat) : before.stages call ≠ .returned id := by simp [holding]
  have absent := held_absent issued tallied holding
  have registered : (before.hub.insert id).registered = id :: before.hub.registered :=
    congrArg (List.cons id) (before.hub.registered_others id absent)
  constructor
  · rw [kept]
    exact tallied.left_enter early _ _
  · intro other
    change other ∈ (before.hub.insert id).registered ↔ _
    rw [kept, registered, List.mem_cons, tallied.present other]
    constructor
    · rintro (rfl | ⟨caller, returned, stays⟩)
      · exact ⟨call, enter_here _ _ _ _, tallied.stayed early⟩
      · have differs : caller ≠ call := fun same => early other (same ▸ returned)
        exact ⟨caller, (enter_other _ _ _ _ _ differs).trans returned, stays⟩
    · rintro ⟨caller, returned, stays⟩
      by_cases here : caller = call
      · rw [here, enter_here] at returned
        exact .inl (Stage.returned.inj returned).symm
      · rw [enter_other _ _ _ _ _ here] at returned
        exact .inr ⟨caller, returned, stays⟩
  · change (before.hub.insert id).registered.Nodup
    rw [registered]
    exact List.nodup_cons.mpr ⟨absent, tallied.once⟩
  · rw [kept, inserts, List.countP_append]
    change (before.hub.insert id).registered.length + _ = _
    rw [registered, List.length_cons, Nat.add_right_comm]
    exact congrArg (· + 1) tallied.count

theorem registered_iff (issued : before.Issued) (tallied : before.Tallied done)
    (returned : before.stages call = .returned id) :
    id ∈ before.hub.registered ↔ call ∉ leavers done := by
  rw [tallied.present id]
  simp [returned_iff issued returned]

theorem unregister_tallied (issued : before.Issued) (tallied : before.Tallied done)
    (returned : before.stages call = .returned id) :
    Tallied (done ++ [.unregister call]) { before with hub := before.hub.unregister id } := by
  constructor
  · intro other left
    rcases (mem_leavers done call other).mp left with rfl | before'
    · exact ⟨id, returned⟩
    · exact tallied.left other before'
  · intro other
    change other ∈ before.hub.registered.filter _ ↔ _
    rw [List.mem_filter, decide_eq_true_iff, tallied.present other]
    simp only [mem_leavers, not_or]
    constructor
    · rintro ⟨⟨caller, returned', stays⟩, differs⟩
      refine ⟨caller, returned', ?_, stays⟩
      rintro rfl
      exact differs (Stage.returned.inj (returned'.symm.trans returned))
    · rintro ⟨caller, returned', differs, stays⟩
      refine ⟨⟨caller, returned', stays⟩, ?_⟩
      rintro rfl
      exact differs ((returned_iff issued returned caller).mp returned')
  · exact tallied.once.filter _
  · have same : inserts (done ++ [.unregister call]) = inserts done := by
      rw [inserts, List.countP_append]
      rfl
    rw [same, ← tallied.count]
    change (before.hub.unregister id).clientCount + _ = _
    by_cases left : call ∈ leavers done
    · have absent := mt (registered_iff issued tallied returned).mp (not_not_intro left)
      rw [leavers_unregister, if_pos left]
      exact congrArg (List.length · + _) (Hub.registered_others _ _ absent)
    · have inside := (registered_iff issued tallied returned).mpr left
      rw [leavers_unregister, if_neg left, List.length_append, ← Hub.count_registered _ _ tallied.once inside,
        Nat.add_right_comm]
      rfl

theorem acts_tallied (issued : before.Issued) (tallied : before.Tallied done) (acts : Acts before action after) :
    after.Tallied (done ++ [action]) := by
  cases acts with
  | take waiting => exact take_tallied tallied waiting
  | insert holding => exact insert_tallied issued tallied holding
  | unregister returned => exact unregister_tallied issued tallied returned
  | broadcast =>
      have kept (message : Message) := leavers_kept done (.broadcast message) rfl
      constructor
      · rw [kept]
        exact tallied.left
      · rw [kept]
        exact tallied.present
      · exact tallied.once
      · rw [kept, inserts, List.countP_append]
        exact tallied.count

end Tallied

theorem run_issued_tallied (before after : Shared) (done actions : List Action) (issued : before.Issued)
    (tallied : before.Tallied done) (ran : before.run actions = some after) :
    after.Issued ∧ after.Tallied (done ++ actions) := by
  induction actions generalizing before done with
  | nil =>
      cases ran
      rw [List.append_nil]
      exact ⟨issued, tallied⟩
  | cons action rest ih =>
      obtain ⟨middle, acted, ran⟩ := Option.bind_eq_some_iff.mp ran
      have acts := (acts_iff before middle action).mp acted
      rw [List.append_cons]
      exact ih middle (done ++ [action]) (acts_issued issued acts) (acts_tallied issued tallied acts) ran

theorem interleaved_calls_apart (root : Path) (actions : List Action) (shared : Shared)
    (reached : (start root).run actions = some shared) :
    (∀ call other id, (shared.stages call).id? = some id → (shared.stages other).id? = some id →
      call = other) ∧
    (∀ more after call id, shared.run more = some after → (shared.stages call).id? = some id →
      (after.stages call).id? = some id) ∧
    (∀ call id, shared.stages call = .holding id → id ∉ shared.hub.registered ∧
      ∃ after, shared.act (.insert call) = some after ∧ after.stages call = .returned id ∧
        id ∈ after.hub.registered ∧ after.hub.queue? id = some ⟨[], true⟩ ∧
        ∀ other, other ≠ id → Hub.Agree other after.hub shared.hub) ∧
    (∀ call id, shared.stages call = .returned id →
      (id ∈ shared.hub.registered ↔ call ∉ leavers actions) ∧
      ∃ after, shared.act (.unregister call) = some after ∧ id ∉ after.hub.registered ∧
        ∀ other, other ≠ id → Hub.Agree other after.hub shared.hub) ∧
    shared.hub.clientCount + (leavers actions).length = inserts actions := by
  obtain ⟨issued, tallied⟩ := run_issued_tallied _ shared [] actions (start_issued root) (start_tallied root) reached
  refine ⟨issued.distinct, fun more after call id ran => run_id more ran, fun call id holding => ?_,
    fun call id returned => ?_, tallied.count⟩
  · refine ⟨held_absent issued tallied holding, _, (acts_iff _ _ _).mpr (.insert holding),
      enter_here _ _ _ _, List.mem_cons_self, List.lookup_cons_self, Hub.insert_agree shared.hub id⟩
  · refine ⟨registered_iff issued tallied returned, _, (acts_iff _ _ _).mpr (.unregister returned), ?_,
      Hub.unregister_agree shared.hub id⟩
    simp [Hub.unregister]

def crossing : List Action :=
  [.take 0, .take 1, .insert 1, .broadcast .reload, .unregister 1, .insert 0, .unregister 1]

theorem crossing_calls_apart : ∃ shared, (start "/p").run crossing = some shared ∧
    shared.stages 0 = .returned 0 ∧ shared.stages 1 = .returned 1 ∧
    0 ∈ shared.hub.registered ∧ shared.hub.clientCount = 1 := by
  refine ⟨_, rfl, rfl, rfl, ?_⟩
  obtain ⟨_, _, _, leaving, count⟩ := interleaved_calls_apart "/p" crossing _ rfl
  have tally : leavers crossing = [1] ∧ inserts crossing = 2 := by decide
  rw [tally.1, tally.2] at count
  refine ⟨(leaving 0 0 rfl).1.mpr ?_, Nat.succ.inj count⟩
  rw [tally.1]
  decide

end Shared
end DevServer.LiveUpdate
