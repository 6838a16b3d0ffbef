import DevServer.Proofs.Tracking

set_option autoImplicit false

namespace DevServer.LiveUpdate.Hub

-- A client sees every step but another's leaving or reading.
def concerns (id : Nat) : Step → Bool
  | .unregister client => client == id
  | .close client => client == id
  | .receive client _ => client == id
  | _ => true

structure Agree (id : Nat) (a b : Hub) : Prop where
  root : a.root = b.root
  nextId : a.nextId = b.nextId
  registered : a.registered.contains id = b.registered.contains id
  queue : a.queue? id = b.queue? id

def receipts (id : Nat) (hub : Hub) (steps : List Step) : List Receipt :=
  (steps.zip (hub.run steps).1).filterMap (Occurrence.receipt? id)

theorem receipts_cons (id : Nat) (hub : Hub) (step : Step) (rest : List Step) :
    receipts id hub (step :: rest) =
      (Occurrence.receipt? id (step, (hub.step step).1)).toList ++
        receipts id (hub.step step).2 rest := by
  simp only [receipts, run_cons, List.zip_cons_cons, List.filterMap_cons]
  cases Occurrence.receipt? id (step, (hub.step step).1) <;> rfl

section Isolation

variable {id : Nat} {a b : Hub}

theorem hidden_step_agree (agree : Agree id a b) (step : Step) (hidden : concerns id step = false) :
    Agree id (a.step step).2 b := by
  cases step with
  | register => cases hidden
  | broadcast message => cases hidden
  | change path => cases hidden
  | unregister client =>
      have differs : client ≠ id := beq_eq_false_iff_ne.mp hidden
      refine ⟨agree.root, agree.nextId, ?_, agree.queue⟩
      rw [← agree.registered]
      simp [Hub.step, unregister, Ne.symm differs]
  | close client =>
      have differs : client ≠ id := beq_eq_false_iff_ne.mp hidden
      refine ⟨agree.root, agree.nextId, agree.registered, ?_⟩
      rw [← agree.queue]
      exact queue_set_other a id client _ differs
  | receive client limit =>
      have differs : client ≠ id := beq_eq_false_iff_ne.mp hidden
      change Agree id (a.receive client limit).2 b
      rcases receive_cases a client limit with ⟨rest, _, after⟩ | ⟨_, after⟩
      · rw [after]
        refine ⟨agree.root, agree.nextId, agree.registered, ?_⟩
        rw [← agree.queue]
        exact queue_set_other a id client _ differs
      · rw [after]
        exact agree

theorem hidden_step_silent (hub : Hub) (step : Step) (hidden : concerns id step = false) :
    Occurrence.receipt? id (step, (hub.step step).1) = none := by
  cases step with
  | register => cases hidden
  | broadcast message => cases hidden
  | change path => cases hidden
  | unregister client => rfl
  | close client => rfl
  | receive client limit => exact if_neg (beq_eq_false_iff_ne.mp hidden)

theorem broadcast_agree (agree : Agree id a b) (message : Message) :
    Agree id (a.broadcast message).2 (b.broadcast message).2 := by
  refine ⟨agree.root, agree.nextId, agree.registered, ?_⟩
  rw [queue_broadcast, queue_broadcast, agree.queue]
  simp only [deliver, accepts, agree.registered]
  rfl

theorem set_queue_agree (agree : Agree id a b) (client : Nat) (queue : Queue) :
    Agree id (a.setQueue client queue) (b.setQueue client queue) := by
  refine ⟨agree.root, agree.nextId, agree.registered, ?_⟩
  rw [queue_set_queue, queue_set_queue, agree.queue]

theorem receive_agree (agree : Agree id a b) (limit : Option Nat) :
    (a.receive id limit).1 = (b.receive id limit).1 ∧
      Agree id (a.receive id limit).2 (b.receive id limit).2 := by
  have ending : a.ending id = b.ending id := by unfold Hub.ending; rw [agree.registered]
  unfold receive
  rw [agree.queue, ending]
  cases b.queue? id with
  | none => exact ⟨rfl, agree⟩
  | some queue =>
      rcases queue with ⟨messages, isOpen⟩
      cases isOpen with
      | false => exact ⟨rfl, agree⟩
      | true =>
          cases limit with
          | none => exact ⟨rfl, set_queue_agree agree id _⟩
          | some n =>
              dsimp only
              by_cases enough : n ≤ messages.length
              · rw [if_pos enough, if_pos enough]
                exact ⟨rfl, set_queue_agree agree id _⟩
              · rw [if_neg enough, if_neg enough]
                exact ⟨rfl, set_queue_agree agree id _⟩

theorem register_agree (left : a.Formed) (right : b.Formed) (agree : Agree id a b) :
    Agree id a.register.2 b.register.2 := by
  refine ⟨agree.root, congrArg (· + 1) agree.nextId, ?_, ?_⟩
  · rw [registered_register, registered_register, agree.registered, agree.nextId]
  · rw [queue_register a left, queue_register b right, agree.queue, agree.nextId]

theorem seen_step_agree (left : a.Formed) (right : b.Formed) (agree : Agree id a b) (step : Step)
    (seen : concerns id step = true) :
    Occurrence.receipt? id (step, (a.step step).1) = Occurrence.receipt? id (step, (b.step step).1) ∧
      Agree id (a.step step).2 (b.step step).2 := by
  cases step with
  | register => exact ⟨rfl, register_agree left right agree⟩
  | unregister client =>
      have same : client = id := beq_iff_eq.mp seen
      subst client
      refine ⟨rfl, agree.root, agree.nextId, ?_, agree.queue⟩
      simp [Hub.step, unregister]
  | close client => exact ⟨rfl, set_queue_agree agree client _⟩
  | broadcast message => exact ⟨rfl, broadcast_agree agree message⟩
  | change path =>
      refine ⟨rfl, ?_⟩
      have sent := broadcast_agree agree (classify path a.root)
      rw [show (b.step (.change path)).2 = (b.broadcast (classify path b.root)).2 from rfl,
        ← agree.root]
      exact sent
  | receive client limit =>
      have same : client = id := beq_iff_eq.mp seen
      subst client
      obtain ⟨equal, after⟩ := receive_agree agree limit
      refine ⟨?_, after⟩
      exact congrArg (fun receipt => Occurrence.receipt? id
        ((.receive id limit, .received receipt) : Occurrence)) equal

theorem agree_waiting (agree : Agree id a b) : a.waiting id = b.waiting id := by
  unfold waiting
  rw [agree.queue]

theorem hidden_keeps_queue (step : Step) (hidden : concerns id step = false) :
    closes id step = false := by
  cases step with
  | close client => exact hidden
  | register => rfl
  | unregister client => rfl
  | broadcast message => rfl
  | change path => rfl
  | receive client limit => rfl

-- One run takes every step, the other only those that the client can see.
theorem run_agree (left : a.Formed) (right : b.Formed) (agree : Agree id a b)
    (steps : List Step) :
    receipts id a steps = receipts id b (steps.filter (concerns id)) ∧
      dropped id a steps = dropped id b (steps.filter (concerns id)) ∧
      Agree id (a.run steps).2 (b.run (steps.filter (concerns id))).2 := by
  induction steps generalizing a b with
  | nil => exact ⟨rfl, rfl, agree⟩
  | cons step rest ih =>
      rw [receipts_cons, dropped]
      by_cases seen : concerns id step = true
      · obtain ⟨receipt, after⟩ := seen_step_agree left right agree step seen
        obtain ⟨same, lost, final⟩ := ih (step_formed a left step) (step_formed b right step) after
        rw [List.filter_cons_of_pos seen, receipts_cons, dropped, receipt, same, lost,
          agree_waiting agree]
        exact ⟨rfl, rfl, final⟩
      · have hidden := Bool.eq_false_iff.mpr seen
        obtain ⟨same, lost, final⟩ := ih (step_formed a left step) right
          (hidden_step_agree agree step hidden)
        rw [List.filter_cons_of_neg seen, hidden_step_silent a step hidden, same, lost,
          hidden_keeps_queue step hidden]
        exact ⟨rfl, rfl, final⟩

end Isolation

theorem received_receipts (id : Nat) (hub : Hub) (steps : List Step) :
    (hub.history steps).received id = (receipts id hub steps).flatMap Receipt.messages := by
  unfold History.received history receipts
  rw [List.reverse_reverse]

theorem read_after_unregister (hub : Hub) (id : Nat)
    (receiving : (hub.queue? id).any Queue.isOpen = true) :
    ((hub.unregister id).receive id none).1 = ⟨hub.waiting id, .closed⟩ := by
  cases found : hub.queue? id with
  | none => simp [found] at receiving
  | some queue =>
      rcases queue with ⟨messages, isOpen⟩
      rw [found, Option.any_some] at receiving
      have stays : (hub.unregister id).queue? id = some ⟨messages, true⟩ := by
        rw [← receiving]
        exact found
      have ends : (hub.unregister id).ending id = .closed := by
        simp [Hub.ending, unregister]
      simp only [receive, stays, ends, waiting, found]
      rfl

theorem delivery_exact (root : Path) (steps : List Step) (id : Nat) :
    let hub := ((empty root).run steps).2
    let history := (empty root).history steps
    let seen := steps.filter (concerns id)
    history.received id ++ dropped id (empty root) steps ++ hub.waiting id = history.taken id ∧
    (history.taken id).Sublist history.sent ∧
    (∀ message, (hub.step (.broadcast message)).1 =
        .delivered ((List.range hub.nextId).countP (History.takes · history)) ∧
      ∀ client, (hub.step (.broadcast message)).2.waiting client =
        hub.waiting client ++ if history.takes client then [message] else []) ∧
    (∀ client, history.takes client = true → client < hub.nextId) ∧
    (hub.waiting id).length ≤ capacity ∧
    (history.isReceiving id = true →
      ((hub.unregister id).receive id none).1 = ⟨hub.waiting id, .closed⟩) ∧
    receipts id (empty root) steps = receipts id (empty root) seen ∧
    dropped id (empty root) steps = dropped id (empty root) seen ∧
    hub.waiting id = ((empty root).run seen).2.waiting id ∧
    history.taken id = ((empty root).history seen).taken id := by
  intro hub history seen
  have start := empty_formed root
  have formed : hub.Formed := run_formed start steps
  have tracks (steps : List Step) (client : Nat) : Tracks client ((empty root).run steps).2
      ((empty root).history steps) (dropped client (empty root) steps) := by
    simpa using run_tracks start (empty_tracks root client) steps
  have alike : Agree id (empty root) (empty root) := ⟨rfl, rfl, rfl, rfl⟩
  obtain ⟨receipts, lost, agree⟩ := run_agree start start alike steps
  have waits := agree_waiting agree
  refine ⟨(tracks steps id).conserved, History.taken_sublist id history, fun message => ⟨?_, ?_⟩,
    fun client room => ?_, (tracks steps id).bounded, fun receiving => ?_, receipts, lost, waits, ?_⟩
  · exact congrArg Answer.delivered (delivered_count hub formed history _ (tracks steps) message)
  · intro client
    exact broadcast_waiting (tracks steps client) message
  · simp only [History.takes, Bool.and_eq_true] at room
    have member : hub.registered.contains client = true :=
      (tracks steps client).registered.trans room.1.1
    exact formed.registered client (List.contains_iff_mem.mp member)
  · exact read_after_unregister hub id ((tracks steps id).receiving.trans receiving)
  · rw [← (tracks steps id).conserved, ← (tracks seen id).conserved, received_receipts,
      received_receipts, receipts, lost, waits]

end DevServer.LiveUpdate.Hub
