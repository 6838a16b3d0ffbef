import DevServer.Proofs.History
import DevServer.Proofs.Queues

set_option autoImplicit false

namespace DevServer.LiveUpdate.Hub

structure Tracks (id : Nat) (hub : Hub) (history : History) (lost : List Message) : Prop where
  registered : hub.registered.contains id = history.isRegistered id
  receiving : (hub.queue? id).any Queue.isOpen = history.isReceiving id
  conserved : history.received id ++ lost ++ hub.waiting id = history.taken id
  live : history.isReceiving id = true → lost = []
  gone : history.isReceiving id = false → hub.waiting id = []
  bounded : (hub.waiting id).length ≤ capacity
  unborn : hub.queue? id = none → history.taken id = []

theorem empty_tracks (root : Path) (id : Nat) : Tracks id (empty root) [] [] :=
  ⟨rfl, rfl, rfl, fun _ => rfl, fun _ => rfl, Nat.zero_le _, fun _ => rfl⟩

section Steps

variable {id : Nat} {hub next : Hub} {history : History} {lost : List Message}

-- The hub looks at what waits, the history counts what came and went: while the
-- client receives, nothing is lost and the two leave the same room.
theorem accepts_takes (tracks : Tracks id hub history lost) (queue : Queue)
    (found : hub.queue? id = some queue) : hub.accepts (id, queue) = history.takes id := by
  have receiving := tracks.receiving
  have total := congrArg List.length tracks.conserved
  have waits : hub.waiting id = queue.waiting := by simp [waiting, found]
  rw [found, Option.any_some] at receiving
  unfold accepts History.takes
  rw [tracks.registered, receiving]
  cases isOpen : history.isReceiving id with
  | false => simp
  | true =>
      rw [tracks.live isOpen, List.append_nil, List.length_append, waits] at total
      have room : queue.waiting.length < capacity ↔
          (history.taken id).length < (history.received id).length + capacity := by omega
      simp only [room]

theorem tracks_frame (tracks : Tracks id hub history lost) (event : Occurrence)
    (queue : next.queue? id = hub.queue? id)
    (registered : next.registered.contains id = History.isRegistered id (event :: history))
    (receiving : History.isReceiving id (event :: history) = history.isReceiving id)
    (unsent : event.sent? = none) (unread : event.receipt? id = none) :
    Tracks id next (event :: history) lost := by
  have waits : next.waiting id = hub.waiting id := by unfold waiting; rw [queue]
  have taken := History.taken_unsent id event history unsent
  have received := History.received_unread id event history unread
  constructor
  · exact registered
  · rw [queue, receiving, tracks.receiving]
  · rw [received, waits, taken, tracks.conserved]
  · rw [receiving]
    exact tracks.live
  · rw [receiving, waits]
    exact tracks.gone
  · rw [waits]
    exact tracks.bounded
  · rw [queue, taken]
    exact tracks.unborn

theorem tracks_register (formed : hub.Formed) (tracks : Tracks id hub history lost) :
    Tracks id hub.register.2 ((.register, .registered hub.nextId) :: history) lost := by
  by_cases new : id = hub.nextId
  · have none := queue_none hub formed
    have nothing := tracks.unborn (new ▸ none)
    have total := tracks.conserved
    rw [nothing, List.append_eq_nil_iff, List.append_eq_nil_iff] at total
    obtain ⟨⟨received, lost⟩, _⟩ := total
    have queue : hub.register.2.queue? id = some ⟨[], true⟩ := by
      rw [queue_register hub formed, if_pos new]
    have waits : hub.register.2.waiting id = [] := by simp [waiting, queue]
    have taken : History.taken id ((.register, .registered hub.nextId) :: history) = [] :=
      (History.taken_unsent id _ history rfl).trans nothing
    have read : History.received id ((.register, .registered hub.nextId) :: history) = [] :=
      (History.received_unread id _ history rfl).trans received
    subst lost
    constructor
    · rw [registered_register, tracks.registered]
      rfl
    · rw [queue]
      simp [History.isReceiving, new]
    · rw [read, waits, taken]
      rfl
    · intro _
      rfl
    · intro _
      exact waits
    · rw [waits]
      exact Nat.zero_le _
    · intro _
      exact taken
  · have differs : (hub.nextId == id) = false := beq_eq_false_iff_ne.mpr (Ne.symm new)
    apply tracks_frame tracks
    · rw [queue_register hub formed, if_neg new]
    · rw [registered_register, tracks.registered]
      rfl
    · simp only [History.isReceiving, differs, Bool.false_or]
    · rfl
    · rfl

theorem tracks_unregister (tracks : Tracks id hub history lost) (client : Nat) :
    Tracks id (hub.unregister client) ((.unregister client, .unregistered) :: history) lost := by
  apply tracks_frame tracks
  · rfl
  · simp only [History.isRegistered, ← tracks.registered]
    by_cases same : client = id
    · simp [unregister, same]
    · simp [unregister, same, Ne.symm same]
  · rfl
  · rfl
  · rfl

theorem tracks_close (tracks : Tracks id hub history lost) (client : Nat) :
    Tracks id (hub.close client).2 ((.close client, .closed (hub.close client).1) :: history)
      (lost ++ if closes id (.close client) then hub.waiting id else []) := by
  have queue := queue_set_queue hub id client ⟨[], false⟩
  by_cases same : client = id
  · subst client
    have taken := History.taken_unsent id (.close id, .closed (hub.close id).1) history rfl
    have read := History.received_unread id (.close id, .closed (hub.close id).1) history rfl
    have silent : History.isReceiving id ((.close id, .closed (hub.close id).1) :: history) =
        false := by
      simp [History.isReceiving]
    have waits : (hub.close id).2.waiting id = [] := by
      rw [if_pos rfl] at queue
      unfold waiting close
      rw [queue]
      cases hub.queue? id <;> rfl
    constructor
    · exact tracks.registered
    · rw [silent]
      change (((hub.setQueue id ⟨[], false⟩).queue? id).any Queue.isOpen) = false
      rw [queue, if_pos rfl]
      cases hub.queue? id <;> rfl
    · rw [read, waits, taken, ← tracks.conserved]
      simp [closes]
    · intro open'
      rw [silent] at open'
      cases open'
    · intro _
      exact waits
    · rw [waits]
      exact Nat.zero_le _
    · intro absent
      rw [taken]
      apply tracks.unborn
      change (hub.setQueue id ⟨[], false⟩).queue? id = none at absent
      rw [queue, if_pos rfl, Option.map_eq_none_iff] at absent
      exact absent
  · have untouched : closes id (.close client) = false := beq_eq_false_iff_ne.mpr same
    rw [untouched, if_neg Bool.false_ne_true, List.append_nil]
    apply tracks_frame tracks
    · exact queue_set_other hub id client _ same
    · exact tracks.registered
    · simp [History.isReceiving, same]
    · rfl
    · rfl

theorem broadcast_waiting (tracks : Tracks id hub history lost) (message : Message) :
    (hub.broadcast message).2.waiting id =
      hub.waiting id ++ if history.takes id then [message] else [] := by
  unfold waiting
  rw [queue_broadcast]
  cases found : hub.queue? id with
  | none =>
      have shut : history.takes id = false := by
        have receiving := tracks.receiving
        rw [found] at receiving
        simp [History.takes, ← receiving]
      simp [shut]
  | some queue =>
      simp only [Option.map_some, Option.getD_some, deliver, accepts_takes tracks queue found]
      split <;> simp

theorem tracks_send (tracks : Tracks id hub history lost) (message : Message) (event : Occurrence)
    (sent : event.sent? = some message) (unread : event.receipt? id = none)
    (registered : History.isRegistered id (event :: history) = history.isRegistered id)
    (receiving : History.isReceiving id (event :: history) = history.isReceiving id) :
    Tracks id (hub.broadcast message).2 (event :: history) lost := by
  have waits := broadcast_waiting tracks message
  have queue := queue_broadcast hub message id
  have read := History.received_unread id event history unread
  have taken : History.taken id (event :: history) =
      history.taken id ++ if history.takes id then [message] else [] := by
    rw [History.taken_cons, sent]
    rfl
  constructor
  · exact tracks.registered.trans registered.symm
  · rw [receiving, ← tracks.receiving, queue]
    cases hub.queue? id with
    | none => rfl
    | some queue =>
        simp only [Option.map_some, Option.any_some, deliver]
        split <;> rfl
  · rw [read, waits, taken, ← tracks.conserved]
    simp only [List.append_assoc]
  · rw [receiving]
    exact tracks.live
  · intro silent
    rw [receiving] at silent
    have shut : history.takes id = false := by simp [History.takes, silent]
    rw [waits, tracks.gone silent, shut]
    rfl
  · rw [waits]
    by_cases room : history.takes id = true
    · have total := congrArg List.length tracks.conserved
      simp only [History.takes, Bool.and_eq_true, decide_eq_true_eq] at room
      simp only [List.length_append] at total
      simp only [History.takes, room, Bool.and_self, decide_true, if_true, List.length_append,
        List.length_singleton]
      omega
    · rw [if_neg room, List.append_nil]
      exact tracks.bounded
  · intro absent
    rw [queue, Option.map_eq_none_iff] at absent
    have shut : history.takes id = false := by
      have silent := tracks.receiving
      rw [absent] at silent
      simp [History.takes, ← silent]
    rw [taken, tracks.unborn absent, shut]
    rfl

theorem tracks_receive (tracks : Tracks id hub history lost) (client : Nat) (limit : Option Nat) :
    Tracks id (hub.receive client limit).2
      ((.receive client limit, .received (hub.receive client limit).1) :: history) lost := by
  by_cases same : client = id
  · subst client
    have taken := History.taken_unsent id
      (.receive id limit, .received (hub.receive id limit).1) history rfl
    have read : History.received id
        ((.receive id limit, .received (hub.receive id limit).1) :: history) =
        history.received id ++ (hub.receive id limit).1.messages := by
      rw [History.received_cons]
      simp [Occurrence.receipt?]
    rcases receive_cases hub id limit with ⟨rest, found, after⟩ | ⟨nothing, after⟩
    · have queue : (hub.receive id limit).2.queue? id = some ⟨rest, true⟩ := by
        rw [after, queue_set_queue, if_pos rfl, found]
        rfl
      have waits : (hub.receive id limit).2.waiting id = rest := by simp [waiting, queue]
      have waited : hub.waiting id = (hub.receive id limit).1.messages ++ rest := by
        simp [waiting, found]
      have live : history.isReceiving id = true := by
        rw [← tracks.receiving, found]
        rfl
      have bounded := tracks.bounded
      rw [waited, List.length_append] at bounded
      constructor
      · rw [after]
        exact tracks.registered
      · rw [queue]
        exact live.symm
      · rw [read, waits, taken, ← tracks.conserved, waited, tracks.live live]
        simp only [List.append_nil, List.append_assoc]
      · exact tracks.live
      · intro silent
        exact Bool.noConfusion (live.symm.trans silent)
      · rw [waits]
        omega
      · intro absent
        rw [queue] at absent
        cases absent
    · rw [nothing, List.append_nil] at read
      rw [after]
      constructor
      · exact tracks.registered
      · exact tracks.receiving
      · rw [read, taken, tracks.conserved]
      · exact tracks.live
      · exact tracks.gone
      · exact tracks.bounded
      · rw [taken]
        exact tracks.unborn
  · have unread : Occurrence.receipt? id
        (.receive client limit, .received (hub.receive client limit).1) = none := if_neg same
    apply tracks_frame tracks
    · rcases receive_cases hub client limit with ⟨rest, _, after⟩ | ⟨_, after⟩
      · rw [after, queue_set_other hub id client _ same]
      · rw [after]
    · rcases receive_cases hub client limit with ⟨rest, _, after⟩ | ⟨_, after⟩
      · rw [after]
        exact tracks.registered
      · rw [after]
        exact tracks.registered
    · rfl
    · rfl
    · exact unread

theorem step_tracks (formed : hub.Formed) (tracks : Tracks id hub history lost) (step : Step) :
    Tracks id (hub.step step).2 ((step, (hub.step step).1) :: history)
      (lost ++ if closes id step then hub.waiting id else []) := by
  by_cases closing : closes id step = true
  · cases step with
    | close client => exact tracks_close tracks client
    | register => cases closing
    | unregister client => cases closing
    | broadcast message => cases closing
    | change path => cases closing
    | receive client limit => cases closing
  · rw [if_neg closing, List.append_nil]
    cases step with
    | register => exact tracks_register formed tracks
    | unregister client => exact tracks_unregister tracks client
    | close client =>
        have closed := tracks_close tracks client
        rw [if_neg closing, List.append_nil] at closed
        exact closed
    | broadcast message => exact tracks_send tracks message _ rfl rfl rfl rfl
    | change path => exact tracks_send tracks (classify path hub.root) _ rfl rfl rfl rfl
    | receive client limit => exact tracks_receive tracks client limit

-- The history grows at its front, so the earlier one is any that the hub is tracked by.
theorem run_tracks (formed : hub.Formed) (tracks : Tracks id hub history lost)
    (steps : List Step) :
    Tracks id (hub.run steps).2 (hub.history steps ++ history) (lost ++ dropped id hub steps) := by
  induction steps generalizing hub history lost with
  | nil =>
      rw [dropped, List.append_nil]
      exact tracks
  | cons step rest ih =>
      have later := ih (step_formed hub formed step) (step_tracks formed tracks step)
      rw [List.append_assoc] at later
      rw [history_cons, List.append_assoc]
      exact later

end Steps

theorem delivered_count (hub : Hub) (formed : hub.Formed) (history : History)
    (lost : Nat → List Message) (tracks : ∀ id, Tracks id hub history (lost id))
    (message : Message) :
    (hub.broadcast message).1 = (List.range hub.nextId).countP (History.takes · history) := by
  have same : hub.queues.countP hub.accepts = hub.queues.countP fun entry =>
      History.takes entry.1 history := by
    apply List.countP_congr
    intro entry member
    rw [accepts_takes (tracks entry.1) entry.2 (queue_some hub formed entry.1 entry.2 member)]
  calc (hub.broadcast message).1
      = hub.queues.countP hub.accepts := List.countP_eq_length_filter.symm
    _ = (hub.queues.map Prod.fst).countP (History.takes · history) := by
        rw [same, List.countP_map]
        rfl
    _ = (List.range hub.nextId).countP (History.takes · history) := by
        rw [formed.keys, List.countP_reverse]

end DevServer.LiveUpdate.Hub
