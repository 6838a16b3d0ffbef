import DevServer.LiveUpdate.Hub

set_option autoImplicit false

namespace DevServer.LiveUpdate.Hub

section Queues

variable (queues : List (Nat × Queue)) (id : Nat)

theorem lookup_other (key : Nat) (queue : Queue) (differs : id ≠ key) :
    ((key, queue) :: queues).lookup id = queues.lookup id := by
  rw [List.lookup_cons, beq_eq_false_iff_ne.mpr differs]

theorem lookup_change (change : Nat × Queue → Nat × Queue)
    (kept : ∀ entry, (change entry).1 = entry.1) :
    (queues.map change).lookup id =
      (queues.lookup id).map fun queue => (change (id, queue)).2 := by
  induction queues with
  | nil => rfl
  | cons entry rest ih =>
      rcases entry with ⟨key, queue⟩
      rw [List.map_cons, ← Prod.eta (change (key, queue)), kept]
      by_cases same : id = key
      · subst same
        simp only [List.lookup_cons_self, Option.map_some]
      · rw [lookup_other _ id key _ same, lookup_other _ id key _ same, ih]

theorem lookup_none (absent : id ∉ queues.map Prod.fst) : queues.lookup id = none := by
  induction queues with
  | nil => rfl
  | cons entry rest ih =>
      rcases entry with ⟨key, queue⟩
      simp only [List.map_cons, List.mem_cons, not_or] at absent
      rw [lookup_other _ id key _ absent.1]
      exact ih absent.2

theorem lookup_mem (unique : (queues.map Prod.fst).Nodup) (queue : Queue)
    (member : (id, queue) ∈ queues) : queues.lookup id = some queue := by
  induction queues with
  | nil => cases member
  | cons entry rest ih =>
      rcases entry with ⟨key, other⟩
      rw [List.map_cons, List.nodup_cons] at unique
      rcases List.mem_cons.mp member with here | later
      · cases here
        exact List.lookup_cons_self
      · have differs : id ≠ key := by
          intro same
          subst same
          exact unique.1 (List.mem_map.mpr ⟨_, later, rfl⟩)
        rw [lookup_other _ id key _ differs]
        exact ih unique.2 later

theorem lookup_filter (key : Nat) (differs : id ≠ key) :
    (queues.filter fun entry => decide (entry.1 ≠ key)).lookup id = queues.lookup id := by
  induction queues with
  | nil => rfl
  | cons entry rest ih =>
      rcases entry with ⟨first, queue⟩
      by_cases gone : first = key
      · rw [List.filter_cons_of_neg (by simp [gone]), ih, lookup_other rest id first queue (gone ▸ differs)]
      · rw [List.filter_cons_of_pos (by simp [gone])]
        by_cases same : id = first
        · subst same
          rw [List.lookup_cons_self, List.lookup_cons_self]
        · rw [lookup_other _ id first _ same, lookup_other _ id first _ same, ih]

end Queues

-- Ids are given out in order and no queue is ever removed, so the queues are
-- those of all clients there have been, the latest first.
structure Formed (hub : Hub) : Prop where
  keys : hub.queues.map Prod.fst = (List.range hub.nextId).reverse
  registered : ∀ id ∈ hub.registered, id < hub.nextId

theorem empty_formed (root : Path) : (empty root).Formed :=
  ⟨rfl, by simp [empty]⟩

theorem queue_some (hub : Hub) (formed : hub.Formed) (id : Nat) (queue : Queue)
    (member : (id, queue) ∈ hub.queues) : hub.queue? id = some queue := by
  apply lookup_mem _ id _ queue member
  rw [formed.keys]
  exact List.pairwise_reverse.mpr (List.nodup_range.imp Ne.symm)

theorem queue_none (hub : Hub) (formed : hub.Formed) : hub.queue? hub.nextId = none := by
  apply lookup_none
  simp [formed.keys]

theorem queue_set_queue (hub : Hub) (id client : Nat) (queue : Queue) :
    (hub.setQueue client queue).queue? id =
      if id = client then (hub.queue? id).map fun _ => queue else hub.queue? id := by
  have change := lookup_change hub.queues id
    (fun entry => if entry.1 = client then (client, queue) else entry)
    (fun entry => by by_cases same : entry.1 = client <;> simp [same])
  unfold queue? setQueue
  rw [change]
  by_cases same : id = client
  · simp only [if_pos same]
  · simp only [if_neg same, Option.map_id']

theorem queue_set_other (hub : Hub) (id client : Nat) (queue : Queue) (differs : client ≠ id) :
    (hub.setQueue client queue).queue? id = hub.queue? id := by
  rw [queue_set_queue, if_neg (Ne.symm differs)]

theorem deliver_key (hub : Hub) (message : Message) (entry : Nat × Queue) :
    (hub.deliver message entry).1 = entry.1 := by
  unfold deliver
  split <;> rfl

theorem queue_broadcast (hub : Hub) (message : Message) (id : Nat) :
    (hub.broadcast message).2.queue? id =
      (hub.queue? id).map fun queue => (hub.deliver message (id, queue)).2 :=
  lookup_change hub.queues id (hub.deliver message) (deliver_key hub message)

theorem others_kept (hub : Hub) (formed : hub.Formed) :
    hub.queues.filter (fun entry => decide (entry.1 ≠ hub.nextId)) = hub.queues := by
  rw [List.filter_eq_self]
  intro entry member
  have key : entry.1 ∈ (List.range hub.nextId).reverse := by
    rw [← formed.keys]
    exact List.mem_map.mpr ⟨entry, member, rfl⟩
  simp only [List.mem_reverse, List.mem_range] at key
  exact decide_eq_true (Nat.ne_of_lt key)

theorem register_queues (hub : Hub) (formed : hub.Formed) :
    hub.register.2.queues = (hub.nextId, ⟨[], true⟩) :: hub.queues :=
  congrArg (List.cons _) (others_kept hub formed)

theorem queue_register (hub : Hub) (formed : hub.Formed) (id : Nat) :
    hub.register.2.queue? id =
      if id = hub.nextId then some ⟨[], true⟩ else hub.queue? id := by
  unfold queue?
  rw [register_queues hub formed]
  by_cases same : id = hub.nextId
  · rw [if_pos same, same, List.lookup_cons_self]
  · rw [if_neg same, lookup_other _ id _ _ same]

theorem registered_register (hub : Hub) (id : Nat) :
    hub.register.2.registered.contains id =
      (hub.nextId == id || hub.registered.contains id) := by
  by_cases new : hub.nextId = id
  · simp [register, takeId, insert, new]
  · simp [register, takeId, insert, new, Ne.symm new]

theorem register_formed (hub : Hub) (formed : hub.Formed) : hub.register.2.Formed := by
  refine ⟨?_, fun id member => ?_⟩
  · rw [register_queues hub formed, List.map_cons, formed.keys]
    change _ = (List.range (hub.nextId + 1)).reverse
    rw [List.range_succ, List.reverse_append]
    rfl
  · rcases List.mem_cons.mp member with new | old
    · subst new
      exact Nat.lt_succ_self _
    · exact Nat.lt_succ_of_lt (formed.registered id (List.mem_filter.mp old).1)

theorem broadcast_formed (hub : Hub) (formed : hub.Formed) (message : Message) :
    (hub.broadcast message).2.Formed := by
  refine ⟨Eq.trans ?_ formed.keys, formed.registered⟩
  simp only [broadcast, List.map_map]
  apply List.map_congr_left
  intro entry member
  exact deliver_key hub message entry

theorem set_queue_formed (hub : Hub) (formed : hub.Formed) (client : Nat) (queue : Queue) :
    (hub.setQueue client queue).Formed := by
  refine ⟨Eq.trans ?_ formed.keys, formed.registered⟩
  simp only [setQueue, List.map_map]
  apply List.map_congr_left
  intro entry member
  by_cases same : entry.1 = client <;> simp [same]

theorem receive_cases (hub : Hub) (client : Nat) (limit : Option Nat) :
    (∃ rest, hub.queue? client = some ⟨(hub.receive client limit).1.messages ++ rest, true⟩ ∧
      (hub.receive client limit).2 = hub.setQueue client ⟨rest, true⟩) ∨
    ((hub.receive client limit).1.messages = [] ∧ (hub.receive client limit).2 = hub) := by
  unfold receive
  cases found : hub.queue? client with
  | none => exact .inr ⟨rfl, rfl⟩
  | some queue =>
      rcases queue with ⟨messages, isOpen⟩
      cases isOpen with
      | false => exact .inr ⟨rfl, rfl⟩
      | true =>
          cases limit with
          | none => exact .inl ⟨[], by simp, rfl⟩
          | some n =>
              by_cases enough : n ≤ messages.length
              · exact .inl ⟨messages.drop n, by simp [enough], by simp [enough]⟩
              · exact .inl ⟨[], by simp [enough], by simp [enough]⟩

theorem step_formed (hub : Hub) (formed : hub.Formed) (step : Step) :
    (hub.step step).2.Formed := by
  cases step with
  | register => exact register_formed hub formed
  | unregister client =>
      refine ⟨formed.keys, fun id member => ?_⟩
      exact formed.registered id (List.mem_filter.mp member).1
  | close client => exact set_queue_formed hub formed client _
  | broadcast message => exact broadcast_formed hub formed message
  | change path => exact broadcast_formed hub formed _
  | receive client limit =>
      change (hub.receive client limit).2.Formed
      rcases receive_cases hub client limit with ⟨rest, _, after⟩ | ⟨_, after⟩
      · rw [after]
        exact set_queue_formed hub formed client _
      · rw [after]
        exact formed

theorem run_formed {hub : Hub} (formed : hub.Formed) (steps : List Step) : (hub.run steps).2.Formed := by
  induction steps generalizing hub with
  | nil => exact formed
  | cons step rest ih => exact ih (step_formed hub formed step)

end DevServer.LiveUpdate.Hub
