import DevServer.LiveUpdate.Message

set_option autoImplicit false

namespace DevServer.LiveUpdate

structure Queue where
  waiting : List Message
  isOpen : Bool
deriving DecidableEq, Repr

structure Hub where
  root : Path
  nextId : Nat
  registered : List Nat
  queues : List (Nat × Queue)
deriving Repr

namespace Hub

def capacity : Nat := 32

def empty (root : Path) : Hub := ⟨root, 0, [], []⟩

def clientCount (hub : Hub) : Nat := hub.registered.length

def queue? (hub : Hub) (id : Nat) : Option Queue := hub.queues.lookup id

-- The two steps of a registration: an id is taken, then its queue inserted.
def takeId (hub : Hub) : Nat × Hub := (hub.nextId, { hub with nextId := hub.nextId + 1 })

def insert (id : Nat) (hub : Hub) : Hub :=
  { hub with
    registered := id :: hub.registered.filter (· ≠ id)
    queues := (id, ⟨[], true⟩) :: hub.queues.filter (·.1 ≠ id) }

def register (hub : Hub) : Nat × Hub :=
  let (id, hub) := hub.takeId
  (id, hub.insert id)

def unregister (id : Nat) (hub : Hub) : Hub :=
  { hub with registered := hub.registered.filter (· ≠ id) }

def setQueue (id : Nat) (queue : Queue) (hub : Hub) : Hub :=
  { hub with queues := hub.queues.map fun entry => if entry.1 = id then (id, queue) else entry }

-- Closes the receiving end; what waits there is lost.
def close (id : Nat) (hub : Hub) : Bool × Hub :=
  ((hub.queue? id).any Queue.isOpen, hub.setQueue id ⟨[], false⟩)

def accepts (hub : Hub) (entry : Nat × Queue) : Bool :=
  hub.registered.contains entry.1 && entry.2.isOpen && entry.2.waiting.length < capacity

def deliver (hub : Hub) (message : Message) (entry : Nat × Queue) : Nat × Queue :=
  if hub.accepts entry then (entry.1, { entry.2 with waiting := entry.2.waiting ++ [message] })
  else entry

def broadcast (message : Message) (hub : Hub) : Nat × Hub :=
  ((hub.queues.filter hub.accepts).length,
    { hub with queues := hub.queues.map (hub.deliver message) })

def handleChange (path : Path) (hub : Hub) : Message × Hub :=
  let message := classify path hub.root
  (message, (hub.broadcast message).2)

inductive Ending where
  | reached
  | empty
  | closed
  | unknown
deriving DecidableEq, Repr

def ending (hub : Hub) (id : Nat) : Ending :=
  if hub.registered.contains id then .empty else .closed

structure Receipt where
  messages : List Message
  ending : Ending
deriving DecidableEq, Repr

def receive (id : Nat) (limit : Option Nat) (hub : Hub) : Receipt × Hub :=
  match hub.queue? id with
  | some ⟨waiting, true⟩ =>
    match limit with
    | some n =>
      if n ≤ waiting.length then (⟨waiting.take n, .reached⟩, hub.setQueue id ⟨waiting.drop n, true⟩)
      else (⟨waiting, hub.ending id⟩, hub.setQueue id ⟨[], true⟩)
    | none => (⟨waiting, hub.ending id⟩, hub.setQueue id ⟨[], true⟩)
  | _ => (⟨[], .unknown⟩, hub)

inductive Step where
  | register
  | unregister (id : Nat)
  | close (id : Nat)
  | broadcast (message : Message)
  | change (path : Path)
  | receive (id : Nat) (limit : Option Nat)
deriving Repr

inductive Answer where
  | registered (id : Nat)
  | unregistered
  | closed (wasOpen : Bool)
  | delivered (count : Nat)
  | classified (message : Message)
  | received (receipt : Receipt)
deriving DecidableEq, Repr

def step (hub : Hub) : Step → Answer × Hub
  | .register => let (id, hub) := hub.register; (.registered id, hub)
  | .unregister id => (.unregistered, hub.unregister id)
  | .close id => let (wasOpen, hub) := hub.close id; (.closed wasOpen, hub)
  | .broadcast message => let (count, hub) := hub.broadcast message; (.delivered count, hub)
  | .change path => let (message, hub) := hub.handleChange path; (.classified message, hub)
  | .receive id limit => let (receipt, hub) := hub.receive id limit; (.received receipt, hub)

def run : Hub → List Step → List Answer × Hub
  | hub, [] => ([], hub)
  | hub, step :: steps =>
    let (answer, hub) := hub.step step
    let (answers, hub) := run hub steps
    (answer :: answers, hub)

end Hub
end DevServer.LiveUpdate
