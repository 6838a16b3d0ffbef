import DevServer.LiveUpdate.Hub

set_option autoImplicit false

namespace DevServer.LiveUpdate

abbrev Occurrence := Hub.Step × Hub.Answer

abbrev History := List Occurrence

def Occurrence.sent? : Occurrence → Option Message
  | (.broadcast message, _) => some message
  | (.change _, .classified message) => some message
  | _ => none

def Occurrence.receipt? (id : Nat) : Occurrence → Option Hub.Receipt
  | (.receive client _, .received receipt) => if client = id then some receipt else none
  | _ => none

namespace History

def isRegistered (id : Nat) : History → Bool
  | [] => false
  | (.register, .registered new) :: earlier => new == id || isRegistered id earlier
  | (.unregister old, _) :: earlier => old != id && isRegistered id earlier
  | _ :: earlier => isRegistered id earlier

def isReceiving (id : Nat) : History → Bool
  | [] => false
  | (.register, .registered new) :: earlier => new == id || isReceiving id earlier
  | (.close old, _) :: earlier => old != id && isReceiving id earlier
  | _ :: earlier => isReceiving id earlier

def sent (history : History) : List Message := history.reverse.filterMap Occurrence.sent?

def received (id : Nat) (history : History) : List Message :=
  (history.reverse.filterMap (Occurrence.receipt? id)).flatMap Hub.Receipt.messages

-- The messages sent while the client was registered, received and had room: it
-- holds what it has taken and not yet received.
def taken (id : Nat) : History → List Message
  | [] => []
  | event :: earlier =>
    let old := taken id earlier
    if isRegistered id earlier && isReceiving id earlier &&
        old.length < (received id earlier).length + Hub.capacity
    then old ++ event.sent?.toList else old

def takes (id : Nat) (history : History) : Bool :=
  isRegistered id history && isReceiving id history &&
    (taken id history).length < (received id history).length + Hub.capacity

theorem taken_cons (id : Nat) (event : Occurrence) (earlier : History) :
    taken id (event :: earlier) =
      taken id earlier ++ if takes id earlier then event.sent?.toList else [] := by
  by_cases room : takes id earlier = true
  · rw [if_pos room]
    exact if_pos room
  · rw [if_neg room, List.append_nil]
    exact if_neg room

theorem received_cons (id : Nat) (event : Occurrence) (earlier : History) :
    received id (event :: earlier) =
      received id earlier ++ (event.receipt? id).toList.flatMap Hub.Receipt.messages := by
  unfold received
  rw [List.reverse_cons, List.filterMap_append, List.flatMap_append]
  cases found : Occurrence.receipt? id event <;> simp [found]

theorem taken_unsent (id : Nat) (event : Occurrence) (earlier : History)
    (unsent : event.sent? = none) : taken id (event :: earlier) = taken id earlier := by
  rw [taken_cons, unsent]
  simp

theorem received_unread (id : Nat) (event : Occurrence) (earlier : History)
    (unread : event.receipt? id = none) : received id (event :: earlier) = received id earlier := by
  rw [received_cons, unread]
  simp

theorem sent_cons (event : Occurrence) (earlier : History) :
    sent (event :: earlier) = sent earlier ++ event.sent?.toList := by
  unfold sent
  rw [List.reverse_cons, List.filterMap_append]
  cases found : Occurrence.sent? event <;> simp [found]

theorem taken_sublist (id : Nat) (history : History) :
    (taken id history).Sublist (sent history) := by
  induction history with
  | nil => exact .slnil
  | cons event earlier ih =>
      rw [taken_cons, sent_cons]
      split
      · exact ih.append (List.Sublist.refl _)
      · exact ih.append (List.nil_sublist _)

end History

namespace Hub

def waiting (hub : Hub) (id : Nat) : List Message := ((hub.queue? id).map Queue.waiting).getD []

def closes (id : Nat) : Step → Bool
  | .close client => client == id
  | _ => false

def dropped (id : Nat) : Hub → List Step → List Message
  | _, [] => []
  | hub, step :: rest =>
    (if closes id step then hub.waiting id else []) ++ dropped id (hub.step step).2 rest

def history (hub : Hub) (steps : List Step) : History := (steps.zip (hub.run steps).1).reverse

theorem run_cons (hub : Hub) (step : Step) (rest : List Step) :
    hub.run (step :: rest) =
      ((hub.step step).1 :: ((hub.step step).2.run rest).1, ((hub.step step).2.run rest).2) := rfl

theorem history_cons (hub : Hub) (step : Step) (rest : List Step) :
    hub.history (step :: rest) =
      (hub.step step).2.history rest ++ [(step, (hub.step step).1)] := by
  simp only [history, run_cons, List.zip_cons_cons, List.reverse_cons]

end Hub
end DevServer.LiveUpdate
