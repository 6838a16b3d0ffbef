import DevServer.FileTree.Basic

set_option autoImplicit false

namespace DevServer

namespace FileTree

def isStay (segment : Text) : Bool := segment = [] ∨ segment = ['.'] ∨ segment = ['.', '.']

def endsInDirectory (segments : List Text) : Bool := segments.getLast?.any isStay

theorem ends_append (front rest : List Text) (more : rest ≠ []) :
    endsInDirectory (front ++ rest) = endsInDirectory rest := by
  unfold endsInDirectory
  rw [List.getLast?_append, List.getLast?_eq_some_getLast more]
  rfl

theorem ends_cons (segment : Text) (rest : List Text) (more : rest ≠ []) :
    endsInDirectory (segment :: rest) = endsInDirectory rest :=
  ends_append [segment] rest more

theorem above_directory (root : Node) (place : Place) (entries : Forest)
    (found : root.at? place = some (.dir entries)) :
    ∃ entries, root.at? place.dropLast = some (.dir entries) := by
  induction place generalizing root with
  | nil => exact ⟨entries, found⟩
  | cons name rest ih =>
      cases root with
      | file content modified => cases found
      | link target => cases found
      | dir listed =>
          cases rest with
          | nil => exact ⟨listed, rfl⟩
          | cons next rest =>
              rw [Node.at?] at found
              rw [List.dropLast_cons_of_ne_nil (List.cons_ne_nil _ _), Node.at?]
              cases got : listed.get? name with
              | none =>
                  rw [got] at found
                  cases found
              | some node =>
                  rw [got] at found
                  exact ih node found

def Directory (found : Found) : Prop := ∀ place node, found = .ok (place, node) → node.isDir = true

theorem stop_directory (fits : Place → Bool) (root : Node) (last : Bool)
    (onLink : Place → List Text → Found) (place : Place) (entries : Forest)
    (here : root.at? place = some (.dir entries)) :
    Directory (followWith fits root last onLink [] place) := by
  intro place' node found
  rw [followWith, here] at found
  cases found
  rfl

inductive Turn where
  | fails (error : FileError)
  | goes (place : Place)
  | link (target : Path)

section Turns

variable (fits : Place → Bool) (root : Node)

def turn (segment : Text) (place : Place) : Turn :=
  match root.at? place with
  | some (.dir entries) =>
    if segment = [] ∨ segment = ['.'] then .goes place
    else if segment = ['.', '.'] then .goes place.dropLast
    else if maxName < Text.size segment ∨ fits (place ++ [segment]) = false then .fails .nameTooLong
    else match entries.get? segment with
      | none => .fails .notFound
      | some (.link target) => .link target
      | some _ => .goes (place ++ [segment])
  | some _ => .fails .notDirectory
  | none => .fails .notFound

theorem follow_turn (last : Bool) (onLink : Place → List Text → Found) (segment : Text) (rest : List Text)
    (place : Place) : followWith fits root last onLink (segment :: rest) place =
      match turn fits root segment place with
      | .fails error => .error error
      | .goes there => followWith fits root last onLink rest there
      | .link target =>
        if rest = [] ∧ last = false then .ok (place ++ [segment], .link target)
        else onLink (if Path.isAbsolute target then [] else place) (Path.segments target ++ rest) := by
  rw [followWith, turn]
  cases root.at? place with
  | none => rfl
  | some node =>
      cases node with
      | file content modified => rfl
      | link target => rfl
      | dir entries =>
          dsimp only
          split
          · rfl
          · split
            · rfl
            · split
              · rfl
              · cases entries.get? segment with
                | none => rfl
                | some node => cases node <;> rfl

theorem turn_inside (segment : Text) (place : Place)
    (leads : ∀ error, turn fits root segment place ≠ .fails error) :
    ∃ entries, root.at? place = some (.dir entries) := by
  unfold turn at leads
  cases here : root.at? place with
  | none =>
      rw [here] at leads
      exact absurd rfl (leads .notFound)
  | some node =>
      rw [here] at leads
      cases node with
      | file content modified => exact absurd rfl (leads .notDirectory)
      | link target => exact absurd rfl (leads .notDirectory)
      | dir entries => exact ⟨entries, rfl⟩

-- A segment that stays leads to a directory if anywhere, the one it is read in or the one above.
theorem turn_stay (segment : Text) (place : Place) (stay : isStay segment = true) :
    (∃ error, turn fits root segment place = .fails error) ∨
      ∃ there listed, turn fits root segment place = .goes there ∧ root.at? there = some (.dir listed) := by
  by_cases leads : ∀ error, turn fits root segment place ≠ .fails error
  · right
    obtain ⟨entries, here⟩ := turn_inside fits root segment place leads
    obtain ⟨listed, above⟩ := above_directory root place entries here
    rw [turn, here]
    by_cases dot : segment = [] ∨ segment = ['.']
    · exact ⟨place, entries, if_pos dot, here⟩
    · have parent : segment = ['.', '.'] := by simpa [isStay, or_assoc, not_or.mp dot] using stay
      exact ⟨place.dropLast, listed, (if_neg dot).trans (if_pos parent), above⟩
  · left
    simpa using leads

end Turns

theorem follow_directory (fits : Place → Bool) (root : Node) (last : Bool)
    (onLink : Place → List Text → Found)
    (linked : ∀ place rest, endsInDirectory rest = true → Directory (onLink place rest))
    (segments : List Text) (place : Place) (ends : endsInDirectory segments = true) :
    Directory (followWith fits root last onLink segments place) := by
  induction segments generalizing place with
  | nil => cases ends
  | cons segment rest ih =>
      rw [follow_turn]
      by_cases more : rest = []
      -- The last segment stays, so it leads to a directory and by no link.
      · subst more
        rcases turn_stay fits root segment place ends with ⟨error, fails⟩ | ⟨there, listed, goes, reached⟩
        · rw [fails]
          exact fun _ _ found => nomatch found
        · rw [goes]
          exact stop_directory fits root last onLink there listed reached
      · have later : endsInDirectory rest = true := by rwa [ends_cons segment rest more] at ends
        cases turn fits root segment place with
        | fails error => exact fun _ _ found => nomatch found
        | goes there => exact ih there later
        | link target =>
            dsimp only
            rw [if_neg fun both => more both.1]
            exact linked _ _ (by rwa [ends_append _ rest more])

theorem within_directory (fits : Place → Bool) (root : Node) (last : Bool) (links : Nat)
    (place : Place) (segments : List Text) (ends : endsInDirectory segments = true) :
    Directory (followWithin fits root last links place segments) := by
  induction links generalizing place segments with
  | zero =>
      have refused : Directory (.error .tooManyLinks) := fun _ _ found => nomatch found
      exact follow_directory fits root last _ (fun _ _ _ => refused) segments place ends
  | succ links ih => exact follow_directory fits root last _ ih segments place ends

theorem find_ok (tree : FileTree) (path : Path) (found : Place × Node) :
    tree.find true path = .ok found ↔ '\x00' ∉ path ∧ path ≠ [] ∧ isNameable path = true ∧
      follow tree.root true maxLinks (tree.start path) (Path.segments path) = .ok found := by
  rw [find]
  by_cases nul : '\x00' ∈ path
  · simp [nul]
  · by_cases empty : path = []
    · simp [empty]
    · by_cases long : isNameable path = false
      · simp [nul, empty, long]
      · have short : isNameable path = true := by simpa using long
        simp [nul, empty, short]

theorem node_ok (tree : FileTree) (path : Path) (node : Node) :
    tree.node path = .ok node ↔ ∃ place, tree.find true path = .ok (place, node) := by
  rw [FileTree.node]
  cases found : tree.find true path with
  | error error => simp [Except.map]
  | ok there =>
      constructor
      · rintro ⟨⟩
        exact ⟨there.1, rfl⟩
      · rintro ⟨_, ⟨⟩⟩
        rfl

theorem node_found (tree : FileTree) (path : Path) (node : Node) (found : tree.node path = .ok node) :
    '\x00' ∉ path ∧ path ≠ [] ∧ isNameable path = true ∧
      (endsInDirectory (Path.segments path) = true → node.isDir = true) := by
  obtain ⟨place, looked⟩ := (node_ok tree path node).mp found
  obtain ⟨plain, named, short, followed⟩ := (find_ok tree path _).mp looked
  exact ⟨plain, named, short, fun ends => within_directory _ _ _ _ _ _ ends place node followed⟩

theorem file_node (tree : FileTree) (path : Path) (file : tree.isFile path = true) :
    ∃ node, tree.node path = .ok node ∧ node.isFile = true := by
  rw [isFile] at file
  cases found : tree.node path with
  | error error =>
      rw [found] at file
      cases file
  | ok node =>
      rw [found] at file
      exact ⟨node, rfl, file⟩

theorem file_ends (tree : FileTree) (path : Path) (file : tree.isFile path = true) :
    endsInDirectory (Path.segments path) = false := by
  obtain ⟨node, found, isFile⟩ := file_node tree path file
  obtain ⟨_, _, _, directory⟩ := node_found tree path node found
  rw [Bool.eq_false_iff]
  intro ends
  have isDir := directory ends
  cases node with
  | dir entries => cases isFile
  | file content modified => cases isDir
  | link target => cases isDir

end FileTree
end DevServer
