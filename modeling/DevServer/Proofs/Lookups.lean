import DevServer.Proofs.Spellings
import Mathlib.Data.List.Infix

set_option autoImplicit false

namespace DevServer

inductive Node.Kind where
  | file
  | link (target : Path)
  | dir
deriving DecidableEq, Repr

def Node.Kind.isLink : Node.Kind → Bool
  | link _ => true
  | _ => false

namespace Node

def kind : Node → Kind
  | file _ _ => .file
  | link target => .link target
  | dir _ => .dir

theorem dir_kind (node : Node) : node.isDir = decide (node.kind = .dir) := by
  cases node with
  | file content modified => rfl
  | link target => rfl
  | dir entries => rfl

theorem at_append (node : Node) (front back : List Text) :
    node.at? (front ++ back) = (node.at? front).bind fun inner => inner.at? back := by
  induction front generalizing node with
  | nil => rfl
  | cons name front ih =>
      rw [List.cons_append]
      cases node with
      | file content modified => rfl
      | link target => rfl
      | dir entries =>
          rw [at?, at?]
          cases entries.get? name with
          | none => rfl
          | some inner => exact ih inner

theorem at_inside (node : Node) (place : List Text) (entries : Forest) (name : Text)
    (here : node.at? place = some (.dir entries)) : node.at? (place ++ [name]) = entries.get? name := by
  rw [at_append, here, Option.bind_some, at?]
  cases entries.get? name with
  | none => rfl
  | some inner => cases inner <;> rfl

end Node

namespace Forest

theorem get_put (query name : Text) (new : Node) (forest : Forest) :
    (forest.put name new).get? query = if query = name then some new else forest.get? query := by
  match forest with
  | nil => rfl
  | cons other node rest =>
      have later := get_put query name new rest
      rw [put]
      by_cases same : name = other
      · subst same
        rw [if_pos rfl, get?, get?]
        by_cases hit : query = name
        · rw [if_pos hit, if_pos hit]
        · rw [if_neg hit, if_neg hit, if_neg hit]
      · rw [if_neg same, get?, later, get?]
        by_cases hit : query = other
        · rw [if_pos hit, if_pos hit, if_neg (hit ▸ Ne.symm same)]
        · rw [if_neg hit, if_neg hit]

theorem get_erase (query name : Text) (forest : Forest) (apart : query ≠ name) :
    (forest.erase name).get? query = forest.get? query := by
  match forest with
  | nil => rfl
  | cons other node rest =>
      have later := get_erase query name rest apart
      rw [erase]
      by_cases same : name = other
      · rw [if_pos same, get?, if_neg (same ▸ apart)]
      · rw [if_neg same, get?, get?, later]

end Forest

namespace FileTree

def kindAt (root : Node) (place : Place) : Option Node.Kind := (root.at? place).map Node.kind

-- Trees that differ at one place and below it at most.
def AgreeOff (place : Place) (root other : Node) : Prop :=
  ∀ seen, ¬ place <+: seen → kindAt other seen = kindAt root seen

-- The second may have a file where the first has nothing.
def AgreeAt (root other : Node) (place : Place) : Prop :=
  kindAt other place = kindAt root place ∨ kindAt root place = none ∧ kindAt other place = some .file

-- The places looked at on the way along segments; `onLink` goes on from a link.
def trailWith (root : Node) (onLink : Place → List Text → List Place) : List Text → Place → List Place
  | [], place => [place]
  | segment :: rest, place =>
    place :: if kindAt root place = some .dir then
      if segment = [] ∨ segment = ['.'] then trailWith root onLink rest place
      else if segment = ['.', '.'] then trailWith root onLink rest place.dropLast
      else match kindAt root (place ++ [segment]) with
        | none => [place ++ [segment]]
        | some (.link target) => (place ++ [segment]) ::
            onLink (if Path.isAbsolute target then [] else place) (Path.segments target ++ rest)
        | some _ => trailWith root onLink rest (place ++ [segment])
    else []

def trailWithin (root : Node) : Nat → Place → List Text → List Place
  | 0 => fun place rest => trailWith root (fun _ _ => []) rest place
  | links + 1 => fun place rest => trailWith root (trailWithin root links) rest place

def trail (tree : FileTree) (path : Path) : List Place :=
  trailWithin tree.root maxLinks (tree.start path) (Path.segments path)

theorem trail_head (root : Node) (onLink : Place → List Text → List Place) (segments : List Text) (place : Place) :
    place ∈ trailWith root onLink segments place := by
  cases segments with
  | nil => exact List.mem_cons_self
  | cons segment rest => exact List.mem_cons_self

def isDirFound : Found → Bool
  | .ok (_, node) => node.isDir
  | .error _ => false

section Following

variable (fits : Place → Bool) (root other : Node) (onLink onLink' : Place → List Text → Found)

theorem kind_dir (place : Place) : kindAt root place = some .dir ↔ ∃ entries, root.at? place = some (.dir entries) := by
  rw [kindAt]
  cases root.at? place with
  | none => simp
  | some node =>
      cases node with
      | file content modified => simp [Node.kind]
      | link target => simp [Node.kind]
      | dir entries => simp [Node.kind]

theorem follow_end (place : Place) :
    isDirFound (followWith fits root true onLink [] place) = decide (kindAt root place = some .dir) := by
  rw [followWith, kindAt]
  cases root.at? place with
  | none => rfl
  | some node =>
      change node.isDir = decide (some node.kind = some .dir)
      rw [Node.dir_kind]
      simp

theorem follow_outside (segment : Text) (rest : List Text) (place : Place)
    (outside : kindAt root place ≠ some .dir) :
    isDirFound (followWith fits root true onLink (segment :: rest) place) = false := by
  rw [followWith]
  cases here : root.at? place with
  | none => rfl
  | some node =>
      cases node with
      | file content modified => rfl
      | link target => rfl
      | dir entries => exact absurd ((kind_dir root place).mpr ⟨entries, here⟩) outside

theorem follow_inside (segment : Text) (rest : List Text) (place : Place) (inside : kindAt root place = some .dir) :
    isDirFound (followWith fits root true onLink (segment :: rest) place) =
      if segment = [] ∨ segment = ['.'] then isDirFound (followWith fits root true onLink rest place)
      else if segment = ['.', '.'] then isDirFound (followWith fits root true onLink rest place.dropLast)
      else if maxName < Text.size segment ∨ fits (place ++ [segment]) = false then false
      else match kindAt root (place ++ [segment]) with
        | none => false
        | some (.link target) => isDirFound
            (onLink (if Path.isAbsolute target then [] else place) (Path.segments target ++ rest))
        | some _ => isDirFound (followWith fits root true onLink rest (place ++ [segment])) := by
  obtain ⟨entries, here⟩ := (kind_dir root place).mp inside
  rw [followWith, here, kindAt, Node.at_inside root place entries segment here]
  dsimp only
  split
  · rfl
  · split
    · rfl
    · split
      · rfl
      · cases entries.get? segment with
        | none => rfl
        | some node =>
            cases node with
            | file content modified => rfl
            | dir listed => rfl
            | link target =>
                simp only [Bool.true_eq_false, and_false, if_false]
                rfl

theorem follow_file (segments : List Text) (place : Place) (file : kindAt root place = some .file) :
    isDirFound (followWith fits root true onLink segments place) = false := by
  have outside : kindAt root place ≠ some .dir := by
    rw [file]
    simp
  cases segments with
  | nil => rw [follow_end, decide_eq_false outside]
  | cons segment rest => exact follow_outside fits root onLink segment rest place outside

variable {root other}

theorem AgreeAt.dir_iff {place : Place} (agree : AgreeAt root other place) :
    kindAt other place = some .dir ↔ kindAt root place = some .dir := by
  rcases agree with same | ⟨none, file⟩
  · rw [same]
  · rw [none, file]
    simp

variable {onLink onLink'}

theorem follow_agrees (onTrail : Place → List Text → List Place)
    (linked : ∀ place rest, (∀ seen ∈ onTrail place rest, AgreeAt root other seen) →
      isDirFound (onLink' place rest) = isDirFound (onLink place rest))
    (segments : List Text) (place : Place)
    (agree : ∀ seen ∈ trailWith root onTrail segments place, AgreeAt root other seen) :
    isDirFound (followWith fits other true onLink' segments place) =
      isDirFound (followWith fits root true onLink segments place) := by
  induction segments generalizing place with
  | nil =>
      rw [follow_end, follow_end, decide_eq_decide]
      exact (agree place List.mem_cons_self).dir_iff
  | cons segment rest ih =>
      have here : AgreeAt root other place := agree place List.mem_cons_self
      by_cases inside : kindAt root place = some .dir
      · rw [trailWith, if_pos inside] at agree
        have later := fun seen member => agree seen (List.mem_cons_of_mem place member)
        rw [follow_inside fits root onLink segment rest place inside,
          follow_inside fits other onLink' segment rest place (here.dir_iff.mpr inside)]
        by_cases idle : segment = [] ∨ segment = ['.']
        · rw [if_pos idle] at later
          rw [if_pos idle, if_pos idle]
          exact ih place later
        rw [if_neg idle] at later
        rw [if_neg idle, if_neg idle]
        by_cases parent : segment = ['.', '.']
        · rw [if_pos parent] at later
          rw [if_pos parent, if_pos parent]
          exact ih place.dropLast later
        rw [if_neg parent] at later
        rw [if_neg parent, if_neg parent]
        split
        · rfl
        · cases next : kindAt root (place ++ [segment]) with
          | none =>
              rw [next] at later
              rcases later _ List.mem_cons_self with same | ⟨_, file⟩
              · rw [same, next]
              · rw [file]
                exact follow_file fits other onLink' rest _ file
          | some kind =>
              rw [next] at later
              have same (first : AgreeAt root other (place ++ [segment])) :
                  kindAt other (place ++ [segment]) = some kind := by
                rcases first with same | ⟨none, _⟩
                · exact same.trans next
                · cases none.symm.trans next
              cases kind with
              | link target =>
                  rw [same (later _ List.mem_cons_self)]
                  exact linked _ _ fun seen member => later seen (List.mem_cons_of_mem _ member)
              | file =>
                  rw [same (later _ (trail_head root onTrail rest _))]
                  exact ih _ later
              | dir =>
                  rw [same (later _ (trail_head root onTrail rest _))]
                  exact ih _ later
      · have outside : kindAt other place ≠ some .dir := fun inside' => inside (here.dir_iff.mp inside')
        rw [follow_outside fits root onLink segment rest place inside,
          follow_outside fits other onLink' segment rest place outside]

theorem within_agrees (links : Nat) (place : Place) (segments : List Text)
    (agree : ∀ seen ∈ trailWithin root links place segments, AgreeAt root other seen) :
    isDirFound (followWithin fits other true links place segments) =
      isDirFound (followWithin fits root true links place segments) := by
  induction links generalizing place segments with
  | zero => exact follow_agrees fits (fun _ _ => []) (fun _ _ _ => rfl) segments place agree
  | succ links ih => exact follow_agrees fits (trailWithin root links) ih segments place agree

end Following

theorem dir_agrees (tree other : FileTree) (path : Path) (begun : other.start path = tree.start path)
    (agree : ∀ seen ∈ tree.trail path, AgreeAt tree.root other.root seen) :
    other.isDir path = tree.isDir path := by
  have found (tree : FileTree) : tree.isDir path = isDirFound (tree.find true path) := by
    rw [isDir, node]
    cases tree.find true path with
    | error error => rfl
    | ok found => rfl
  rw [found, found, find, find, begun]
  split
  · rfl
  · split
    · rfl
    · split
      · rfl
      · exact within_agrees (fun _ => true) maxLinks (tree.start path) (Path.segments path) agree

theorem trail_straight (root : Node) (onLink : Place → List Text → List Place) (segments : List Text)
    (place : Place) (down : ['.', '.'] ∉ segments)
    (unlinked : ∀ seen, seen <+: place ++ walked segments → ∀ target, kindAt root seen ≠ some (.link target)) :
    ∀ seen ∈ trailWith root onLink segments place, seen <+: place ++ walked segments := by
  induction segments generalizing place with
  | nil =>
      intro seen member
      rw [List.mem_singleton.mp member]
      exact List.prefix_append place (walked [])
  | cons segment rest ih =>
      have below : ['.', '.'] ∉ rest := fun member => down (List.mem_cons_of_mem segment member)
      have level : segment ≠ ['.', '.'] := fun same => down (same ▸ List.mem_cons_self)
      intro seen member
      rw [trailWith, if_neg level] at member
      rcases List.mem_cons.mp member with rfl | later
      · exact List.prefix_append seen (walked (segment :: rest))
      by_cases inside : kindAt root place = some .dir
      · rw [if_pos inside] at later
        by_cases idle : segment = [] ∨ segment = ['.']
        · have same : walked (segment :: rest) = walked rest := by
            rw [walked, List.filter_cons_of_neg (by simp [isIdle, idle])]
            rfl
          rw [if_pos idle] at later
          rw [same] at unlinked ⊢
          exact ih place below unlinked seen later
        · have next : place ++ walked (segment :: rest) = place ++ [segment] ++ walked rest := by
            rw [walked, List.filter_cons_of_pos (by simp [isIdle, idle]), List.append_assoc]
            rfl
          rw [if_neg idle] at later
          rw [next] at unlinked ⊢
          cases there : kindAt root (place ++ [segment]) with
          | none =>
              rw [there] at later
              rw [List.mem_singleton.mp later]
              exact List.prefix_append (place ++ [segment]) (walked rest)
          | some kind =>
              rw [there] at later
              cases kind with
              | link target =>
                  exact absurd there (unlinked _ (List.prefix_append (place ++ [segment]) (walked rest)) target)
              | file => exact ih _ below unlinked seen later
              | dir => exact ih _ below unlinked seen later
      · rw [if_neg inside] at later
        cases later

theorem named_walked (path : Path) (absolute : Path.isAbsolute path = true)
    (named : Component.parent ∉ Path.components path) :
    ['.', '.'] ∉ Path.segments path ∧ walked (Path.segments path) = Path.names path := by
  constructor
  · intro member
    rw [Path.components, if_pos absolute] at named
    exact named (List.mem_cons_of_mem _ (List.mem_filterMap.mpr ⟨_, member, rfl⟩))
  · rw [Path.segments_walked, Path.named_steps path named, List.map_map]
    exact List.map_id _

def Unlinked (root : Node) (path : Path) : Prop :=
  ∀ seen, seen <+: Path.names path → (kindAt root seen).any Node.Kind.isLink = false

instance (root : Node) (path : Path) : Decidable (Unlinked root path) :=
  decidable_of_iff (∀ seen ∈ (Path.names path).inits, (kindAt root seen).any Node.Kind.isLink = false)
    (forall_congr' fun seen => imp_congr_left (List.mem_inits seen (Path.names path)))

theorem trail_named (tree : FileTree) (path : Path) (absolute : Path.isAbsolute path = true)
    (named : Component.parent ∉ Path.components path) (unlinked : Unlinked tree.root path) :
    ∀ seen ∈ tree.trail path, seen <+: Path.names path := by
  obtain ⟨down, walk⟩ := named_walked path absolute named
  have straight := trail_straight tree.root (trailWithin tree.root (maxLinks - 1)) (Path.segments path) [] down
  rw [List.nil_append, walk] at straight
  have begun : tree.start path = [] := if_pos absolute
  rw [trail, begun]
  refine straight fun seen inside target link => ?_
  have plain := unlinked seen inside
  rw [link] at plain
  cases plain

section Edits

theorem put_agrees (new root : Node) (place : Place) (above : kindAt root place.dropLast = some .dir) :
    AgreeOff place root (Node.put new root place) := by
  induction place generalizing root with
  | nil => exact fun seen apart => absurd List.nil_prefix apart
  | cons name rest ih =>
      intro seen apart
      obtain ⟨listed, rfl⟩ : ∃ listed, root = .dir listed := by
        cases root with
        | file content modified => cases rest <;> cases above
        | link target => cases rest <;> cases above
        | dir listed => exact ⟨listed, rfl⟩
      cases seen with
      | nil => rfl
      | cons other tail =>
          rw [Node.put, kindAt, kindAt, Node.at?, Node.at?, Node.entries, Forest.get_put]
          by_cases same : other = name
          · subst same
            rw [if_pos rfl]
            have apart' : ¬ rest <+: tail := fun below => apart (List.cons_prefix_cons.mpr ⟨rfl, below⟩)
            cases rest with
            | nil => exact absurd List.nil_prefix apart'
            | cons next rest =>
                rw [List.dropLast_cons_of_ne_nil (List.cons_ne_nil next rest), kindAt, Node.at?] at above
                cases got : listed.get? other with
                | none =>
                    rw [got] at above
                    cases above
                | some node =>
                    rw [got] at above
                    exact ih node above tail apart'
          · rw [if_neg same]

theorem erase_agrees (root : Node) (place : Place) : AgreeOff place root (root.erase place) := by
  induction place generalizing root with
  | nil => exact fun seen apart => absurd List.nil_prefix apart
  | cons name rest ih =>
      intro seen apart
      cases root with
      | file content modified => cases rest <;> rfl
      | link target => cases rest <;> rfl
      | dir listed =>
          cases seen with
          | nil =>
              cases rest with
              | nil => rfl
              | cons next rest =>
                  rw [Node.erase]
                  · cases listed.get? name <;> rfl
                  · exact List.cons_ne_nil next rest
          | cons other tail =>
              have differs (below : rest <+: tail) : other ≠ name := fun same =>
                apart (List.cons_prefix_cons.mpr ⟨same.symm, below⟩)
              cases rest with
              | nil =>
                  rw [Node.erase, kindAt, kindAt, Node.at?, Node.at?,
                    Forest.get_erase other name listed (differs List.nil_prefix)]
              | cons next rest =>
                  rw [Node.erase]
                  · cases got : listed.get? name with
                    | none => rfl
                    | some node =>
                        dsimp only
                        rw [kindAt, kindAt, Node.at?, Node.at?, Forest.get_put]
                        by_cases same : other = name
                        · rw [if_pos same, same, got]
                          exact ih node tail fun below => differs below same
                        · rw [if_neg same]
                  · exact List.cons_ne_nil next rest

theorem put_reads (new root : Node) (place : Place) : (Node.put new root place).at? place = some new := by
  induction place generalizing root with
  | nil => cases new <;> rfl
  | cons name rest ih =>
      rw [Node.put, Node.at?, Forest.get_put, if_pos rfl]
      exact ih _

theorem new_file_agrees (root : Node) (place : Place) (content : ByteArray) (modified : Instant)
    (above : kindAt root place.dropLast = some .dir)
    (free : kindAt root place = none ∨ kindAt root place = some .file) (seen : Place) :
    AgreeAt root (Node.put (.file content modified) root place) seen := by
  by_cases below : place <+: seen
  · obtain ⟨rest, rfl⟩ := below
    have written := put_reads (.file content modified) root place
    cases rest with
    | nil =>
        rw [List.append_nil]
        have file : kindAt (Node.put (.file content modified) root place) place = some .file := by
          rw [kindAt, written]
          rfl
        rcases free with none | same
        · exact .inr ⟨none, file⟩
        · exact .inl (file.trans same.symm)
    | cons name rest =>
        left
        rw [kindAt, kindAt, Node.at_append, Node.at_append, written]
        cases old : root.at? place with
        | none => rfl
        | some node =>
            cases node with
            | file content modified => rfl
            | link target => simp [kindAt, old, Node.kind] at free
            | dir listed => simp [kindAt, old, Node.kind] at free
  · exact .inl (put_agrees _ root place above seen below)

end Edits

end FileTree
end DevServer
