import Mathlib.Data.List.Basic
import DevServer.Proofs.Directories
import DevServer.Proofs.Folding

set_option autoImplicit false

namespace DevServer

open Text

namespace FileTree

def isIdle (segment : Text) : Bool := segment = [] ∨ segment = ['.']

def walked (segments : List Text) : List Text := segments.filter fun segment => !isIdle segment

theorem idle_stays (segment : Text) (idle : isIdle segment = true) : isStay segment = true := by
  simp only [isIdle, decide_eq_true_eq] at idle
  rcases idle with empty | dot
  · simp [isStay, empty]
  · simp [isStay, dot]

theorem idle_ends (segments : List Text) (some' : segments ≠ [])
    (idle : ∀ segment ∈ segments, isIdle segment = true) : endsInDirectory segments = true := by
  rw [endsInDirectory, List.getLast?_eq_some_getLast some']
  exact idle_stays _ (idle _ (List.getLast_mem some'))

theorem walked_nil (segments : List Text) (none : walked segments = []) :
    ∀ segment ∈ segments, isIdle segment = true := by
  intro segment member
  simpa using List.filter_eq_nil_iff.mp none segment member

theorem walked_cons (segments rest : List Text) (segment : Text)
    (some' : walked segments = segment :: rest) : ∃ idles others,
      segments = idles ++ segment :: others ∧ (∀ idle ∈ idles, isIdle idle = true) ∧
      walked others = rest := by
  obtain ⟨idles, others, whole, idle, _, later⟩ := List.filter_eq_cons_iff.mp some'
  exact ⟨idles, others, whole, fun segment member => by simpa using idle segment member, later⟩

section Following

variable {fits : Place → Bool} {root : Node} {onLink : Place → List Text → Found}

theorem follow_here (segment : Text) (rest : List Text) (place : Place) (found : Place × Node)
    (followed : followWith fits root true onLink (segment :: rest) place = .ok found) :
    ∃ entries, root.at? place = some (.dir entries) := by
  apply turn_inside fits root segment place
  intro error fails
  rw [follow_turn, fails] at followed
  cases followed

theorem follow_idles (fits : Place → Bool) (onLink : Place → List Text → Found)
    (idles rest : List Text) (place : Place) (entries : Forest)
    (idle : ∀ segment ∈ idles, isIdle segment = true) (here : root.at? place = some (.dir entries)) :
    followWith fits root true onLink (idles ++ rest) place =
      followWith fits root true onLink rest place := by
  induction idles with
  | nil => rfl
  | cons segment idles ih =>
      have stays : segment = [] ∨ segment = ['.'] := by
        simpa [isIdle] using idle segment List.mem_cons_self
      rw [List.cons_append, followWith, here]
      simp only [if_pos stays]
      exact ih fun segment member => idle segment (List.mem_cons_of_mem _ member)

-- What a link leads on to is spelled in two ways as well.
def Respells (go : Place → List Text → Found) : Prop :=
  ∀ (place : Place) (a b : List Text) (found : Place × Node), walked a = walked b →
    (endsInDirectory b = true → found.2.isDir = true) → go place a = .ok found →
      go place b = .ok found

theorem link_ends (target a b : List Text) (place : Place) (found : Place × Node)
    (directory : ∀ place rest, endsInDirectory rest = true → Directory (onLink place rest))
    (same : walked a = walked b) (ends : endsInDirectory b = true → found.2.isDir = true)
    (followed : onLink place (target ++ a) = .ok found) :
    endsInDirectory (target ++ b) = true → found.2.isDir = true := by
  intro ended
  by_cases more : b = []
  · subst more
    refine directory place (target ++ a) ?_ found.1 found.2 followed
    by_cases idle : a = []
    · rwa [idle]
    · rw [ends_append target a idle]
      exact idle_ends a idle (walked_nil a same)
  · rw [ends_append target b more] at ended
    exact ends ended

theorem follow_respells
    (directory : ∀ place rest, endsInDirectory rest = true → Directory (onLink place rest))
    (linked : Respells onLink) :
    Respells fun place segments => followWith fits root true onLink segments place := by
  intro place a b found same ends followed
  induction a generalizing place b with
  | nil =>
      by_cases more : b = []
      · rwa [more]
      · have idle := walked_nil b same.symm
        have isDir := ends (idle_ends b more idle)
        dsimp only at followed ⊢
        rw [followWith] at followed
        cases here : root.at? place with
        | none =>
            rw [here] at followed
            cases followed
        | some node =>
            rw [here] at followed
            cases followed
            cases node with
            | file content modified => cases isDir
            | link target => cases isDir
            | dir entries =>
                have skipped := follow_idles fits onLink b [] place entries idle here
                rw [List.append_nil] at skipped
                rw [skipped, followWith, here]
  | cons segment a ih =>
      obtain ⟨entries, here⟩ := follow_here segment a place found followed
      dsimp only at followed ih ⊢
      by_cases idle : isIdle segment = true
      · have skipped := follow_idles fits onLink [segment] a place entries
          (fun other member => by rwa [List.mem_singleton.mp member]) here
        refine ih place b ?_ ends (skipped.symm.trans followed)
        rw [← same, walked, walked, List.filter_cons, if_neg (by simp [idle])]
      · have first : walked (segment :: a) = segment :: walked a := by
          rw [walked, List.filter_cons, if_pos (by simp [idle])]
          rfl
        obtain ⟨idles, b, rfl, skip, later⟩ := walked_cons b (walked a) segment (same ▸ first)
        have skipped := follow_idles fits onLink idles (segment :: b) place
          entries skip here
        have next : endsInDirectory b = true → found.2.isDir = true := by
          intro ended
          have more : b ≠ [] := by
            rintro rfl
            cases ended
          refine ends ?_
          rwa [ends_append _ _ (List.cons_ne_nil _ _), ends_cons segment b more]
        rw [skipped]
        rw [follow_turn] at followed ⊢
        cases turned : turn fits root segment place with
        | fails error =>
            rw [turned] at followed
            cases followed
        | goes there =>
            rw [turned] at followed
            exact ih there b later.symm next followed
        | link target =>
            rw [turned] at followed
            simp only [Bool.true_eq_false, and_false, if_false] at followed ⊢
            refine linked _ _ _ found ?_ ?_ followed
            · rw [walked, walked, List.filter_append, List.filter_append]
              exact congrArg _ later.symm
            · exact link_ends _ a b _ found directory later.symm next followed

theorem within_respells (links : Nat) :
    Respells fun place segments => followWithin fits root true links place segments := by
  induction links with
  | zero =>
      refine follow_respells ?_ ?_
      · intro _ _ _ _ _ followed
        cases followed
      · intro _ _ _ _ _ _ followed
        cases followed
  | succ links ih => exact follow_respells (within_directory fits root true links) ih

end Following

end FileTree

namespace Path

def segmentOf : Component → Text
  | .root => []
  | .here => ['.']
  | .parent => ['.', '.']
  | .name text => text

theorem segment_cases (segment : Text) :
    FileTree.isIdle segment = true ∧ Component.ofSegment? segment = none ∨
      FileTree.isIdle segment = false ∧ ∃ part, Component.ofSegment? segment = some part ∧
        part ≠ .root ∧ part ≠ .here ∧ segmentOf part = segment := by
  by_cases idle : segment = [] ∨ segment = ['.']
  · exact .inl ⟨by simp [FileTree.isIdle, idle], by rw [Component.ofSegment?, if_pos idle]⟩
  · refine .inr ⟨by simp [FileTree.isIdle, idle], ?_⟩
    rw [Component.ofSegment?, if_neg idle]
    by_cases double : segment = ['.', '.']
    · exact ⟨.parent, if_pos double, by decide, by decide, double.symm⟩
    · exact ⟨.name segment, if_neg double, Component.noConfusion, Component.noConfusion, rfl⟩

theorem parts_walked (parts : List Text) :
    (parts.filterMap Component.ofSegment?).map segmentOf = FileTree.walked parts := by
  induction parts with
  | nil => rfl
  | cons segment rest ih =>
      rcases segment_cases segment with ⟨idle, none⟩ | ⟨moves, part, some', _, _, written⟩
      · rw [List.filterMap_cons, none, FileTree.walked, List.filter_cons, if_neg (by simp [idle])]
        exact ih
      · rw [List.filterMap_cons, some', FileTree.walked, List.filter_cons, if_pos (by simp [moves])]
        rw [List.map_cons, written, ih]
        rfl

theorem segments_walked (path : Path) : FileTree.walked (segments path) = (steps path).map segmentOf := by
  rw [steps, parts_walked]
  cases path with
  | nil => rfl
  | cons c rest =>
      by_cases slash : c = '/'
      · subst slash
        rfl
      · rw [segments]
        rintro rest' same
        exact absurd (List.cons.inj same).1 slash

def isMove : Component → Bool
  | .parent => true
  | .name _ => true
  | _ => false

theorem steps_move (text : Text) : ∀ part ∈ steps text, isMove part = true := by
  intro part member
  obtain ⟨segment, _, same⟩ := List.mem_filterMap.mp member
  rcases segment_cases segment with ⟨_, none⟩ | ⟨_, other, some', root, here, _⟩
  · cases none.symm.trans same
  · cases some'.symm.trans same
    cases part with
    | root => exact absurd rfl root
    | here => exact absurd rfl here
    | parent => rfl
    | name text => rfl

theorem names_move (names : List Text) :
    (names.map Component.name).filter isMove = names.map .name := by
  refine List.filter_eq_self.mpr fun part member => ?_
  obtain ⟨name, _, same⟩ := List.mem_map.mp member
  rw [← same]
  rfl

theorem lead_rests (path : Path) : ∀ part ∈ lead path, isMove part = false := by
  intro part member
  rw [lead] at member
  split at member
  · rw [List.mem_singleton.mp member]
    rfl
  · split at member
    · rw [List.mem_singleton.mp member]
      rfl
    · cases member

theorem components_moves (path : Path) : (components path).filter isMove = steps path := by
  have none : (lead path).filter isMove = [] :=
    List.filter_eq_nil_iff.mpr fun part member => by simp [lead_rests path part member]
  rw [components_lead, List.filter_append, none, List.filter_eq_self.mpr (steps_move path),
    List.nil_append]

theorem named_steps (path : Path) (named : Component.parent ∉ components path) :
    steps path = (names path).map .name := by
  have led : (lead path).filterMap Component.name? = [] := by
    refine List.filterMap_eq_nil_iff.mpr fun part member => ?_
    have rests := lead_rests path part member
    cases part with
    | name text => cases rests
    | _ => rfl
  have each (part : Component) (member : part ∈ steps path) : part.name?.map .name = some part := by
    have moves := steps_move path part member
    cases part with
    | name text => rfl
    | parent =>
        rw [components_lead] at named
        exact absurd (List.mem_append_right _ member) named
    | root => cases moves
    | here => cases moves
  rw [names, components_lead, List.filterMap_append, led, List.nil_append, List.map_filterMap,
    List.filterMap_congr each, List.filterMap_some]

theorem absolute_iff (path : Path) : isAbsolute path = true ↔ Component.root ∈ components path := by
  rw [components_lead, List.mem_append, lead]
  constructor
  · intro absolute
    rw [if_pos absolute]
    exact .inl List.mem_cons_self
  · rintro (led | step)
    · by_cases absolute : isAbsolute path = true
      · exact absolute
      · rw [if_neg absolute] at led
        split at led
        · cases List.mem_singleton.mp led
        · cases led
    · cases steps_move path _ step

theorem components_nil (path : Path) (none : components path = []) : path = [] := by
  cases path with
  | nil => rfl
  | cons c rest =>
      rw [components_lead, List.append_eq_nil_iff] at none
      obtain ⟨unled, still⟩ := none
      rw [lead, absolute_cons] at unled
      by_cases slash : c = '/'
      · simp [slash] at unled
      · simp only [slash, decide_false, Bool.false_eq_true, if_false, ite_eq_right_iff] at unled
        have idle : FileTree.walked (split '/' (c :: rest)) = [] := by
          rw [← parts_walked, ← steps, still, List.map_nil]
        cases parts : split '/' rest with
        | nil => exact absurd parts (split_ne_nil '/' rest)
        | cons part others =>
            have whole : split '/' (c :: rest) = (c :: part) :: others := by
              rw [split, if_neg slash, parts]
            rw [whole] at idle unled
            have first := FileTree.walked_nil _ idle _ List.mem_cons_self
            simp only [FileTree.isIdle, decide_eq_true_eq, reduceCtorEq, false_or] at first
            exact absurd (unled (congrArg some first)) (List.cons_ne_nil _ _)

theorem mem_parts (sep c : Char) (text : Text) (other : c ≠ sep) :
    c ∈ text ↔ ∃ part ∈ split sep text, c ∈ part := by
  induction text with
  | nil => simp [split]
  | cons d text ih =>
      rw [List.mem_cons, ih, split]
      by_cases same : d = sep
      · have differs : c ≠ d := same ▸ other
        simp [same ▸ differs, same]
      · rw [if_neg same]
        cases parts : split sep text with
        | nil => exact absurd parts (split_ne_nil sep text)
        | cons part rest => simp [or_assoc]

theorem mem_named (path : Path) (c : Char) (slash : c ≠ '/') (dot : c ≠ '.') :
    c ∈ path ↔ ∃ name, Component.name name ∈ components path ∧ c ∈ name := by
  have step (part : Component) (moves : isMove part = true) :
      part ∈ components path ↔ part ∈ steps path := by
    rw [← components_moves, List.mem_filter, and_iff_left moves]
  rw [mem_parts '/' c path slash]
  constructor
  · rintro ⟨segment, inside, held⟩
    rcases segment_cases segment with ⟨idle, _⟩ | ⟨_, part, some', _, _, written⟩
    · simp only [FileTree.isIdle, decide_eq_true_eq] at idle
      rcases idle with rfl | rfl
      · cases held
      · exact absurd (List.mem_singleton.mp held) dot
    · have here : part ∈ steps path := List.mem_filterMap.mpr ⟨segment, inside, some'⟩
      rw [← written] at held
      cases part with
      | root => cases held
      | here => exact absurd (List.mem_singleton.mp held) dot
      | parent => simp [segmentOf, dot] at held
      | name text => exact ⟨text, (step _ rfl).mpr here, held⟩
  · rintro ⟨name, named, held⟩
    obtain ⟨segment, inside, same⟩ := List.mem_filterMap.mp ((step _ rfl).mp named)
    rcases segment_cases segment with ⟨_, none⟩ | ⟨_, part, some', _, _, written⟩
    · cases none.symm.trans same
    · cases some'.symm.trans same
      exact ⟨segment, inside, written ▸ held⟩

end Path

namespace FileTree

theorem named_file (tree : FileTree) (path : Path) (file : tree.isFile path = true) :
    isNameable path = true := by
  obtain ⟨node, found, _⟩ := file_node tree path file
  exact (node_found tree path node found).2.2.1

variable {tree : FileTree} {p q : Path}

structure Respelled (p q : Path) : Prop where
  absolute : Path.isAbsolute p = Path.isAbsolute q
  walked : walked (Path.segments p) = walked (Path.segments q)

theorem Respelled.symm (same : Respelled p q) : Respelled q p := ⟨same.absolute.symm, same.walked.symm⟩

theorem respelled_of_same (same : Path.components p = Path.components q) : Respelled p q := by
  constructor
  · rw [Bool.eq_iff_iff, Path.absolute_iff, Path.absolute_iff, same]
  · rw [Path.segments_walked, Path.segments_walked, ← Path.components_moves, same, Path.components_moves]

theorem node_respelled (node : Node) (same : Respelled p q) (found : tree.node p = .ok node)
    (plain : '\x00' ∉ q) (named : q ≠ []) (short : isNameable q = true)
    (ends : endsInDirectory (Path.segments q) = true → node.isDir = true) : tree.node q = .ok node := by
  obtain ⟨place, looked⟩ := (node_ok tree p node).mp found
  obtain ⟨_, _, _, followed⟩ := (find_ok tree p _).mp looked
  have start : tree.start p = tree.start q := by rw [FileTree.start, FileTree.start, same.absolute]
  rw [start] at followed
  have again := within_respells maxLinks (tree.start q) _ _ _ same.walked ends followed
  exact (node_ok tree q node).mpr ⟨place, (find_ok tree q _).mpr ⟨plain, named, short, again⟩⟩

theorem node_unique (a b : Node) (same : Respelled p q) (one : tree.node p = .ok a)
    (two : tree.node q = .ok b) : a = b := by
  obtain ⟨plain, named, short, ends⟩ := node_found tree p a one
  obtain ⟨plain', named', short', ends'⟩ := node_found tree q b two
  by_cases stays : endsInDirectory (Path.segments p) = true
  · have there := node_respelled a same one plain' named' short' fun _ => ends stays
    exact Except.ok.inj (there.symm.trans two)
  · have back := node_respelled b same.symm two plain named short fun other => absurd other stays
    exact Except.ok.inj (one.symm.trans back)

theorem file_respelled (same : Path.components p = Path.components q) (file : tree.isFile p = true)
    (short : isNameable q = true) (ends : endsInDirectory (Path.segments q) = false) :
    tree.isFile q = true ∧ tree.readText q = tree.readText p := by
  obtain ⟨node, found, isFile⟩ := file_node tree p file
  obtain ⟨plain, named, _, _⟩ := node_found tree p node found
  have unnul : '\x00' ∉ q := by
    rw [Path.mem_named q _ (by decide) (by decide), ← same,
      ← Path.mem_named p _ (by decide) (by decide)]
    exact plain
  have named' : q ≠ [] := by
    rintro rfl
    exact named (Path.components_nil p same)
  have there := node_respelled node (respelled_of_same same) found unnul named' short
    fun ended => absurd ended (by rw [ends]; decide)
  rw [FileTree.isFile, readText, readText, read, read, there, found]
  exact ⟨isFile, rfl⟩

end FileTree
end DevServer
