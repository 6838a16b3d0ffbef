import DevServer.Page
import DevServer.Proofs.Bytes
import DevServer.Proofs.Spellings

set_option autoImplicit false

namespace DevServer

namespace Forest

def names : Forest → List Text
  | nil => []
  | cons name _ rest => name :: names rest

theorem get_smaller (entries : Forest) (name : Text) (node : Node) (found : entries.get? name = some node) :
    sizeOf node < sizeOf entries := by
  match entries with
  | nil => cases found
  | cons other first rest =>
      rw [get?] at found
      by_cases same : name = other
      · rw [if_pos same] at found
        cases found
        simp only [cons.sizeOf_spec]
        omega
      · rw [if_neg same] at found
        have smaller := get_smaller rest name node found
        simp only [cons.sizeOf_spec]
        omega

theorem get_listed (entries : Forest) (name : Text) (node : Node) (found : entries.get? name = some node) :
    name ∈ entries.names := by
  match entries with
  | nil => cases found
  | cons other first rest =>
      rw [get?] at found
      by_cases same : name = other
      · rw [names, same]
        exact List.mem_cons_self
      · rw [if_neg same] at found
        exact List.mem_cons_of_mem _ (get_listed rest name node found)

end Forest

namespace FileTree

def Itself (go go' : Place → List Text → Found) : Prop :=
  ∀ place rest found, go place rest = .ok found →
    go' place rest = .ok found ∨ ∃ there target, go' place rest = .ok (there, .link target)

theorem follow_itself (fits : Place → Bool) (root : Node) (onLink onLink' : Place → List Text → Found)
    (linked : Itself onLink onLink') :
    Itself (fun place rest => followWith fits root true onLink rest place)
      (fun place rest => followWith fits root false onLink' rest place) := by
  intro place rest found followed
  dsimp only at followed ⊢
  induction rest generalizing place with
  | nil => exact .inl followed
  | cons segment rest ih =>
      rw [follow_turn] at followed ⊢
      cases turned : turn fits root segment place with
      | fails error =>
          rw [turned] at followed
          cases followed
      | goes there =>
          rw [turned] at followed
          exact ih there followed
      | link target =>
          -- Only here do the two lookups part.
          rw [turned] at followed
          simp only [Bool.true_eq_false, and_false, if_false] at followed
          dsimp only
          by_cases last : rest = []
          · rw [if_pos ⟨last, rfl⟩]
            exact .inr ⟨_, _, rfl⟩
          · rw [if_neg fun both => last both.1]
            exact linked _ _ _ followed

theorem within_itself (fits : Place → Bool) (root : Node) (links : Nat) :
    Itself (followWithin fits root true links) (followWithin fits root false links) := by
  induction links with
  | zero =>
      refine follow_itself fits root _ _ ?_
      intro place rest found followed
      cases followed
  | succ links ih => exact follow_itself fits root _ _ ih

theorem node_itself (tree : FileTree) (path : Path) (node : Node) (there : tree.node path = .ok node) :
    tree.nodeItself path = .ok node ∨ ∃ target, tree.nodeItself path = .ok (.link target) := by
  obtain ⟨place, found⟩ := (node_ok tree path node).mp there
  obtain ⟨nul, some', named, followed⟩ := (find_ok tree path _).mp found
  have long : isNameable path ≠ false := by simp [named]
  have same : tree.find false path = follow tree.root false maxLinks (tree.start path) (Path.segments path) := by
    rw [find, if_neg nul, if_neg some', if_neg long]
  rw [nodeItself, same]
  rcases within_itself _ tree.root maxLinks _ _ _ followed with own | ⟨there, target, own⟩
  · left
    change (followWithin _ _ _ _ _ _).map _ = _
    rw [own]
    rfl
  · refine .inr ⟨target, ?_⟩
    change (followWithin _ _ _ _ _ _).map _ = _
    rw [own]
    rfl

end FileTree

namespace Page

section Places

-- The order of a walk that goes into each directory by the bytes of the names.
def Earlier : List Text → List Text → Prop := List.Lex fun name other => Text.utf8 name < Text.utf8 other

def IsPageAt (name : Text) (node : Node) (place : List Text) : Prop :=
  packagesDir ∉ place ∧ (name :: place).getLast? = some indexFile ∧
    ∃ content modified, node.at? place = some (.file content modified)

def Lists (path : Path) (good : List Text → Prop) (paths : List Path) : Prop :=
  ∃ places : List (List Text), paths = places.map (Path.extend path) ∧ places.Pairwise Earlier ∧
    ∀ place, place ∈ places ↔ good place

theorem lists_same (path : Path) (good other : List Text → Prop) (paths : List Path)
    (same : ∀ place, good place ↔ other place) (lists : Lists path good paths) : Lists path other paths := by
  obtain ⟨places, named, ordered, listed⟩ := lists
  exact ⟨places, named, ordered, fun place => (listed place).trans (same place)⟩

theorem rows_listed (path : Path) (good : Text → List Text → Prop) (rows : List (Text × List Path))
    (ordered : rows.Pairwise fun a b => Text.utf8 a.1 < Text.utf8 b.1)
    (each : ∀ row ∈ rows, Lists (path.join row.1) (good row.1) row.2) :
    Lists path (fun place => ∃ row ∈ rows, ∃ rest, place = row.1 :: rest ∧ good row.1 rest) (rows.flatMap Prod.snd) := by
  induction rows with
  | nil => exact ⟨[], rfl, .nil, by simp⟩
  | cons row rows ih =>
      obtain ⟨below, later⟩ := List.pairwise_cons.mp ordered
      obtain ⟨first, named, within, listed⟩ := each row List.mem_cons_self
      obtain ⟨places, named', within', listed'⟩ := ih later fun other inside => each other (List.mem_cons_of_mem _ inside)
      refine ⟨first.map (row.1 :: ·) ++ places, ?_, List.pairwise_append.mpr ⟨?_, within', ?_⟩, fun place => ?_⟩
      · rw [List.flatMap_cons, named, named', List.map_append, List.map_map]
        rfl
      · exact List.pairwise_map.mpr (within.imp List.Lex.cons)
      · intro place inside other inside'
        obtain ⟨rest, _, rfl⟩ := List.mem_map.mp inside
        obtain ⟨row', member, rest', rfl, _⟩ := (listed' other).mp inside'
        exact .rel (below row' member)
      · rw [List.mem_append, listed', List.mem_map]
        constructor
        · rintro (⟨rest, inside, rfl⟩ | ⟨row', member, rest, rfl, holds⟩)
          · exact ⟨row, List.mem_cons_self, rest, rfl, (listed rest).mp inside⟩
          · exact ⟨row', List.mem_cons_of_mem _ member, rest, rfl, holds⟩
        · rintro ⟨row', member, rest, rfl, holds⟩
          rcases List.mem_cons.mp member with rfl | member
          · exact .inl ⟨rest, (listed rest).mpr holds, rfl⟩
          · exact .inr ⟨row', member, rest, rfl, holds⟩

end Places

section Pages

theorem pages_in_names (dir : Path) (entries : Forest) :
    ((pagesIn dir entries).map Prod.fst).Sublist entries.names := by
  match entries with
  | .nil => exact .slnil
  | .cons name node rest =>
      have later := pages_in_names dir rest
      rw [pagesIn, Forest.names]
      by_cases package : name = packagesDir
      · rw [if_pos package]
        exact later.cons name
      · rw [if_neg package]
        exact later.cons_cons name

theorem pages_in_iff (dir : Path) (entries : Forest) (distinct : entries.names.Nodup) (name : Text) (paths : List Path) :
    (name, paths) ∈ pagesIn dir entries ↔ name ≠ packagesDir ∧
      ∃ node, entries.get? name = some node ∧ paths = pagesAt (Path.join dir name) name node := by
  match entries with
  | .nil => simp [pagesIn, Forest.get?]
  | .cons other node rest =>
      obtain ⟨unlisted, distinct⟩ := List.nodup_cons.mp distinct
      have later := pages_in_iff dir rest distinct name paths
      rw [pagesIn, Forest.get?]
      by_cases own : name = other
      · subst own
        have gone (node : Node) : rest.get? name ≠ some node := fun found =>
          unlisted (Forest.get_listed rest name node found)
        have absent : (name, paths) ∉ pagesIn dir rest := by
          intro inside
          obtain ⟨_, node, found, _⟩ := later.mp inside
          exact gone node found
        by_cases package : name = packagesDir
        · rw [if_pos package]
          exact iff_of_false absent fun both => both.1 package
        · rw [if_neg package]
          simp [package, absent]
      · have apart : (name, paths) ≠ (other, pagesAt (Path.join dir other) other node) := fun same =>
          own (Prod.ext_iff.mp same).1
        rw [if_neg own, ← later]
        by_cases package : other = packagesDir
        · rw [if_pos package]
        · rw [if_neg package, List.mem_cons]
          simp [apart]

structure IsWalkable (path : Path) (node : Node) : Prop where
  distinct : ∀ place inner, node.at? place = some (.dir inner) → inner.names.Nodup
  readable : ∀ place inner, packagesDir ∉ place → node.at? place = some (.dir inner) →
    FileTree.isNameable (Path.extend path place) = true

theorem walkable_inside (path : Path) (entries : Forest) (name : Text) (node : Node)
    (walkable : IsWalkable path (.dir entries)) (found : entries.get? name = some node) (open' : name ≠ packagesDir) :
    IsWalkable (Path.join path name) node := by
  have inside (place : List Text) : (Node.dir entries).at? (name :: place) = node.at? place := by
    rw [Node.at?, found]
  refine ⟨fun place inner there => ?_, fun place inner free there => ?_⟩
  · exact walkable.distinct (name :: place) inner ((inside place).trans there)
  · exact walkable.readable (name :: place) inner (by simp [free, open'.symm]) ((inside place).trans there)

theorem walkable_dir (path : Path) (entries : Forest) (distinct : entries.names.Nodup)
    (readable : FileTree.isNameable path = true)
    (inside : ∀ name node, entries.get? name = some node → IsWalkable (Path.join path name) node) :
    IsWalkable path (.dir entries) := by
  refine ⟨fun place inner there => ?_, fun place inner free there => ?_⟩
  · cases place with
    | nil =>
        cases there
        exact distinct
    | cons name place =>
        rw [Node.at?] at there
        cases found : entries.get? name with
        | none =>
            rw [found] at there
            cases there
        | some node =>
            rw [found] at there
            exact (inside name node found).distinct place inner there
  · cases place with
    | nil => exact readable
    | cons name place =>
        rw [Node.at?] at there
        cases found : entries.get? name with
        | none =>
            rw [found] at there
            cases there
        | some node =>
            rw [found] at there
            exact (inside name node found).readable place inner (List.not_mem_of_not_mem_cons free) there

theorem page_inside (entries : Forest) (name other : Text) (place : List Text) :
    IsPageAt other (.dir entries) (name :: place) ↔
      name ≠ packagesDir ∧ ∃ node, entries.get? name = some node ∧ IsPageAt name node place := by
  rw [IsPageAt, Node.at?, List.getLast?_cons_cons, List.mem_cons, not_or]
  cases found : entries.get? name with
  | none => simp
  | some node =>
      constructor
      · rintro ⟨⟨apart, free⟩, last, file⟩
        exact ⟨Ne.symm apart, node, rfl, free, last, file⟩
      · rintro ⟨apart, _, ⟨⟩, free, last, file⟩
        exact ⟨⟨Ne.symm apart, free⟩, last, file⟩

theorem page_places (name : Text) (entries : Forest) (rows : List (Text × List Path))
    (every : ∀ entry node, entry ≠ packagesDir → entries.get? entry = some node → ∃ paths, (entry, paths) ∈ rows)
    (place : List Text) :
    (∃ row ∈ rows, ∃ rest, place = row.1 :: rest ∧ IsPageAt name (.dir entries) (row.1 :: rest)) ↔
      IsPageAt name (.dir entries) place := by
  constructor
  · rintro ⟨row, _, rest, rfl, page⟩
    exact page
  · intro page
    cases place with
    | nil =>
        obtain ⟨_, _, content, modified, file⟩ := page
        cases file
    | cons entry rest =>
        obtain ⟨apart, node, found, _⟩ := (page_inside entries entry name rest).mp page
        obtain ⟨paths, listed⟩ := every entry node apart found
        exact ⟨(entry, paths), listed, rest, rfl, page⟩

-- A walk lists the pages that there are, each once and in the order of their places. The
-- induction is on the size: an entry is smaller than its directory.
theorem pages_listed (path : Path) (name : Text) (node : Node) (walkable : IsWalkable path node) :
    Lists path (IsPageAt name node) (pagesAt path name node) := by
  match node with
  | .file content modified =>
      have page (place : List Text) : IsPageAt name (.file content modified) place ↔ place = [] ∧ name = indexFile := by
        cases place with
        | nil => simp [IsPageAt, Node.at?]
        | cons entry rest => simp [IsPageAt, Node.at?]
      rw [pagesAt]
      by_cases own : name = indexFile
      · rw [if_pos own]
        refine ⟨[[]], rfl, List.pairwise_singleton _ _, fun place => ?_⟩
        rw [page, List.mem_singleton]
        exact (and_iff_left own).symm
      · rw [if_neg own]
        refine ⟨[], rfl, .nil, fun place => ?_⟩
        rw [page]
        exact iff_of_false List.not_mem_nil fun both => own both.2
  | .link target =>
      refine ⟨[], by rw [pagesAt]; rfl, .nil, fun place => ?_⟩
      cases place <;> simp [IsPageAt, Node.at?]
  | .dir entries =>
      have distinct := walkable.distinct [] entries rfl
      have readable : FileTree.isNameable path = true := walkable.readable [] entries List.not_mem_nil rfl
      have perm := List.mergeSort_perm (pagesIn path entries) fun a b => a.1.isBefore b.1
      have apart : (pagesIn path entries).Pairwise fun a b => a.1 ≠ b.1 :=
        List.pairwise_map.mp ((pages_in_names path entries).nodup distinct)
      have ordered := Text.sorted_names (pagesIn path entries) apart
      have rows (entry : Text) (paths : List Path) := pages_in_iff path entries distinct entry paths
      rw [pagesAt, if_pos readable]
      refine lists_same path _ _ _ (page_places name entries _ ?_)
        (rows_listed path (fun entry rest => IsPageAt name (.dir entries) (entry :: rest)) _ ordered ?_)
      · intro entry node open' found
        exact ⟨_, perm.mem_iff.mpr ((rows entry _).mpr ⟨open', node, found, rfl⟩)⟩
      · rintro ⟨entry, paths⟩ member
        obtain ⟨open', inner, found, rfl⟩ := (rows entry paths).mp (perm.mem_iff.mp member)
        have smaller : sizeOf inner < sizeOf (Node.dir entries) := by
          have within := Forest.get_smaller entries entry inner found
          simp only [Node.dir.sizeOf_spec]
          omega
        refine lists_same _ _ _ _ (fun place => ?_)
          (pages_listed (Path.join path entry) entry inner (walkable_inside path entries entry inner walkable found open'))
        rw [page_inside]
        simp [open', found]
  termination_by sizeOf node

end Pages

def IsPage (entries : Forest) (place : List Text) : Prop :=
  ("node_modules" : Text) ∉ place ∧ place.getLast? = some "index.html" ∧
    ∃ content modified, (Node.dir entries).at? place = some (.file content modified)

def IsFirstPage (entries : Forest) (place : List Text) : Prop :=
  IsPage entries place ∧ ∀ other, IsPage entries other → other = place ∨ Earlier place other

def IsCandidate (tree : FileTree) (root path : Path) : Prop :=
  ∃ before candidate after, candidates = before ++ candidate :: after ∧ path = root.join candidate ∧
    tree.isFile path = true ∧ ∀ other ∈ before, tree.isFile (root.join other) = false

def NoCandidate (tree : FileTree) (root : Path) : Prop :=
  ∀ candidate ∈ candidates, tree.isFile (root.join candidate) = false

section Finding

variable {tree : FileTree} {root : Path} {entries : Forest}

theorem candidate_iff (path : Path) :
    (candidates.map (Path.join root)).find? tree.isFile = some path ↔ IsCandidate tree root path := by
  rw [List.find?_map, Option.map_eq_some_iff]
  simp only [List.find?_eq_some_iff_append, Function.comp_apply, Bool.not_eq_true']
  constructor
  · rintro ⟨candidate, ⟨file, before, after, whole, free⟩, rfl⟩
    exact ⟨before, candidate, after, whole, rfl, file, free⟩
  · rintro ⟨before, candidate, after, whole, rfl, file, free⟩
    exact ⟨candidate, ⟨file, before, after, whole, free⟩, rfl⟩

theorem no_candidate_iff : (candidates.map (Path.join root)).find? tree.isFile = none ↔ NoCandidate tree root := by
  simp [NoCandidate]

theorem page_at_root (name : Text) (place : List Text) :
    IsPageAt name (.dir entries) place ↔ IsPage entries place := by
  cases place with
  | nil => simp [IsPageAt, IsPage, Node.at?]
  | cons entry rest => rw [IsPageAt, List.getLast?_cons_cons]; rfl

variable (there : tree.node root = .ok (.dir entries)) (walkable : IsWalkable root (.dir entries))
include there

theorem walk_start : walkStart? tree root = some (.dir entries) := by
  rw [walkStart?]
  rcases FileTree.node_itself tree root _ there with own | ⟨target, own⟩
  · rw [own]
  · rw [own]
    simp only [there]

include walkable

theorem walk_lists : Lists root (IsPage entries) (walk tree root) := by
  rw [walk, walk_start there]
  exact lists_same root _ _ _ (page_at_root _) (pages_listed root _ _ walkable)

theorem walk_first : (∃ place, IsFirstPage entries place ∧ (walk tree root).head? = some (root.extend place)) ∨
    (∀ place, ¬ IsPage entries place) ∧ (walk tree root).head? = none := by
  obtain ⟨places, named, ordered, listed⟩ := walk_lists there walkable
  rw [named]
  cases places with
  | nil => exact .inr ⟨fun place page => List.not_mem_nil ((listed place).mpr page), rfl⟩
  | cons place places =>
      refine .inl ⟨place, ⟨(listed place).mp List.mem_cons_self, fun other page => ?_⟩, rfl⟩
      exact (List.mem_cons.mp ((listed other).mpr page)).imp id ((List.pairwise_cons.mp ordered).1 other)

end Finding

theorem entry_page_found (tree : FileTree) (root : Path) (entries : Forest)
    (there : tree.node root = .ok (.dir entries)) (walkable : IsWalkable root (.dir entries)) :
    ((∃ path, IsCandidate tree root path ∧ find? tree root = some path) ∨
      (NoCandidate tree root ∧ ∃ place, IsFirstPage entries place ∧ find? tree root = some (root.extend place)) ∨
        NoCandidate tree root ∧ (∀ place, ¬ IsPage entries place) ∧ find? tree root = none) ∧
      (find? tree root = none ↔ NoCandidate tree root ∧ ∀ place, ¬ IsPage entries place) := by
  have walked := walk_first there walkable
  rw [find?]
  cases usual : (candidates.map (Path.join root)).find? tree.isFile with
  | some path =>
      have candidate := (candidate_iff path).mp usual
      refine ⟨.inl ⟨path, candidate, rfl⟩, iff_of_false nofun fun neither => ?_⟩
      have none' := no_candidate_iff.mpr neither.1
      rw [usual] at none'
      cases none'
  | none =>
      have free := no_candidate_iff.mp usual
      rw [Option.orElse_none]
      rcases walked with ⟨place, first, found⟩ | ⟨missing, found⟩
      · rw [found]
        exact ⟨.inr (.inl ⟨free, place, first, rfl⟩), iff_of_false nofun fun neither => neither.2 place first.1⟩
      · rw [found]
        exact ⟨.inr (.inr ⟨free, missing, rfl⟩), iff_of_true rfl ⟨free, missing⟩⟩

def onePage : Forest := .cons "index.html" (.file .empty 0) .nil

def pagedEntries : Forest := .cons "node_modules" (.dir onePage) (.cons "b" (.dir onePage) (.cons "a" (.dir onePage) .nil))

def pagedProject : FileTree := ⟨.dir (.cons "p" (.dir pagedEntries) .nil), ["p"], fun _ => ⟨0, 0⟩⟩

theorem paged_entry (name : Text) (node : Node) (found : pagedEntries.get? name = some node) :
    node = .dir onePage ∧ (name = "node_modules" ∨ name = "b" ∨ name = "a") := by
  simp only [pagedEntries, Forest.get?] at found
  split at found
  · exact ⟨(Option.some.inj found).symm, .inl ‹_›⟩
  · split at found
    · exact ⟨(Option.some.inj found).symm, .inr (.inl ‹_›)⟩
    · split at found
      · exact ⟨(Option.some.inj found).symm, .inr (.inr ‹_›)⟩
      · cases found

theorem one_page_entry (name : Text) (node : Node) (found : onePage.get? name = some node) :
    node = .file .empty 0 ∧ name = "index.html" := by
  simp only [onePage, Forest.get?] at found
  split at found
  · exact ⟨(Option.some.inj found).symm, by assumption⟩
  · cases found

theorem one_walkable (path : Path) (named : FileTree.isNameable path = true) : IsWalkable path (.dir onePage) := by
  refine walkable_dir path onePage (by decide) named fun name node found => ?_
  obtain ⟨rfl, _⟩ := one_page_entry name node found
  refine ⟨fun place inner there => ?_, fun place inner _ there => ?_⟩ <;> cases place <;> cases there

theorem one_page (name : Text) (place : List Text) (page : IsPageAt name (.dir onePage) place) : place = ["index.html"] := by
  cases place with
  | nil => simp [IsPageAt, Node.at?] at page
  | cons entry rest =>
      obtain ⟨_, node, found, page⟩ := (page_inside onePage entry name rest).mp page
      obtain ⟨rfl, rfl⟩ := one_page_entry entry node found
      cases rest with
      | nil => rfl
      | cons other rest => simp [IsPageAt, Node.at?] at page

theorem packaged_page_passed :
    pagedProject.node "/p" = .ok (.dir pagedEntries) ∧ IsWalkable "/p" (.dir pagedEntries) ∧
      IsFirstPage pagedEntries ["a", "index.html"] ∧ find? pagedProject "/p" = some ("/p/a/index.html" : Text) := by
  have there : pagedProject.node "/p" = .ok (.dir pagedEntries) := rfl
  have walkable : IsWalkable "/p" (.dir pagedEntries) := by
    refine walkable_dir _ _ (by decide) (by decide) fun name node found => ?_
    obtain ⟨rfl, listed⟩ := paged_entry name node found
    refine one_walkable _ ?_
    rcases listed with rfl | rfl | rfl <;> decide
  have early : IsPage pagedEntries ["a", "index.html"] := ⟨by decide, by decide, .empty, 0, rfl⟩
  have free : NoCandidate pagedProject "/p" := by
    unfold NoCandidate
    decide +kernel
  obtain ⟨⟨path, ⟨before, candidate, after, whole, rfl, file, _⟩, _⟩ | ⟨_, place, first, found⟩ | ⟨_, missing, _⟩, _⟩ :=
    entry_page_found pagedProject "/p" pagedEntries there walkable
  · have usual : candidate ∈ candidates := by simp [whole]
    rw [free candidate usual] at file
    cases file
  · have later : place ≠ ["b", "index.html"] := by
      rintro rfl
      rcases first.2 ["a", "index.html"] early with same | before
      · cases same
      · cases before with
        | rel less => exact absurd less (by decide)
    have page := (page_at_root "p" place).mpr first.1
    cases place with
    | nil => cases first.1.2.1
    | cons entry rest =>
        obtain ⟨open', node, inside, page⟩ := (page_inside pagedEntries entry "p" rest).mp page
        obtain ⟨rfl, named⟩ := paged_entry entry node inside
        obtain rfl := one_page entry rest page
        rcases named with rfl | rfl | rfl
        · exact absurd rfl open'
        · exact absurd rfl later
        · exact ⟨there, walkable, first, found⟩
  · exact absurd early (missing _)

end Page
end DevServer
