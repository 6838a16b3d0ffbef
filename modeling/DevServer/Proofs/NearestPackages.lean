import DevServer.FileTree.Edit
import DevServer.Package.Resolve
import DevServer.Proofs.Lookups
import DevServer.Proofs.ObjectLines
import DevServer.Proofs.Parents

set_option autoImplicit false

namespace DevServer

open Text

namespace Path

def upward : Nat → Path → Path
  | 0, path => path
  | up + 1, path => upward up ((parent? path).getD path)

def depth (path : Path) : Nat := (steps path).length

theorem parent_steps (path dir : Path) (absolute : isAbsolute path = true) (above : parent? path = some dir) :
    isAbsolute dir = true ∧ steps dir = (steps path).dropLast ∧ depth path = depth dir + 1 := by
  obtain ⟨kind, parts⟩ := parent_components path dir above
  have absolute' : isAbsolute dir = true := kind.trans absolute
  rw [components_absolute path absolute, components_absolute dir absolute'] at parts
  have below : steps path ≠ [] := by
    intro top
    rw [(parent_none_iff path).mpr (.inr (by rw [components_absolute path absolute, top]))] at above
    cases above
  rw [List.dropLast_cons_of_ne_nil below] at parts
  have same := (List.cons.inj parts).2
  have length := List.length_pos_iff.mpr below
  refine ⟨absolute', same, ?_⟩
  rw [depth, depth, same, List.length_dropLast]
  omega

theorem top_iff (path : Path) (absolute : isAbsolute path = true) : parent? path = none ↔ depth path = 0 := by
  rw [parent_none_iff, components_absolute path absolute, depth, List.length_eq_zero_iff]
  simp

theorem upward_steps (path : Path) (up : Nat) (absolute : isAbsolute path = true) (within : up ≤ depth path) :
    isAbsolute (upward up path) = true ∧ steps (upward up path) = (steps path).take (depth path - up) := by
  induction up generalizing path with
  | zero => exact ⟨absolute, (List.take_of_length_le (Nat.le_refl _)).symm⟩
  | succ up ih =>
      cases above : parent? path with
      | none =>
          have top := (top_iff path absolute).mp above
          omega
      | some dir =>
          obtain ⟨absolute', parts, deeper⟩ := parent_steps path dir absolute above
          obtain ⟨kind, same⟩ := ih dir absolute' (by omega)
          rw [upward, above, Option.getD_some]
          refine ⟨kind, ?_⟩
          have length : (steps path).length = depth path := rfl
          rw [same, parts, List.dropLast_eq_take, List.take_take, length]
          congr 1
          omega

theorem names_along (path : Path) (names' : List Text) (absolute : isAbsolute path = true)
    (along : steps path = names'.map .name) : Component.parent ∉ components path ∧ names path = names' := by
  have parts := components_absolute path absolute
  rw [along] at parts
  constructor
  · rw [parts]
    simp
  · rw [names, parts, List.filterMap_cons, List.filterMap_map]
    exact List.filterMap_some

theorem upward_names (path : Path) (up : Nat) (absolute : isAbsolute path = true) (within : up ≤ depth path)
    (named : Component.parent ∉ components path) :
    names (upward up path) = (names path).take (depth path - up) := by
  obtain ⟨kind, same⟩ := upward_steps path up absolute within
  rw [named_steps path named, ← List.map_take] at same
  exact (names_along _ _ kind same).2

theorem depth_within (path : Path) (absolute : isAbsolute path = true) : depth path ≤ path.length := by
  cases path with
  | nil => cases absolute
  | cons c rest =>
      rw [absolute_cons, decide_eq_true_eq] at absolute
      subst absolute
      have skipped : steps ('/' :: rest) = steps rest := rfl
      have each := List.length_filterMap_le Component.ofSegment? (split '/' rest)
      have slashes : rest.count '/' ≤ rest.length := List.count_le_length
      rw [split_count] at each
      rw [depth, skipped, steps, List.length_cons]
      omega

end Path

namespace Package

open FileTree

theorem ancestors_from_upward (fuel : Nat) (path : Path) (absolute : Path.isAbsolute path = true)
    (enough : Path.depth path < fuel) :
    ancestorsFrom fuel path = (List.range (Path.depth path)).map fun up => Path.upward up path := by
  induction fuel generalizing path with
  | zero => omega
  | succ fuel ih =>
      rw [ancestorsFrom]
      cases above : Path.parent? path with
      | none =>
          rw [(Path.top_iff path absolute).mp above]
          rfl
      | some dir =>
          obtain ⟨absolute', _, deeper⟩ := Path.parent_steps path dir absolute above
          have next (up : Nat) : Path.upward up dir = Path.upward (up + 1) path := by
            rw [Path.upward, above, Option.getD_some]
          dsimp only
          rw [ih dir absolute' (by omega), deeper, List.range_succ_eq_map, List.map_cons, List.map_map]
          simp only [next]
          rfl

theorem ancestors_upward (path : Path) (absolute : Path.isAbsolute path = true) :
    ancestors path = (List.range (Path.depth path)).map fun up => Path.upward up path :=
  ancestors_from_upward (path.length + 1) path absolute (Nat.lt_succ_of_le (Path.depth_within path absolute))

def candidate (package : Text) (root : Path) (up : Nat) : Path := installPath package (Path.upward up root)

theorem candidate_steps (package : Text) (root : Path) (up : Nat) (absolute : Path.isAbsolute root = true)
    (relative : Path.isAbsolute package = false) (within : up ≤ Path.depth root) :
    Path.isAbsolute (candidate package root up) = true ∧ Path.steps (candidate package root up) =
      (Path.steps root).take (Path.depth root - up) ++ .name packagesDir :: Path.steps package := by
  obtain ⟨kind, same⟩ := Path.upward_steps root up absolute within
  have named (path : Path) (absolute : Path.isAbsolute path = true) : path ≠ [] := by
    rintro rfl
    cases absolute
  have packages : Path.isAbsolute packagesDir = false := rfl
  have inside : Path.isAbsolute (Path.join (Path.upward up root) packagesDir) = true :=
    (Path.join_absolute _ _ (named _ kind) packages).trans kind
  have installed : Path.isAbsolute (candidate package root up) = true :=
    (Path.join_absolute _ _ (named _ inside) relative).trans inside
  have below := Path.join_components _ package (named _ inside) relative
  rw [Path.join_components _ packagesDir (named _ kind) packages, Path.components_absolute _ kind] at below
  have parts := (Path.components_absolute _ installed).symm.trans below
  rw [List.cons_append, List.cons_append, same] at parts
  refine ⟨installed, (List.cons.inj parts).2.trans ?_⟩
  rw [List.append_assoc]
  rfl

variable (tree : FileTree) (package : Text) (root : Path)

-- A level is looked at when no nearer one has the package.
def Searched (up : Nat) : Prop :=
  up < Path.depth root ∧ ∀ nearer < up, tree.isDir (candidate package root nearer) = false

def Nearest (up : Nat) : Prop := Searched tree package root up ∧ tree.isDir (candidate package root up) = true

theorem Nearest.covers {up level : Nat} (nearest : Nearest tree package root up)
    (searched : Searched tree package root level) : level ≤ up := by
  by_contra farther
  cases (searched.2 up (Nat.lt_of_not_le farther)).symm.trans nearest.2

theorem package_root_levels (absolute : Path.isAbsolute root = true) :
    packageRoot? tree package root = ((List.range (Path.depth root)).find? fun up =>
      tree.isDir (candidate package root up)).map (candidate package root) := by
  rw [packageRoot?, ancestors_upward root absolute, List.map_map, List.find?_map]
  rfl

theorem package_root_found (absolute : Path.isAbsolute root = true) (found : Path) :
    packageRoot? tree package root = some found ↔
      ∃ up, Nearest tree package root up ∧ found = candidate package root up := by
  rw [package_root_levels tree package root absolute, Option.map_eq_some_iff]
  refine exists_congr fun up => ?_
  rw [List.find?_range_eq_some, List.mem_range, eq_comm (a := candidate package root up)]
  simp only [Bool.not_eq_true', Nearest, Searched]
  tauto

theorem package_root_missing (absolute : Path.isAbsolute root = true) :
    packageRoot? tree package root = none ↔
      ∀ up < Path.depth root, tree.isDir (candidate package root up) = false := by
  rw [package_root_levels tree package root absolute, Option.map_eq_none_iff, List.find?_eq_none]
  simp only [List.mem_range, Bool.not_eq_true]

theorem package_root_agrees (other : FileTree) (absolute : Path.isAbsolute root = true)
    (relative : Path.isAbsolute package = false)
    (agree : ∀ level, Searched tree package root level →
      ∀ seen ∈ tree.trail (candidate package root level), AgreeAt tree.root other.root seen) :
    packageRoot? other package root = packageRoot? tree package root := by
  have same (level : Nat) (searched : Searched tree package root level) :
      other.isDir (candidate package root level) = tree.isDir (candidate package root level) := by
    obtain ⟨kind, _⟩ := candidate_steps package root level absolute relative (Nat.le_of_lt searched.1)
    have begun (tree : FileTree) : tree.start (candidate package root level) = [] := if_pos kind
    exact dir_agrees tree other _ ((begun other).trans (begun tree).symm) (agree level searched)
  have nearer (up : Nat) (searched : Searched tree package root up) : Searched other package root up := by
    refine ⟨searched.1, fun level closer => ?_⟩
    rw [same level ⟨closer.trans searched.1, fun inner before => searched.2 inner (before.trans closer)⟩]
    exact searched.2 level closer
  cases answer : packageRoot? tree package root with
  | some found =>
      obtain ⟨up, ⟨searched, dir⟩, rfl⟩ := (package_root_found tree package root absolute found).mp answer
      refine (package_root_found other package root absolute _).mpr ⟨up, ⟨nearer up searched, ?_⟩, rfl⟩
      rw [same up searched, dir]
  | none =>
      have missing := (package_root_missing tree package root absolute).mp answer
      refine (package_root_missing other package root absolute).mpr fun up within => ?_
      rw [same up ⟨within, fun level closer => missing level (closer.trans within)⟩]
      exact missing up within

theorem candidate_names (up : Nat) (absolute : Path.isAbsolute root = true)
    (relative : Path.isAbsolute package = false) (within : up ≤ Path.depth root)
    (named : Component.parent ∉ Path.components root) (named' : Component.parent ∉ Path.components package) :
    Component.parent ∉ Path.components (candidate package root up) ∧ Path.names (candidate package root up) =
      Path.names (Path.upward up root) ++ packagesDir :: Path.names package := by
  obtain ⟨kind, same⟩ := candidate_steps package root up absolute relative within
  rw [Path.upward_names root up absolute within named]
  refine Path.names_along _ _ kind (same.trans ?_)
  rw [Path.named_steps root named, Path.named_steps package named', List.map_append, List.map_take]
  rfl

-- The packages of a directory lie on the way to what is below only when that is in them.
theorem packages_apart (level high : Nat) (place : Place) (absolute : Path.isAbsolute root = true)
    (named : Component.parent ∉ Path.components root) (below : level < high) (within : high ≤ Path.depth root)
    (inside : Path.names (Path.upward high root) ++ [packagesDir] <+: place)
    (apart : ¬ Path.names (Path.upward high root) ++ [packagesDir] <+: Path.names root) (rest : List Text) :
    ¬ place <+: Path.names (Path.upward level root) ++ rest := by
  intro reached
  have length : (Path.names root).length = Path.depth root := by
    rw [Path.depth, Path.named_steps root named, List.length_map]
  have there := inside.trans reached
  rw [Path.upward_names root high absolute within named] at there apart
  rw [Path.upward_names root level absolute (by omega) named] at there
  refine apart (List.IsPrefix.trans ?_ (List.take_prefix (Path.depth root - level) (Path.names root)))
  refine List.prefix_of_prefix_length_le there (List.prefix_append _ rest) ?_
  rw [List.length_append, List.length_take, List.length_take, List.length_singleton, length]
  omega

theorem candidate_components (up : Nat) (absolute : Path.isAbsolute root = true)
    (relative : Path.isAbsolute package = false) (within : up ≤ Path.depth root) :
    Path.components (Path.upward up root) = .root :: (Path.steps root).take (Path.depth root - up) ∧
    Path.components (candidate package root up) =
      Path.components (Path.upward up root) ++ .name packagesDir :: Path.steps package := by
  obtain ⟨kind, same⟩ := Path.upward_steps root up absolute within
  obtain ⟨kind', same'⟩ := candidate_steps package root up absolute relative within
  have above := Path.components_absolute _ kind
  rw [same] at above
  refine ⟨above, ?_⟩
  rw [above, Path.components_absolute _ kind', same', List.cons_append]

theorem package_root_search (absolute : Path.isAbsolute root = true) (found : Path) :
    packageRoot? tree package root = some found ↔ ∃ up < Path.depth root,
      found = candidate package root up ∧ tree.isDir (candidate package root up) = true ∧
        ∀ nearer < up, tree.isDir (candidate package root nearer) = false := by
  rw [package_root_found tree package root absolute]
  refine exists_congr fun up => ?_
  rw [Nearest, Searched]
  tauto

theorem change_unseen (other : FileTree) (place : Place) (absolute : Path.isAbsolute root = true)
    (relative : Path.isAbsolute package = false) (agree : AgreeOff place tree.root other.root)
    (unseen : ∀ level, Searched tree package root level →
      ∀ seen ∈ tree.trail (candidate package root level), ¬ place <+: seen) :
    packageRoot? other package root = packageRoot? tree package root :=
  package_root_agrees tree package root other absolute relative fun level searched seen member =>
    .inl (agree seen (unseen level searched seen member))

theorem packages_above_unseen (other : FileTree) (place : Place) (up high : Nat)
    (absolute : Path.isAbsolute root = true) (relative : Path.isAbsolute package = false)
    (nearest : Nearest tree package root up) (below : up < high) (within : high ≤ Path.depth root)
    (agree : AgreeOff place tree.root other.root) (named : Component.parent ∉ Path.components root)
    (named' : Component.parent ∉ Path.components package)
    (unlinked : ∀ level ≤ up, Unlinked tree.root (candidate package root level))
    (inside : Path.names (Path.upward high root) ++ [packagesDir] <+: place)
    (outside : ¬ Path.names (Path.upward high root) ++ [packagesDir] <+: Path.names root) :
    packageRoot? other package root = packageRoot? tree package root := by
  refine change_unseen tree package root other place absolute relative agree fun level searched seen member reached => ?_
  have closer := nearest.covers tree package root searched
  obtain ⟨kind, _⟩ := candidate_steps package root level absolute relative (by omega)
  obtain ⟨straight, names⟩ := candidate_names package root level absolute relative (by omega) named named'
  have way := trail_named tree _ kind straight (unlinked level closer) seen member
  rw [names] at way
  exact packages_apart root level high place absolute named (by omega) within inside outside _
    (reached.trans way)

theorem remove_agrees (path : Path) (place : Place) (found : (tree.find false path).map Prod.fst = .ok place) :
    AgreeOff place tree.root (tree.remove path).root := by
  rw [remove]
  cases reached : tree.find false path with
  | error error =>
      rw [reached] at found
      cases found
  | ok there =>
      rw [reached] at found
      cases found
      exact erase_agrees tree.root there.1

theorem plain_file_unseen (place : Place) (content : ByteArray) (modified : Instant)
    (absolute : Path.isAbsolute root = true) (relative : Path.isAbsolute package = false)
    (above : kindAt tree.root place.dropLast = some .dir)
    (free : kindAt tree.root place = none ∨ kindAt tree.root place = some .file) :
    packageRoot? (tree.put place (.file content modified)) package root = packageRoot? tree package root :=
  package_root_agrees tree package root (tree.put place (.file content modified)) absolute relative
    fun _ _ seen _ => new_file_agrees tree.root place content modified above free seen

theorem nearest_package (absolute : Path.isAbsolute root = true) (relative : Path.isAbsolute package = false) :
    (∀ up ≤ Path.depth root,
      Path.components (Path.upward up root) = .root :: (Path.steps root).take (Path.depth root - up) ∧
      Path.components (candidate package root up) =
        Path.components (Path.upward up root) ++ .name packagesDir :: Path.steps package) ∧
    (∀ found, packageRoot? tree package root = some found ↔ ∃ up < Path.depth root,
      found = candidate package root up ∧ tree.isDir (candidate package root up) = true ∧
        ∀ nearer < up, tree.isDir (candidate package root nearer) = false) ∧
    (packageRoot? tree package root = none ↔
      ∀ up < Path.depth root, tree.isDir (candidate package root up) = false) ∧
    (∀ (other : FileTree) (place : Place), AgreeOff place tree.root other.root →
      (∀ level, Searched tree package root level →
        ∀ seen ∈ tree.trail (candidate package root level), ¬ place <+: seen) →
      packageRoot? other package root = packageRoot? tree package root) ∧
    (∀ (other : FileTree) (place : Place) (up high : Nat), Nearest tree package root up → up < high →
      high ≤ Path.depth root → AgreeOff place tree.root other.root →
      Component.parent ∉ Path.components root → Component.parent ∉ Path.components package →
      (∀ level ≤ up, Unlinked tree.root (candidate package root level)) →
      Path.names (Path.upward high root) ++ [packagesDir] <+: place →
      ¬ Path.names (Path.upward high root) ++ [packagesDir] <+: Path.names root →
      packageRoot? other package root = packageRoot? tree package root) ∧
    (∀ (place : Place) (new : Node), kindAt tree.root place.dropLast = some .dir →
      AgreeOff place tree.root (tree.put place new).root) ∧
    (∀ (path : Path) (place : Place), (tree.find false path).map Prod.fst = .ok place →
      AgreeOff place tree.root (tree.remove path).root) ∧
    (∀ (place : Place) (content : ByteArray) (modified : Instant),
      kindAt tree.root place.dropLast = some .dir →
      kindAt tree.root place = none ∨ kindAt tree.root place = some .file →
      packageRoot? (tree.put place (.file content modified)) package root = packageRoot? tree package root) := by
  refine ⟨fun up within => candidate_components package root up absolute relative within,
    package_root_search tree package root absolute, package_root_missing tree package root absolute,
    fun other place => change_unseen tree package root other place absolute relative, ?_,
    fun place new => put_agrees new tree.root place, remove_agrees tree,
    fun place content modified => plain_file_unseen tree package root place content modified absolute relative⟩
  intro other place up high
  exact packages_above_unseen tree package root other place up high absolute relative

def nestedProject : FileTree :=
  ((FileTree.empty ["p".toList] 0).write "/p/node_modules/q" .empty).write "/p/app/node_modules/q" .empty

theorem shadowed_package_removed :
    packageRoot? nestedProject "q" "/p/app/src" = some "/p/app/node_modules/q" ∧
      packageRoot? (nestedProject.remove "/p/node_modules/q") "q" "/p/app/src" =
        packageRoot? nestedProject "q" "/p/app/src" ∧
      packageRoot? ((nestedProject.write "/p/app/src/node_modules" .empty).put
          ["p".toList, "app".toList, "src".toList, "node_modules".toList, "q".toList] (.file .empty 0)) "q" "/p/app/src" =
        packageRoot? (nestedProject.write "/p/app/src/node_modules" .empty) "q" "/p/app/src" := by
  have farther : nestedProject.isDir (candidate "q" "/p/app/src" 0) = false := by decide +kernel
  have nearest : Nearest nestedProject "q" "/p/app/src" 1 :=
    ⟨⟨by decide, fun nearer before => by rwa [Nat.lt_one_iff.mp before]⟩, by decide +kernel⟩
  have reached : (nestedProject.find false "/p/node_modules/q").map Prod.fst =
      .ok ["p".toList, "node_modules".toList, "q".toList] := by decide +kernel
  obtain ⟨_, found, _, _, above, _, removed, _⟩ :=
    nearest_package nestedProject "q" "/p/app/src" (by decide) (by decide)
  obtain ⟨_, _, _, _, _, _, _, filed⟩ :=
    nearest_package (nestedProject.write "/p/app/src/node_modules" .empty) "q" "/p/app/src" (by decide) (by decide)
  refine ⟨(found _).mpr ⟨1, nearest.1.1, by decide, nearest.2, nearest.1.2⟩, ?_, ?_⟩
  · exact above _ _ 1 2 nearest (by decide) (by decide) (removed _ _ reached) (by decide) (by decide)
      (by decide +kernel) (by decide) (by decide)
  · exact filed _ .empty 0 (by decide +kernel) (.inl (by decide +kernel))

def linkedProject : FileTree := nestedProject.write "/p/app/src/node_modules/q" (.link "/p/node_modules/q")

theorem linked_package_removed :
    packageRoot? linkedProject "q" "/p/app/src" = some "/p/app/src/node_modules/q" ∧
      packageRoot? (linkedProject.remove "/p/node_modules/q") "q" "/p/app/src" = some "/p/app/node_modules/q" ∧
      packageRoot? ((linkedProject.remove "/p/node_modules/q").write "/p/node_modules/q" .empty) "q" "/p/app/src" =
        some "/p/app/src/node_modules/q" := by
  decide +kernel

end Package
end DevServer
