import DevServer.Package.Resolve
import DevServer.Proofs.ProjectUrls

set_option autoImplicit false

namespace DevServer

open Text

def slashed (path : Path) (n : Nat) : Path := path ++ List.replicate n '/'

theorem slashed_components (path : Path) (n : Nat) (named : path ≠ []) :
    Path.components (slashed path n) = Path.components path := by
  have still (n : Nat) : Path.steps (List.replicate n '/') = [] := by
    induction n with
    | zero => rfl
    | succ n ih => rw [List.replicate_succ, ← List.nil_append ('/' :: _), Path.steps_concat, ih]; rfl
  cases n with
  | zero => rw [slashed, List.replicate_zero, List.append_nil]
  | succ n => rw [slashed, List.replicate_succ, Path.components_slash path _ named, still, List.append_nil]

theorem slashed_size (path : Path) (n : Nat) : Text.size (slashed path n) = Text.size path + n := by
  have single (n : Nat) : Text.size (List.replicate n '/') = n := by
    induction n with
    | zero => rfl
    | succ n ih =>
        rw [List.replicate_succ, Text.size, ih]
        exact Nat.add_comm 1 n
  rw [slashed, Text.size_append, single]

theorem join_size (base relative : Path) (below : Path.isAbsolute relative = false) :
    Text.size base ≤ Text.size (Path.join base relative) := by
  rw [Path.join, below]
  simp only [Bool.false_eq_true, if_false]
  split
  · rw [Text.size_append]
    omega
  · rw [Text.size_append]
    omega

theorem slashed_unnameable (path longer : Path) (n : Nat) (many : FileTree.maxPath < n)
    (longer' : Text.size (slashed path n) ≤ Text.size longer) : FileTree.isNameable longer = false := by
  rw [slashed_size] at longer'
  rw [FileTree.isNameable, decide_eq_false_iff_not]
  omega

namespace Path

theorem split_slashes (text : Text) (n : Nat) :
    split '/' (text ++ List.replicate n '/') = split '/' text ++ List.replicate n [] := by
  induction n generalizing text with
  | zero => rw [List.replicate_zero, List.replicate_zero, List.append_nil, List.append_nil]
  | succ n ih =>
      have next := ih []
      rw [List.nil_append] at next
      rw [List.replicate_succ, List.replicate_succ, split_concat, next]
      rfl

theorem segments_slashed (path : Path) (n : Nat) (named : path ≠ []) :
    segments (slashed path n) = segments path ++ List.replicate n [] ∧
      isAbsolute (slashed path n) = isAbsolute path := by
  cases path with
  | nil => exact absurd rfl named
  | cons c rest =>
      refine ⟨?_, by rw [slashed, List.cons_append, absolute_cons, absolute_cons]⟩
      rw [slashed]
      by_cases slash : c = '/'
      · subst slash
        exact split_slashes rest n
      · have relative (rest : Text) : isAbsolute (c :: rest) = false := by
          rw [absolute_cons, decide_eq_false slash]
        rw [List.cons_append, segments_relative _ (relative _), segments_relative _ (relative _),
          ← List.cons_append, split_slashes]

theorem ends_slashed (parts : List Text) (n : Nat) :
    significant.ends (parts ++ List.replicate n []) = significant.ends parts := by
  have idles (part : Text) (member : part ∈ List.replicate n ([] : Text)) :
      FileTree.isIdle part = true := by
    rw [List.eq_of_mem_replicate member]
    rfl
  change (List.dropWhile FileTree.isIdle _).reverse = (List.dropWhile FileTree.isIdle _).reverse
  rw [List.reverse_append, List.reverse_replicate, List.dropWhile_append_of_pos idles]

theorem significant_slashed (absolute : Bool) (parts : List Text) (n : Nat) :
    significant absolute (parts ++ List.replicate n []) = significant absolute parts := by
  cases absolute with
  | true => exact ends_slashed parts n
  | false =>
      by_cases dotted : parts.head? = some ['.']
      · obtain ⟨rest, rfl⟩ := List.head?_eq_some_iff.mp dotted
        exact congrArg (List.cons ['.']) (ends_slashed rest n)
      · have undotted : (parts ++ List.replicate n []).head? ≠ some ['.'] := by
          cases parts with
          | nil =>
              intro dot
              cases n with
              | zero => cases dot
              | succ n => cases dot
          | cons part rest => exact dotted
        rw [significant_relative parts dotted, significant_relative _ undotted, ends_slashed]

theorem parent_slashed (path : Path) (n : Nat) (named : path ≠ []) :
    parent? (slashed path n) = parent? path := by
  obtain ⟨parts, kind⟩ := segments_slashed path n named
  rw [parent?, parent?, parts, kind, significant_slashed]

end Path

namespace Package

-- Each directory above has one component less, so there is fuel for all of them.
theorem ancestors_fuel (fuel more : Nat) (path : Path) (enough : (Path.components path).length < fuel) :
    ancestorsFrom (fuel + more) path = ancestorsFrom fuel path := by
  induction fuel generalizing path with
  | zero => omega
  | succ fuel ih =>
      rw [Nat.add_right_comm, ancestorsFrom, ancestorsFrom]
      cases above : Path.parent? path with
      | none => rfl
      | some dir =>
          have parts := congrArg List.length (Path.parent_components path dir above).2
          have some' : Path.components path ≠ [] := by
            intro top
            rw [(Path.parent_none_iff path).mpr (.inl top)] at above
            cases above
          have length := List.length_pos_iff.mpr some'
          rw [List.length_dropLast] at parts
          dsimp only
          rw [ih dir (by omega)]

theorem package_root_slashed (tree : FileTree) (package path dir : Path) (n : Nat)
    (many : FileTree.maxPath < n) (relative : Path.isAbsolute package = false) (named : path ≠ [])
    (above : Path.parent? path = some dir) (short : (Path.components dir).length ≤ dir.length)
    (longer : dir.length < path.length) :
    packageRoot? tree package (slashed path n) = packageRoot? tree package dir := by
  have long : tree.isDir (installPath package (slashed path n)) = false := by
    have below := join_size (Path.join (slashed path n) packagesDir) package relative
    have above := join_size (slashed path n) packagesDir rfl
    have short := slashed_unnameable path _ n many (Nat.le_trans above below)
    rw [FileTree.isDir]
    cases found : tree.node (installPath package (slashed path n)) with
    | error error => rfl
    | ok node => cases short.symm.trans (FileTree.node_found tree _ node found).2.2.1
  have rest : ancestors (slashed path n) = slashed path n :: ancestors dir := by
    rw [ancestors, ancestorsFrom, Path.parent_slashed path n named, above]
    dsimp only
    rw [ancestors]
    have length : (slashed path n).length = dir.length + 1 + (path.length - dir.length - 1 + n) := by
      rw [slashed, List.length_append, List.length_replicate]
      omega
    rw [length, ancestors_fuel _ _ _ (by omega)]
  rw [packageRoot?, packageRoot?, rest, List.map_cons, List.find?_cons, long]

theorem resolve_root (tree : FileTree) (root other : Path) (specifier : Text)
    (same : packageRoot? tree (Request.ofSpecifier specifier).package root =
      packageRoot? tree (Request.ofSpecifier specifier).package other) :
    resolve tree specifier root = resolve tree specifier other := by
  rw [resolve, resolve, same]

end Package

namespace Server

theorem style_same (path other : Path) (same : Path.components path = Path.components other) :
    isStyle path = isStyle other := by
  rw [isStyle, isStyle, Path.extension?, Path.extension?, Path.fileName?, Path.fileName?, same]

theorem slashed_root_lost (tree : FileTree) (server : Server) (root file : Path) (names : List Text)
    (n : Nat) (spelled : server.root = slashed root n) (many : FileTree.maxPath < n)
    (named : root ≠ []) (under : Under root file names) (unstyled : isStyle file = false) :
    LiveUpdate.projectPath file (slashed root n) = '/' :: Text.join ['/'] names ∧
      (server.source tree ('/' :: Text.join ['/'] names)).answer =
        .error (.fileNotFound ('/' :: Text.join ['/'] names)) := by
  have under' : Under (slashed root n) file names := by
    rw [Under, slashed_components root n named]
    exact under
  have url := project_path _ file names under'
  obtain ⟨found, same⟩ := under'.url_reached
  rw [url, ← spelled] at found
  refine ⟨url, (not_found_iff server tree _ _ found).mpr ⟨?_, ?_⟩⟩
  · rw [spelled, reached, Bool.eq_false_iff]
    intro exists'
    have relative := Path.joined_relative names under.named
    have short := FileTree.named_file tree _ exists'
    rw [slashed_unnameable root _ n many (join_size _ _ relative)] at short
    cases short
  · rw [spelled, style_same _ _ same]
    exact unstyled

end Server
end DevServer
