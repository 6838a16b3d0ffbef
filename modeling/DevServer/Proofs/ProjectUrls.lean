import DevServer.Proofs.Parents
import DevServer.Proofs.UrlFiles

set_option autoImplicit false

namespace DevServer

open Text

namespace Text

theorem size_append (left right : Text) : size (left ++ right) = size left + size right := by
  induction left with
  | nil => simp [size]
  | cons c left ih => rw [List.cons_append, size, size, ih, Nat.add_assoc]

theorem size_join (parts rest : List Text) (sub : List.Sublist parts rest) :
    size (join ['/'] parts) ≤ size (join ['/'] rest) := by
  have more (part : Text) (rest : List Text) :
      size part + size (join ['/'] rest) ≤ size (join ['/'] (part :: rest)) := by
    cases rest with
    | nil => simp [join, size]
    | cons next rest =>
        rw [join_cons, size_append, size_append]
        omega
  induction sub with
  | slnil => exact Nat.le_refl _
  | @cons parts rest part sub ih =>
      have grown := more part rest
      omega
  | @cons_cons parts rest part sub ih =>
      cases parts with
      | nil =>
          have grown := more part rest
          change size part ≤ _
          omega
      | cons next parts =>
          cases rest with
          | nil => cases sub
          | cons other rest =>
              rw [join_cons, join_cons, size_append, size_append, size_append, size_append]
              omega

theorem join_concat (parts rest : List Text) (some' : parts ≠ []) (more : rest ≠ []) :
    join ['/'] (parts ++ rest) = join ['/'] parts ++ '/' :: join ['/'] rest := by
  induction parts with
  | nil => exact absurd rfl some'
  | cons part parts ih =>
      cases parts with
      | nil =>
          cases rest with
          | nil => exact absurd rfl more
          | cons next rest => rw [List.singleton_append, join_cons, join, List.append_assoc]; rfl
      | cons next parts =>
          rw [List.cons_append, List.cons_append, join_cons, ← List.cons_append,
            ih (List.cons_ne_nil _ _), join_cons, List.append_assoc, List.append_assoc,
            List.append_assoc]

end Text

namespace Path

theorem segments_whole (path : Path) : ofSegments (isAbsolute path) (segments path) = path := by
  cases path with
  | nil => rfl
  | cons c rest =>
      by_cases slash : c = '/'
      · subst slash
        exact congrArg (List.cons '/') (join_split '/' rest)
      · have relative : isAbsolute (c :: rest) = false := by
          rw [absolute_cons, decide_eq_false slash]
        rw [segments_relative _ relative, relative, ofSegments]
        exact join_split '/' (c :: rest)

theorem shortest_spelling (path : Path) (names : List Text)
    (whole : steps path = names.map .name) :
    size (ofSegments (isAbsolute path) names) ≤ size path := by
  have walked : FileTree.walked (segments path) = names := by
    rw [segments_walked, whole, List.map_map]
    exact List.map_id _
  have shorter := size_join names (segments path) (walked ▸ List.filter_sublist)
  conv => rhs; rw [← segments_whole path]
  cases isAbsolute path with
  | true =>
      change size ('/' :: _) ≤ size ('/' :: _)
      rw [size, size]
      omega
  | false => exact shorter

theorem named_step (path : Path) (name : Text) (step : Component.name name ∈ components path) :
    isName name := by
  refine steps_named path name ?_
  rw [← components_moves]
  exact List.mem_filter.mpr ⟨step, rfl⟩

theorem name_moves (name : Text) (named : isName name) :
    name ≠ [] ∧ name ≠ ['.'] ∧ name ≠ ['.', '.'] := by
  refine ⟨?_, ?_, ?_⟩
  · rintro rfl
    cases named.1
  · rintro rfl
    cases named.1
  · rintro rfl
    cases named.1

theorem joined_relative (names : List Text) (named : ∀ name ∈ names, isName name) :
    isAbsolute (Text.join ['/'] names) = false := by
  refine (of_segments_read false names (fun name member => (named name member).2) fun _ opened => ?_).1
  obtain ⟨rest, rfl⟩ := List.head?_eq_some_iff.mp opened
  exact (name_moves [] (named [] List.mem_cons_self)).1 rfl

theorem joined_last (names : List Text) (some' : names ≠ []) (named : ∀ name ∈ names, isName name) :
    (Text.join ['/'] names).getLast? ≠ some '/' ∧ Text.join ['/'] names ≠ [] := by
  have last := named _ (List.getLast_mem some')
  rw [← List.dropLast_concat_getLast some', join_snoc]
  have written : names.getLast some' ≠ [] := (name_moves _ last).1
  refine ⟨?_, List.append_ne_nil_of_right_ne_nil _ written⟩
  rw [List.getLast?_append, List.getLast?_eq_some_getLast written, Option.some_or]
  intro slash
  exact last.2 (Option.some.inj slash ▸ List.getLast_mem written)

theorem join_spelled (absolute : Bool) (above names : List Text) (named : ∀ name ∈ above, isName name)
    (named' : ∀ name ∈ names, isName name) (below : names ≠ []) :
    join (ofSegments absolute above) (Text.join ['/'] names) = ofSegments absolute (above ++ names) := by
  rw [join, joined_relative names named']
  by_cases top : above = []
  · subst top
    cases absolute with
    | true => rfl
    | false => rfl
  · obtain ⟨open', some'⟩ := joined_last above top named
    have whole := Text.join_concat above names top below
    cases absolute with
    | true =>
        have last : ('/' :: Text.join ['/'] above).getLast? = (Text.join ['/'] above).getLast? :=
          List.getLast?_cons_of_ne_nil some'
        simp [ofSegments, last, open', whole]
    | false => simp [ofSegments, open', some', whole]

end Path

namespace Server

theorem project_path (root file : Path) (names : List Text)
    (whole : Path.components file = Path.components root ++ names.map .name) :
    LiveUpdate.projectPath file root = '/' :: Text.join ['/'] names := by
  have read (names : List Text) : (names.map Component.name).filterMap Component.name? = names := by
    rw [List.filterMap_map]
    exact List.filterMap_some
  rw [LiveUpdate.projectPath, Path.relative_of_components file root _ whole, read]
  rfl

theorem joined_names (names : List Text) (named : ∀ name ∈ names, Path.isName name) :
    relativeUrl ('/' :: Text.join ['/'] names) = Text.join ['/'] names ∧
      urlNames ('/' :: Text.join ['/'] names) = names ∧
      ['.', '.'] ∉ urlSegments ('/' :: Text.join ['/'] names) ∧
      (urlSegments ('/' :: Text.join ['/'] names)).head? ≠ some ['.'] := by
  cases names with
  | nil => exact ⟨rfl, rfl, by decide, by decide⟩
  | cons name rest =>
      have cut : split '/' (Text.join ['/'] (name :: rest)) = name :: rest :=
        split_join '/' _ (List.cons_ne_nil _ _) fun name member => (named name member).2
      have relative : relativeUrl ('/' :: Text.join ['/'] (name :: rest)) =
          Text.join ['/'] (name :: rest) := by
        have unrooted := Path.joined_relative _ named
        rw [relativeUrl, List.dropWhile_cons, if_pos (by decide)]
        cases joined : Text.join ['/'] (name :: rest) with
        | nil => rfl
        | cons c tail =>
            rw [joined, Path.absolute_cons, decide_eq_false_iff_not] at unrooted
            rw [List.dropWhile_cons, if_neg (by simpa using unrooted)]
      have segments : urlSegments ('/' :: Text.join ['/'] (name :: rest)) = name :: rest := by
        rw [urlSegments, relative, cut]
      refine ⟨relative, ?_, ?_, ?_⟩
      · rw [urlNames, segments]
        refine List.filter_eq_self.mpr fun name member => decide_eq_true ?_
        obtain ⟨some', undotted, _⟩ := Path.name_moves name (named name member)
        exact ⟨some', undotted⟩
      · rw [segments]
        intro double
        exact (Path.name_moves _ (named _ double)).2.2 rfl
      · rw [segments]
        intro dot
        exact (Path.name_moves _ (named name List.mem_cons_self)).2.1 (Option.some.inj dot)

def Under (root file : Path) (names : List Text) : Prop :=
  Path.components file = Path.components root ++ names.map .name

def reached (root : Path) (names : List Text) : Path := Path.join root (Text.join ['/'] names)

section Under

variable {root file : Path} {names : List Text}

theorem Under.named (under : Under root file names) : ∀ name ∈ names, Path.isName name := by
  intro name member
  refine Path.named_step file name ?_
  rw [under]
  exact List.mem_append_right _ (List.mem_map_of_mem member)

theorem Under.url_reached (under : Under root file names) :
    fileForUrl? root (LiveUpdate.projectPath file root) = some (reached root names) ∧
      Path.components (reached root names) = Path.components file := by
  obtain ⟨relative, same, level, undotted⟩ := joined_names names under.named
  rw [← project_path root file names under] at relative same level undotted
  have found : fileForUrl? root (LiveUpdate.projectPath file root) = some (reached root names) :=
    (file_for_url_some root _ _).mpr ⟨level, by rw [relative]; rfl⟩
  refine ⟨found, ?_⟩
  rw [file_components root _ _ found, leadingDot, if_neg (fun dots => undotted dots.2), same,
    List.append_nil, under]

theorem Under.reached_last (under : Under root file names) (below : names ≠ []) :
    FileTree.endsInDirectory (Path.segments (reached root names)) = false := by
  have cut : split '/' (Text.join ['/'] names) = names :=
    split_join '/' names below fun name member => (under.named name member).2
  have relative := Path.joined_relative names under.named
  have last : (Path.segments (reached root names)).getLast? = names.getLast? := by
    rw [reached]
    by_cases empty : root = []
    · have joined : Path.join root (Text.join ['/'] names) = Text.join ['/'] names := by
        rw [empty, Path.join, relative]
        rfl
      rw [joined, Path.segments_last, cut]
    · rw [Path.join_last root _ empty relative, cut]
  rw [FileTree.endsInDirectory, last, List.getLast?_eq_some_getLast below, Option.any_some]
  obtain ⟨some', single, double⟩ := Path.name_moves _ (under.named _ (List.getLast_mem below))
  simp [FileTree.isStay, some', single, double]

theorem root_directory (tree : FileTree) (root : Path) : tree.isFile (reached root []) = false := by
  cases file : tree.isFile (reached root []) with
  | false => rfl
  | true =>
      have ends := FileTree.file_ends tree _ file
      by_cases empty : root = []
      · rw [empty] at ends
        cases ends
      · have last := Path.join_last root [] empty rfl
        rw [FileTree.endsInDirectory, reached, Text.join, last] at ends
        cases ends

theorem Under.reached_file (under : Under root file names) (tree : FileTree)
    (exists' : tree.isFile file = true) :
    tree.isFile (reached root names) = true ↔
      names ≠ [] ∧ FileTree.isNameable (reached root names) = true := by
  constructor
  · intro found
    refine ⟨?_, FileTree.named_file tree _ found⟩
    rintro rfl
    cases (root_directory tree root).symm.trans found
  · rintro ⟨below, short⟩
    exact (FileTree.file_respelled under.url_reached.2.symm exists' short
      (under.reached_last below)).1

theorem Under.reached_short (under : Under root file names) (below : names ≠ [])
    (plain : Path.normalize root = root) (short : FileTree.isNameable file = true) :
    FileTree.isNameable (reached root names) = true := by
  have spelled : Path.ofSegments (Path.isAbsolute root) (Path.folded root) = root := plain
  have folded := Path.folded_named root
  have steps : Path.steps file = (Path.folded root ++ names).map .name := by
    have parts := Path.normalize_components root
    rw [plain] at parts
    rw [← Path.components_moves, under, parts, List.append_assoc, ← List.map_append,
      List.filter_append]
    have unled : (if Path.isAbsolute root then [Component.root] else []).filter Path.isMove = [] := by
      cases Path.isAbsolute root with
      | true => rfl
      | false => rfl
    rw [unled, List.nil_append, Path.names_move]
  have kind : Path.isAbsolute file = Path.isAbsolute root := by
    rw [Bool.eq_iff_iff, Path.absolute_iff, Path.absolute_iff, under]
    simp
  have shorter := Path.shortest_spelling file _ steps
  rw [kind, ← Path.join_spelled _ _ _ folded under.named below, spelled] at shorter
  rw [FileTree.isNameable, decide_eq_true_eq] at short ⊢
  exact Nat.le_trans shorter short

-- A URL leads back to a file of the root by the path `there`. That path is found unless
-- the root is the file itself or it cannot be named; a root that is spelled by its names
-- alone has room for all that can be named under it.
structure LeadsBack (tree : FileTree) (root : Path) (url : Text) (file there : Path) : Prop where
  named : fileForUrl? root url = some there
  same : Path.components there = Path.components file
  found : tree.isFile there = true ↔
    Path.components file ≠ Path.components root ∧ FileTree.isNameable there = true
  short : Path.components file ≠ Path.components root → Path.normalize root = root →
    FileTree.isNameable there = true
  alike : tree.isFile there = true → tree.readText there = tree.readText file

theorem Under.below_iff (under : Under root file names) :
    Path.components file ≠ Path.components root ↔ names ≠ [] := by
  rw [under, ne_eq, List.append_right_eq_self, List.map_eq_nil_iff]

theorem Under.leads_back (under : Under root file names) (tree : FileTree)
    (exists' : tree.isFile file = true) :
    LeadsBack tree root (LiveUpdate.projectPath file root) file (reached root names) where
  named := under.url_reached.1
  same := under.url_reached.2
  found := by rw [under.below_iff, under.reached_file tree exists']
  short := fun other plain =>
    under.reached_short (under.below_iff.mp other) plain (FileTree.named_file tree file exists')
  alike := by
    intro found
    obtain ⟨below, short⟩ := (under.reached_file tree exists').mp found
    exact (FileTree.file_respelled under.url_reached.2.symm exists' short
      (under.reached_last below)).2

end Under

theorem not_found_iff (server : Server) (tree : FileTree) (url : Text) (file : Path)
    (named : fileForUrl? server.root url = some file) :
    (server.source tree url).answer = .error (.fileNotFound url) ↔
      tree.isFile file = false ∧ isStyle file = false := by
  rw [source, named]
  dsimp only
  by_cases exists' : tree.isFile file = true
  · rw [if_neg (by simp [exists'])]
    cases tree.readText file with
    | error cause => simp [exists']
    | ok text => simp [exists']
  · rw [if_pos (by simpa using exists')]
    by_cases style : isStyle file = true
    · simp [style]
    · simp [style, exists']

end Server

end DevServer
