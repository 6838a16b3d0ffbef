import DevServer.FileTree.Edit
import DevServer.Proofs.Containment
import DevServer.Proofs.Spellings

set_option autoImplicit false

namespace DevServer

open Text

namespace Path

theorem level_names (parts : List Text) (level : ['.', '.'] ∉ parts) :
    parts.filterMap Component.ofSegment? = (FileTree.walked parts).map .name := by
  induction parts with
  | nil => rfl
  | cons segment rest ih =>
      simp only [List.mem_cons, not_or] at level
      have later := ih level.2
      rw [FileTree.walked] at later ⊢
      rcases segment_cases segment with ⟨idle, none⟩ | ⟨moves, part, some', root, here, written⟩
      · rw [List.filterMap_cons, none, later, List.filter_cons, if_neg (by simp [idle])]
      · rw [List.filterMap_cons, some', List.filter_cons, if_pos (by simp [moves]), later]
        cases part with
        | root => exact absurd rfl root
        | here => exact absurd rfl here
        | parent => exact absurd written level.1
        | name text => exact congrArg (fun name => Component.name name :: _) written

theorem drop_prefix (parts more : List Component) : dropComponents? (parts ++ more) parts = some more := by
  induction parts with
  | nil =>
      cases more with
      | nil => rfl
      | cons part rest => rfl
  | cons part rest ih =>
      rw [List.cons_append, dropComponents?, if_pos rfl]
      exact ih

theorem below_of_components (path base : Path) (more : List Component)
    (whole : components path = components base ++ more) : below? path base = some more := by
  rw [below?, whole]
  exact drop_prefix _ _

theorem relative_of_components (path base : Path) (more : List Component)
    (whole : components path = components base ++ more) : relativeTo path base = more := by
  rw [relativeTo, below_of_components path base more whole, Option.getD_some]

end Path

namespace Server

def relativeUrl (url : Text) : Path := url.dropWhile (· == '/')

def urlSegments (url : Text) : List Text := split '/' (relativeUrl url)

def urlNames (url : Text) : List Text :=
  (urlSegments url).filter fun segment => segment ≠ [] ∧ segment ≠ ['.']

theorem url_names (url : Text) : urlNames url = FileTree.walked (urlSegments url) := by
  apply List.filter_congr
  intro segment _
  by_cases empty : segment = []
  · simp [FileTree.isIdle, empty]
  · simp [FileTree.isIdle, empty]

theorem relative_url (url : Text) : Path.isAbsolute (relativeUrl url) = false := by
  cases rest : relativeUrl url with
  | nil => rfl
  | cons c rest' =>
      have stopped : (relativeUrl url).head? = some c := by rw [rest]; rfl
      have other := List.head?_dropWhile_not (· == '/') url
      rw [relativeUrl] at stopped
      rw [stopped] at other
      rw [Path.absolute_cons]
      simpa using other

-- The root is the empty path and the URL opens with a dot, which stays a component.
def dotted (root : Path) (url : Text) : Prop := root = [] ∧ (urlSegments url).head? = some ['.']

instance (root : Path) (url : Text) : Decidable (dotted root url) :=
  inferInstanceAs (Decidable (_ ∧ _))

def leadingDot (root : Path) (url : Text) : List Component := if dotted root url then [.here] else []

theorem relative_lead (url : Text) : Path.lead (relativeUrl url) =
    if (urlSegments url).head? = some ['.'] then [.here] else [] := by
  rw [Path.lead, relative_url]
  rfl

theorem inner_iff (url : Text) :
    (Path.components (relativeUrl url)).all Component.isInner = true ↔ ['.', '.'] ∉ urlSegments url := by
  rw [Path.components_lead, List.all_append, Bool.and_eq_true]
  constructor
  · rintro ⟨_, inner⟩ double
    have parent : Component.parent ∈ Path.steps (relativeUrl url) :=
      List.mem_filterMap.mpr ⟨['.', '.'], double, rfl⟩
    cases List.all_eq_true.mp inner _ parent
  · intro level
    constructor
    · rw [relative_lead]
      split
      · rfl
      · rfl
    · have names : Path.steps (relativeUrl url) = _ := Path.level_names _ level
      rw [names, List.all_map]
      exact List.all_eq_true.mpr fun _ _ => rfl

theorem file_for_url (root : Path) (url : Text) : fileForUrl? root url =
    if ['.', '.'] ∈ urlSegments url then none else some (Path.join root (relativeUrl url)) := by
  have inner := inner_iff url
  rw [relativeUrl] at inner ⊢
  rw [fileForUrl?]
  by_cases level : ['.', '.'] ∈ urlSegments url
  · simp [mt inner.mp (not_not_intro level), level]
  · simp [inner.mpr level, level]

theorem file_for_url_none (root : Path) (url : Text) :
    fileForUrl? root url = none ↔ ['.', '.'] ∈ urlSegments url := by
  rw [file_for_url]
  simp

theorem file_for_url_some (root : Path) (url : Text) (file : Path) :
    fileForUrl? root url = some file ↔
      ['.', '.'] ∉ urlSegments url ∧ file = Path.join root (relativeUrl url) := by
  rw [file_for_url]
  simp [eq_comm]

theorem file_components (root : Path) (url : Text) (file : Path)
    (named : fileForUrl? root url = some file) : Path.components file =
      Path.components root ++ leadingDot root url ++ (urlNames url).map .name := by
  obtain ⟨level, rfl⟩ := (file_for_url_some root url file).mp named
  have names : Path.steps (relativeUrl url) = (urlNames url).map .name := by
    rw [url_names]
    exact Path.level_names _ level
  rw [leadingDot]
  by_cases empty : root = []
  · have joined : Path.join root (relativeUrl url) = relativeUrl url := by
      rw [empty, Path.join, relative_url]
      rfl
    have nothing : Path.components [] = [] := rfl
    rw [joined, Path.components_lead, names, relative_lead, empty, nothing]
    simp [dotted]
  · rw [Path.join_components root _ empty (relative_url url), names,
      if_neg (fun both : dotted root url => empty both.1), List.append_nil]

theorem file_respelled (root : Path) (url other : Text) (file there : Path)
    (same : urlNames url = urlNames other) (named : fileForUrl? root url = some file)
    (named' : fileForUrl? root other = some there) : FileTree.Respelled file there := by
  have root_only (url : Text) (file : Path) (named : fileForUrl? root url = some file) :
      (Component.root ∈ Path.components file ↔ Component.root ∈ Path.components root) ∧
        Path.steps file = Path.steps root ++ (urlNames url).map .name := by
    have whole := file_components root url file named
    have rests : (leadingDot root url).filter Path.isMove = [] := by
      rw [leadingDot]
      split
      · rfl
      · rfl
    constructor
    · rw [whole, leadingDot]
      split
      · simp
      · simp
    · rw [← Path.components_moves, whole, List.filter_append, List.filter_append, rests,
        Path.names_move, Path.components_moves, List.append_nil]
  obtain ⟨rooted, steps⟩ := root_only url file named
  obtain ⟨rooted', steps'⟩ := root_only other there named'
  constructor
  · rw [Bool.eq_iff_iff, Path.absolute_iff, Path.absolute_iff, rooted, rooted']
  · rw [Path.segments_walked, Path.segments_walked, steps, steps', same]

variable {server : Server} {tree : FileTree} {url : Text}

theorem parent_not_found (parent : ['.', '.'] ∈ urlSegments url) :
    server.source tree url = ⟨[], .error (.fileNotFound url)⟩ := by
  rw [source, (file_for_url_none server.root url).mpr parent]

theorem source_read (file : Path) (text : Text) (named : fileForUrl? server.root url = some file)
    (readable : tree.readText file = .ok text) : server.source tree url =
      ⟨(server.convert tree file text).calls, .ok ⟨lowered server.toolchain file
        (Specifier.rewriteBare (server.convert tree file text).code), some file⟩⟩ := by
  have exists' : tree.isFile file = true := FileTree.isFile_of_readText readable
  rw [source, named]
  dsimp only
  rw [if_neg (by simp [exists']), readable]

theorem source_file (module : ServedModule) (file : Path)
    (served : (server.source tree url).answer = .ok module) (read : module.file = some file) :
    fileForUrl? server.root url = some file := by
  rw [source] at served
  cases named : fileForUrl? server.root url with
  | none =>
      rw [named] at served
      cases served
  | some found =>
      rw [named] at served
      dsimp only at served
      split at served
      · split at served
        · cases served
          cases read
        · cases served
      · split at served
        · cases served
        · cases served
          exact read

theorem url_files_exact (root : Path) (url : Text) :
    (fileForUrl? root url = none ↔ ['.', '.'] ∈ urlSegments url) ∧
    (∀ file, fileForUrl? root url = some file →
      Path.components file =
        Path.components root ++ leadingDot root url ++ (urlNames url).map .name ∧
      Path.isWithin file root = true) ∧
    (∀ (server : Server) (tree : FileTree), server.root = root → ['.', '.'] ∈ urlSegments url →
      server.source tree url = ⟨[], .error (.fileNotFound url)⟩) ∧
    (∀ other, urlNames url = urlNames other →
      (fileForUrl? root url = none ↔ fileForUrl? root other = none) ∧
      ∀ file there, fileForUrl? root url = some file → fileForUrl? root other = some there →
        ((dotted root url ↔ dotted root other) → Path.same file there = true) ∧
        ∀ (tree : FileTree) (node node' : Node), tree.node file = .ok node →
          tree.node there = .ok node' → node = node') ∧
    (∀ (server : Server) (tree : FileTree) (module : ServedModule) (file : Path),
      server.root = root → (server.source tree url).answer = .ok module → module.file = some file →
        Path.components file =
          Path.components root ++ leadingDot root url ++ (urlNames url).map .name) := by
  refine ⟨file_for_url_none root url, fun file named => ?_, ?_, fun other same => ⟨?_, ?_⟩, ?_⟩
  · have whole := file_components root url file named
    refine ⟨whole, ?_⟩
    rw [List.append_assoc] at whole
    rw [Path.isWithin, Path.below_of_components file root _ whole]
    rfl
  · rintro server tree rfl parent
    exact parent_not_found parent
  · have kept (url : Text) : ['.', '.'] ∈ urlSegments url ↔ ['.', '.'] ∈ urlNames url := by
      simp [urlNames]
    rw [file_for_url_none, file_for_url_none, kept, kept, same]
  · intro file there named named'
    constructor
    · intro dots
      rw [Path.same, file_components root url file named, file_components root other there named',
        leadingDot, leadingDot, same]
      simp [dots]
    · intro tree node node' one two
      exact FileTree.node_unique node node' (file_respelled root url other file there same named named')
        one two
  · rintro server tree module file rfl served read
    exact file_components server.root url file (source_file module file served read)

def flatProject : FileTree := (FileTree.empty ["p".toList] 0).write "/p/a.js" (.file "1".toUTF8 0)

theorem dotted_url_led :
    urlNames "/./a.js" = [("a.js" : Text)] ∧
    fileForUrl? [] "/./a.js" = some "./a.js".toList ∧
    Path.components "./a.js" ≠ Path.components [] ++ (urlNames "/./a.js").map .name ∧
    urlNames "/a.js" = urlNames "/./a.js" ∧ fileForUrl? [] "/a.js" = some "a.js".toList ∧
    Path.same "a.js" "./a.js" = false ∧
    ((Server.mk [] [] .passthrough).source flatProject "/./a.js").answer.toOption =
      some ⟨"1", some "./a.js".toList⟩ := by
  refine ⟨by decide, by decide, by decide, by decide, by decide, by decide, by decide +kernel⟩

end Server
end DevServer
