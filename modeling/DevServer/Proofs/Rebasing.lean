import DevServer.Proofs.LongRoots

set_option autoImplicit false

namespace DevServer

open Text

namespace Path

theorem absolute_names (path : Path) (absolute : isAbsolute path = true)
    (level : Component.parent ∉ components path) :
    components path = .root :: (names path).map .name := by
  rw [components_absolute path absolute, named_steps path level]

theorem fold_names (names above : List Text) :
    (names.map Component.name).foldl foldStep above = above ++ names := by
  induction names generalizing above with
  | nil => exact (List.append_nil above).symm
  | cons name rest ih =>
      rw [List.map_cons, List.foldl_cons, ih]
      exact List.append_assoc above [name] rest

theorem within_iff (path base : Path) :
    isWithin path base = true ↔ components base <+: components path := by
  rw [isWithin, below?]
  generalize components path = parts
  generalize components base = bases
  induction bases generalizing parts with
  | nil =>
      cases parts with
      | nil => simp [dropComponents?]
      | cons part rest => simp [dropComponents?]
  | cons base bases ih =>
      cases parts with
      | nil => simp [dropComponents?]
      | cons part rest =>
          rw [dropComponents?, List.cons_prefix_cons]
          by_cases same : part = base
          · rw [if_pos same, ih]
            simp [same]
          · rw [if_neg same]
            simp [Ne.symm same]

end Path

namespace Server

def foldSegment (names : List Text) (segment : Text) : List Text :=
  if segment = [] ∨ segment = ['.'] then names
  else if segment = ['.', '.'] then names.dropLast
  else names ++ [segment]

def target (dir : List Text) (specifier : Text) : Path :=
  '/' :: Text.join ['/'] ((split '/' specifier).foldl foldSegment dir)

def meant? (tree : FileTree) (dir : List Text) (specifier : Text) : Option Path :=
  let place := target dir specifier
  [place, place ++ ".js", place ++ ".mjs", place ++ "/index.js"].find? tree.isFile

theorem meant_probes (tree : FileTree) (dir : List Text) (specifier : Text) :
    meant? tree dir specifier =
      (relativeProbes.map (target dir specifier ++ ·)).find? tree.isFile := by
  simp [meant?, relativeProbes]

def IsRelative (specifier : Text) : Prop :=
  ("./" : Text) <+: specifier ∨ ("../" : Text) <+: specifier

theorem fold_segments (parts names : List Text) :
    parts.foldl foldSegment names = (parts.filterMap Component.ofSegment?).foldl Path.foldStep names := by
  induction parts generalizing names with
  | nil => rfl
  | cons segment rest ih =>
      rw [List.foldl_cons, ih, foldSegment, List.filterMap_cons, Component.ofSegment?]
      by_cases idle : segment = [] ∨ segment = ['.']
      · simp only [if_pos idle]
      · by_cases double : segment = ['.', '.']
        · simp only [if_neg idle, if_pos double]
          rfl
        · simp only [if_neg idle, if_neg double]
          rfl

theorem starts_relative (specifier : Text) :
    (specifier.startsWith "./" || specifier.startsWith "../") = true ↔ IsRelative specifier := by
  have starts (start : Text) : specifier.startsWith start = true ↔ start <+: specifier := by
    rw [startsWith_iff]
    exact exists_congr fun _ => eq_comm
  rw [Bool.or_eq_true, starts, starts, IsRelative]

theorem relative_specifier (specifier : Text) (relative : IsRelative specifier) :
    Path.isAbsolute specifier = false := by
  rcases relative with ⟨rest, rfl⟩ | ⟨rest, rfl⟩
  · rfl
  · rfl

section Rebased

variable {tree : FileTree} {root dir : Path}

theorem target_normal (names : List Text) (specifier : Text) (absolute : Path.isAbsolute dir = true)
    (spelled : Path.folded dir = names) (relative : IsRelative specifier) :
    Path.normalize (Path.join dir specifier) = target names specifier := by
  have named : dir ≠ [] := by
    rintro rfl
    cases absolute
  have unrooted := relative_specifier specifier relative
  have shape : Path.normalize (Path.join dir specifier) =
      Path.ofSegments (Path.isAbsolute (Path.join dir specifier))
        (Path.folded (Path.join dir specifier)) := rfl
  rw [shape, Path.join_absolute dir specifier named unrooted, absolute,
    Path.join_folded dir specifier named unrooted, spelled, target, fold_segments]
  rfl

theorem rebased_some (names : List Text) (specifier url : Text)
    (absolute : Path.isAbsolute dir = true) (spelled : Path.folded dir = names) :
    rebased? tree dir root specifier = some url ↔ IsRelative specifier ∧
      ∃ found, meant? tree names specifier = some found ∧
        Path.components root <+: Path.components found ∧ url = LiveUpdate.projectPath found root := by
  rw [rebased?]
  by_cases relative : IsRelative specifier
  · have opens := (starts_relative specifier).mpr relative
    have tried : (relativeProbes.map (Path.normalize (Path.join dir specifier) ++ ·)).find? tree.isFile =
        meant? tree names specifier := by
      rw [target_normal names specifier absolute spelled relative, meant_probes]
    simp only [opens, Bool.not_true, Bool.false_eq_true, if_false, relative, true_and, tried]
    cases meant? tree names specifier with
    | none => simp
    | some found =>
        change (if Path.isWithin found root = true then some (LiveUpdate.projectPath found root)
          else none) = some url ↔ _
        rw [Option.ite_none_right_eq_some, Path.within_iff]
        constructor
        · rintro ⟨inside, ⟨⟩⟩
          exact ⟨found, rfl, inside, rfl⟩
        · rintro ⟨_, ⟨⟩, inside, rfl⟩
          exact ⟨inside, rfl⟩
  · have closed := Bool.eq_false_iff.mpr fun opens => relative ((starts_relative specifier).mp opens)
    rw [closed]
    simp [relative]

theorem target_level (names : List Text) (specifier ending : Text)
    (named : ∀ name ∈ names, Path.isName name) (member : ending ∈ relativeProbes) :
    ['.', '.'] ∉ split '/' (target names specifier ++ ending) := by
  have folded : ∀ name ∈ (split '/' specifier).foldl foldSegment names, Path.isName name := by
    rw [fold_segments]
    exact Path.fold_named _ names named fun name step => Path.steps_named specifier name step
  have level : ['.', '.'] ∉ split '/' (target names specifier) := by
    rw [target]
    generalize (split '/' specifier).foldl foldSegment names = place at folded
    cases place with
    | nil => decide
    | cons name rest =>
        rw [split, if_pos rfl, split_join '/' _ (List.cons_ne_nil _ _)
          fun name member => (folded name member).2]
        intro double
        rcases List.mem_cons.mp double with empty | inside
        · cases empty
        · exact (Path.name_moves _ (folded _ inside)).2.2 rfl
  -- Only the last ending has a slash, and it has no dots before that.
  simp only [relativeProbes, List.mem_cons, List.not_mem_nil, or_false] at member
  rcases member with rfl | rfl | rfl | rfl
  · exact Package.ending_level _ "" (by decide) level
  · exact Package.ending_level _ ".js" (by decide) level
  · exact Package.ending_level _ ".mjs" (by decide) level
  · have shape : target names specifier ++ ("/index.js" : Text) =
        target names specifier ++ '/' :: ("index.js" : Text) := rfl
    rw [shape, split_concat, List.mem_append, not_or]
    exact ⟨level, by decide⟩

theorem meant_file (names : List Text) (specifier : Text) (found : Path)
    (meant : meant? tree names specifier = some found) :
    tree.isFile found = true ∧ ∃ ending ∈ relativeProbes, found = target names specifier ++ ending := by
  rw [meant_probes] at meant
  obtain ⟨ending, member, same⟩ := List.mem_map.mp (List.mem_of_find?_eq_some meant)
  exact ⟨List.find?_some meant, ending, member, same.symm⟩

theorem meant_under (names : List Text) (specifier : Text) (found : Path)
    (named : ∀ name ∈ names, Path.isName name) (rooted : Path.isAbsolute root = true)
    (meant : meant? tree names specifier = some found)
    (inside : Path.components root <+: Path.components found) : ∃ below, Under root found below := by
  obtain ⟨_, ending, member, rfl⟩ := meant_file names specifier found meant
  have level := target_level names specifier ending named member
  have whole : Path.components (target names specifier ++ ending) =
      .root :: (FileTree.walked (split '/' (target names specifier ++ ending))).map .name := by
    rw [Path.components_absolute _ rfl, Path.steps, Path.level_names _ level]
  obtain ⟨more, same⟩ := inside
  have top := Path.components_absolute root rooted
  rw [whole, top, List.cons_append] at same
  obtain ⟨_, below, _, _, read⟩ := List.map_eq_append_iff.mp (List.cons.inj same).2.symm
  refine ⟨below, ?_⟩
  rw [Under, whole, top, List.cons_append, ← (List.cons.inj same).2, read]

theorem rebase_same_root (file other : Path) (code : Text)
    (same : Path.components root = Path.components other) :
    rebase tree file root code = rebase tree file other code := by
  have within (found : Path) : Path.isWithin found root = Path.isWithin found other := by
    rw [Path.isWithin, Path.isWithin, Path.below?, Path.below?, same]
  have url (found : Path) : LiveUpdate.projectPath found root = LiveUpdate.projectPath found other := by
    rw [LiveUpdate.projectPath, LiveUpdate.projectPath, Path.relativeTo, Path.relativeTo,
      Path.below?, Path.below?, same]
  have put (dir : Path) : rebased? tree dir root = rebased? tree dir other := by
    funext specifier
    simp only [rebased?, within, url]
  rw [rebase, rebase]
  simp only [put]

theorem folded_above (file : Path) (placed : Path.isAbsolute file = true)
    (level : .parent ∉ Path.components file) (above : Path.parent? file = some dir) :
    Path.isAbsolute dir = true ∧ Path.names file ≠ [] ∧
      Path.folded dir = (Path.names file).dropLast := by
  obtain ⟨kind, parts⟩ := Path.parent_components file dir above
  have absolute : Path.isAbsolute dir = true := kind.trans placed
  have level' : .parent ∉ Path.components dir := by
    rw [parts]
    exact fun member => level (List.dropLast_subset _ member)
  have whole : .root :: (Path.names dir).map .name =
      (Component.root :: (Path.names file).map .name).dropLast := by
    rw [← Path.absolute_names dir absolute level', ← Path.absolute_names file placed level, parts]
  have folds : Path.folded dir = Path.names dir := by
    rw [Path.folded, Path.absolute_names dir absolute level', List.foldl_cons]
    exact Path.fold_names _ []
  rw [folds]
  cases names : Path.names file with
  | nil =>
      rw [names] at whole
      cases whole
  | cons name rest =>
      rw [names, List.map_cons, List.dropLast_cons_cons, ← List.map_cons, ← List.map_dropLast] at whole
      exact ⟨absolute, List.cons_ne_nil _ _,
        (List.map_inj_right fun _ _ => Component.name.inj).mp (List.cons.inj whole).2⟩

-- A specifier is replaced when it is relative and the first file that it may mean is under
-- the root; the URL that is put in its place leads back to that file.
theorem rebased_specifiers_exact (tree : FileTree) (root file : Path) (code : Text)
    (rooted : Path.isAbsolute root = true) (placed : Path.isAbsolute file = true)
    (level : .parent ∉ Path.components file) :
    (Path.names file = [] → rebase tree file root code = code) ∧
    (Path.names file ≠ [] → ∃ url? : Text → Option Text,
      rebase tree file root code = Specifier.rewrite url? code ∧
      (∀ specifier, (url? specifier).isSome = true ↔ IsRelative specifier ∧
        ∃ found, meant? tree (Path.names file).dropLast specifier = some found ∧
          Path.components root <+: Path.components found) ∧
      ∀ specifier url, url? specifier = some url → ∃ found there,
        meant? tree (Path.names file).dropLast specifier = some found ∧
        LeadsBack tree root url found there ∧
        ∀ server : Server, server.root = root →
          ((server.source tree url).answer = .error (.fileNotFound url) ↔
            tree.isFile there = false ∧ isStyle there = false)) := by
  cases above : Path.parent? file with
  | none =>
      have top : Path.names file = [] := by
        rcases (Path.parent_none_iff file).mp above with parts | parts
        · rw [Path.names, parts]
          rfl
        · rw [Path.names, parts]
          rfl
      refine ⟨fun _ => ?_, fun named => absurd top named⟩
      rw [rebase, above]
  | some dir =>
      obtain ⟨absolute, named, folded⟩ := folded_above file placed level above
      have replaced (specifier url : Text) : rebased? tree dir root specifier = some url ↔ _ :=
        rebased_some _ specifier url absolute folded
      refine ⟨fun top => absurd top named, fun _ => ⟨rebased? tree dir root, ?_, ?_, ?_⟩⟩
      · rw [rebase, above]
      · intro specifier
        rw [Option.isSome_iff_exists]
        constructor
        · rintro ⟨url, put⟩
          obtain ⟨relative, found, meant, inside, _⟩ := (replaced specifier url).mp put
          exact ⟨relative, found, meant, inside⟩
        · rintro ⟨relative, found, meant, inside⟩
          exact ⟨_, (replaced specifier _).mpr ⟨relative, found, meant, inside, rfl⟩⟩
      · intro specifier url put
        obtain ⟨_, found, meant, inside, rfl⟩ := (replaced specifier url).mp put
        have spelled : ∀ name ∈ (Path.names file).dropLast, Path.isName name := by
          rw [← folded]
          exact Path.folded_named dir
        obtain ⟨below, under⟩ := meant_under _ specifier found spelled rooted meant inside
        have back := under.leads_back tree (meant_file _ specifier found meant).1
        refine ⟨found, _, meant, back, ?_⟩
        rintro server rfl
        exact not_found_iff server tree _ _ back.named

end Rebased

def siblingProject : FileTree :=
  (((FileTree.empty ["p".toList] 0).write "/p/node_modules/q/package.json"
    (.file "\x7b\x7d".toUTF8 0)).write "/p/node_modules/q/index.js"
      (.file "import './lib.js';\n".toUTF8 0)).write "/p/node_modules/q/lib.js" (.file "1".toUTF8 0)

theorem sibling_import_rebased : ∃ url? url there,
    rebase siblingProject "/p/node_modules/q/index.js" "/p" "import './lib.js';\n" =
      Specifier.rewrite url? "import './lib.js';\n" ∧
    url? "./lib.js" = some url ∧
    LeadsBack siblingProject "/p" url "/p/node_modules/q/lib.js" there ∧
    siblingProject.isFile there = true ∧
    ((Server.mk "/p" [] .passthrough).source siblingProject url).answer ≠
      .error (.fileNotFound url) := by
  obtain ⟨url?, whole, replaced, back⟩ := (rebased_specifiers_exact siblingProject "/p"
    "/p/node_modules/q/index.js" "import './lib.js';\n" (by decide) (by decide) (by decide)).2
      (by decide)
  have meant : meant? siblingProject (Path.names "/p/node_modules/q/index.js").dropLast "./lib.js" =
      some "/p/node_modules/q/lib.js".toList := by decide +kernel
  obtain ⟨url, put⟩ := Option.isSome_iff_exists.mp
    ((replaced "./lib.js").mpr ⟨.inl ⟨"lib.js".toList, rfl⟩, _, meant, by decide⟩)
  obtain ⟨found, there, first, leads, missing⟩ := back "./lib.js" url put
  obtain rfl : "/p/node_modules/q/lib.js".toList = found := Option.some.inj (meant.symm.trans first)
  have exists' : siblingProject.isFile there = true :=
    leads.found.mpr ⟨by decide, leads.short (by decide) (by decide)⟩
  refine ⟨url?, url, there, whole, put, leads, exists', fun lost => ?_⟩
  have absent := ((missing ⟨"/p", [], .passthrough⟩ rfl).mp lost).1
  cases exists'.symm.trans absent

theorem rebased_file_lost :
    (rebase siblingProject "/p/node_modules/q/index.js" "/p/node_modules/q/lib.js"
        "import './lib.js';\n" = "import '/';\n".toList ∧
      meant? siblingProject [("p" : Text), ("node_modules" : Text), ("q" : Text)] "./lib.js" =
        some "/p/node_modules/q/lib.js".toList ∧
      Path.isWithin "/p/node_modules/q/lib.js" "/p/node_modules/q/lib.js" = true ∧
      ((Server.mk "/p/node_modules/q/lib.js" [] .passthrough).source siblingProject "/").answer =
        .error (.fileNotFound "/")) ∧
    (rebase siblingProject "/p/node_modules/q/index.js" (slashed "/p/node_modules/q" 4096)
        "import './lib.js';\n" = "import '/lib.js';\n".toList ∧
      Path.isWithin "/p/node_modules/q/lib.js" (slashed "/p/node_modules/q" 4096) = true ∧
      ((Server.mk (slashed "/p/node_modules/q" 4096) [] .passthrough).source siblingProject
        "/lib.js").answer = .error (.fileNotFound "/lib.js")) := by
  have parts := slashed_components "/p/node_modules/q" 4096 (by decide)
  have under : Under "/p/node_modules/q" "/p/node_modules/q/lib.js" [("lib.js" : Text)] := by
    rw [Under]
    decide
  refine ⟨⟨by decide +kernel, by decide +kernel, by decide, ?_⟩, ?_, ?_, ?_⟩
  · exact (not_found_iff _ siblingProject "/" "/p/node_modules/q/lib.js/" (by decide)).mpr
      ⟨root_directory siblingProject "/p/node_modules/q/lib.js", by decide⟩
  · rw [rebase_same_root _ _ _ parts]
    decide +kernel
  · rw [Path.within_iff, parts]
    decide
  · exact (slashed_root_lost siblingProject ⟨_, [], .passthrough⟩ _ _ _ 4096 rfl (by decide)
      (by decide) under (by decide)).2

end Server
end DevServer
