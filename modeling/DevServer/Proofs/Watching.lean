import DevServer.LiveUpdate.Watch
import DevServer.Proofs.ProjectUrls

set_option autoImplicit false

namespace DevServer

open Text

namespace Path

theorem join_join (base : Path) (name rest : Text) (named : isName name)
    (relative : isAbsolute rest = false) : join (join base name) rest = join base (name ++ '/' :: rest) := by
  have some' := (name_moves name named).1
  have closed : (join base name).getLast? ≠ some '/' := by
    have last : (join base name).getLast? = name.getLast? := by
      have relative' : isAbsolute name = false := joined_relative [name] (by simpa using named)
      rw [join, relative']
      by_cases ended : base = [] ∨ base.getLast? = some '/'
      · simp [ended, List.getLast?_append, List.getLast?_eq_some_getLast some']
      · simp [ended, List.getLast?_append, List.getLast?_cons, List.getLast?_eq_some_getLast some']
    rw [last]
    exact fun slash => named.2 (List.mem_of_getLast? slash)
  rw [← join_append base name ('/' :: rest) some', join, relative]
  simp [closed, join_named base name some']

theorem extend_joined (root : Path) (names : List Text) (some' : names ≠ [])
    (named : ∀ name ∈ names, isName name) : extend root names = join root (Text.join ['/'] names) := by
  induction names generalizing root with
  | nil => exact absurd rfl some'
  | cons name rest ih =>
      cases rest with
      | nil => rfl
      | cons next rest =>
          have later (name : Text) (member : name ∈ next :: rest) : isName name :=
            named name (List.mem_cons_of_mem _ member)
          have whole := ih (join root name) (List.cons_ne_nil _ _) later
          rw [extend, List.foldl_cons, ← extend, whole, Text.join_cons, List.append_assoc,
            join_join root name _ (named name List.mem_cons_self) (joined_relative _ later)]
          rfl

theorem extension_of_some (name ending : Text) : extensionOf? name = some ending ↔
    ∃ stem, stem ≠ [] ∧ name = stem ++ '.' :: ending ∧ '.' ∉ ending := by
  constructor
  · intro found
    rw [extensionOf?] at found
    cases cut : cutAt? '.' name.reverse with
    | none =>
        rw [cut] at found
        cases found
    | some parts =>
        obtain ⟨last, front⟩ := parts
        rw [cut] at found
        obtain ⟨whole, unbroken⟩ := (cut_at_some '.' name.reverse last front).mp cut
        cases front with
        | nil => cases found
        | cons c front =>
            cases found
            refine ⟨(c :: front).reverse, by simp, ?_, by simpa using unbroken⟩
            rw [← List.reverse_reverse name, whole]
            simp
  · rintro ⟨stem, some', rfl, unbroken⟩
    have cut : cutAt? '.' (stem ++ '.' :: ending).reverse = some (ending.reverse, stem.reverse) :=
      (cut_at_some '.' _ _ _).mpr ⟨by simp, by simpa using unbroken⟩
    rw [extensionOf?, cut]
    cases turned : stem.reverse with
    | nil => exact absurd (List.reverse_eq_nil_iff.mp turned) some'
    | cons c front => simp

end Path

namespace Server

variable {root file : Path} {names : List Text}

theorem extended_under (root : Path) (names : List Text) (some' : names ≠ [])
    (named : ∀ name ∈ names, Path.isName name) : Under root (Path.extend root names) names := by
  obtain ⟨relative, same, level, undotted⟩ := joined_names names named
  have found : fileForUrl? root ('/' :: Text.join ['/'] names) = some (Path.extend root names) :=
    (file_for_url_some root _ _).mpr ⟨level, by rw [relative, Path.extend_joined root names some' named]⟩
  rw [Under, file_components root _ _ found, leadingDot, if_neg (fun dots => undotted dots.2), same,
    List.append_nil]

theorem Under.file_name (under : Under root file names) (some' : names ≠ []) :
    Path.fileName? file = some (names.getLast some') := by
  rw [Path.fileName?, under, List.getLast?_append, List.getLast?_map, List.getLast?_eq_some_getLast some']
  rfl

theorem Under.found (under : Under root file names) (joined : file = reached root names) :
    fileForUrl? root ('/' :: Text.join ['/'] names) = some file := by
  rw [← project_path root file names under, under.url_reached.1, joined]

end Server

namespace LiveUpdate

def Hides (name : Text) : Prop := name.head? = some '.' ∨ name = packagesDir ∨ name = buildDir

def IsCode (name : Text) : Prop :=
  ∃ stem ending, stem ≠ [] ∧ name = stem ++ '.' :: ending ∧ ending ∈ codeExtensions

section Under

variable {root file : Path} {names : List Text}

theorem ignored_iff (under : Server.Under root file names) :
    isIgnored file root = true ↔ ∃ name ∈ names, Hides name := by
  have dotted (name : Text) : name.startsWith ['.'] = true ↔ name.head? = some '.' := by
    rw [startsWith_iff, List.head?_eq_some_iff]
    rfl
  rw [isIgnored, Path.relative_of_components file root _ under, List.any_map, List.any_eq_true]
  simp [Component.name?, dotted, Hides, ignoredNames]

theorem code_iff (under : Server.Under root file names) (some' : names ≠ []) :
    ((Path.extension? file).any fun ending => codeExtensions.contains ending) = true ↔
      IsCode (names.getLast some') := by
  have undotted : ∀ ending ∈ codeExtensions, '.' ∉ ending := by decide
  rw [Path.extension?, under.file_name some', Option.bind_some, Option.any_eq_true]
  constructor
  · rintro ⟨ending, found, code⟩
    obtain ⟨stem, more, whole, _⟩ := (Path.extension_of_some _ ending).mp found
    exact ⟨stem, ending, more, whole, List.contains_iff_mem.mp code⟩
  · rintro ⟨stem, ending, more, whole, code⟩
    exact ⟨ending, (Path.extension_of_some _ ending).mpr ⟨stem, more, whole, undotted ending code⟩,
      List.contains_iff_mem.mpr code⟩

theorem classify_code (under : Server.Under root file names) (some' : names ≠ [])
    (code : IsCode (names.getLast some')) :
    classify file root = .update ('/' :: Text.join ['/'] names) := by
  rw [classify, if_pos ((code_iff under some').mpr code), Server.project_path root file names under]

theorem classify_other (under : Server.Under root file names) (some' : names ≠ [])
    (other : ¬ IsCode (names.getLast some')) : classify file root = .reload := by
  rw [classify, if_neg (mt (code_iff under some').mp other)]

end Under

theorem changes_lead_back (root : Path) (names : List Text) (some' : names ≠ [])
    (named : ∀ name ∈ names, Path.isName name) :
    let file := Path.extend root names
    let url := '/' :: Text.join ['/'] names
    (isIgnored file root = true ↔ ∃ name ∈ names, Hides name) ∧
    ∀ change, let message := (Notice.mk change file).message root
      (message = .update url ↔ IsCode (names.getLast some')) ∧
      (message = .reload ↔ ¬ IsCode (names.getLast some')) ∧
      ∀ there, message = .update there → Server.fileForUrl? root there = some file ∧
        ∀ (server : Server) (tree : FileTree) (text : Text), server.root = root →
          tree.readText file = .ok text → ∃ code, (server.source tree there).answer = .ok ⟨code, some file⟩ := by
  intro file url
  have under := Server.extended_under root names some' named
  refine ⟨ignored_iff under, fun change => ?_⟩
  intro message
  by_cases code : IsCode (names.getLast some')
  · have told : message = .update url := classify_code under some' code
    rw [told]
    refine ⟨by simp [code], by simp [code], ?_⟩
    intro there same
    have found := under.found (Path.extend_joined root names some' named)
    obtain rfl := Message.update.inj same
    refine ⟨found, ?_⟩
    rintro server tree text rfl readable
    rw [Server.source_read file text found readable]
    exact ⟨_, rfl⟩
  · have told : message = .reload := classify_other under some' code
    rw [told]
    exact ⟨by simp [code], by simp [code], fun there same => nomatch same⟩

def cachedRoot : Path := "/home/.cache/node_modules/"

theorem cached_change_leads_back :
    isIgnored (Path.extend cachedRoot ["src", "my.app.jsx"]) cachedRoot = false ∧
      (Notice.mk .removed (Path.extend cachedRoot ["src", "my.app.jsx"])).message cachedRoot =
        .update "/src/my.app.jsx" ∧
      Server.fileForUrl? cachedRoot "/src/my.app.jsx" =
        some "/home/.cache/node_modules/src/my.app.jsx".toList := by
  have named : ∀ name ∈ [("src".toList : Text), "my.app.jsx".toList], Path.isName name := by
    unfold Path.isName
    decide
  obtain ⟨ignored, changes⟩ := changes_lead_back cachedRoot _ (by decide) named
  obtain ⟨updates, _, back⟩ := changes .removed
  have code : IsCode "my.app.jsx" := ⟨"my.app", "jsx", by decide, by decide, by decide⟩
  refine ⟨?_, updates.mpr code, (back _ (updates.mpr code)).1⟩
  rw [Bool.eq_false_iff, ne_eq, ignored]
  unfold Hides
  decide

theorem updates_told (event : Event) (root : Path) (files : List (List Text)) (url : Text)
    (below : ∀ names ∈ files, names ≠ [] ∧ ∀ name ∈ names, Path.isName name) :
    .update url ∈ (notices event (files.map (Path.extend root)) root).map (Notice.message · root) ↔
      event.change? ≠ none ∧ ∃ names ∈ files, url = '/' :: Text.join ['/'] names ∧
        (∃ last ∈ names.getLast?, IsCode last) ∧ ∀ name ∈ names, ¬ Hides name := by
  cases acts : event.change? with
  | none => simp [notices, acts]
  | some change =>
      have one (names : List Text) (member : names ∈ files) :
          isIgnored (Path.extend root names) root = false ∧
              classify (Path.extend root names) root = .update url ↔
            url = '/' :: Text.join ['/'] names ∧ (∃ last ∈ names.getLast?, IsCode last) ∧
              ∀ name ∈ names, ¬ Hides name := by
        obtain ⟨some', named⟩ := below names member
        have under := Server.extended_under root names some' named
        rw [Bool.eq_false_iff, ne_eq, ignored_iff under, List.getLast?_eq_some_getLast some']
        by_cases code : IsCode (names.getLast some')
        · rw [classify_code under some' code]
          simp [code, and_comm, eq_comm]
        · rw [classify_other under some' code]
          simp [code]
      rw [notices, acts, List.map_map, List.mem_map]
      constructor
      · rintro ⟨path, inside, told⟩
        obtain ⟨member, watched⟩ := List.mem_filter.mp inside
        obtain ⟨names, listed, rfl⟩ := List.mem_map.mp member
        exact ⟨nofun, names, listed, (one names listed).mp ⟨by simpa using watched, told⟩⟩
      · rintro ⟨_, names, listed, meant⟩
        obtain ⟨watched, told⟩ := (one names listed).mpr meant
        exact ⟨_, List.mem_filter.mpr ⟨List.mem_map_of_mem listed, by simpa using watched⟩, told⟩

end LiveUpdate
end DevServer
