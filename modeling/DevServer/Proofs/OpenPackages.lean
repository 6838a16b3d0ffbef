import Mathlib.Data.List.Find
import DevServer.Proofs.ClosedExports

set_option autoImplicit false

namespace DevServer.Package

open Text Json

def IsEntry (manifest : Value) (field : Text) : Prop :=
  manifest.member? "module" = some (.string field) ∨
    (∀ text, manifest.member? "module" ≠ some (.string text)) ∧
      manifest.member? "main" = some (.string field)

def IsFirstFile (tree : FileTree) (paths : List Path) (file : Path) : Prop :=
  ∃ before after, paths = before ++ file :: after ∧ tree.isFile file = true ∧
    ∀ path ∈ before, tree.isFile path = false

structure IsOpen (tree : FileTree) (root packageRoot : Path) (package : Text) (manifest : Value) : Prop where
  installed : packageRoot? tree package root = some packageRoot
  described : ∃ text, tree.readText (manifestPath packageRoot) = .ok text ∧
    Json.read Reader.value text = .ok manifest
  unmapped : ∀ exports, manifest.member? "exports" = some exports → ¬ IsMapping exports

def candidates (packageRoot : Path) (subpath : Text) : List Path :=
  let base := packageRoot.join (if subpath = [] then "index.js" else subpath)
  [base, base ++ ".js", base ++ ".mjs"]

section Fields

variable (manifest : Value)

theorem text_some (value : Option Value) (text : Text) :
    value.bind Value.text? = some text ↔ value = some (.string text) := by
  constructor
  · intro found
    obtain ⟨inner, rfl, same⟩ := Option.bind_eq_some_iff.mp found
    cases inner with
    | string other =>
        cases same
        rfl
    | _ => cases same
  · rintro rfl
    rfl

theorem entry_iff (field : Text) : entryField? (Manifest.ofValue manifest) = some field ↔ IsEntry manifest field := by
  change (((manifest.member? "module").bind Value.text?).orElse
    fun _ => (manifest.member? "main").bind Value.text?) = some field ↔ IsEntry manifest field
  rw [IsEntry, ← text_some, ← text_some]
  cases modern : (manifest.member? "module").bind Value.text? with
  | some text =>
      have textual := (text_some _ text).mp modern
      constructor
      · exact .inl
      · rintro (here | ⟨none, _⟩)
        · exact here
        · exact absurd textual (none text)
  | none =>
      have untextual (text : Text) : manifest.member? "module" ≠ some (.string text) := fun textual => by
        rw [(text_some _ text).mpr textual] at modern
        cases modern
      constructor
      · exact fun found => .inr ⟨untextual, found⟩
      · rintro (none | ⟨_, found⟩)
        · cases none
        · exact found

theorem unmapped_open (unmapped : ∀ exports, manifest.member? "exports" = some exports → ¬ IsMapping exports) :
    (Manifest.ofValue manifest).exports = none := by
  rw [Manifest.ofValue]
  dsimp only
  cases member : manifest.member? "exports" with
  | none => rfl
  | some exports =>
      have other := unmapped exports member
      cases exports with
      | string target => exact absurd (.inl ⟨target, rfl⟩) other
      | object members => exact absurd (.inr ⟨members, rfl⟩) other
      | _ => rfl

end Fields

section Requests

variable {tree : FileTree} {packageRoot : Path} {manifest : Value} {request : Request}

theorem first_file_iff (paths : List Path) (file : Path) :
    paths.find? tree.isFile = some file ↔ IsFirstFile tree paths file := by
  rw [List.find?_eq_some_iff_append, IsFirstFile]
  constructor
  · rintro ⟨found, before, after, whole, missed⟩
    exact ⟨before, after, whole, found, fun path member => by simpa using missed path member⟩
  · rintro ⟨before, after, whole, found, missed⟩
    exact ⟨found, before, after, whole, fun path member => by simp [missed path member]⟩

def probed (tree : FileTree) (packageRoot : Path) (request : Request) : Except ResolveError Path :=
  match (candidates packageRoot request.subpath).find? tree.isFile with
  | some file => .ok file
  | none => .error (.unresolvable request)

theorem probe_candidates (subpath : Text) :
    probe? tree (packageRoot.join (if subpath = [] then defaultEntry else subpath)) =
      (candidates packageRoot subpath).find? tree.isFile := by
  have bare (base : Path) : probeEndings.map (base ++ ·) = [base, base ++ ".js", base ++ ".mjs"] :=
    congrArg (· :: [base ++ ".js".toList, base ++ ".mjs".toList]) (List.append_nil base)
  rw [probe?, bare]
  rfl

theorem entry_answers (closed : (Manifest.ofValue manifest).exports = none) (whole : request.subpath = [])
    (field : Text) (entry : IsEntry manifest field) :
    resolveIn tree packageRoot (Manifest.ofValue manifest) request = .ok (targetPath packageRoot field) := by
  rw [resolveIn, closed]
  dsimp only
  rw [if_pos whole, (entry_iff manifest field).mpr entry]

theorem probe_answers (closed : (Manifest.ofValue manifest).exports = none)
    (unnamed : request.subpath ≠ [] ∨ ∀ field, ¬ IsEntry manifest field) :
    resolveIn tree packageRoot (Manifest.ofValue manifest) request = probed tree packageRoot request := by
  have looked := @probe_candidates tree packageRoot request.subpath
  rw [resolveIn, closed, probed, ← looked]
  dsimp only
  by_cases whole : request.subpath = []
  · have none : entryField? (Manifest.ofValue manifest) = none := by
      rw [Option.eq_none_iff_forall_ne_some]
      intro field found
      rcases unnamed with asked | unnamed
      · exact asked whole
      · exact unnamed field ((entry_iff manifest field).mp found)
    rewrite [if_pos whole, if_pos whole, none]
    rfl
  · rewrite [if_neg whole, if_neg whole]
    rfl

theorem probed_ok_iff (file : Path) : probed tree packageRoot request = .ok file ↔
    IsFirstFile tree (candidates packageRoot request.subpath) file := by
  rw [← first_file_iff, probed]
  cases (candidates packageRoot request.subpath).find? tree.isFile with
  | none => simp
  | some other => simp

theorem probed_error_iff : probed tree packageRoot request = .error (.unresolvable request) ↔
    ∀ path ∈ candidates packageRoot request.subpath, tree.isFile path = false := by
  rw [probed]
  cases found : (candidates packageRoot request.subpath).find? tree.isFile with
  | none =>
      have missed := List.find?_eq_none.mp found
      exact ⟨fun _ path member => by simpa using missed path member, fun _ => rfl⟩
  | some file =>
      refine ⟨fun answer => (nomatch answer), fun missed => ?_⟩
      have there := missed file (List.mem_of_find?_eq_some found)
      cases (List.find?_some found).symm.trans there

theorem probed_same (other : FileTree)
    (same : ∀ path ∈ candidates packageRoot request.subpath, other.isFile path = tree.isFile path) :
    probed other packageRoot request = probed tree packageRoot request := by
  rw [probed, probed, List.find?_congr same]

end Requests

theorem entry_joined_iff (tree : FileTree) (specifier : Text) (root packageRoot : Path) (manifest : Value)
    (asked : specifier ≠ []) (bare : isRelative specifier = false)
    (opened : IsOpen tree root packageRoot (Request.ofSpecifier specifier).package manifest) :
    let request := Request.ofSpecifier specifier
    let answer := resolve tree specifier root
    (request.subpath = [] → ∀ field, IsEntry manifest field →
      answer = .ok ⟨targetPath packageRoot field, manifestPath packageRoot⟩ ∧
      (Path.components (targetPath packageRoot field) = Path.components (packageRoot.join field) ↔
        field.startsWith ".//" = false)) ∧
    ((request.subpath ≠ [] ∨ ∀ field, ¬ IsEntry manifest field) →
      (∀ file, answer = .ok ⟨file, manifestPath packageRoot⟩ ↔
        IsFirstFile tree (candidates packageRoot request.subpath) file) ∧
      (answer = .error (.unresolvable request) ↔
        ∀ path ∈ candidates packageRoot request.subpath, tree.isFile path = false) ∧
      ∀ resolution, answer = .ok resolution → tree.isFile resolution.file = true) ∧
    (request.subpath ≠ [] → ∀ other manifest',
      IsOpen other root packageRoot request.package manifest' →
      (∀ path ∈ candidates packageRoot request.subpath, other.isFile path = tree.isFile path) →
      resolve other specifier root = answer) := by
  intro request answer
  have answers (tree : FileTree) (manifest : Value) (opened : IsOpen tree root packageRoot request.package manifest) :
      (Manifest.ofValue manifest).exports = none ∧ resolve tree specifier root =
        (resolveIn tree packageRoot (Manifest.ofValue manifest) request).map
          fun file => ⟨file, manifestPath packageRoot⟩ := by
    obtain ⟨text, readable, parsed⟩ := opened.described
    exact ⟨unmapped_open manifest opened.unmapped, resolve_described tree specifier text root packageRoot
      manifest asked bare opened.installed readable parsed⟩
  obtain ⟨closed, resolved⟩ := answers tree manifest opened
  have inside : .name packagesDir ∈ Path.components packageRoot :=
    package_root_below tree request.package root (package_relative specifier asked bare) opened.installed
  have probes (unnamed : request.subpath ≠ [] ∨ ∀ field, ¬ IsEntry manifest field) :
      answer = (probed tree packageRoot request).map fun file => ⟨file, manifestPath packageRoot⟩ := by
    rw [← probe_answers closed unnamed]
    exact resolved
  refine ⟨fun whole field entry => ⟨?_, target_joined_iff inside field⟩, fun unnamed => ?_,
    fun asked other manifest' opened' same => ?_⟩
  · change resolve tree specifier root = _
    rw [resolved, entry_answers closed whole field entry]
    rfl
  · rw [probes unnamed]
    refine ⟨fun file => ?_, ?_, fun resolution found => ?_⟩
    · rw [← probed_ok_iff]
      cases probed tree packageRoot request <;> simp [Except.map]
    · rw [← probed_error_iff]
      cases probed tree packageRoot request <;> simp [Except.map]
    · cases answered : probed tree packageRoot request with
      | error error =>
          rw [answered] at found
          cases found
      | ok file =>
          rw [answered] at found
          cases found
          obtain ⟨_, _, _, there, _⟩ := (probed_ok_iff file).mp answered
          exact there
  · obtain ⟨closed', resolved'⟩ := answers other manifest' opened'
    rw [resolved', probe_answers closed' (.inl asked), probes (.inl asked), probed_same other same]

def slashedManifest : Text := "\x7b\"module\":\".//x.js\"\x7d"

def openManifest : Text := "\x7b\"module\":true,\"main\":\"./lib.js\"\x7d"

theorem described_open (tree : FileTree) (root packageRoot : Path) (package text field : Text)
    (installed : packageRoot? tree package root = some packageRoot)
    (readable : (tree.readText (manifestPath packageRoot)).toOption = some text)
    (unmapped : (Json.read Reader.value text).toOption.map (fun manifest => (manifest.member? "exports").isNone) =
      some true)
    (entry : (Json.read Reader.value text).toOption.bind (fun manifest => entryField? (Manifest.ofValue manifest)) =
      some field) :
    ∃ manifest, IsOpen tree root packageRoot package manifest ∧ IsEntry manifest field := by
  obtain ⟨manifest, parsed, found⟩ := Option.bind_eq_some_iff.mp entry
  rw [parsed] at unmapped
  have none : manifest.member? "exports" = none := by
    simpa using unmapped
  refine ⟨manifest, ⟨installed, ⟨text, (to_option_some _ _).mp readable, (to_option_some _ _).mp parsed⟩, ?_⟩,
    (entry_iff manifest field).mp found⟩
  intro exports member
  cases none.symm.trans member

theorem main_entry_joined : ∃ manifest, IsOpen (filedProject openManifest "a.mjs") "/p" "/p/node_modules/q" "q" manifest ∧
    IsEntry manifest "./lib.js" ∧
    resolve (filedProject openManifest "a.mjs") "q" "/p" =
      .ok ⟨targetPath "/p/node_modules/q" "./lib.js", "/p/node_modules/q/package.json"⟩ ∧
    Path.components (targetPath "/p/node_modules/q" "./lib.js") =
      Path.components (Path.join "/p/node_modules/q" "./lib.js") ∧
    resolve (filedProject openManifest "a.mjs") "q/a" "/p" =
      .ok ⟨"/p/node_modules/q/a.mjs", "/p/node_modules/q/package.json"⟩ := by
  obtain ⟨manifest, opened, entry⟩ := described_open (filedProject openManifest "a.mjs") "/p" "/p/node_modules/q"
    "q" openManifest "./lib.js" (by decide +kernel) (by decide +kernel) (by decide +kernel)
    (by decide +kernel)
  obtain ⟨whole, _⟩ := entry_joined_iff (filedProject openManifest "a.mjs") "q" "/p" "/p/node_modules/q" manifest
    (by decide) (by decide) opened
  obtain ⟨_, part, _⟩ := entry_joined_iff (filedProject openManifest "a.mjs") "q/a" "/p" "/p/node_modules/q" manifest
    (by decide) (by decide) opened
  obtain ⟨answer, joined⟩ := whole rfl "./lib.js" entry
  refine ⟨manifest, opened, entry, answer, joined.mpr (by decide), ?_⟩
  exact ((part (.inl (by decide))).1 "/p/node_modules/q/a.mjs").mpr
    ⟨["/p/node_modules/q/a", "/p/node_modules/q/a.js"], [], rfl, by decide +kernel, by decide +kernel⟩

theorem slashed_entry_escapes : ∃ manifest, IsOpen (filedProject slashedManifest "x.js") "/p" "/p/node_modules/q" "q" manifest ∧
    IsEntry manifest ".//x.js" ∧
    (resolve (filedProject slashedManifest "x.js") "q" "/p").toOption =
      some ⟨"/x.js", "/p/node_modules/q/package.json"⟩ ∧
    Path.components "/x.js" ≠ Path.components (Path.join "/p/node_modules/q" ".//x.js") ∧
    Path.components (Path.join "/p/node_modules/q" ".//x.js") = Path.components "/p/node_modules/q/x.js" := by
  obtain ⟨manifest, opened, entry⟩ := described_open (filedProject slashedManifest "x.js") "/p" "/p/node_modules/q"
    "q" slashedManifest ".//x.js" (by decide +kernel) (by decide +kernel) (by decide +kernel)
    (by decide +kernel)
  exact ⟨manifest, opened, entry, by decide +kernel, by decide, by decide⟩

end DevServer.Package
