import DevServer.Proofs.Containment

set_option autoImplicit false

namespace DevServer

open Text

namespace Path

theorem join_dotted (base target : Path) (named : base ≠ []) :
    components (join base ('.' :: '/' :: target)) = components base ++ steps target := by
  rw [join_components base _ named rfl]
  exact congrArg (components base ++ ·) (steps_concat ['.'] target)

end Path

namespace Package

open Json

theorem package_begins (c : Char) (rest : Text) (bare : isRelative (c :: rest) = false) :
    c ≠ '/' ∧ ∃ more, (Request.ofSpecifier (c :: rest)).package = c :: more := by
  have unslashed : c ≠ '/' := by
    rintro rfl
    have relative : isRelative ('/' :: rest) = true :=
      Bool.or_eq_true_iff.mpr (.inr (startsWith_iff.mpr ⟨rest, rfl⟩))
    cases relative.symm.trans bare
  obtain ⟨part, parts, cut⟩ : ∃ part parts, split '/' (c :: rest) = (c :: part) :: parts := by
    rw [split, if_neg unslashed]
    cases split '/' rest with
    | nil => exact ⟨[], [], rfl⟩
    | cons part parts => exact ⟨part, parts, rfl⟩
  obtain ⟨n, length⟩ : ∃ n, nameLength (c :: rest) = n + 1 := by
    rw [nameLength]
    split
    · exact ⟨1, rfl⟩
    · exact ⟨0, rfl⟩
  refine ⟨unslashed, ?_⟩
  rw [Request.ofSpecifier]
  dsimp only
  rw [cut, length, List.take_succ_cons]
  cases List.take n parts with
  | nil => exact ⟨part, rfl⟩
  | cons next more =>
      rw [join_cons]
      exact ⟨_, rfl⟩

theorem package_named (specifier : Text) (asked : specifier ≠ []) (bare : isRelative specifier = false) :
    (Request.ofSpecifier specifier).package ≠ [] := by
  cases specifier with
  | nil => exact absurd rfl asked
  | cons c rest =>
      obtain ⟨_, more, begins⟩ := package_begins c rest bare
      rw [begins]
      exact List.cons_ne_nil c more

theorem package_relative (specifier : Text) (asked : specifier ≠ []) (bare : isRelative specifier = false) :
    Path.isAbsolute (Request.ofSpecifier specifier).package = false := by
  cases specifier with
  | nil => exact absurd rfl asked
  | cons c rest =>
      obtain ⟨unslashed, more, begins⟩ := package_begins c rest bare
      rw [begins, Path.absolute_cons, decide_eq_false unslashed]

section Targets

variable {packageRoot : Path}

-- The root of a package is a directory among packages, and so not the root of the tree.
theorem package_root_below (tree : FileTree) (package : Text) (root : Path)
    (relative : Path.isAbsolute package = false)
    (installed : packageRoot? tree package root = some packageRoot) :
    .name packagesDir ∈ Path.components packageRoot := by
  obtain ⟨dir, _, same⟩ := List.mem_map.mp (List.mem_of_find?_eq_some installed)
  have inside : .name packagesDir ∈ Path.components (Path.join dir packagesDir) := by
    by_cases empty : dir = []
    · rw [empty]
      exact List.mem_cons_self
    · rw [Path.join_components dir packagesDir empty rfl]
      exact List.mem_append_right _ List.mem_cons_self
  rw [← same, installPath, Path.join_components _ package (Path.join_named dir packagesDir (by decide)) relative]
  exact List.mem_append_left _ inside

theorem target_dotted (field : Text) : targetPath packageRoot ('.' :: '/' :: field) = packageRoot.join field := by
  have after : after? ('.' :: '/' :: field) "./" = some field := after?_append "./" field
  rw [targetPath, after]
  rfl

theorem target_plain (field : Text) (plain : ∀ rest, field ≠ '.' :: '/' :: rest) :
    targetPath packageRoot field = packageRoot.join field := by
  rw [targetPath]
  cases after : field.after? "./" with
  | none => rfl
  | some rest => exact absurd (after?_eq_some.mp after) (plain rest)

theorem target_joined_iff (inside : .name packagesDir ∈ Path.components packageRoot) (field : Text) :
    Path.components (targetPath packageRoot field) = Path.components (packageRoot.join field) ↔
      field.startsWith ".//" = false := by
  have named : packageRoot ≠ [] := by
    rintro rfl
    cases inside
  by_cases dotted : ∃ rest, field = '.' :: '/' :: rest
  · obtain ⟨rest, rfl⟩ := dotted
    rw [target_dotted, Path.join_dotted packageRoot rest named]
    cases absolute : Path.isAbsolute rest with
    | true =>
        -- Joining goes to the root of the tree, where the package does not lie.
        have above : packageRoot.join rest = rest := if_pos absolute
        rw [above, Path.components_absolute rest absolute]
        have apart : .root :: Path.steps rest ≠ Path.components packageRoot ++ Path.steps rest := by
          intro same
          have alone : [Component.root] = Path.components packageRoot := List.append_cancel_right same
          rw [← alone] at inside
          cases List.mem_singleton.mp inside
        have slashed : startsWith ('.' :: '/' :: rest) ".//" = true := by
          cases rest with
          | nil => cases absolute
          | cons c rest =>
              rw [Path.absolute_cons, decide_eq_true_eq] at absolute
              exact startsWith_iff.mpr ⟨rest, by rw [absolute]; rfl⟩
        rw [slashed]
        exact ⟨fun same => absurd same apart, fun wrong => (nomatch wrong)⟩
    | false =>
        have unslashed : startsWith ('.' :: '/' :: rest) ".//" = false := by
          rw [Bool.eq_false_iff]
          intro slashed
          obtain ⟨more, whole⟩ := startsWith_iff.mp slashed
          have tail : rest = '/' :: more := (List.cons.inj (List.cons.inj whole).2).2
          rw [tail] at absolute
          cases absolute
        rw [Path.join_components packageRoot rest named absolute, unslashed]
        exact ⟨fun _ => rfl, fun _ => rfl⟩
  · have plain (rest : Text) : field ≠ '.' :: '/' :: rest := fun same => dotted ⟨rest, same⟩
    have unslashed : field.startsWith ".//" = false := by
      rw [Bool.eq_false_iff]
      intro slashed
      obtain ⟨more, whole⟩ := startsWith_iff.mp slashed
      exact plain _ whole
    rw [target_plain field plain, unslashed]
    exact ⟨fun _ => rfl, fun _ => rfl⟩

end Targets

theorem resolve_installed (tree : FileTree) (specifier : Text) (root packageRoot : Path)
    (asked : specifier ≠ []) (bare : isRelative specifier = false)
    (installed : packageRoot? tree (Request.ofSpecifier specifier).package root = some packageRoot) :
    resolve tree specifier root = (Manifest.read tree packageRoot).bind fun manifest =>
      (resolveIn tree packageRoot manifest (Request.ofSpecifier specifier)).map
        fun file => ⟨file, manifestPath packageRoot⟩ := by
  have named := package_named specifier asked bare
  rw [resolve, if_neg (by simp [named, bare]), installed]
  dsimp only
  cases Manifest.read tree packageRoot with
  | error error => rfl
  | ok manifest =>
      simp only [bind, Except.bind]
      cases resolveIn tree packageRoot manifest (Request.ofSpecifier specifier) with
      | error error => rfl
      | ok file => rfl

theorem resolve_described (tree : FileTree) (specifier text : Text) (root packageRoot : Path)
    (value : Value) (asked : specifier ≠ []) (bare : isRelative specifier = false)
    (installed : packageRoot? tree (Request.ofSpecifier specifier).package root = some packageRoot)
    (readable : tree.readText (manifestPath packageRoot) = .ok text)
    (parsed : Json.read Reader.value text = .ok value) :
    resolve tree specifier root =
      (resolveIn tree packageRoot (Manifest.ofValue value) (Request.ofSpecifier specifier)).map
        fun file => ⟨file, manifestPath packageRoot⟩ := by
  have described : Manifest.read tree packageRoot = .ok (Manifest.ofValue value) := by
    rw [Manifest.read, readable]
    simp only [parsed]
  rw [resolve_installed tree specifier root packageRoot asked bare installed, described]
  rfl

def IsMapping (exports : Value) : Prop :=
  (∃ target, exports = .string target) ∨ ∃ members, exports = .object members

theorem mapping_some (exports : Value) (mapping : IsMapping exports) :
    ∃ map, ExportMap.ofValue? exports = some map := by
  rcases mapping with ⟨target, rfl⟩ | ⟨members, rfl⟩
  · exact ⟨_, rfl⟩
  · rw [ExportMap.ofValue?]
    split
    · exact ⟨_, rfl⟩
    · exact ⟨_, rfl⟩

def exported (packageRoot : Path) (map : ExportMap) (request : Request) :
    Except ResolveError Resolution :=
  match lookup map request.subpath with
  | .target target => .ok ⟨targetPath packageRoot target, manifestPath packageRoot⟩
  | .missingKey | .noCondition => .error (.notExported request)

theorem resolve_exported (tree : FileTree) (specifier text : Text) (root packageRoot : Path)
    (value exports : Value) (map : ExportMap) (asked : specifier ≠ [])
    (bare : isRelative specifier = false)
    (installed : packageRoot? tree (Request.ofSpecifier specifier).package root = some packageRoot)
    (readable : tree.readText (manifestPath packageRoot) = .ok text)
    (parsed : Json.read Reader.value text = .ok value)
    (member : value.member? "exports" = some exports)
    (normalized : ExportMap.ofValue? exports = some map) :
    resolve tree specifier root = exported packageRoot map (Request.ofSpecifier specifier) := by
  have closed : (Manifest.ofValue value).exports = some map := by
    rw [Manifest.ofValue]
    dsimp only
    rw [member]
    exact normalized
  rw [resolve_described tree specifier text root packageRoot value asked bare installed readable parsed,
    resolveIn, closed, exported]
  dsimp only
  cases lookup map (Request.ofSpecifier specifier).subpath with
  | target target => rfl
  | missingKey => rfl
  | noCondition => rfl

theorem resolve_refused (tree : FileTree) (specifier text : Text) (root packageRoot : Path) (fault : Fault)
    (asked : specifier ≠ []) (bare : isRelative specifier = false)
    (installed : packageRoot? tree (Request.ofSpecifier specifier).package root = some packageRoot)
    (readable : tree.readText (manifestPath packageRoot) = .ok text)
    (refused : Json.read Reader.value text = .error fault) :
    resolve tree specifier root = .error (.manifestInvalid (manifestPath packageRoot) fault) := by
  have invalid : Manifest.read tree packageRoot = .error (.manifestInvalid (manifestPath packageRoot) fault) := by
    rw [Manifest.read, readable]
    simp only [refused]
  rw [resolve_installed tree specifier root packageRoot asked bare installed, invalid]
  rfl

theorem exported_cases (packageRoot : Path) (map : ExportMap) (request : Request)
    (inside : .name packagesDir ∈ Path.components packageRoot) :
    (∃ target file, lookup map request.subpath = .target target ∧
      exported packageRoot map request = .ok ⟨file, manifestPath packageRoot⟩ ∧
      (target.startsWith ".//" = false →
        Path.components file = Path.components (packageRoot.join target))) ∨
    ((∀ target, lookup map request.subpath ≠ .target target) ∧
      exported packageRoot map request = .error (.notExported request)) := by
  rw [exported]
  cases lookup map request.subpath with
  | target target =>
      exact .inl ⟨target, targetPath packageRoot target, rfl, rfl, (target_joined_iff inside target).mpr⟩
  | missingKey => exact .inr ⟨fun _ => Lookup.noConfusion, rfl⟩
  | noCondition => exact .inr ⟨fun _ => Lookup.noConfusion, rfl⟩

-- Two trees with the package at one place: one manifest that is refused, or two with the
-- same exports, whatever else is in the manifests and in the trees.
theorem exports_decide_alone (tree other : FileTree) (specifier : Text) (root packageRoot : Path)
    (text text' : Text) (asked : specifier ≠ []) (bare : isRelative specifier = false)
    (installed : packageRoot? tree (Request.ofSpecifier specifier).package root = some packageRoot)
    (installed' : packageRoot? other (Request.ofSpecifier specifier).package root = some packageRoot)
    (readable : tree.readText (manifestPath packageRoot) = .ok text)
    (readable' : other.readText (manifestPath packageRoot) = .ok text') :
    let request := Request.ofSpecifier specifier
    (∀ fault, text' = text → Json.read Reader.value text = .error fault →
      resolve tree specifier root = .error (.manifestInvalid (manifestPath packageRoot) fault) ∧
      resolve other specifier root = resolve tree specifier root) ∧
    ∀ value value' exports, Json.read Reader.value text = .ok value →
      Json.read Reader.value text' = .ok value' →
      value.member? "exports" = some exports → value'.member? "exports" = some exports → IsMapping exports →
      resolve other specifier root = resolve tree specifier root ∧
      ∃ map, ExportMap.ofValue? exports = some map ∧
        ((∃ target file, lookup map request.subpath = .target target ∧
          resolve tree specifier root = .ok ⟨file, manifestPath packageRoot⟩ ∧
          (target.startsWith ".//" = false →
            Path.components file = Path.components (packageRoot.join target))) ∨
        ((∀ target, lookup map request.subpath ≠ .target target) ∧
          resolve tree specifier root = .error (.notExported request))) := by
  intro request
  constructor
  · rintro fault rfl refused
    have here := resolve_refused tree specifier text' root packageRoot fault asked bare installed readable refused
    have there := resolve_refused other specifier text' root packageRoot fault asked bare installed' readable' refused
    exact ⟨here, there.trans here.symm⟩
  · intro value value' exports parsed parsed' member member' mapping
    obtain ⟨map, normalized⟩ := mapping_some exports mapping
    have here := resolve_exported tree specifier text root packageRoot value exports map asked bare
      installed readable parsed member normalized
    have there := resolve_exported other specifier text' root packageRoot value' exports map asked bare
      installed' readable' parsed' member' normalized
    have inside := package_root_below tree request.package root (package_relative specifier asked bare) installed
    refine ⟨there.trans here.symm, map, normalized, ?_⟩
    rw [here]
    exact exported_cases packageRoot map request inside

def mainManifest : Text := "\x7b\"main\":\"./s.js\",\"exports\":\"./a.js\"\x7d"

def moduleManifest : Text := "\x7b\"module\":true,\"exports\":\"./a.js\"\x7d"

theorem exports_text (manifest target : Text)
    (given : ((Json.read Reader.value manifest).toOption.bind (Value.member? "exports")).bind Value.text? =
      some target) : ∃ value, Json.read Reader.value manifest = .ok value ∧
        value.member? "exports" = some (.string target) := by
  obtain ⟨exports, member, text⟩ := Option.bind_eq_some_iff.mp given
  obtain ⟨value, read, member⟩ := Option.bind_eq_some_iff.mp member
  refine ⟨value, (to_option_some _ _).mp read, ?_⟩
  cases exports with
  | string target' => rw [member, Option.some.inj text]
  | null => cases text
  | bool _ => cases text
  | number _ => cases text
  | array _ => cases text
  | object _ => cases text

def filedProject (manifest file : Text) : FileTree :=
  ((FileTree.empty ["p".toList] 0).write "/p/node_modules/q/package.json"
    (.file manifest.bytes 0)).write (Path.join "/p/node_modules/q" file) (.file .empty 0)

theorem unexported_file_unfound :
    (filedProject mainManifest "s.js").isFile "/p/node_modules/q/s.js" = true ∧
    resolve (filedProject moduleManifest "a.js") "q/s" "/p" =
      resolve (filedProject mainManifest "s.js") "q/s" "/p" ∧
    resolve (filedProject mainManifest "s.js") "q/s" "/p" = .error (.notExported ⟨"q", "s"⟩) ∧
    ∃ file, resolve (filedProject mainManifest "s.js") "q" "/p" =
      .ok ⟨file, "/p/node_modules/q/package.json"⟩ ∧
      Path.components file = Path.components "/p/node_modules/q/a.js" := by
  have readable : (filedProject mainManifest "s.js").readText (manifestPath "/p/node_modules/q") =
      .ok mainManifest := (to_option_some _ _).mp (by decide +kernel)
  have readable' : (filedProject moduleManifest "a.js").readText (manifestPath "/p/node_modules/q") =
      .ok moduleManifest := (to_option_some _ _).mp (by decide +kernel)
  obtain ⟨value, parsed, member⟩ := exports_text mainManifest "./a.js" (by decide +kernel)
  obtain ⟨value', parsed', member'⟩ := exports_text moduleManifest "./a.js" (by decide +kernel)
  have decided (specifier : Text) (asked : specifier ≠ []) (bare : isRelative specifier = false)
      (named : (Request.ofSpecifier specifier).package = "q") :=
    (exports_decide_alone (filedProject mainManifest "s.js") (filedProject moduleManifest "a.js") specifier "/p"
      "/p/node_modules/q" mainManifest moduleManifest asked bare (by rw [named]; decide +kernel)
      (by rw [named]; decide +kernel) readable readable').2 value value' (.string "./a.js") parsed parsed'
      member member' (.inl ⟨_, rfl⟩)
  refine ⟨by decide +kernel, (decided "q/s" (by decide) (by decide) (by decide)).1, ?_, ?_⟩
  · obtain ⟨_, map, normalized, ⟨target, _, looked, _⟩ | ⟨_, unexported⟩⟩ :=
      decided "q/s" (by decide) (by decide) (by decide)
    · cases normalized
      cases looked
    · exact unexported
  · obtain ⟨_, map, normalized, ⟨target, file, looked, answer, joined⟩ | ⟨unexported, _⟩⟩ :=
      decided "q" (by decide) (by decide) (by decide)
    · cases normalized
      cases looked
      exact ⟨file, answer, (joined (by decide)).trans (by decide)⟩
    · cases normalized
      exact absurd rfl (unexported "./a.js")

def escapingExports : Text := "\x7b\"exports\":\".//x.js\"\x7d"

def endlessNumber : Text := "\x7b\"exports\":\"./x.js\",\"n\":1e999\x7d"

theorem slashed_target_escapes :
    ((Json.read Reader.value escapingExports).toOption.bind (Value.member? "exports")).bind Value.text? =
      some ".//x.js" ∧
    (resolve (filedProject escapingExports "x.js") "q" "/p").toOption =
      some ⟨"/x.js", "/p/node_modules/q/package.json"⟩ ∧
    Path.components "/x.js" ≠ Path.components (Path.join "/p/node_modules/q" ".//x.js") ∧
    ∃ fault, resolve (filedProject endlessNumber "x.js") "q" "/p" =
      .error (.manifestInvalid "/p/node_modules/q/package.json" fault) := by
  refine ⟨by decide +kernel, by decide +kernel, by decide, ?_⟩
  have unread : (Json.read Reader.value endlessNumber).toOption.isNone = true := by decide +kernel
  cases refused : Json.read Reader.value endlessNumber with
  | ok value =>
      rw [refused] at unread
      cases unread
  | error fault =>
      exact ⟨fault, resolve_refused (filedProject endlessNumber "x.js") "q" endlessNumber "/p" "/p/node_modules/q"
        fault (by decide) (by decide) (by decide +kernel) ((to_option_some _ _).mp (by decide +kernel)) refused⟩

end Package
end DevServer
