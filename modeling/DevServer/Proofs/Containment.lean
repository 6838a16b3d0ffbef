import DevServer.Proofs.Directories
import DevServer.Proofs.Folding
import DevServer.Proofs.Responses

set_option autoImplicit false

namespace DevServer

open Text

namespace Path

theorem split_last (front target : Text) :
    (split '/' (front ++ '/' :: target)).getLast? = (split '/' target).getLast? := by
  rw [split_concat, List.getLast?_append, List.getLast?_eq_some_getLast (split_ne_nil '/' target)]
  rfl

theorem segments_last (path : Path) : (segments path).getLast? = (split '/' path).getLast? := by
  unfold segments
  split
  · exact (split_last [] _).symm
  · rfl

theorem join_last (base target : Path) (named : base ≠ []) (relative : isAbsolute target = false) :
    (segments (join base target)).getLast? = (split '/' target).getLast? := by
  rw [segments_last]
  unfold join
  rw [relative]
  by_cases ended : base.getLast? = some '/'
  · obtain ⟨front, whole⟩ := List.getLast?_eq_some_iff.mp ended
    simp only [named, ended, or_true, if_true, Bool.false_eq_true, if_false]
    rw [whole, List.append_assoc]
    exact split_last front target
  · simp only [named, ended, or_self, Bool.false_eq_true, if_false]
    exact split_last base target

theorem join_named (base target : Path) (named : target ≠ []) : join base target ≠ [] := by
  unfold join
  split
  · exact named
  · split
    · exact List.append_ne_nil_of_right_ne_nil _ named
    · simp

theorem join_append (base target ending : Path) (named : target ≠ []) :
    join base target ++ ending = join base (target ++ ending) := by
  cases target with
  | nil => exact absurd rfl named
  | cons c rest =>
      unfold join
      rw [List.cons_append, absolute_cons, absolute_cons]
      split
      · rfl
      · split
        · simp
        · simp

theorem climb_level (parts : List Component) (way : Nat × List Text)
    (level : Component.parent ∉ parts) : (parts.foldl climbStep way).1 = way.1 := by
  induction parts generalizing way with
  | nil => rfl
  | cons part rest ih =>
      simp only [List.mem_cons, not_or] at level
      rw [List.foldl_cons, ih _ level.2]
      cases part with
      | parent => exact absurd rfl level.1
      | root => rfl
      | here => rfl
      | name text => rfl

theorem steps_level (target : Text) (level : ['.', '.'] ∉ split '/' target) :
    Component.parent ∉ steps target := by
  intro member
  obtain ⟨segment, inside, same⟩ := List.mem_filterMap.mp member
  unfold Component.ofSegment? at same
  split at same
  · cases same
  · split at same
    · rename_i double
      exact level (double ▸ inside)
    · cases same

theorem split_ending (target : Text) : ∃ front last, split '/' target = front ++ [last] ∧
    ∀ ending, '/' ∉ ending → split '/' (target ++ ending) = front ++ [last ++ ending] := by
  induction target with
  | nil => exact ⟨[], [], rfl, fun ending flat => split_none '/' ending flat⟩
  | cons c target ih =>
      obtain ⟨front, last, parts, extended⟩ := ih
      by_cases slash : c = '/'
      · refine ⟨[] :: front, last, ?_, fun ending flat => ?_⟩
        · rw [split, if_pos slash, parts]
          rfl
        · rw [List.cons_append, split, if_pos slash, extended ending flat]
          rfl
      · cases front with
        | nil =>
            refine ⟨[], c :: last, ?_, fun ending flat => ?_⟩
            · rw [split, if_neg slash, parts]
              rfl
            · rw [List.cons_append, split, if_neg slash, extended ending flat]
              rfl
        | cons first front =>
            refine ⟨(c :: first) :: front, last, ?_, fun ending flat => ?_⟩
            · rw [split, if_neg slash, parts]
              rfl
            · rw [List.cons_append, split, if_neg slash, extended ending flat]
              rfl

theorem level_returns (base target : Path) (relative : isAbsolute target = false)
    (level : ['.', '.'] ∉ split '/' target)
    (ends : FileTree.endsInDirectory (split '/' target) = false) : Returns base target := by
  have still : (climb target).1 = 0 := climb_level _ _ (steps_level target level)
  unfold Returns
  rw [relative, still, Nat.sub_zero, List.drop_length]
  refine ⟨(climb target).2, ?_, rfl⟩
  obtain ⟨front, segment, whole, _⟩ := split_ending target
  have name : Component.ofSegment? segment = some (.name segment) := by
    unfold FileTree.endsInDirectory at ends
    rw [whole, List.getLast?_concat] at ends
    simp only [Option.any_some, FileTree.isStay, decide_eq_false_iff_not, not_or] at ends
    simp [Component.ofSegment?, ends]
  unfold climb steps
  rw [whole, List.filterMap_append, List.filterMap_cons, name, List.foldl_append]
  simp [climbStep]

end Path

namespace Package

theorem ending_level (target ending : Text) (member : ending ∈ probeEndings)
    (level : ['.', '.'] ∉ split '/' target) : ['.', '.'] ∉ split '/' (target ++ ending) := by
  obtain ⟨front, last, parts, extended⟩ := Path.split_ending target
  have flat : ∀ ending ∈ probeEndings, '/' ∉ ending := by decide
  rw [parts] at level
  rw [extended ending (flat ending member)]
  simp only [List.mem_append, List.mem_singleton, not_or] at level ⊢
  refine ⟨level.1, fun double => ?_⟩
  simp only [probeEndings, List.mem_cons, List.not_mem_nil, or_false] at member
  rcases member with rfl | rfl | rfl
  · exact level.2 (double.trans (List.append_nil last))
  · have letter : 'j' ∈ last ++ (".js" : Text) := List.mem_append_right _ (by decide)
    rw [← double] at letter
    exact absurd letter (by decide)
  · have letter : 'j' ∈ last ++ (".mjs" : Text) := List.mem_append_right _ (by decide)
    rw [← double] at letter
    exact absurd letter (by decide)

variable {tree : FileTree} {root : Path} {specifier : Text}

theorem resolve_some (resolution : Resolution)
    (resolved : resolve tree specifier root = .ok resolution) :
    (Request.ofSpecifier specifier).package ≠ [] ∧ isRelative specifier = false ∧
    ∃ packageRoot manifest,
      packageRoot? tree (Request.ofSpecifier specifier).package root = some packageRoot ∧
      Manifest.read tree packageRoot = .ok manifest ∧
      resolveIn tree packageRoot manifest (Request.ofSpecifier specifier) = .ok resolution.file ∧
      resolution.manifest = manifestPath packageRoot := by
  unfold resolve at resolved
  dsimp only at resolved
  split at resolved
  · cases resolved
  · rename_i bare
    simp only [not_or, Bool.not_eq_true] at bare
    refine ⟨bare.1, bare.2, ?_⟩
    split at resolved
    · cases resolved
    · rename_i packageRoot installed
      cases read : Manifest.read tree packageRoot with
      | error error =>
          rw [read] at resolved
          cases resolved
      | ok manifest =>
          cases inside : resolveIn tree packageRoot manifest (Request.ofSpecifier specifier) with
          | error error =>
              rw [read] at resolved
              simp only [bind, Except.bind, inside] at resolved
              cases resolved
          | ok file =>
              rw [read] at resolved
              simp only [bind, Except.bind, inside] at resolved
              cases resolved
              exact ⟨packageRoot, manifest, installed, read, inside, rfl⟩

theorem package_root_named (package : Text) (packageRoot : Path) (some' : package ≠ [])
    (installed : packageRoot? tree package root = some packageRoot) : packageRoot ≠ [] := by
  obtain ⟨dir, _, same⟩ := List.mem_map.mp (List.mem_of_find?_eq_some installed)
  rw [← same]
  exact Path.join_named _ _ some'

theorem probe_some (packageRoot file : Path) (manifest : Manifest) (request : Request)
    (open' : manifest.exports = none) (asked : request.subpath ≠ [])
    (found : resolveIn tree packageRoot manifest request = .ok file) :
    ∃ ending ∈ probeEndings, file = packageRoot.join (request.subpath ++ ending) ∧
      tree.isFile file = true := by
  unfold resolveIn at found
  rw [open'] at found
  simp only [if_neg asked] at found
  split at found
  · rename_i path probed
    cases found
    obtain ⟨ending, member, same⟩ := List.mem_map.mp (List.mem_of_find?_eq_some probed)
    exact ⟨ending, member, same ▸ Path.join_append _ _ _ asked, List.find?_some probed⟩
  · cases found

theorem dependency_file (server : Server) (cache : Cache) (module : ServedModule)
    (resolution : Resolution) (faithful : cache.Faithful tree server.root)
    (resolved : resolve tree specifier server.root = .ok resolution)
    (served : (server.dependency tree specifier cache).1 = .ok module) :
    module.file = some resolution.file := by
  have fresh := (cached_resolve_fresh specifier cache faithful).1
  rw [resolved] at fresh
  unfold Server.dependency at served
  cases answered : cache.resolve tree specifier server.root with
  | mk answer rest =>
      rw [answered] at fresh served
      change answer = .ok resolution.file at fresh
      subst fresh
      unfold Server.bundled at served
      dsimp only at served
      split at served
      · cases served
      · split at served
        · cases served
        · cases served
          rfl

theorem subpath_contained_iff (tree : FileTree) (root : Path) (specifier : Text)
    (resolution : Resolution) (packageRoot : Path) (manifest : Manifest)
    (resolved : resolve tree specifier root = .ok resolution)
    (installed : packageRoot? tree (Request.ofSpecifier specifier).package root = some packageRoot)
    (described : Manifest.read tree packageRoot = .ok manifest) (open' : manifest.exports = none)
    (asked : (Request.ofSpecifier specifier).subpath ≠ []) :
    let subpath := (Request.ofSpecifier specifier).subpath
    ∃ ending ∈ probeEndings, resolution.file = packageRoot.join (subpath ++ ending) ∧
      (Path.IsInside resolution.file packageRoot ↔ Path.Returns packageRoot (subpath ++ ending)) ∧
      (Path.isAbsolute subpath = false → ['.', '.'] ∉ split '/' subpath →
        Path.IsInside resolution.file packageRoot) ∧
      ∀ (server : Server) (cache : Cache) (module : ServedModule),
        server.root = root → cache.Faithful tree root →
          (server.dependency tree specifier cache).1 = .ok module →
            module.file = some resolution.file := by
  intro subpath
  obtain ⟨package, _, packageRoot', manifest', installed', described', inside, _⟩ :=
    resolve_some resolution resolved
  cases installed.symm.trans installed'
  cases described.symm.trans described'
  obtain ⟨ending, member, whole, file⟩ :=
    probe_some packageRoot resolution.file manifest _ open' asked inside
  have named := package_root_named _ packageRoot package installed
  have inside := Path.join_inside_iff packageRoot (subpath ++ ending) named
  rw [← whole] at inside
  refine ⟨ending, member, whole, inside, fun relative level => ?_, ?_⟩
  · have kept : Path.isAbsolute (subpath ++ ending) = false := by
      cases parts : subpath with
      | nil => exact absurd parts asked
      | cons c rest =>
          rw [parts, Path.absolute_cons] at relative
          rw [List.cons_append, Path.absolute_cons, relative]
    have ends := FileTree.file_ends tree resolution.file file
    unfold FileTree.endsInDirectory at ends
    rw [whole, Path.join_last packageRoot _ named kept] at ends
    exact inside.mpr (Path.level_returns packageRoot _ kept (ending_level subpath ending member level) ends)
  · rintro server cache module rfl faithful served
    exact dependency_file server cache module resolution faithful resolved served

def secretProject : FileTree :=
  (((FileTree.empty ["p".toList] 0).write "/p/node_modules/q/package.json"
    (.file "\x7b\x7d".toUTF8 0)).write "/p/node_modules/q/lib/a.js" (.file "1".toUTF8 0)).write
      "/secret.js" (.file "2".toUTF8 0)

def describesNoExports (tree : FileTree) (packageRoot : Path) : Bool :=
  match Manifest.read tree packageRoot with
  | .ok manifest => manifest.exports.isNone
  | .error _ => false

theorem to_option_some {ε α : Type} (result : Except ε α) (a : α) :
    result.toOption = some a ↔ result = .ok a := by
  cases result with
  | error e => simp [Except.toOption]
  | ok b => simp [Except.toOption]

theorem returning_subpath_contained : ∃ resolution manifest,
    resolve secretProject "q/../q/lib/a" "/p" = .ok resolution ∧
    packageRoot? secretProject "q" "/p" = some "/p/node_modules/q".toList ∧
    Manifest.read secretProject "/p/node_modules/q" = .ok manifest ∧ manifest.exports = none ∧
    resolution.file = "/p/node_modules/q/../q/lib/a.js".toList ∧
    Path.IsInside resolution.file "/p/node_modules/q" := by
  have resolved : resolve secretProject "q/../q/lib/a" "/p" = .ok
      ⟨"/p/node_modules/q/../q/lib/a.js", "/p/node_modules/q/package.json"⟩ :=
    (to_option_some _ _).mp (by decide +kernel)
  have installed : packageRoot? secretProject "q" "/p" = some "/p/node_modules/q".toList := by
    decide +kernel
  have described : describesNoExports secretProject "/p/node_modules/q" = true := by decide +kernel
  unfold describesNoExports at described
  cases read : Manifest.read secretProject "/p/node_modules/q" with
  | error _ =>
      rw [read] at described
      cases described
  | ok manifest =>
      rw [read] at described
      have open' : manifest.exports = none := Option.isNone_iff_eq_none.mp described
      refine ⟨_, manifest, resolved, installed, rfl, open', rfl, ?_⟩
      obtain ⟨ending, member, whole, inside, _⟩ := subpath_contained_iff secretProject "/p"
        "q/../q/lib/a" _ _ manifest resolved installed read open' (by decide)
      simp only [probeEndings, List.mem_cons, List.not_mem_nil, or_false] at member
      rcases member with rfl | rfl | rfl
      · exact absurd whole (by decide)
      · exact inside.mpr ⟨[("lib" : Text), ("a.js" : Text)], by decide, by decide⟩
      · exact absurd whole (by decide)

theorem climbing_subpath_escapes :
    (resolve secretProject "q/../../../secret.js" "/p").toOption = some
      ⟨"/p/node_modules/q/../../../secret.js", "/p/node_modules/q/package.json"⟩ ∧
    packageRoot? secretProject "q" "/p" = some "/p/node_modules/q".toList ∧
    describesNoExports secretProject "/p/node_modules/q" = true ∧
    ((Server.mk "/p" [] .passthrough).dependency secretProject "q/../../../secret.js" .off).1.toOption =
      some ⟨"2", some "/p/node_modules/q/../../../secret.js".toList⟩ ∧
    Path.normalize "/p/node_modules/q/../../../secret.js" = "/secret.js".toList ∧
    ¬ Path.IsInside "/p/node_modules/q/../../../secret.js" "/p/node_modules/q" := by
  refine ⟨by decide +kernel, by decide +kernel, by decide +kernel, by decide +kernel,
    by decide +kernel, ?_⟩
  rintro ⟨more, _, same⟩
  have lengths := congrArg List.length same
  rw [List.length_append] at lengths
  have outside : (Path.components (Path.normalize "/p/node_modules/q/../../../secret.js")).length <
      (Path.components (Path.normalize "/p/node_modules/q")).length := by decide
  omega

end Package
end DevServer
