import DevServer.Proofs.Rebasing

set_option autoImplicit false

namespace DevServer

open Text

namespace Path

theorem normalize_join (dir other specifier : Path) (same : components dir = components other)
    (relative : isAbsolute specifier = false) :
    normalize (join dir specifier) = normalize (join other specifier) := by
  by_cases empty : dir = []
  · have empty' : other = [] := by
      rw [empty] at same
      exact components_nil other same.symm
    rw [empty, empty']
  · have named : other ≠ [] := by
      rintro rfl
      exact empty (components_nil dir same)
    have kind : isAbsolute dir = isAbsolute other := by
      rw [Bool.eq_iff_iff, absolute_iff, absolute_iff, same]
    have folds : folded dir = folded other := by rw [folded, folded, same]
    change ofSegments _ (folded _) = ofSegments _ (folded _)
    rw [join_absolute dir specifier empty relative, join_absolute other specifier named relative,
      join_folded dir specifier empty relative, join_folded other specifier named relative, kind, folds]

end Path

namespace Server

variable {tree : FileTree} {root file there : Path}

theorem rebase_same_file (code : Text) (same : Path.components file = Path.components there) :
    rebase tree file root code = rebase tree there root code := by
  have put (dir other : Path) (same : Path.components dir = Path.components other) :
      rebased? tree dir root = rebased? tree other root := by
    funext specifier
    rw [rebased?, rebased?]
    by_cases relative : IsRelative specifier
    · rw [Path.normalize_join dir other specifier same (relative_specifier specifier relative)]
    · have closed := Bool.eq_false_iff.mpr fun opens => relative ((starts_relative specifier).mp opens)
      rw [closed]
      rfl
  rw [rebase, rebase]
  rcases Path.parent_same file there same with ⟨none, none'⟩ | ⟨dir, other, above, above', parts⟩
  · rw [none, none']
  · rw [above, above']
    dsimp only
    rw [put dir other parts]

def dependencyText (tree : FileTree) (root file : Path) (text : Text) : Text :=
  Specifier.rewriteBare (dependencyCode tree root file text)

theorem dependency_served (plugins : Pipeline) (specifier text : Text) (cache : Package.Cache)
    (resolved : (cache.resolve tree specifier root).1 = .ok file)
    (readable : tree.readText file = .ok text) :
    ((Server.mk root plugins .passthrough).dependency tree specifier cache).1 =
      .ok ⟨dependencyText tree root file text, some file⟩ := by
  rw [dependency]
  cases answered : cache.resolve tree specifier root with
  | mk answer rest =>
      rw [answered] at resolved
      dsimp only at resolved
      rw [resolved]
      dsimp only
      rw [bundled, readable]
      rfl

theorem source_served (plugins : Pipeline) (url text : Text) (named : fileForUrl? root url = some there)
    (inPackages : isInPackages there = true) (readable : tree.readText there = .ok text) :
    (Server.mk root plugins .passthrough).source tree url =
      ⟨[], .ok ⟨dependencyText tree root there text, some there⟩⟩ := by
  rw [source_read there text named readable, convert, if_pos inPackages]
  rfl

theorem source_missing (server : Server) (url : Text) (named : fileForUrl? server.root url = some there)
    (missing : tree.isFile there = false) : server.source tree url =
      ⟨[], if isStyle there then .ok ⟨emptyStyle, none⟩ else .error (.fileNotFound url)⟩ := by
  rw [source, named]
  dsimp only
  rw [if_pos (by simp [missing])]
  by_cases style : isStyle there = true
  · rw [if_pos style, if_pos style]
  · rw [if_neg style, if_neg style]

-- By specifier a file is served; by its URL it is served with the same code, or it is not
-- found there. No plugin sees it.
theorem routes_agree (tree : FileTree) (root file : Path) (specifier text : Text) (names : List Text)
    (cache : Package.Cache) (resolved : (cache.resolve tree specifier root).1 = .ok file)
    (readable : tree.readText file = .ok text) (under : Under root file names)
    (inPackages : packagesDir ∈ Path.names file) :
    ∃ code there, LeadsBack tree root (LiveUpdate.projectPath file root) file there ∧
      ∀ plugins : Pipeline,
        ((Server.mk root plugins .passthrough).dependency tree specifier cache).1 =
          .ok ⟨code, some file⟩ ∧
        (Server.mk root plugins .passthrough).source tree (LiveUpdate.projectPath file root) =
          ⟨[], if tree.isFile there then .ok ⟨code, some there⟩
            else if isStyle there then .ok ⟨emptyStyle, none⟩
            else .error (.fileNotFound (LiveUpdate.projectPath file root))⟩ := by
  have back := under.leads_back tree (FileTree.isFile_of_readText readable)
  refine ⟨dependencyText tree root file text, reached root names, back, fun plugins => ⟨?_, ?_⟩⟩
  · exact dependency_served plugins specifier text cache resolved readable
  · cases found : tree.isFile (reached root names) with
    | false => exact source_missing _ _ back.named found
    | true =>
        have packaged : isInPackages (reached root names) = true := by
          rw [isInPackages, List.contains_iff_mem, Path.names, back.same]
          exact inPackages
        have same : dependencyText tree root (reached root names) text =
            dependencyText tree root file text := by
          rw [dependencyText, dependencyText, dependencyCode, dependencyCode,
            rebase_same_file _ back.same]
        rw [source_served plugins _ text back.named packaged ((back.alike found).trans readable), same]
        rfl

theorem sibling_routes_agree : ∃ code there,
    ((Server.mk "/p" [] .passthrough).dependency siblingProject "q" .off).1 =
      .ok ⟨code, some "/p/node_modules/q/index.js".toList⟩ ∧
    (Server.mk "/p" [] .passthrough).source siblingProject "/node_modules/q/index.js" =
      ⟨[], .ok ⟨code, some there⟩⟩ ∧
    Path.components there = Path.components "/p/node_modules/q/index.js" := by
  have under : Under "/p" "/p/node_modules/q/index.js"
      [("node_modules" : Text), ("q" : Text), ("index.js" : Text)] := by
    rw [Under]
    decide
  obtain ⟨code, there, leads, served⟩ := routes_agree siblingProject "/p" "/p/node_modules/q/index.js" "q"
    "import './lib.js';\n" _ .off
    ((Package.to_option_some _ _).mp (by decide +kernel))
    ((Package.to_option_some _ _).mp (by decide +kernel)) under (by decide)
  obtain ⟨asked, sent⟩ := served []
  have found : siblingProject.isFile there = true :=
    leads.found.mpr ⟨by decide, leads.short (by decide) (by decide)⟩
  rw [found] at sent
  exact ⟨code, there, asked, sent, leads.same⟩

theorem routes_disagree :
    isInPackages "/p/node_modules/q/index.js" = true ∧
    (Under "/p/node_modules/q/index.js" "/p/node_modules/q/index.js" [] ∧
      ((Server.mk "/p/node_modules/q/index.js" [] .passthrough).dependency siblingProject "q" .off).1 =
        .ok ⟨"import './lib.js';\n", some "/p/node_modules/q/index.js".toList⟩ ∧
      LiveUpdate.projectPath "/p/node_modules/q/index.js" "/p/node_modules/q/index.js" = "/".toList ∧
      ((Server.mk "/p/node_modules/q/index.js" [] .passthrough).source siblingProject "/").answer =
        .error (.fileNotFound "/")) ∧
    (Under (slashed "/p/node_modules/q" 4096) "/p/node_modules/q/index.js" [("index.js" : Text)] ∧
      ((Server.mk (slashed "/p/node_modules/q" 4096) [] .passthrough).dependency
        siblingProject "q" .off).1 =
        .ok ⟨"import '/lib.js';\n", some "/p/node_modules/q/index.js".toList⟩ ∧
      LiveUpdate.projectPath "/p/node_modules/q/index.js" (slashed "/p/node_modules/q" 4096) =
        "/index.js".toList ∧
      ((Server.mk (slashed "/p/node_modules/q" 4096) [] .passthrough).source siblingProject
        "/index.js").answer = .error (.fileNotFound "/index.js")) := by
  have parts := slashed_components "/p/node_modules/q" 4096 (by decide)
  have under : Under "/p/node_modules/q" "/p/node_modules/q/index.js" [("index.js" : Text)] := by
    rw [Under]
    decide
  have readable : siblingProject.readText "/p/node_modules/q/index.js" = .ok "import './lib.js';\n".toList :=
    (Package.to_option_some _ _).mp (by decide +kernel)
  have resolved : (Package.Cache.off.resolve siblingProject "q" (slashed "/p/node_modules/q" 4096)).1 =
      .ok "/p/node_modules/q/index.js".toList := by
    have same := Package.resolve_root siblingProject (slashed "/p/node_modules/q" 4096) "/p/node_modules" "q"
      (Package.package_root_slashed siblingProject _ "/p/node_modules/q" _ 4096
        (by decide) (by decide) (by decide) (by decide) (by decide) (by decide))
    have found : Package.resolve siblingProject "q" "/p/node_modules" =
        .ok ⟨"/p/node_modules/q/index.js", "/p/node_modules/q/package.json"⟩ :=
      (Package.to_option_some _ _).mp (by decide +kernel)
    rw [Package.Cache.resolve]
    dsimp only [Package.Cache.get]
    rw [same, found]
  obtain ⟨url, lost⟩ := slashed_root_lost siblingProject
    ⟨slashed "/p/node_modules/q" 4096, [], .passthrough⟩ _ _ _ 4096 rfl (by decide) (by decide) under
      (by decide)
  refine ⟨by decide, ⟨?_, ?_, by decide, ?_⟩, ?_, ?_, url, lost⟩
  · rw [Under]
    decide
  · exact (Package.to_option_some _ _).mp (by decide +kernel)
  · exact (not_found_iff _ siblingProject "/" "/p/node_modules/q/index.js/" (by decide)).mpr
      ⟨root_directory siblingProject "/p/node_modules/q/index.js", by decide⟩
  · rw [Under, parts]
    exact under
  · rw [dependency_served _ "q" _ .off resolved readable, dependencyText, dependencyCode,
      rebase_same_root _ "/p/node_modules/q" _ parts]
    exact (Package.to_option_some _ _).mp (by decide +kernel)

end Server
end DevServer
