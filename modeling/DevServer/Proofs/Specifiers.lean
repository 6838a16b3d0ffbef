import DevServer.FileTree.Edit
import DevServer.Proofs.RoutedLines
import DevServer.Server.Basic

set_option autoImplicit false

namespace DevServer.Specifier

open Text

def routedLine (line : Text) : Text := render routed (linePieces line)

def specifiersOf (line : Text) : List Text := (linePieces line).filterMap Piece.found?

theorem found_routed (pieces : List (Piece Text)) :
    (pieces.map routedPiece).filterMap Piece.found? =
      (pieces.filterMap Piece.found?).map routed := by
  induction pieces with
  | nil => rfl
  | cons piece rest ih =>
      cases piece with
      | kept c => exact ih
      | found specifier => exact congrArg (List.cons (routed specifier)) ih

theorem render_routed_twice (pieces : List (Piece Text)) :
    render routed (pieces.map routedPiece) = render routed pieces := by
  induction pieces with
  | nil => rfl
  | cons piece rest ih =>
      rw [List.map_cons, render_cons, render_cons, ih]
      cases piece with
      | kept c => rfl
      | found specifier => exact congrArg (· ++ render routed rest) (routed_routed specifier)

theorem routed_line_again (line : Text) : routedLine (routedLine line) = routedLine line := by
  unfold routedLine
  rw [(line_routed line).2, render_routed_twice]

theorem routed_line_specifiers (line : Text) :
    specifiersOf (routedLine line) = (specifiersOf line).map routed := by
  unfold specifiersOf routedLine
  rw [(line_routed line).2, found_routed]

theorem chomp_specifiers (line : Text) : specifiersOf (chomp line) = specifiersOf line := by
  rcases chomp_cases line with same | cut
  · rw [← same]
  · have whole := line_return (chomp line)
    rw [← cut] at whole
    unfold specifiersOf
    rw [whole, List.filterMap_append]
    simp [Piece.found?]

theorem chomp_routed_line (line : Text) (settled : routedLine line = line) :
    routedLine (chomp line) = chomp line := by
  rcases chomp_cases line with same | cut
  · rw [← same, settled]
  · have whole : routedLine line = routedLine (chomp line) ++ ['\r'] := by
      unfold routedLine
      rw [cut, line_return, render_append, ← cut]
      rfl
    rw [settled] at whole
    exact List.append_cancel_right (whole.symm.trans cut)

theorem routed_line_empty : routedLine [] = [] := by decide

theorem routed_line_feed (line : Text) (absent : '\n' ∉ line) : '\n' ∉ routedLine line := by
  have routed := (line_routed line).1
  change Routed line (routedLine line) at routed
  generalize routedLine line = other at routed
  induction routed with
  | nil => exact absent
  | keep c _ ih =>
      simp only [List.mem_cons, not_or] at absent ⊢
      exact ⟨absent.1, ih absent.2⟩
  | route quote _ _ ih =>
      simp only [List.mem_cons, not_or, List.mem_append] at absent ⊢
      exact ⟨absent.1, by decide, ih absent.2⟩

theorem render_parts (print : Text → Text) (parts : List Text) :
    render print (linewiseOf (.kept '\n') linePieces parts) =
      linewiseOf '\n' (fun line => render print (linePieces line)) parts := by
  induction parts with
  | nil => rfl
  | cons line rest ih =>
      cases rest with
      | nil =>
          rw [linewiseOf, linewiseOf]
          split
          · rfl
          · rfl
      | cons next rest =>
          rw [linewise_cons, linewise_cons, render_append, render_cons, ih]
          rfl

theorem rewrite_bare_lines (code : Text) : rewriteBare code = mapLines routedLine code :=
  render_parts routed (split '\n' code)

example : rewriteBare "import a from 'vue';\r\nlet b = import('./b');\r\n" =
    "import a from '/@modules/vue';\nlet b = import('./b');\n".toList := by
  decide

theorem routed_parts (code : Text) :
    split '\n' (rewriteBare code) = editParts routedLine (split '\n' code) := by
  rw [rewrite_bare_lines]
  exact split_map_lines routedLine routed_line_empty routed_line_feed code

theorem parts_specifiers (parts : List Text) :
    (linewiseOf (.kept '\n') linePieces (editParts routedLine parts)).filterMap Piece.found? =
      ((linewiseOf (.kept '\n') linePieces parts).filterMap Piece.found?).map routed := by
  have last (text : Text) : (linewiseOf (Piece.kept '\n') linePieces [text]).filterMap Piece.found? =
      specifiersOf text := by
    rw [linewiseOf]
    split
    · rename_i empty
      rw [empty]
      rfl
    · rfl
  have line (text next : Text) (rest : List Text) :
      (linewiseOf (Piece.kept '\n') linePieces (text :: next :: rest)).filterMap Piece.found? =
        specifiersOf (chomp text) ++
          (linewiseOf (Piece.kept '\n') linePieces (next :: rest)).filterMap Piece.found? := by
    rw [linewise_cons, List.filterMap_append, List.filterMap_cons]
    rfl
  induction parts with
  | nil => rfl
  | cons part rest ih =>
      cases rest with
      | nil =>
          rw [editParts, last, last, routed_line_specifiers]
      | cons next rest =>
          rw [edit_parts_cons, line]
          cases later : editParts routedLine (next :: rest) with
          | nil => exact absurd later (edit_parts_ne_nil _ _ (List.cons_ne_nil _ _))
          | cons other tail =>
              rw [line, ← later, ih, chomp_specifiers, routed_line_specifiers, List.map_append]

-- Lines are compared without their returns, which only the first pass can take away.
theorem parts_settled (parts : List Text) :
    editParts routedLine (editParts routedLine parts) = editParts id (editParts routedLine parts) := by
  induction parts with
  | nil => rfl
  | cons part rest ih =>
      cases rest with
      | nil => exact congrArg (fun line => [line]) (routed_line_again part)
      | cons next rest =>
          rw [edit_parts_cons]
          cases later : editParts routedLine (next :: rest) with
          | nil => exact absurd later (edit_parts_ne_nil _ _ (List.cons_ne_nil _ _))
          | cons other tail =>
              rw [edit_parts_cons, edit_parts_cons, ← later, ih,
                chomp_routed_line _ (routed_line_again (chomp part))]
              rfl

theorem all_routed (code : Text) : all (rewriteBare code) = (all code).map routed := by
  unfold all pieces linewise
  rw [routed_parts]
  exact parts_specifiers (split '\n' code)

theorem rewrite_bare_again (code : Text) :
    rewriteBare (rewriteBare code) = dropReturns (rewriteBare code) := by
  rw [← map_lines_id, rewrite_bare_lines (rewriteBare code), mapLines, mapLines, linewise, linewise,
    routed_parts, linewise_join _ routed_line_empty, linewise_join id rfl, parts_settled]

theorem none_bare (code : Text) : ∀ specifier ∈ all (rewriteBare code), isBare specifier = false := by
  rw [all_routed]
  intro specifier member
  obtain ⟨original, _, same⟩ := List.mem_map.mp member
  rw [← same]
  exact routed_not_bare original

theorem source_settled (server : Server) (tree : FileTree) (url : Text) (module : ServedModule)
    (plain : server.toolchain = .passthrough) (served : (server.source tree url).answer = .ok module) :
    ∀ specifier ∈ all module.code, isBare specifier = false := by
  unfold Server.source at served
  split at served
  · cases served
  · split at served
    · split at served
      · cases served
        have nothing : all Server.emptyStyle = [] := by decide
        rw [nothing]
        simp
      · cases served
    · split at served
      · cases served
      · cases served
        rw [plain]
        exact none_bare _

theorem dependency_settled (server : Server) (tree : FileTree) (specifier : Text)
    (cache : Package.Cache) (module : ServedModule)
    (served : (server.dependency tree specifier cache).1 = .ok module) :
    ∀ specifier ∈ all module.code, isBare specifier = false := by
  unfold Server.dependency at served
  split at served
  · cases served
  · unfold Server.bundled at served
    split at served
    · cases served
    · split at served
      · cases served
      · cases served
        exact none_bare _

theorem specifiers_settle (code : Text) (server : Server) (tree : FileTree) :
    all (rewriteBare code) =
        (all code).map (fun specifier =>
          if isBare specifier then modulesRoute ++ specifier else specifier) ∧
      (∀ specifier ∈ all (rewriteBare code), isBare specifier = false) ∧
      rewriteBare (rewriteBare code) = dropReturns (rewriteBare code) ∧
      (∀ url module, server.toolchain = .passthrough →
        (server.source tree url).answer = .ok module →
          ∀ specifier ∈ all module.code, isBare specifier = false) ∧
      (∀ requested cache module, (server.dependency tree requested cache).1 = .ok module →
        ∀ specifier ∈ all module.code, isBare specifier = false) := by
  refine ⟨?_, none_bare code, rewrite_bare_again code, ?_, ?_⟩
  · rw [all_routed]
    apply List.map_congr_left
    intro specifier _
    cases bare : isBare specifier with
    | true => exact routed_bare specifier bare
    | false => exact routed_other specifier bare
  · exact fun url module plain served => source_settled server tree url module plain served
  · exact fun requested cache module served =>
      dependency_settled server tree requested cache module served

def importingProject : FileTree :=
  (((FileTree.empty ["p".toList] 0).write "/p/a.js" (.file "import 'q';".toUTF8 0)).write
    "/p/node_modules/q/package.json" (.file "\x7b\x7d".toUTF8 0)).write
      "/p/node_modules/q/index.js" (.file "import 'r';".toUTF8 0)

def plainServer : Server := ⟨"/p", [], .passthrough⟩

theorem served_specifiers_settle : ∃ source dependency : ServedModule,
    (plainServer.source importingProject "/a.js").answer = .ok source ∧
    (plainServer.dependency importingProject "q" .off).1 = .ok dependency ∧
    source.code = "import '/@modules/q';" ∧ dependency.code = "import '/@modules/r';" ∧
    (∀ specifier ∈ all source.code, isBare specifier = false) ∧
    ∀ specifier ∈ all dependency.code, isBare specifier = false := by
  obtain ⟨_, _, _, sources, dependencies⟩ :=
    specifiers_settle "import 'q';" plainServer importingProject
  have read : ((plainServer.source importingProject "/a.js").answer.toOption.map
      ServedModule.code) = some "import '/@modules/q';".toList := by decide +kernel
  have resolved : ((plainServer.dependency importingProject "q" .off).1.toOption.map
      ServedModule.code) = some "import '/@modules/r';".toList := by decide +kernel
  cases one : (plainServer.source importingProject "/a.js").answer with
  | error _ =>
      rw [one] at read
      cases read
  | ok source =>
      cases two : (plainServer.dependency importingProject "q" .off).1 with
      | error _ =>
          rw [two] at resolved
          cases resolved
      | ok dependency =>
          rw [one] at read
          rw [two] at resolved
          exact ⟨source, dependency, rfl, rfl, Option.some.inj read, Option.some.inj resolved,
            sources _ source rfl one, dependencies _ _ dependency two⟩

end DevServer.Specifier
