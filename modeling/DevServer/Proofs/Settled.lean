import DevServer.FileTree.Edit
import DevServer.Proofs.Assignments
import DevServer.Proofs.Exports
import DevServer.Proofs.Returns

set_option autoImplicit false

namespace DevServer.CommonJs

open Text

section Unmatched

theorem unmatched_properties (before : Option Char) (text : Text)
    (avoids : Avoids definesProperty text) : matchesFrom propertyMatcher before text = false := by
  induction text generalizing before with
  | nil => rfl
  | cons c text ih =>
      obtain ⟨here, avoids⟩ := (avoids_cons definesProperty c text).mp avoids
      have later := ih (some c) avoids
      unfold definesProperty at here
      rw [property_parts] at here
      rw [matchesFrom, property_parts, here, later]
      rfl

theorem unmatched_objects (c : Char) (text : Text) (avoids : Avoids assignsObject (c :: text)) :
    matchesFrom objectMatcher (some c) text = false := by
  induction text generalizing c with
  | nil => rfl
  | cons d text ih =>
      obtain ⟨start, avoids⟩ := (avoids_cons assignsObject c _).mp avoids
      have later := ih d avoids
      have here : (objectMatcher (some c) (d :: text)).isSome = false := by
        by_cases feed : c = '\n'
        · subst feed
          change (objectMatcher none (d :: text)).isSome = false at start
          rw [Bool.eq_false_iff] at start ⊢
          intro found
          exact start ((object_iff none _).mpr ⟨rfl, ((object_iff _ _).mp found).2⟩)
        · rw [Bool.eq_false_iff]
          intro found
          have starts := ((object_iff _ _).mp found).1
          simp [feed] at starts
      rw [matchesFrom, here, later]
      rfl

theorem unmatched_objects_start (text : Text) (avoids : Avoids assignsObject ('\n' :: text)) :
    matchesFrom objectMatcher none text = false := by
  have line := unmatched_objects '\n' text avoids
  cases text with
  | nil => rfl
  | cons c text =>
      rw [matchesFrom, Bool.or_eq_false_iff] at line ⊢
      refine ⟨?_, line.2⟩
      rw [Bool.eq_false_iff] at line ⊢
      intro found
      exact line.1 ((object_iff _ _).mpr ⟨rfl, ((object_iff none _).mp found).2⟩)

end Unmatched

structure Declared (text : Text) : Prop where
  properties : Avoids definesProperty text
  objects : Avoids assignsObject ('\n' :: text)
  assignments : Avoids assignsExport ('\n' :: text)

section Declared

variable {text : Text}

theorem declared_exports (source : Text) (absent : '\r' ∉ source) : Declared (normalizeExports source) := by
  have unreturned := returns_objects _ (returns_properties source absent)
  have lines := export_lines_edited _ unreturned
  have objects := replaces_edited objectDeclarations object_consumes none
    (rewrite propertyMatcher Property.declaration source)
  obtain ⟨starts, later⟩ := objects_declared none (rewrite propertyMatcher Property.declaration source)
  have declared : Avoids assignsObject
      ('\n' :: rewrite objectMatcher objectDeclarations
        (rewrite propertyMatcher Property.declaration source)) := by
    refine (avoids_cons assignsObject '\n' _).mpr ⟨?_, later⟩
    have start := starts rfl
    change (objectMatcher none (render _ (scanFrom objectMatcher 0 none _))).isSome = false
    rw [start]
    rfl
  refine ⟨?_, ?_, export_lines_unassigned _⟩
  · exact inert_properties assigned_opens (by decide) assigned_inert lines
      (object_properties objects (properties_declared none source))
  · exact inert_objects assigned_opens (by decide) assigned_inert (lines.keep '\n') declared

theorem declared_repaired (tree : FileTree) (file : Path) (declared : Declared text) :
    Declared (repairExtensions tree file text) := by
  have edited := relative_edited tree ((Path.parent? file).getD ['/']) none text
  refine ⟨?_, ?_, repaired_assignments tree _ text declared.assignments⟩
  · exact inert_properties extension_opens (by decide) extension_inert edited declared.properties
  · exact inert_objects extension_opens (by decide) extension_inert (edited.keep '\n') declared.objects

theorem declared_word (word new : Text) (begins : ∃ more, new = "new URL(" ++ more)
    (solid : ∃ c rest, word = c :: rest ∧ isSpace c = false ∧ c ≠ ',')
    (plain : word.all (fun c => isInner c && c != '\n') = true)
    (clean : new.all (fun c => isInner c && c != '\n' && c != 'O' && c != 'v') = true)
    (declared : Declared text) : Declared (replaceWord word new text) := by
  have some' : word ≠ [] := by
    obtain ⟨c, rest, rfl, _⟩ := solid
    exact List.cons_ne_nil _ _
  have edited := replaces_edited (fun _ => new) (word_consumes word some') none text
  have opens := word_opens "new URL(" begins solid
  have inner : word.all isInner = true := by
    rw [List.all_eq_true] at plain ⊢
    intro c member
    exact (Bool.and_eq_true _ _ ▸ plain c member : isInner c = true ∧ _).1
  have inert := word_inert inner clean
  refine ⟨?_, ?_, ?_⟩
  · exact inert_properties opens (by decide) inert edited declared.properties
  · exact inert_objects opens (by decide) inert (edited.keep '\n') declared.objects
  · apply word_assignments word new ?_ ?_ ?_ some' text declared.assignments
    · obtain ⟨more, rfl⟩ := begins
      refine ⟨'(', ?_, by decide⟩
      have before : ∀ c ∈ "new URL(".toList, (c != '=') = true := List.all_eq_true.mp (by decide)
      rw [List.takeWhile_append_of_pos before]
      exact List.mem_append_left _ (by decide)
    · intro member
      exact absurd (List.all_eq_true.mp plain _ member) (by decide)
    · intro member
      exact absurd (List.all_eq_true.mp clean _ member) (by decide)

theorem declared_globals (declared : Declared text) : Declared (replacePathGlobals text) := by
  apply declared_word "__dirname" _ ⟨_, rfl⟩ ⟨'_', _, rfl, rfl, by decide⟩ (by decide) (by decide)
  exact declared_word "__filename" _ ⟨_, rfl⟩ ⟨'_', _, rfl, rfl, by decide⟩ (by decide) (by decide) declared

theorem declared_same (declared : Declared text) (absent : '\r' ∉ text) :
    normalizeExports text = text := by
  have properties : rewrite propertyMatcher Property.declaration text = text :=
    scan_unmatched _ none text (unmatched_properties none text declared.properties)
  have objects : rewrite objectMatcher objectDeclarations text = text :=
    scan_unmatched _ none text (unmatched_objects_start text declared.objects)
  unfold normalizeExports
  rw [properties, objects]
  apply map_lines_same exportLine text absent
  intro line member
  apply unassigned_same
  exact (assigns_iff text).mp declared.assignments line (mem_lines text line absent member)

theorem exports_settled (tree : FileTree) (file : Path) (source : Text) (absent : '\r' ∉ source) :
    normalizeExports (toModule tree file source) = toModule tree file source := by
  have unreturned := returns_imports _ (returns_lift source absent)
  apply declared_same ?_ (returns_module tree file source absent)
  exact declared_globals (declared_repaired tree file (declared_exports _ unreturned))

end Declared

section Loads

variable {text : Text}

theorem lift_calls_same (line : Text) (miss : hasCall line = false) : liftCalls line = line :=
  scan_unmatched awaited none line miss

theorem lift_returns (unlifted : ∀ line ∈ lines text, isLifted line = false) :
    lift text = dropReturns text := by
  have lines' : mapLines liftLine text = dropReturns text := by
    apply map_lines_returns liftLine text
    intro line member
    have other := unlifted line member
    unfold isLifted at other
    unfold liftLine
    cases liftable : isLiftable line with
    | false => rfl
    | true =>
        rw [liftable, Bool.true_and] at other
        exact lift_calls_same line other
  have none' : (lines text).any isLifted = false := by
    rw [List.any_eq_false]
    intro line member
    rw [unlifted line member]
    exact Bool.false_ne_true
  unfold lift
  rw [lines', none']
  rfl

theorem lift_same (absent : '\r' ∉ text) (unlifted : ∀ line ∈ lines text, isLifted line = false) :
    lift text = text := by
  rw [lift_returns unlifted, drop_returns_none text absent]

theorem imports_returns (unbound : ∀ line ∈ lines text, isBound line = false) :
    normalizeImports text = dropReturns text := by
  apply map_lines_returns _ text
  intro line member
  have other := unbound line member
  unfold isBound at other
  rw [Option.isSome_eq_false_iff, Option.isNone_iff_eq_none] at other
  unfold importLine
  rw [other]

theorem imports_same (absent : '\r' ∉ text) (unbound : ∀ line ∈ lines text, isBound line = false) :
    normalizeImports text = text := by
  rw [imports_returns unbound, drop_returns_none text absent]

end Loads

section Literals

variable (tree : FileTree) (dir : Path)

theorem repaired_same (before : Option Char) (text : Text)
    (named : ∀ literal, .found literal ∈ scanFrom literalMatcher 0 before text →
      isMisnamed tree dir literal = false) :
    render (repaired tree dir) (scanFrom literalMatcher 0 before text) = text := by
  induction before, text using scan_induction relative_consumes with
  | nil before => rfl
  | kept before c rest miss ih =>
      rw [scan_kept before c rest miss] at named ⊢
      exact congrArg (List.cons c) (ih fun literal member => named literal (List.mem_cons_of_mem _ member))
  | found before used left literal nonempty hit ih =>
      obtain ⟨_, _, _, _, whole⟩ := relative_some before _ left literal hit
      rw [scan_found before used left literal nonempty hit] at named ⊢
      have here := named literal List.mem_cons_self
      have later := ih fun literal member => named literal (List.mem_cons_of_mem _ member)
      rw [render_cons, later]
      change repaired tree dir literal ++ left = used ++ left
      rw [repaired_parts, here, whole]
      simp

theorem repaired_longer (before : Option Char) (text : Text) :
    (render (repaired tree dir) (scanFrom literalMatcher 0 before text)).length = text.length +
      ((scanFrom literalMatcher 0 before text).filterMap Piece.found?).countP (isMisnamed tree dir) := by
  induction before, text using scan_induction relative_consumes with
  | nil before => rfl
  | kept before c rest miss ih =>
      rw [scan_kept before c rest miss, render_cons]
      simp only [Piece.render, List.length_append, List.length_cons, List.length_nil, ih,
        List.filterMap_cons, Piece.found?]
      omega
  | found before used left literal nonempty hit ih =>
      obtain ⟨_, _, _, _, whole⟩ := relative_some before _ left literal hit
      have length := congrArg List.length whole
      rw [scan_found before used left literal nonempty hit, render_cons, List.length_append, ih]
      simp only [Piece.render, List.filterMap_cons, Piece.found?, List.countP_cons, repaired_parts,
        List.length_append, List.length_cons, List.length_nil] at length ⊢
      have standard : defaultExtension.length = 3 := rfl
      have fallback : fallbackExtension.length = 4 := rfl
      split
      · omega
      · omega

end Literals

theorem word_longer (word new source : Text) (some' : word ≠ []) (longer : word.length ≤ new.length) :
    source.length ≤ (replaceWord word new source).length := by
  apply length_edited (replaces_edited (fun _ => new) (word_consumes word some') none source)
  intro old new' changed
  rw [(replaced_word old new' changed).1, (replaced_word old new' changed).2]
  exact longer

theorem globals_longer (source : Text) : source.length ≤ (replacePathGlobals source).length :=
  Nat.le_trans (word_longer "__filename" _ source (by decide) (by decide))
    (word_longer "__dirname" _ _ (by decide) (by decide))

def homeOf (file : Path) : Path := (Path.parent? file).getD ['/']

def literals (text : Text) : List RelativeLiteral := (scan literalMatcher text).filterMap Piece.found?

-- Loads are counted: a pass that changes one leaves fewer, and no pass gives them back.
theorem module_settled_iff (tree : FileTree) (file : Path) (source : Text) (absent : '\r' ∉ source) :
    toModule tree file (toModule tree file source) = toModule tree file source ↔
      (∀ line ∈ lines (toModule tree file source), isBound line = false ∧ isLifted line = false) ∧
      ∀ literal ∈ literals (toModule tree file source), isMisnamed tree (homeOf file) literal = false := by
  have unreturned := returns_module tree file source absent
  have exports := exports_settled tree file source absent
  have globals : replacePathGlobals (toModule tree file source) = toModule tree file source :=
    globals_settled _
  generalize toModule tree file source = text at unreturned exports globals
  constructor
  · intro settled
    have total := congrArg callCount settled
    have repairs := count_repaired tree file (normalizeExports (normalizeImports (lift text)))
    have words := count_globals
      (repairExtensions tree file (normalizeExports (normalizeImports (lift text))))
    have declared := count_exports (normalizeImports (lift text))
    have imports := count_imports (lift text)
    have lifts := count_lift text
    have unlifted : ∀ line ∈ lines text, isLifted line = false := by
      intro line member
      rw [Bool.eq_false_iff]
      intro lifted
      have fewer := count_lift_lt text ⟨line, member, lifted⟩
      unfold toModule at total
      omega
    have first := lift_same unreturned unlifted
    have unbound : ∀ line ∈ lines text, isBound line = false := by
      intro line member
      rw [Bool.eq_false_iff]
      intro bound
      have fewer := count_imports_lt text ⟨line, member, bound⟩
      rw [← first] at fewer
      unfold toModule at total
      omega
    have second := imports_same unreturned unbound
    refine ⟨fun line member => ⟨unbound line member, unlifted line member⟩, ?_⟩
    unfold toModule at settled
    rw [first, second, exports] at settled
    have longer := globals_longer (repairExtensions tree file text)
    have repaired := repaired_longer tree (homeOf file) none text
    change (repairExtensions tree file text).length = _ at repaired
    rw [settled] at longer
    have none' : (literals text).countP (isMisnamed tree (homeOf file)) = 0 := by
      unfold literals scan
      omega
    intro literal member
    rw [Bool.eq_false_iff]
    exact List.countP_eq_zero.mp none' literal member
  · rintro ⟨lines', named⟩
    have first := lift_same unreturned fun line member => (lines' line member).2
    have second := imports_same unreturned fun line member => (lines' line member).1
    have third : repairExtensions tree file text = text :=
      repaired_same tree (homeOf file) none text fun literal member =>
        named literal (List.mem_filterMap.mpr ⟨_, member, rfl⟩)
    unfold toModule
    rw [first, second, exports, third, globals]

def sampleTree : FileTree := (FileTree.empty ["src".toList] 0).write "/src/b.mjs" (.file .empty 0)
def sampleFile : Path := "/src/index.js"

def boundLoads : Text :=
  "const { join: glue } = require('path');\nconst b = require('./b');\nmodule.exports = { b, k: 1 };\n"

theorem bound_loads_settled :
    toModule sampleTree sampleFile (toModule sampleTree sampleFile boundLoads) =
      toModule sampleTree sampleFile boundLoads :=
  (module_settled_iff sampleTree sampleFile boundLoads (by decide)).mpr (by decide +kernel)

def nestedLoad : Text := "run(require(require('a')));\n"

def uncoveredLoad : Text := "(async () => \x7b\nrun((await import(require('a'))).default);\n\x7d)();\n"

theorem nested_load_unsettled :
    '\r' ∉ nestedLoad ∧ toModule sampleTree sampleFile (toModule sampleTree sampleFile nestedLoad) ≠
      toModule sampleTree sampleFile nestedLoad := by
  have once : toModule sampleTree sampleFile nestedLoad = uncoveredLoad := by decide +kernel
  have twice : toModule sampleTree sampleFile uncoveredLoad ≠ uncoveredLoad := by decide +kernel
  rw [once]
  exact ⟨by decide, twice⟩

end DevServer.CommonJs
