import DevServer.Proofs.Wrapping

set_option autoImplicit false

namespace DevServer.CommonJs

open Text

section Objects

def objectMark : Text := "module.exports"

def beginsObject (line : Text) : Bool := line.startsWith objectMark

theorem begins_chomp (line : Text) : beginsObject (chomp line) = beginsObject line := by
  rcases chomp_cases line with same | cut
  · rw [← same]
  · conv => rhs; rw [cut]
    exact (starts_over _ [] objectMark '\r' (by decide)).symm

theorem unmatched_lines (text : Text) (none' : (split '\n' text).any beginsObject = false) :
    matches? objectMatcher text = false := by
  apply unmatched_objects_start
  intro rest suffix
  unfold assignsObject
  split
  · rename_i line
    rw [Bool.eq_false_iff]
    intro found
    obtain ⟨_, rest, headed, _⟩ := (object_iff none line).mp found
    unfold objectHead? at headed
    obtain ⟨tail, starts, _⟩ := Option.bind_eq_some_iff.mp headed
    have part := (mem_split_iff text _).mpr ⟨line, suffix, rfl⟩
    have whole : line = objectMark ++ tail := after?_eq_some.mp starts
    rw [whole, line_opens objectMark tail (by decide)] at part
    have other := List.any_eq_false.mp none' _ part
    exact other (startsWith_iff.mpr ⟨_, rfl⟩)
  · rfl

theorem load_opens : Opens (Replaces loadMatcher awaited) "(await import(" := by
  rintro old new ⟨before, left, arguments, found, rfl⟩
  have used := load_used before old left arguments found
  exact ⟨⟨arguments ++ ")).default", List.append_assoc _ _ _⟩, 'r', loadCall.tail ++ (arguments ++ [')']),
    used, by decide⟩

theorem lift_line_before (line : Text) (starts : beginsObject (liftLine line) = true) :
    beginsObject line = true := by
  unfold liftLine at starts
  split at starts
  · exact starts_before load_opens objectMark (by decide) (replaces_edited awaited load_consumes none line) starts
  · exact starts

theorem imported_parts (p : Text → Bool) (silent : p [] = false)
    (imports : ∀ rest : Text, p ("import " ++ rest) = false) (text : Text)
    (kept : ∀ line ∈ lines text, isBound line = false → p line = false)
    (results : ∀ line ∈ lines text, ∀ load name arguments, Load.ofLine? line = some load →
      load.binding = .called name arguments →
        p ("const " ++ (name ++ " = " ++ name ++ "Factory(" ++ arguments ++ ");")) = false) :
    (split '\n' (normalizeImports text)).any p = false := by
  unfold normalizeImports
  rw [any_map_lines p silent, List.any_eq_false]
  intro line member
  have unbroken := lines_unbroken text line member
  unfold importLine
  cases found : Load.ofLine? line with
  | none =>
      rw [unbroken_parts p line unbroken, kept line member (by rw [isBound, found]; rfl)]
      exact Bool.false_ne_true
  | some load =>
      have clean (part : Text) (inside : part ∈ load.texts) : '\n' ∉ part :=
        fun feed => unbroken ((load_texts line load found part inside).subset feed)
      have behind (word rest : Text) (plain : '\n' ∉ word) (absent : '\n' ∉ rest) : '\n' ∉ word ++ rest := by
        rw [List.mem_append, not_or]
        exact ⟨plain, absent⟩
      obtain ⟨first, absent, same | ⟨second, later, same, name, arguments, called, rfl⟩⟩ :=
        declaration_lines '\n' (by decide) text load clean
      · dsimp only
        rw [same, unbroken_parts p _ (behind _ first (by decide) absent), imports first]
        exact Bool.false_ne_true
      · dsimp only
        rw [same, ← List.append_assoc, split_append '\n' _ _ (behind _ first (by decide) absent), List.any_cons,
          unbroken_parts p _ (behind _ _ (by decide) later), imports first,
          results line member load name arguments found called]
        exact Bool.false_ne_true

theorem imported_objects (text : Text) (none' : (split '\n' text).any beginsObject = false) :
    (split '\n' (normalizeImports text)).any beginsObject = false := by
  rw [← any_lines beginsObject rfl begins_chomp, List.any_eq_false] at none'
  apply imported_parts beginsObject rfl (fun rest => rfl) text
  · intro line member _
    simpa using none' line member
  · intro line member load name arguments found called
    rfl

theorem lifted_objects (source : Text) (unpending : hasPendingModuleSyntax source = false) :
    (split '\n' (mapLines liftLine source)).any beginsObject = false := by
  rw [any_map_lines beginsObject rfl, List.any_eq_false]
  intro line member
  have unbroken := lift_line_absent '\n' (by decide) line (lines_unbroken source line member)
  rw [unbroken_parts beginsObject _ unbroken]
  intro starts
  have begins := lift_line_before line starts
  have other := List.any_eq_false.mp unpending line member
  apply other
  unfold isExportLine
  change (_ || (_ || beginsObject line || _)) = true
  rw [begins]
  simp

end Objects

section Guess

def Agrees (text : Text) : Prop :=
  (∃ inner, Wraps inner text ∧ hasModuleSyntax inner = false) ∨
    (¬ ∃ inner, Wraps inner text) ∧ hasModuleSyntax text = true

theorem agrees_iff (text : Text) :
    Agrees text ↔ ((∃ inner, Wraps inner text) ↔ hasModuleSyntax text = false) := by
  unfold Agrees
  constructor
  · rintro (⟨inner, wraps, none'⟩ | ⟨unwrapped, some'⟩)
    · rw [module_wraps inner text wraps, none']
      exact ⟨fun _ => rfl, fun _ => ⟨inner, wraps⟩⟩
    · rw [some']
      exact ⟨fun wraps => absurd wraps unwrapped, fun wrong => by cases wrong⟩
  · intro same
    by_cases wraps : ∃ inner, Wraps inner text
    · obtain ⟨inner, here⟩ := wraps
      have none' := same.mp ⟨inner, here⟩
      rw [module_wraps inner text here] at none'
      exact .inl ⟨inner, here, none'⟩
    · have some' : ¬ hasModuleSyntax text = false := fun none' => wraps (same.mpr none')
      exact .inr ⟨wraps, by simpa using some'⟩

variable (source : Text)

def handed : Text := normalizeImports (lift source)

def bindsOrAssigns : Bool :=
  ((lines (lift source)).any fun line => isBound line || isAssigned line) ||
    matches? objectMatcher (handed source)

theorem lift_cases : lift source = mapLines liftLine source ∨
    lift source = wrap (mapLines liftLine source) := by
  unfold lift
  dsimp only
  split
  · exact .inr rfl
  · exact .inl rfl

theorem handed_declares (quiet : hasModuleSyntax (mapLines liftLine source) = false) :
    declares (handed source) = bindsOrAssigns source := by
  have none' : hasModuleSyntax (lift source) = false := by
    rw [module_parts] at quiet ⊢
    rcases lift_cases source with same | same
    · rw [same]
      exact quiet
    · rw [same]
      exact wrap_parts isModuleLine module_nil (by decide) (by decide) _ quiet
  unfold declares bindsOrAssigns
  congr 1
  unfold handed normalizeImports
  rw [declares_parts, any_map_lines declaresLine (by decide)]
  apply any_same
  intro line member
  have other : isModuleLine line = false := by simpa using List.any_eq_false.mp none' line member
  unfold importLine isBound
  cases found : Load.ofLine? line with
  | none =>
      rw [unbroken_parts declaresLine line (lines_unbroken _ line member)]
      unfold declaresLine
      rw [other]
      rfl
  | some load =>
      obtain ⟨more, same⟩ := declaration_begins (lift source) load
      obtain ⟨rest, parts⟩ := split_head (load.declaration (lift source))
      dsimp only
      rw [parts, same, line_opens "import " more (by decide), List.any_cons]
      unfold declaresLine
      rw [module_opens "import " _ (by decide)]
      rfl

theorem unpending_wrapped (tree : FileTree) (file : Path)
    (unpending : hasPendingModuleSyntax source = false) (lifts : (lines source).any isLifted = true)
    (quiet : hasModuleSyntax (mapLines liftLine source) = false)
    (alone : hasAsyncWrapper (mapLines liftLine source) = false)
    (plain : matches? propertyMatcher (handed source) = false) :
    ∃ inner, Wraps inner (toModule tree file source) := by
  have wrapped : lift source = wrap (mapLines liftLine source) := by
    unfold lift
    rw [unpending, lifts]
    simp [quiet, alone]
  have objects := imported_objects (lift source) (by
    rw [wrapped]
    exact wrap_parts beginsObject rfl rfl rfl _ (lifted_objects source unpending))
  have properties : rewrite propertyMatcher Property.declaration (handed source) = handed source :=
    scan_unmatched _ none _ plain
  have unassigned : rewrite objectMatcher objectDeclarations (handed source) = handed source :=
    scan_unmatched _ none _ (unmatched_lines _ objects)
  have start := wrap_wraps (mapLines liftLine source)
  rw [← wrapped] at start
  obtain ⟨_, imports⟩ := map_lines_wraps (importLine (lift source)) (import_line_empty _) rfl rfl _ _ start
  obtain ⟨_, exports⟩ := map_lines_wraps exportLine (by decide) rfl rfl _ _ imports
  obtain ⟨_, literals⟩ := edited_wraps extension_inside
    (relative_edited tree ((Path.parent? file).getD ['/']) none _) _ exports
  obtain ⟨inner, globals⟩ := globals_wraps _ _ literals
  refine ⟨inner ++ ['\n'], ?_⟩
  unfold toModule normalizeExports
  change Wraps _ (replacePathGlobals (repairExtensions tree file (mapLines exportLine (rewrite objectMatcher
    objectDeclarations (rewrite propertyMatcher Property.declaration (handed source))))))
  rw [properties, unassigned]
  exact globals

-- Pass by pass: a text is in the end a module exactly when the export pass declares
-- something, and wrapped only if nothing pending was seen. Without defined properties
-- the guess is right exactly when it says what is bound or assigned.
theorem guess_agrees_iff (tree : FileTree) (file : Path) (source : Text)
    (lifts : (lines source).any isLifted = true)
    (quiet : hasModuleSyntax (mapLines liftLine source) = false)
    (alone : hasAsyncWrapper (mapLines liftLine source) = false) :
    (Agrees (toModule tree file source) ↔ ((∃ inner, Wraps inner (toModule tree file source)) ↔
      declares (rewrite propertyMatcher Property.declaration (handed source)) = false)) ∧
    (hasPendingModuleSyntax source = true → ¬ ∃ inner, Wraps inner (toModule tree file source)) ∧
    (matches? propertyMatcher (handed source) = false →
      (Agrees (toModule tree file source) ↔ hasPendingModuleSyntax source = bindsOrAssigns source)) := by
  have decides : Agrees (toModule tree file source) ↔ ((∃ inner, Wraps inner (toModule tree file source)) ↔
      declares (rewrite propertyMatcher Property.declaration (handed source)) = false) := by
    rw [agrees_iff, rewrite_module]
    rfl
  have unwrapped (pending : hasPendingModuleSyntax source = true) :=
    pending_unwrapped tree file source pending alone
  refine ⟨decides, unwrapped, ?_⟩
  intro plain
  have properties : rewrite propertyMatcher Property.declaration (handed source) = handed source :=
    scan_unmatched _ none _ plain
  rw [decides, properties, handed_declares source quiet]
  cases pending : hasPendingModuleSyntax source with
  | true =>
      rw [iff_false_left (unwrapped pending), Bool.not_eq_false, eq_comm]
  | false =>
      rw [iff_true_left (unpending_wrapped source tree file pending lifts quiet alone plain), eq_comm]

def assignedLoad : Text := "exports.a = require('x');\n"

theorem assigned_load_agrees : (lines assignedLoad).any isLifted = true ∧
    Agrees (toModule sampleTree sampleFile assignedLoad) := by
  have lifts : (lines assignedLoad).any isLifted = true := by decide
  have agrees := guess_agrees_iff sampleTree sampleFile assignedLoad lifts (by decide) (by decide)
  exact ⟨lifts, (agrees.2.2 (by decide)).mpr (by decide)⟩

def nestedExport : Text := "exports.a.b = require('x');\n"

def indentedProperty : Text :=
  "  Object.defineProperty(exports, 'a', \x7b value: 1 \x7d);\nrun(require('x'));\n"

theorem nested_export_disagrees :
    ((lines nestedExport).any isLifted = true ∧ hasModuleSyntax (mapLines liftLine nestedExport) = false ∧
      hasAsyncWrapper (mapLines liftLine nestedExport) = false ∧
      ¬ Agrees (toModule sampleTree sampleFile nestedExport)) ∧
    (lines indentedProperty).any isLifted = true ∧
      hasModuleSyntax (mapLines liftLine indentedProperty) = false ∧
      hasAsyncWrapper (mapLines liftLine indentedProperty) = false ∧
      ¬ Agrees (toModule sampleTree sampleFile indentedProperty) := by
  have first : toModule sampleTree sampleFile nestedExport = "exports.a.b = (await import('x')).default;\n" := by
    decide +kernel
  have second : toModule sampleTree sampleFile indentedProperty =
      opening ++ '\n' :: ("  export const a = 1;\nrun((await import('x')).default);\n" ++
        (closing ++ ['\n'])) := by
    decide +kernel
  refine ⟨⟨by decide, by decide, by decide, ?_⟩, by decide, by decide, by decide, ?_⟩
  · rw [agrees_iff, first]
    intro agrees
    obtain ⟨inner, feed, _, same⟩ := agrees.mpr (by decide)
    cases same
  · rw [agrees_iff, second]
    intro agrees
    have none' := agrees.mp ⟨_, ['\n'], .inr rfl, rfl⟩
    exact absurd none' (by decide)

end Guess

end DevServer.CommonJs
