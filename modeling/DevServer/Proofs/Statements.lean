import DevServer.Proofs.Clauses

set_option autoImplicit false

namespace DevServer.Specifier

open Text

structure Statement where
  indent : Gap
  head : Head
  quote : Char
  specifier : Text
  semicolon : Bool
  isQuote : isLiteralQuote quote = true
  closed : quote ∉ specifier
  single : '\n' ∉ specifier

namespace Statement

variable (statement : Statement)

def front : Text := statement.indent.val ++ statement.head.text

def ending : Text := if statement.semicolon then [';'] else []

def textWith (specifier : Text) : Text :=
  statement.front ++ statement.quote :: (specifier ++ statement.quote :: statement.ending)

def text : Text := statement.textWith statement.specifier

def isLed : Bool :=
  dropReturns statement.front == statement.front &&
    leadsTo (lastLine statement.front) (statement.specifier ++ statement.quote :: statement.ending)

end Statement

def Head.isPlain (specifier : Text) : Head → Bool
  | .effect gap => gap.val.head? == some ' ' && !specifier.includes fromMark
  | .binds binding =>
    binding.opening.val.head? == some ' ' && binding.closing.val.getLast? == some ' ' &&
      binding.origin.val.head? == some ' ' && !binding.clause.words.contains fromWord

def Statement.isPlain (statement : Statement) : Bool :=
  !statement.front.contains '\n' && statement.head.isPlain statement.specifier

theorem Statement.front_calm (statement : Statement) : statement.front.all isCalm = true := by
  rw [Statement.front, List.all_append, calm_of_blank _ statement.indent.property,
    statement.head.calm]
  rfl

section Plain

theorem opens_with (indent : Gap) (verb : Verb) (rest : Text) :
    opensWith (verb.text ++ [' ']) (indent.val ++ (verb.text ++ ' ' :: rest)) = true := by
  have trimmed (c : Char) (tail : Text) (stop : isBlank c = false) :
      trimStart (indent.val ++ c :: tail) = c :: tail :=
    drop_while_stop isBlank indent.val c tail indent.property stop
  have start : trimStart (indent.val ++ (verb.text ++ ' ' :: rest)) = verb.text ++ ' ' :: rest := by
    cases verb with
    | load => exact trimmed 'i' _ (by decide)
    | reexport => exact trimmed 'e' _ (by decide)
  unfold opensWith
  rw [start]
  exact startsWith_iff.mpr ⟨rest, by simp⟩

theorem binding_led (indent : Gap) (binding : Binding) (rest : Text)
    (plain : (Head.binds binding).isPlain rest = true) (later : Text) :
    leadsTo (indent.val ++ binding.text) later = true := by
  simp only [Head.isPlain, Bool.and_eq_true, beq_iff_eq, Bool.not_eq_true',
    List.contains_eq_mem, decide_eq_false_iff_not] at plain
  obtain ⟨⟨⟨opens, closes⟩, starts⟩, unnamed⟩ := plain
  obtain ⟨opening, opened⟩ := List.head?_eq_some_iff.mp opens
  obtain ⟨closing, closed⟩ := List.getLast?_eq_some_iff.mp closes
  obtain ⟨origin, begun⟩ := List.head?_eq_some_iff.mp starts
  have verb : lacks fromWord binding.verb.text := by
    unfold lacks
    cases binding.verb with
    | load => decide
    | reexport => decide
  have blankClosing := binding.closing.property
  have blankOrigin := binding.origin.property
  rw [closed, List.all_append, Bool.and_eq_true] at blankClosing
  rw [begun, List.all_cons, Bool.and_eq_true] at blankOrigin
  have before := lacks_lead fromWord from_some indent.val _ indent.property
    (lacks_break fromWord from_some _ _ _ binding.opening.property (by simp [opened]) verb
      (lacks_trail fromWord from_some _ closing blankClosing.1 (binding.clause.text_lacks unnamed)))
  have behind := lacks_lead fromWord from_some origin [] blankOrigin.2 (lacks_nil fromWord from_some)
  rw [List.append_nil] at behind
  have whole : indent.val ++ binding.text =
      (indent.val ++ (binding.verb.text ++ (binding.opening.val ++ (binding.clause.text ++ closing)))) ++
        ' ' :: (fromWord ++ ' ' :: origin) := by
    rw [Binding.text, closed, begun]
    simp
  have found : (indent.val ++ binding.text).includes fromMark = true :=
    (includes_iff _ _).mpr ⟨_, origin, by rw [mark_around]; exact whole⟩
  obtain ⟨⟨left, right⟩, cut⟩ := Option.isSome_iff_exists.mp found
  have here := cut?_eq cut
  rw [mark_around, whole] at here
  have same := word_once fromWord _ origin left right (by decide) here before behind
  have marks : marksHere (indent.val ++ binding.text) later = true := by
    unfold marksHere
    rw [cut, same]
    exact blankOrigin.2
  have start := opens_with indent binding.verb (opening ++ (binding.clause.text ++
    (binding.closing.val ++ (fromWord ++ binding.origin.val))))
  have keyword : opensWith (binding.verb.text ++ [' ']) (indent.val ++ binding.text) = true := by
    rw [Binding.text, opened]
    exact start
  unfold leadsTo
  rw [marks, found]
  cases word : binding.verb with
  | load =>
      rw [word] at keyword
      exact Bool.or_eq_true_iff.mpr (.inl keyword)
  | reexport =>
      rw [word] at keyword
      exact Bool.or_eq_true_iff.mpr (.inr (Bool.and_eq_true_iff.mpr ⟨keyword, rfl⟩))

theorem effect_led (indent gap : Gap) (later : Text) (spaced : gap.val.head? = some ' ')
    (absent : later.includes fromMark = false) :
    leadsTo (indent.val ++ (importMark ++ gap.val)) later = true := by
  obtain ⟨blanks, opened⟩ := List.head?_eq_some_iff.mp spaced
  have unmarked : cut? (indent.val ++ (importMark ++ gap.val)) fromMark = none := by
    have none' := lacks_mark _ (lacks_lead fromWord from_some indent.val _ indent.property
      (lacks_trail fromWord from_some importMark gap.val gap.property (by unfold lacks; decide)))
    unfold includes at none'
    rwa [Option.isSome_eq_false_iff, Option.isNone_iff_eq_none] at none'
  have found : (indent.val ++ (importMark ++ gap.val)).includes importMark = true :=
    (includes_iff _ _).mpr ⟨indent.val, gap.val, (List.append_assoc _ _ _).symm⟩
  obtain ⟨⟨left, right⟩, cut⟩ := Option.isSome_iff_exists.mp found
  have blank (text : Text) (all : text.all isBlank = true) : 'i' ∉ text := by
    intro inside
    exact absurd (List.all_eq_true.mp all 'i' inside) (by decide)
  have tail : 'i' ∉ "mport".toList ++ gap.val := by
    rw [List.mem_append, not_or]
    exact ⟨by decide, blank _ gap.property⟩
  have here := cut?_eq cut
  rw [List.append_assoc] at here
  have same := (one_place 'i' indent.val _ left ("mport".toList ++ right) here
    (blank _ indent.property) tail).2
  have marks : marksHere (indent.val ++ (importMark ++ gap.val)) later = true := by
    unfold marksHere
    rw [unmarked, absent, cut, List.append_cancel_left same]
    exact gap.property
  have keyword : opensWith "import " (indent.val ++ (importMark ++ gap.val)) = true := by
    rw [opened]
    exact opens_with indent .load blanks
  unfold leadsTo
  rw [marks, keyword]
  rfl

theorem Statement.plain_led (statement : Statement) (plain : statement.isPlain = true) :
    statement.isLed = true := by
  simp only [Statement.isPlain, Bool.and_eq_true, Bool.not_eq_true', List.contains_eq_mem,
    decide_eq_false_iff_not] at plain
  obtain ⟨single, plain⟩ := plain
  unfold Statement.isLed
  rw [drop_returns_last _ single, last_line_single _ single, beq_self_eq_true, Bool.true_and,
    Statement.front]
  cases head : statement.head with
  | binds binding =>
      rw [head] at plain
      exact binding_led statement.indent binding _ plain _
  | effect gap =>
      rw [head] at plain
      simp only [Head.isPlain, Bool.and_eq_true, beq_iff_eq, Bool.not_eq_true'] at plain
      apply effect_led statement.indent gap _ plain.1
      have foreign := quote_foreign fromMark statement.quote statement.isQuote plain_from
      rw [includes_over _ _ fromMark _ (by decide) foreign, plain.2, Statement.ending]
      cases statement.semicolon with
      | false => decide
      | true => decide

end Plain

section Last

theorem plain_routed {a b : Text} (routed : Routed a b) (plain : isPlain a) : b = a := by
  induction routed with
  | nil => rfl
  | keep c _ ih => rw [ih fun d member => plain d (List.mem_cons_of_mem c member)]
  | route quote isQuote _ _ =>
      rw [plain quote List.mem_cons_self] at isQuote
      cases isQuote

theorem routed_last (front rest : Text) (plain : isPlain front) (single : '\n' ∉ rest) :
    rewriteBare (front ++ rest) =
      dropReturns (aboveLast front) ++ routedLine (lastLine front ++ rest) := by
  have kept (line : Text) (member : line ∈ (split '\n' front).dropLast) :
      routedLine (chomp line) = chomp line := by
    apply plain_routed (line_routed (chomp line)).1
    intro c inside
    apply plain
    rw [← join_split '\n' front]
    exact mem_join '\n' _ line c ((List.dropLast_sublist _).subset member) (mem_chomp line c inside)
  rw [rewrite_bare_lines, map_lines_last routedLine routed_line_empty front rest single, above_returns]
  have edited : (split '\n' front).dropLast.map (fun line => routedLine (chomp line) ++ ['\n']) =
      (split '\n' front).dropLast.map (fun line => chomp line ++ ['\n']) :=
    List.map_congr_left fun line member => by rw [kept line member]
  rw [List.flatMap_def, edited, ← List.flatMap_def]

theorem plain_of_calm (text : Text) (calm : text.all isCalm = true) : isPlain text ∧ '(' ∉ text := by
  constructor
  · intro c member
    have here := List.all_eq_true.mp calm c member
    simp only [isCalm, Bool.and_eq_true, Bool.not_eq_true'] at here
    exact here.1
  · intro member
    exact absurd (List.all_eq_true.mp calm '(' member) (by decide)

theorem last_line_calm (text : Text) (calm : text.all isCalm = true) :
    (lastLine text).all isCalm = true := by
  rw [← above_last text, List.all_append, Bool.and_eq_true] at calm
  exact calm.2

theorem Statement.rest_single (statement : Statement) (specifier : Text) (single : '\n' ∉ specifier) :
    '\n' ∉ statement.quote :: (specifier ++ statement.quote :: statement.ending) := by
  have quote : '\n' ≠ statement.quote := by
    intro same
    have isQuote := statement.isQuote
    rw [← same] at isQuote
    cases isQuote
  simp only [List.mem_cons, List.mem_append, not_or, Statement.ending]
  refine ⟨quote, single, quote, ?_⟩
  cases statement.semicolon with
  | false => decide
  | true => decide

-- A bare specifier of a statement is routed, and nothing else is changed, exactly when
-- the statement is marked at its literal on the last line and no return is lost above.
-- It is for every statement on one line in plain layout.
theorem statement_routed_iff (statement : Statement) (bare : isBare statement.specifier = true) :
    (rewriteBare statement.text = statement.textWith (modulesRoute ++ statement.specifier) ↔
      statement.isLed = true) ∧ (statement.isPlain = true → statement.isLed = true) := by
  refine ⟨?_, statement.plain_led⟩
  obtain ⟨unquoted, _⟩ := plain_of_calm statement.front statement.front_calm
  obtain ⟨plain, flat⟩ := plain_of_calm _ (last_line_calm statement.front statement.front_calm)
  have front := above_last statement.front
  have returns : dropReturns statement.front = statement.front ↔
      dropReturns (aboveLast statement.front) = aboveLast statement.front := by
    have split := drop_returns_front (aboveLast statement.front) (lastLine statement.front)
      (lastLine statement.front)
    rwa [← last_returns, front, and_iff_left rfl] at split
  have line := routed_first_iff (lastLine statement.front) statement.quote statement.isQuote plain flat
    statement.specifier statement.ending statement.closed bare
  calc rewriteBare statement.text = statement.textWith (modulesRoute ++ statement.specifier)
    _ ↔ dropReturns (aboveLast statement.front) ++ routedLine (lastLine statement.front ++
          statement.quote :: (statement.specifier ++ statement.quote :: statement.ending)) =
        aboveLast statement.front ++ (lastLine statement.front ++ statement.quote ::
          (modulesRoute ++ statement.specifier ++ statement.quote :: statement.ending)) := by
      rw [← List.append_assoc (aboveLast statement.front), front, Statement.text, Statement.textWith,
        routed_last _ _ unquoted (statement.rest_single _ statement.single), Statement.textWith]
    _ ↔ dropReturns statement.front = statement.front ∧ leadsTo (lastLine statement.front)
          (statement.specifier ++ statement.quote :: statement.ending) = true := by
      rw [drop_returns_front, ← returns, line]
    _ ↔ statement.isLed = true := by
      rw [Statement.isLed, Bool.and_eq_true, beq_iff_eq]

def listedImport (gap : Gap) (given : Name) : Statement where
  indent := ⟨"", by decide⟩
  head := .binds {
    verb := .load
    opening := ⟨" ", by decide⟩
    clause := .named (.listed [⟨gap, ⟨"a", by decide⟩, none, ⟨"", by decide⟩⟩]
      (some ⟨gap, ⟨"b", by decide⟩, some ⟨⟨" ", by decide⟩, ⟨" ", by decide⟩, given⟩, gap⟩)
      ⟨"", by decide⟩)
    closing := ⟨" ", by decide⟩
    origin := ⟨" ", by decide⟩
    suits := rfl
    opens := fun _ => by decide
    closes := fun _ => by decide
  }
  quote := '\''
  specifier := "react"
  semicolon := true
  isQuote := by decide
  closed := by decide
  single := by decide

def spacedImport : Statement := listedImport ⟨" ", by decide⟩ ⟨"c", by decide⟩

theorem spaced_import_routed : isBare spacedImport.specifier = true ∧
    spacedImport.text = "import \x7b a, b as c \x7d from 'react';" ∧
    rewriteBare spacedImport.text = "import \x7b a, b as c \x7d from '/@modules/react';" := by
  have bare : isBare spacedImport.specifier = true := by decide
  have settled := statement_routed_iff spacedImport bare
  exact ⟨bare, by decide, settled.1.mpr (settled.2 (by decide))⟩

def brokenImport : Statement := listedImport ⟨"\n", by decide⟩ ⟨"c", by decide⟩

def fromImport : Statement := listedImport ⟨" ", by decide⟩ ⟨"from", by decide⟩

theorem broken_import_kept :
    (isBare brokenImport.specifier = true ∧
      brokenImport.text = "import \x7b\na,\nb as c\n\x7d from 'react';" ∧
      rewriteBare brokenImport.text ≠ brokenImport.textWith (modulesRoute ++ brokenImport.specifier)) ∧
    isBare fromImport.specifier = true ∧
      fromImport.text = "import \x7b a, b as from \x7d from 'react';" ∧
      rewriteBare fromImport.text ≠ fromImport.textWith (modulesRoute ++ fromImport.specifier) := by
  decide

end Last

end DevServer.Specifier
