import DevServer.Proofs.FirstLiterals

set_option autoImplicit false

namespace DevServer.Specifier

open Text

abbrev Gap := { text : Text // text.all isBlank = true }

abbrev Break := { text : Text // text.all isBlank = true ∧ text ≠ [] }

-- Every identifier is one, in ASCII or not.
abbrev Name := { text : Text // text.all isSolid = true ∧ text ≠ [] }

structure Alias where
  before : Break
  after : Break
  name : Name

structure Entry where
  before : Gap
  name : Name
  renamed : Option Alias
  after : Gap

inductive Names where
  | whole (before : Gap) (after : Break) (name : Name)
  | listed (entries : List Entry) (last : Option Entry) (closing : Gap)

inductive Clause where
  | all
  | default (name : Name)
  | named (names : Names)
  | both (name : Name) (before after : Gap) (names : Names)

inductive Verb where
  | load
  | reexport
deriving DecidableEq

def Verb.text : Verb → Text
  | .load => "import"
  | .reexport => "export"

def Alias.text (given : Alias) : Text :=
  given.before.val ++ ("as" ++ (given.after.val ++ given.name.val))

def Entry.text (entry : Entry) : Text :=
  entry.before.val ++ (entry.name.val ++ ((entry.renamed.map Alias.text).getD [] ++ entry.after.val))

def Names.text : Names → Text
  | .whole before after name => '*' :: (before.val ++ ("as" ++ (after.val ++ name.val)))
  | .listed entries last closing =>
    '{' :: (entries.flatMap (fun entry => entry.text ++ [',']) ++
      ((last.map Entry.text).getD [] ++ (closing.val ++ ['}'])))

def Clause.text : Clause → Text
  | .all => ['*']
  | .default name => name.val
  | .named names => names.text
  | .both name before after names => name.val ++ (before.val ++ ',' :: (after.val ++ names.text))

def Alias.words (given : Alias) : List Text := [given.name.val]

def Entry.words (entry : Entry) : List Text :=
  entry.name.val :: (entry.renamed.map Alias.words).getD []

def Names.words : Names → List Text
  | .whole _ _ name => [name.val]
  | .listed entries last _ => entries.flatMap Entry.words ++ (last.map Entry.words).getD []

def Clause.words : Clause → List Text
  | .all => []
  | .default name => [name.val]
  | .named names => names.words
  | .both name _ _ names => name.val :: names.words

def Clause.suits : Verb → Clause → Bool
  | .load, .all => false
  | .reexport, .default _ => false
  | .reexport, .both .. => false
  | _, _ => true

structure Binding where
  verb : Verb
  opening : Gap
  clause : Clause
  closing : Gap
  origin : Gap
  suits : clause.suits verb = true
  opens : (clause.text.head?.any isSolid = true) → opening.val ≠ []
  closes : (clause.text.getLast?.any isSolid = true) → closing.val ≠ []

def fromWord : Text := "from"

def Binding.text (binding : Binding) : Text :=
  binding.verb.text ++ (binding.opening.val ++ (binding.clause.text ++
    (binding.closing.val ++ (fromWord ++ binding.origin.val))))

inductive Head where
  | effect (gap : Gap)
  | binds (binding : Binding)

def Head.text : Head → Text
  | .effect gap => importMark ++ gap.val
  | .binds binding => binding.text

def isCalm (c : Char) : Bool := !isLiteralQuote c && c != '('

theorem calm_of_solid (text : Text) (solid : text.all isSolid = true) : text.all isCalm = true := by
  rw [List.all_eq_true] at solid ⊢
  intro c member
  have here := solid c member
  simp [isSolid] at here
  simp [isCalm, isLiteralQuote, here]

theorem calm_of_blank (text : Text) (blank : text.all isBlank = true) : text.all isCalm = true := by
  rw [List.all_eq_true] at blank ⊢
  intro c member
  have here := blank c member
  simp only [isCalm, isLiteralQuote, Bool.and_eq_true, Bool.not_eq_true', Bool.or_eq_false_iff,
    beq_eq_false_iff_ne, bne_iff_ne]
  refine ⟨⟨?_, ?_⟩, ?_⟩ <;> rintro rfl <;> exact absurd here (by decide)

section Calm

theorem Alias.calm (given : Alias) : given.text.all isCalm = true := by
  have gap := calm_of_blank _ given.before.property.1
  have later := calm_of_blank _ given.after.property.1
  have name := calm_of_solid _ given.name.property.1
  rw [Alias.text, List.all_append, List.all_append, List.all_append, gap, later, name]
  decide

theorem Entry.calm (entry : Entry) : entry.text.all isCalm = true := by
  have before := calm_of_blank _ entry.before.property
  have name := calm_of_solid _ entry.name.property.1
  have after := calm_of_blank _ entry.after.property
  rw [Entry.text, List.all_append, List.all_append, List.all_append, before, name, after]
  cases entry.renamed with
  | none => rfl
  | some given =>
      rw [Option.map_some, Option.getD_some, given.calm]
      rfl

theorem Names.calm (names : Names) : names.text.all isCalm = true := by
  cases names with
  | whole before after name =>
      have gap := calm_of_blank _ before.property
      have later := calm_of_blank _ after.property.1
      have name' := calm_of_solid _ name.property.1
      rw [Names.text, List.all_cons, List.all_append, List.all_append, List.all_append, gap, later,
        name']
      decide
  | listed entries last closing =>
      have gap := calm_of_blank _ closing.property
      have listed : (entries.flatMap fun entry => entry.text ++ [',']).all isCalm = true := by
        rw [List.all_flatMap, List.all_eq_true]
        intro entry _
        rw [List.all_append, entry.calm]
        decide
      rw [Names.text, List.all_cons, List.all_append, List.all_append, List.all_append, gap, listed]
      cases last with
      | none => decide
      | some entry =>
          rw [Option.map_some, Option.getD_some, entry.calm]
          decide

theorem Clause.calm (clause : Clause) : clause.text.all isCalm = true := by
  cases clause with
  | all => decide
  | default name => exact calm_of_solid _ name.property.1
  | named names => exact names.calm
  | both name before after names =>
      have name' := calm_of_solid _ name.property.1
      have gap := calm_of_blank _ before.property
      have later := calm_of_blank _ after.property
      rw [Clause.text, List.all_append, List.all_append, List.all_cons, List.all_append, name', gap,
        later, names.calm]
      decide

theorem Head.calm (head : Head) : head.text.all isCalm = true := by
  cases head with
  | effect gap =>
      rw [Head.text, List.all_append, calm_of_blank _ gap.property]
      decide
  | binds binding =>
      have verb : binding.verb.text.all isCalm = true := by
        cases binding.verb with
        | load => decide
        | reexport => decide
      rw [Head.text, Binding.text, List.all_append, List.all_append, List.all_append, List.all_append,
        List.all_append, verb, binding.clause.calm, calm_of_blank _ binding.opening.property,
        calm_of_blank _ binding.closing.property, calm_of_blank _ binding.origin.property]
      decide

end Calm

section Origin

theorem from_some : fromWord ≠ [] := by decide

theorem name_lacks (name : Name) (other : fromWord ≠ name.val) : lacks fromWord name.val :=
  lacks_solid fromWord name.val name.property.1 other.symm

theorem as_lacks (gap : Break) (name : Name) (other : fromWord ≠ name.val) :
    lacks fromWord ("as" ++ (gap.val ++ name.val)) :=
  lacks_break fromWord from_some "as" gap.val name.val gap.property.1 gap.property.2
    (lacks_solid fromWord "as" (by decide) (by decide)) (name_lacks name other)

theorem Entry.text_lacks (entry : Entry) (other : fromWord ∉ entry.words) :
    lacks fromWord entry.text := by
  simp only [Entry.words, List.mem_cons, not_or] at other
  have name := name_lacks entry.name other.1
  unfold Entry.text
  apply lacks_lead fromWord from_some entry.before.val _ entry.before.property
  rw [← List.append_assoc]
  apply lacks_trail fromWord from_some _ entry.after.val entry.after.property
  cases given : entry.renamed with
  | none => simpa using name
  | some given' =>
      rw [given] at other
      have other' : fromWord ≠ given'.name.val := by simpa [Alias.words] using other.2
      exact lacks_break fromWord from_some _ _ _ given'.before.property.1 given'.before.property.2 name
        (as_lacks given'.after given'.name other')

theorem entries_lack (entries : List Entry) (rest : Text) (other : fromWord ∉ entries.flatMap Entry.words)
    (behind : lacks fromWord rest) :
    lacks fromWord (entries.flatMap (fun entry => entry.text ++ [',']) ++ rest) := by
  induction entries with
  | nil => exact behind
  | cons entry entries ih =>
      rw [List.flatMap_cons, List.mem_append, not_or] at other
      have later := ih other.2
      have here := lacks_between fromWord entry.text _ ',' (by decide) (entry.text_lacks other.1) later
      rw [List.flatMap_cons]
      simpa using here

theorem Names.text_lacks (names : Names) (other : fromWord ∉ names.words) :
    lacks fromWord names.text := by
  cases names with
  | whole before after name =>
      have behind := lacks_lead fromWord from_some before.val _ before.property
        (as_lacks after name (by simpa [Names.words] using other))
      exact lacks_between fromWord [] _ '*' (by decide) (lacks_nil fromWord from_some) behind
  | listed entries last closing =>
      simp only [Names.words, List.mem_append, not_or] at other
      have final : lacks fromWord ((last.map Entry.text).getD []) := by
        cases last with
        | none => exact lacks_nil fromWord from_some
        | some entry => exact entry.text_lacks other.2
      have trailed := lacks_trail fromWord from_some _ closing.val closing.property final
      have closed := lacks_between fromWord _ [] '}' (by decide) trailed (lacks_nil fromWord from_some)
      rw [List.append_assoc] at closed
      exact lacks_between fromWord [] _ '\x7b' (by decide) (lacks_nil fromWord from_some)
        (entries_lack entries _ other.1 closed)

theorem Clause.text_lacks (clause : Clause) (other : fromWord ∉ clause.words) :
    lacks fromWord clause.text := by
  cases clause with
  | all => unfold lacks; decide
  | default name => exact name_lacks name (by simpa [Clause.words] using other)
  | named names => exact names.text_lacks other
  | both name before after names =>
      simp only [Clause.words, List.mem_cons, not_or] at other
      have first := lacks_trail fromWord from_some _ before.val before.property (name_lacks name other.1)
      have second := lacks_lead fromWord from_some after.val _ after.property (names.text_lacks other.2)
      have joined := lacks_between fromWord _ _ ',' (by decide) first second
      rwa [List.append_assoc] at joined

theorem mark_around (left right : Text) :
    left ++ fromMark ++ right = left ++ ' ' :: (fromWord ++ ' ' :: right) := by
  rw [List.append_assoc]
  rfl

theorem lacks_mark (text : Text) (absent : lacks fromWord text) : text.includes fromMark = false := by
  cases found : text.includes fromMark with
  | false => rfl
  | true =>
      obtain ⟨left, right, same⟩ := (includes_iff _ _).mp found
      unfold lacks at absent
      rw [same, mark_around, words_around fromWord left right (by decide)] at absent
      exact absurd (List.mem_append_right _ List.mem_cons_self) absent

end Origin

end DevServer.Specifier
