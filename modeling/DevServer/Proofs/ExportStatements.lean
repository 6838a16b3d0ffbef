import DevServer.Proofs.ObjectLines
import DevServer.Proofs.Returns

set_option autoImplicit false

namespace DevServer.CommonJs

open Text

-- A statement that exports something and fills its line. The name of a single export has
-- the spaces before the sign with it, and its value has all that follows.
inductive ExportStatement where
  | single (start name value : Text)
  | object (gap space members trail : Text) (closed : Bool)
  | defined (front inner gap trail : Text) (closed : Bool)
deriving DecidableEq, Repr

def semicolon (closed : Bool) : Text := if closed then [';'] else []

def objectFront (gap space members : Text) : Text :=
  "module.exports" ++ (gap ++ '=' :: (space ++ '{' :: members))

namespace ExportStatement

def text : ExportStatement → Text
  | single start name value => start ++ (name ++ '=' :: value)
  | object gap space members trail closed =>
    objectFront gap space members ++ '}' :: (trail ++ semicolon closed)
  | defined front inner gap trail closed =>
    "Object.defineProperty(" ++ (front ++ '{' :: (inner ++ '}' ::
      (gap ++ ')' :: (trail ++ semicolon closed))))

theorem text_object (gap space members trail : Text) (closed : Bool) :
    (object gap space members trail closed).text =
      objectFront gap space members ++ '}' :: (trail ++ semicolon closed) := rfl

theorem text_defined (front inner gap trail : Text) (closed : Bool) :
    (defined front inner gap trail closed).text = "Object.defineProperty(" ++ (front ++ '{' :: (inner ++ '}' ::
      (gap ++ ')' :: (trail ++ semicolon closed)))) := rfl

def isShaped : ExportStatement → Bool
  | single start _ _ => start == "exports." || start == "module.exports."
  | object gap space members trail _ => gap.all isSpace && space.all isSpace && trail.all isSpace &&
      members.all isInner
  | defined _ _ gap trail _ => gap.all isSpace && trail.all isSpace

def isFormed (statement : ExportStatement) : Bool :=
  statement.isShaped && !statement.text.contains '\n' && !statement.text.contains '\r'

def isObject : ExportStatement → Bool
  | object _ _ _ _ _ => true
  | _ => false

def isOpen : ExportStatement → Bool
  | object _ _ _ _ closed => !closed
  | _ => false

def isEnded : ExportStatement → Bool
  | single start name value => !(single start name value).text.includes "Object.defineProperty("
  | object _ _ _ _ closed => closed
  | defined front inner _ _ closed => closed && !front.contains '}' && !inner.contains '}'

end ExportStatement

open ExportStatement

def IsOther (start : Text) : Prop := ∀ before rest, objectMatcher before (start ++ rest) = none

theorem other_first (c : Char) (start : Text) (first : c ≠ 'm') : IsOther (c :: start) := by
  intro before rest
  cases hit : objectMatcher before (c :: start ++ rest) with
  | none => rfl
  | some found =>
      obtain ⟨more, same⟩ := object_first before _ found.1 found.2 hit
      exact absurd (List.cons.inj same).1 first

theorem other_export : IsOther "exports." := by
  have first : "exports.".toList = 'e' :: "xports." := by decide
  rw [first]
  exact other_first 'e' _ (by decide)

theorem other_declaration : IsOther "export " := by
  have first : "export ".toList = 'e' :: "xport " := by decide
  rw [first]
  exact other_first 'e' _ (by decide)

theorem other_member : IsOther "module.exports." := by
  intro before rest
  cases hit : objectMatcher before ("module.exports." ++ rest) with
  | none => rfl
  | some found =>
      have parts : "module.exports.".toList = "module.exports" ++ ['.'] := by decide
      simp only [objectMatcher, parts, List.append_assoc, after?_append] at hit
      split at hit <;> cases hit

section Objects

variable (gap space members trail : Text) (closed : Bool)

theorem object_front_clear (braceless : ∀ c ∈ members, c ≠ '{' ∧ c ≠ '}') (blank : gap.all isSpace = true)
    (clear : space.all isSpace = true) : '}' ∉ objectFront gap space members := by
  have outside (text : Text) (all : text.all isSpace = true) : '}' ∉ text :=
    fun member => absurd (List.all_eq_true.mp all _ member) (by decide)
  have word : '}' ∉ "module.exports".toList := by decide
  have inside : '}' ∉ members := fun member => (braceless _ member).2 rfl
  unfold objectFront
  simp only [List.mem_append, List.mem_cons, not_or]
  exact ⟨word, outside gap blank, by decide, outside space clear, by decide, inside⟩

theorem object_read (before : Option Char) (starts : before.any (· ≠ '\n') = false) (more : Text)
    (braceless : ∀ c ∈ members, c ≠ '{' ∧ c ≠ '}') (blank : gap.all isSpace = true)
    (clear : space.all isSpace = true) : objectMatcher before (objectFront gap space members ++ '}' :: more) =
      some (members, skipEnd more) := by
  have inner : members.all (fun c => c != '{' && c != '}') = true := by
    rw [List.all_eq_true]
    intro c member
    simpa using braceless c member
  have first := drop_while_stop isSpace gap '=' (space ++ '{' :: (members ++ '}' :: more)) blank (by decide)
  have second := drop_while_stop isSpace space '{' (members ++ '}' :: more) clear (by decide)
  have until' := take_while_stop _ members '}' more inner (by decide)
  have behind := drop_while_stop _ members '}' more inner (by decide)
  have equals : after? ('=' :: (space ++ '{' :: (members ++ '}' :: more))) "=" =
      some (space ++ '{' :: (members ++ '}' :: more)) := after?_append ['='] _
  have brace : after? ('{' :: (members ++ '}' :: more)) "\x7b" = some (members ++ '}' :: more) := after?_append ['{'] _
  unfold objectMatcher objectFront
  simp only [starts, Bool.false_eq_true, if_false, List.append_assoc, List.cons_append, after?_append, spaces,
    first, equals, second, brace, until', behind, Option.bind_eq_bind, Option.bind_some]
  rfl

end Objects

section Ends

def isSolid (text : Text) : Bool := text.head?.all fun c => !isSpace c && c != ';' && c != ')'

theorem spaces_skip (gap more : Text) (blank : gap.all isSpace = true) : spaces (gap ++ more) = spaces more :=
  List.dropWhile_append_of_pos (List.all_eq_true.mp blank)

variable (trail more : Text) (blank : trail.all isSpace = true)

include blank

theorem skip_open (solid : isSolid (spaces more) = true) : skipEnd (trail ++ more) = spaces more := by
  unfold skipEnd
  rw [spaces_skip trail more blank]
  cases behind : spaces more with
  | nil => rfl
  | cons c rest =>
      rw [behind] at solid
      simp only [isSolid, List.head?_cons, Option.all_some, Bool.and_eq_true, bne_iff_ne] at solid
      split
      · rename_i same
        exact absurd (List.cons.inj same).1 solid.1.2
      · rfl

theorem end_unclosed (closed : Bool) (solid : isSolid (spaces more) = true) (close : Text) :
    spaces (trail ++ (semicolon closed ++ more)) ≠ ')' :: close := by
  rw [spaces_skip trail _ blank]
  cases closed with
  | true =>
      intro same
      cases (List.cons.inj same).1
  | false =>
      intro same
      rw [show spaces more = ')' :: close from same] at solid
      simp [isSolid] at solid

end Ends

section Statements

variable {statement : ExportStatement}

theorem formed_parts (formed : statement.isFormed = true) : statement.isShaped = true ∧ '\n' ∉ statement.text ∧ '\r' ∉ statement.text := by
  simp only [isFormed, Bool.and_eq_true, Bool.not_eq_true', List.contains_eq_mem, decide_eq_false_iff_not] at formed
  exact ⟨formed.1.1, formed.1.2, formed.2⟩

variable (shaped : statement.isShaped = true)

include shaped

theorem statement_first : ∃ c rest, statement.text = c :: rest ∧ (c = 'e' ∨ c = 'm' ∨ c = 'O') := by
  cases statement with
  | single start name value =>
      simp only [isShaped, Bool.or_eq_true, beq_iff_eq] at shaped
      obtain rfl | rfl := shaped
      · exact ⟨'e', "xports." ++ (name ++ '=' :: value), rfl, .inl rfl⟩
      · exact ⟨'m', "odule.exports." ++ (name ++ '=' :: value), rfl, .inr (.inl rfl)⟩
  | object gap space members trail closed => exact ⟨'m', _, rfl, .inr (.inl rfl)⟩
  | defined front inner gap trail closed => exact ⟨'O', _, rfl, .inr (.inr rfl)⟩

theorem statement_solid (more : Text) : isSolid (statement.text ++ more) = true := by
  obtain ⟨c, rest, same, rfl | rfl | rfl⟩ := statement_first shaped
  all_goals
    rw [same]
    rfl

theorem other_start (single : statement.isObject = false) (before : Option Char) (more : Text) :
    (∃ start rest, statement.text ++ more = start ++ rest ∧ IsOther start) ∧
      ∃ start rest, definedFrom before (statement.text ++ more) = start ++ rest ∧ IsOther start := by
  cases statement with
  | single start name value =>
      simp only [isShaped, Bool.or_eq_true, beq_iff_eq] at shaped
      have other : IsOther start ∧ 'O' ∉ start := by
        obtain rfl | rfl := shaped
        · exact ⟨other_export, by decide⟩
        · have absent : 'O' ∉ "module.exports.".toList := by decide
          exact ⟨other_member, absent⟩
      have whole : (ExportStatement.single start name value).text ++ more =
          start ++ (name ++ '=' :: value ++ more) := List.append_assoc _ _ _
      rw [whole, defined_front before start _ other.2]
      exact ⟨⟨start, _, rfl, other.1⟩, start, _, rfl, other.1⟩
  | object gap space members trail closed => cases single
  | defined front inner gap trail closed =>
      obtain ⟨rest, whole⟩ : ∃ rest, (ExportStatement.defined front inner gap trail closed).text = 'O' :: rest :=
        ⟨_, rfl⟩
      rw [whole, List.cons_append]
      generalize rest ++ more = tail
      refine ⟨⟨['O'], tail, rfl, other_first 'O' [] (by decide)⟩, ?_⟩
      cases hit : propertyMatcher before ('O' :: tail) with
      | none =>
          rw [defined_kept before 'O' tail hit]
          exact ⟨['O'], _, rfl, other_first 'O' [] (by decide)⟩
      | some found =>
          obtain ⟨property, left⟩ := found
          obtain ⟨used, nonempty, used'⟩ := property_consumes before _ property left hit
          rw [used'] at hit ⊢
          obtain ⟨more, begins⟩ := export_const_begins property.name property.value
          rw [defined_found before used left property nonempty hit, Property.declaration, begins,
            List.append_assoc, List.append_assoc]
          exact ⟨"export ", _, rfl, other_declaration⟩

theorem object_parts (gap space members trail : Text) (closed : Bool)
    (same : statement = .object gap space members trail closed) :
    gap.all isSpace = true ∧ space.all isSpace = true ∧ trail.all isSpace = true ∧
      ∀ c ∈ members, c ≠ '{' ∧ c ≠ '}' := by
  subst same
  simp only [isShaped, Bool.and_eq_true] at shaped
  refine ⟨shaped.1.1.1, shaped.1.1.2, shaped.1.2, fun c member => ?_⟩
  simpa [isInner] using List.all_eq_true.mp shaped.2 c member

theorem defined_object (object : statement.isObject = true) (before : Option Char) (more : Text)
    (solid : isSolid (spaces more) = true) :
    definedFrom before (statement.text ++ more) = statement.text ++ definedFrom none more := by
  cases statement with
  | single start name value => cases object
  | defined front inner gap trail closed => cases object
  | object gap space members trail closed =>
      obtain ⟨blank, clear, ends, braceless⟩ := object_parts shaped gap space members trail closed rfl
      have absent : 'O' ∉ trail ++ semicolon closed := by
        have spaced : 'O' ∉ trail := fun member => absurd (List.all_eq_true.mp ends _ member) (by decide)
        cases closed <;> simp [spaced, semicolon]
      have whole : (ExportStatement.object gap space members trail closed).text ++ more =
          objectFront gap space members ++ '}' :: (trail ++ semicolon closed ++ more) := List.append_assoc _ _ _
      have outside := object_front_clear gap space members braceless blank clear
      rw [whole, defined_unclosed before _ _ outside fun close => by
        rw [List.append_assoc]
        exact end_unclosed trail more ends closed solid close, defined_front none _ more absent]
      rw [text_object]
      simp only [List.append_assoc, List.cons_append]

end Statements

theorem exports_passes (text : Text) :
    normalizeExports text = mapLines exportLine (assignedFrom none (definedFrom none text)) := rfl

def printed (statement : ExportStatement) : Text := assignedFrom none (definedFrom none statement.text)

theorem solid_spaces (text : Text) (solid : isSolid text = true) : spaces text = text := by
  cases text with
  | nil => rfl
  | cons c text =>
      simp only [isSolid, List.head?_cons, Option.all_some, Bool.and_eq_true, Bool.not_eq_true'] at solid
      simp [spaces, solid.1.1]

theorem other_kept (before : Option Char) (rest : Text) :
    assignedFrom before ('\n' :: rest) = '\n' :: assignedFrom (some '\n') rest :=
  assigned_kept before '\n' rest (other_first '\n' [] (by decide) before rest)

section Lines

variable {statement : ExportStatement} (shaped : statement.isShaped = true)

include shaped

theorem defined_alone (object : statement.isObject = true) : definedFrom none statement.text = statement.text := by
  have alone := defined_object shaped object none [] rfl
  rw [List.append_nil] at alone
  exact alone.trans (List.append_nil _)

theorem object_hit (gap space members trail : Text) (closed : Bool)
    (same : statement = .object gap space members trail closed) (before : Option Char)
    (starts : before.any (· ≠ '\n') = false) (more : Text) : objectMatcher before (statement.text ++ more) =
      some (members, skipEnd (trail ++ (semicolon closed ++ more))) := by
  obtain ⟨blank, clear, _, braceless⟩ := object_parts shaped gap space members trail closed same
  have read := object_read gap space members before starts (trail ++ (semicolon closed ++ more)) braceless blank clear
  rw [← read, same, text_object]
  simp only [List.append_assoc, List.cons_append]

theorem printed_object (gap space members trail : Text) (closed : Bool)
    (same : statement = .object gap space members trail closed) : printed statement = objectDeclarations members := by
  obtain ⟨_, _, ends, _⟩ := object_parts shaped gap space members trail closed same
  obtain ⟨c, rest, first, _⟩ := statement_first shaped
  have hit := object_hit shaped gap space members trail closed same none rfl []
  have left : skipEnd (trail ++ (semicolon closed ++ [])) = [] := by
    cases closed with
    | true => exact skip_closed trail [] ends
    | false => exact skip_open trail [] ends rfl
  rw [left] at hit
  have found := assigned_found none statement.text [] members (by simp [first]) hit
  unfold printed
  rw [defined_alone shaped (by rw [same]; rfl), ← List.append_nil statement.text, found]
  exact List.append_nil _

omit shaped in
-- An open object takes the line feed behind it, and no other statement does.
theorem printed_line (formed : statement.isFormed = true) (before : Option Char) (starts : before.any (· ≠ '\n') = false) (rest : Text)
    (solid : isSolid rest = true) : assignedFrom before (definedFrom none statement.text ++ '\n' :: rest) =
      printed statement ++ ((if statement.isOpen then [] else ['\n']) ++ assignedFrom (some '\n') rest) := by
  obtain ⟨shaped, _⟩ := formed_parts formed
  obtain ⟨c, tail, first, _⟩ := statement_first shaped
  cases single : statement.isObject with
  | false =>
      obtain ⟨_, start, tail, same, other⟩ := other_start shaped single none []
      rw [List.append_nil] at same
      have unbroken : '\n' ∉ definedFrom none statement.text := by
        have feeds := defined_feeds none statement.text
        rw [List.count_eq_zero.mpr (formed_parts formed).2.1] at feeds
        exact List.count_eq_zero.mp (Nat.le_zero.mp feeds)
      have miss (before : Option Char) (more : Text) :
          objectMatcher before (definedFrom none statement.text ++ more) = none := by
        rw [same, List.append_assoc]
        exact other before _
      have alone := assigned_line none _ [] unbroken fun _ => miss none []
      have closed : statement.isOpen = false := by
        cases statement with
        | object gap space members trail closed => cases single
        | _ => rfl
      rw [List.append_nil] at alone
      rw [assigned_line before _ _ unbroken fun _ => miss before _, other_kept, printed, alone, closed]
      simp [assignedFrom, scanFrom, render]
  | true =>
      cases kind : statement with
      | single start name value => rw [kind] at single; cases single
      | defined front inner gap trail closed => rw [kind] at single; cases single
      | object gap space members trail closed =>
          obtain ⟨_, _, ends, _⟩ := object_parts shaped gap space members trail closed kind
          have hit := object_hit shaped gap space members trail closed kind before starts ('\n' :: rest)
          rw [← kind, printed_object shaped gap space members trail closed kind, defined_alone shaped single]
          cases closed with
          | true =>
              rw [show trail ++ (semicolon true ++ '\n' :: rest) = trail ++ ';' :: '\n' :: rest from rfl,
                skip_closed trail _ ends] at hit
              rw [assigned_found before _ _ members (by simp [first]) hit, other_kept, kind]
              rfl
          | false =>
              have left : skipEnd (trail ++ (semicolon false ++ '\n' :: rest)) = rest := by
                have skipped : spaces ('\n' :: rest) = rest := solid_spaces rest solid
                rw [← skipped] at solid
                exact (skip_open trail ('\n' :: rest) ends solid).trans skipped
              rw [left, show statement.text ++ '\n' :: rest = statement.text ++ ['\n'] ++ rest by simp] at hit
              have found := assigned_found before (statement.text ++ ['\n']) rest members (by simp) hit
              rw [List.append_assoc, List.getLast?_concat] at found
              rw [kind] at found ⊢
              exact found

end Lines

end DevServer.CommonJs
