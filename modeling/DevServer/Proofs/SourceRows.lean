import DevServer.Proofs.AssignedObjects
import DevServer.Proofs.DeclaredExports

set_option autoImplicit false

namespace DevServer.CommonJs

open Text

-- A line that exports nothing, one that assigns to a name of the exports, or an object
-- over one or more lines with what follows it on its last.
inductive Row where
  | code (line : Text)
  | single (start name gap value : Text)
  | assigned (object : AssignedObject) (ending : Text)
deriving DecidableEq, Repr

def Member.isPlain : Member → Bool
  | pair _ _ _ _ value => (split '\n' value).tail.all fun line => !isAssigned line && !isModuleLine line
  | _ => true

def Member.isLegal : Member → Bool
  | shorthand name => !isReserved name
  | pair _ name _ _ value => if isIdentifier value then !isReserved value else !isReserved name
  | spread _ => true

namespace Row

def text : Row → Text
  | code line => line
  | single start name gap value => start ++ (name ++ (gap ++ '=' :: value))
  | assigned object ending => object.text ++ ending

def isFormed : Row → Bool
  | code line => !line.contains '\n' && !isAssigned line && !isModuleLine line &&
      (line.after? "module.exports").all fun rest => spaces rest != []
  | single start name gap value => (start == "exports." || start == "module.exports.") && isIdentifier name &&
      gap.all isSpace && !gap.contains '\n' && !value.contains '\n'
  | assigned object ending => object.isFormed && object.members.all Member.isPlain &&
      (ending == [] || !object.trail.contains '\n') && !ending.contains '\n' && (object.closed || isSolid ending)

def isWhole : Row → Bool
  | assigned object _ => object.members.all Member.isWhole
  | _ => true

def isEnded : Row → Bool
  | assigned object ending => object.closed || ending != []
  | _ => true

def names : Row → List Text
  | code _ => []
  | single _ name _ _ => [name]
  | assigned object _ => (object.members.filterMap Member.export?).map Prod.fst

def isLegal : Row → Bool
  | code _ => true
  | single _ name _ _ => name == "default" || !isReserved name
  | assigned object _ => object.members.all Member.isLegal

def printed : Row → Text
  | assigned object ending => objectDeclarations object.body ++ ending
  | row => row.text

def declarations : Row → List Declaration
  | code _ => []
  | single _ name _ _ => [if name = "default" then .whole else .constant name]
  | assigned object _ => (object.members.filterMap Member.constant?).map (.constant ·.1) ++
      [.listed ((object.members.filterMap Member.listed?).map Prod.swap)]

end Row

def sourceOf (rows : List Row) : Text := join ['\n'] (rows.map Row.text)

section Objects

theorem assigned_feed (before : Option Char) (rest : Text) :
    assignedFrom before ('\n' :: rest) = '\n' :: assignedFrom none rest := by
  rw [other_kept, assigned_before (some '\n') rfl]

def IsBehind (more : Text) : Prop := more = [] ∨ ∃ rest, more = '\n' :: rest

theorem behind_same (before : Option Char) (more : Text) (behind : IsBehind more) :
    assignedFrom before more = assignedFrom none more := by
  obtain rfl | ⟨rest, rfl⟩ := behind
  · rfl
  · rw [assigned_feed, assigned_feed]

theorem line_passed (before : Option Char) (line more : Text) (behind : IsBehind more) (unbroken : '\n' ∉ line)
    (miss : line ≠ [] → objectMatcher before (line ++ more) = none) :
    assignedFrom before (line ++ more) = line ++ assignedFrom none more := by
  rw [assigned_line before line more unbroken miss, behind_same _ more behind]

theorem code_unmatched (line more : Text) (behind : IsBehind more) (unassigned : isAssigned line = false)
    (other : ∀ rest, line = "module.exports" ++ rest → spaces rest ≠ []) : objectMatcher none (line ++ more) = none := by
  cases hit : objectMatcher none (line ++ more) with
  | none => rfl
  | some found =>
      obtain ⟨_, rest, head, _⟩ := (object_iff none (line ++ more)).mp (by rw [hit]; rfl)
      simp only [objectHead?, Option.bind_eq_bind, Option.bind_eq_some_iff] at head
      obtain ⟨tail, exports, equals, assigned, _⟩ := head
      have inside : ∃ gap, line = "module.exports" ++ gap ∧ tail = gap ++ more := by
        have unbroken : '\n' ∉ "module.exports".toList := by decide
        obtain rfl | ⟨below, rfl⟩ := behind
        · rw [List.append_nil] at exports
          exact ⟨tail, after?_eq_some.mp exports, (List.append_nil tail).symm⟩
        · rw [after_over line below _ '\n' unbroken] at exports
          obtain ⟨gap, front, same⟩ := Option.map_eq_some_iff.mp exports
          exact ⟨gap, after?_eq_some.mp front, same.symm⟩
      obtain ⟨gap, rfl, rfl⟩ := inside
      cases first : spaces gap with
      | nil => exact absurd first (other gap rfl)
      | cons c after =>
          have stop : isSpace c = false := by
            have kept := List.head?_dropWhile_not isSpace gap
            rw [show gap.dropWhile isSpace = c :: after from first] at kept
            simpa using kept
          have skipped : spaces (gap ++ more) = c :: (after ++ more) := by
            obtain ⟨front, whole, blank⟩ := space_parts gap
            rw [first] at whole
            rw [whole, List.append_assoc]
            exact drop_while_stop isSpace front c _ blank stop
          rw [skipped] at assigned
          have equal : c = '=' := by
            have whole := after?_eq_some.mp assigned
            exact (List.cons.inj whole).1
          obtain ⟨front, whole, blank⟩ := space_parts gap
          rw [first, equal] at whole
          have assigns : isAssigned ("module.exports".toList ++ gap) = true := by
            rw [isAssigned, after?_append, Option.bind_some, whole, assignment_again front after blank, Bool.or_true]
          rw [unassigned] at assigns
          cases assigns

theorem object_skipped (object : AssignedObject) (formed : object.isFormed = true) (ending more : Text)
    (solid : object.closed = true ∨ isSolid ending = true) (left : object.closed = true ∨ ending ≠ [] ∨ more = []) :
    skipEnd (object.trail ++ (semicolon object.closed ++ (ending ++ more))) = ending ++ more := by
  simp only [AssignedObject.isFormed, Bool.and_eq_true] at formed
  have blank := formed.1.1.2
  cases closed : object.closed with
  | true => exact skip_closed object.trail _ blank
  | false =>
      rw [closed] at solid left
      have first : isSolid (ending ++ more) = true := by
        cases ending with
        | nil =>
            obtain close | some' | rfl := left
            · cases close
            · exact absurd rfl some'
            · rfl
        | cons c ending => exact solid.resolve_left Bool.false_ne_true
      have skipped := solid_spaces _ first
      have open' := skip_open object.trail (ending ++ more) blank (by rw [skipped]; exact first)
      rw [skipped] at open'
      exact open'

theorem object_passed (object : AssignedObject) (ending : Text) (formed : (Row.assigned object ending).isFormed = true)
    (more : Text) (behind : IsBehind more) (left : more = [] ∨ (Row.assigned object ending).isEnded = true) :
    assignedFrom none (object.text ++ (ending ++ more)) =
      objectDeclarations object.body ++ (ending ++ assignedFrom none more) := by
  simp only [Row.isFormed, Bool.and_eq_true, Bool.or_eq_true, beq_iff_eq, Bool.not_eq_true', List.contains_eq_mem,
    decide_eq_false_iff_not] at formed
  obtain ⟨⟨⟨⟨shaped, _⟩, single⟩, unbroken⟩, solid⟩ := formed
  have ended : object.closed = true ∨ ending ≠ [] ∨ more = [] := by
    obtain last | ended := left
    · exact .inr (.inr last)
    · simp only [Row.isEnded, Bool.or_eq_true, bne_iff_ne] at ended
      exact ended.imp id .inl
  have hit := object_hit (object_shaped object shaped) object.gap object.space object.body object.trail object.closed
    rfl none rfl (ending ++ more)
  rw [object_skipped object shaped ending more solid ended] at hit
  have spelled : object.statement.text = objectFront object.gap object.space object.body ++
      '}' :: (object.trail ++ semicolon object.closed) := rfl
  have found := assigned_found none object.statement.text (ending ++ more) object.body (by simp [spelled]) hit
  have miss (some' : ending ≠ []) : objectMatcher object.statement.text.getLast? (ending ++ more) = none := by
    have tail : '\n' ∉ '}' :: (object.trail ++ semicolon object.closed) := by
      have outside := single.resolve_left some'
      cases object.closed <;> simp [semicolon, outside]
    obtain ⟨c, last⟩ : ∃ c, ('}' :: (object.trail ++ semicolon object.closed)).getLast? = some c :=
      ⟨_, List.getLast?_eq_some_getLast (List.cons_ne_nil _ _)⟩
    have other : c ≠ '\n' := fun same => tail (same ▸ List.mem_of_getLast? last)
    rw [spelled, List.getLast?_append, last]
    exact if_pos (by simpa using other)
  rw [AssignedObject.text, found, line_passed _ ending more behind unbroken miss]

theorem single_parts (start name gap value : Text) (formed : (Row.single start name gap value).isFormed = true) :
    (start = "exports." ∨ start = "module.exports.") ∧ isIdentifier name = true ∧ gap.all isSpace = true ∧
      '\n' ∉ start ++ (name ++ (gap ++ '=' :: value)) := by
  simp only [Row.isFormed, Bool.and_eq_true, Bool.or_eq_true, beq_iff_eq, Bool.not_eq_true', List.contains_eq_mem,
    decide_eq_false_iff_not] at formed
  obtain ⟨⟨⟨⟨starts, named⟩, blank⟩, gapped⟩, unbroken⟩ := formed
  have outside : '\n' ∉ start := by
    obtain rfl | rfl := starts
    · decide
    · have absent : '\n' ∉ "module.exports.".toList := by decide
      exact absent
  have inside := identifier_absent name named '\n' (by decide)
  exact ⟨starts, named, blank, by simp [outside, inside, gapped, unbroken]⟩

theorem row_passed (row : Row) (formed : row.isFormed = true) (more : Text) (behind : IsBehind more)
    (left : more = [] ∨ row.isEnded = true) :
    assignedFrom none (row.text ++ more) = row.printed ++ assignedFrom none more := by
  cases row with
  | code line =>
      simp only [Row.isFormed, Bool.and_eq_true, Bool.not_eq_true', List.contains_eq_mem, decide_eq_false_iff_not]
        at formed
      obtain ⟨⟨⟨unbroken, unassigned⟩, _⟩, other⟩ := formed
      refine line_passed none line more behind unbroken fun _ => code_unmatched line more behind unassigned ?_
      rintro rest rfl
      rw [after?_append] at other
      simpa using other
  | single start name gap value =>
      obtain ⟨starts, _, _, unbroken⟩ := single_parts start name gap value formed
      have other : IsOther start := by
        obtain rfl | rfl := starts
        · exact other_export
        · exact other_member
      refine line_passed none _ more behind unbroken fun _ => ?_
      rw [Row.text, List.append_assoc]
      exact other none _
  | assigned object ending =>
      rw [Row.text, Row.printed, List.append_assoc, List.append_assoc]
      exact object_passed object ending formed more behind left

theorem rows_passed (rows : List Row) (formed : ∀ row ∈ rows, row.isFormed = true)
    (ended : ∀ row ∈ rows.dropLast, row.isEnded = true) :
    assignedFrom none (sourceOf rows) = join ['\n'] (rows.map Row.printed) := by
  induction rows with
  | nil => rfl
  | cons row rest ih =>
      have here := formed row List.mem_cons_self
      have later := ih fun other member => formed other (List.mem_cons_of_mem _ member)
      cases rest with
      | nil =>
          have passed := row_passed row here [] (.inl rfl) (.inl rfl)
          rw [List.append_nil] at passed
          exact passed.trans (List.append_nil _)
      | cons next rest =>
          have below := later fun other member => ended other (List.mem_cons_of_mem _ member)
          have passed := row_passed row here ('\n' :: sourceOf (next :: rest)) (.inr ⟨_, rfl⟩)
            (.inr (ended row List.mem_cons_self))
          rw [assigned_feed, below] at passed
          rw [show sourceOf (row :: next :: rest) = row.text ++ '\n' :: sourceOf (next :: rest) by simp [sourceOf, join]]
          rw [passed]
          simp [join]

end Objects

end DevServer.CommonJs
