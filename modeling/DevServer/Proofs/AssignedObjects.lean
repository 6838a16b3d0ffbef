import DevServer.Proofs.ExportStatements
import DevServer.Proofs.Members

set_option autoImplicit false

namespace DevServer.CommonJs

open Text

structure AssignedObject where
  gap : Text
  space : Text
  slots : List Slot
  trailing : Option Text
  trail : Text
  closed : Bool
deriving DecidableEq, Repr

namespace AssignedObject

def body (object : AssignedObject) : Text := objectBody object.slots object.trailing

def members (object : AssignedObject) : List Member := membersOf object.slots

def literal (object : AssignedObject) : Text := '{' :: (object.body ++ ['}'])

def statement (object : AssignedObject) : ExportStatement :=
  .object object.gap object.space object.body object.trail object.closed

def text (object : AssignedObject) : Text := object.statement.text

def isFormed (object : AssignedObject) : Bool :=
  object.gap.all isSpace && object.space.all isSpace && object.trail.all isSpace &&
    object.slots.all Slot.isFormed && object.trailing.all fun gap => gap.all isBlank

end AssignedObject

section Inner

theorem join_all (p : Char → Bool) (sep : Text) (between : sep.all p = true) (parts : List Text)
    (inside : ∀ part ∈ parts, part.all p = true) : (join sep parts).all p = true := by
  induction parts with
  | nil => rfl
  | cons part rest ih =>
      have here := inside part List.mem_cons_self
      cases rest with
      | nil => exact here
      | cons next rest =>
          have later := ih fun part member => inside part (List.mem_cons_of_mem _ member)
          rw [join_cons, List.all_append, List.all_append, here, between, later]
          rfl

theorem blank_inner (text : Text) (blank : text.all isBlank = true) : text.all isInner = true := by
  refine all_weaken isBlank (fun c blank => ?_) text blank
  simp only [isInner, Bool.and_eq_true, bne_iff_ne]
  constructor
  · rintro rfl
    cases blank
  · rintro rfl
    cases blank

theorem name_inner (name : Text) (named : isName name = true) : name.all isInner = true := by
  rw [List.all_eq_true]
  intro c member
  obtain ⟨_, _, opening, closing, _⟩ := (name_parts name named).2 c member
  simp only [isInner, Bool.and_eq_true, bne_iff_ne]
  exact ⟨opening, closing⟩

theorem expression_inner (value : Text) (formed : isExpression value = true) : value.all isInner = true := by
  rw [isExpression, Bool.and_eq_true] at formed
  exact formed.2

theorem export_parts (member : Member) (formed : member.isFormed = true) (entry : Text × Text)
    (exported : member.export? = some entry) : isName entry.1 = true ∧ entry.2.all isInner = true := by
  cases member with
  | shorthand name =>
      cases exported
      exact ⟨formed, name_inner name formed⟩
  | spread value => cases exported
  | pair quote name gap space value =>
      cases exported
      simp only [Member.isFormed, Bool.and_eq_true] at formed
      exact ⟨formed.1.1.1.2, expression_inner value formed.2⟩

theorem member_inner (member : Member) (formed : member.isFormed = true) : member.text.all isInner = true := by
  cases member with
  | shorthand name => exact name_inner name formed
  | spread value =>
      have dots : "...".toList.all isInner = true := by decide
      rw [Member.text_spread, List.all_append, dots, expression_inner value formed]
      rfl
  | pair quote name gap space value =>
      simp only [Member.isFormed, Bool.and_eq_true] at formed
      obtain ⟨⟨⟨⟨quotes, named⟩, blank⟩, clear⟩, valued⟩ := formed
      have quoted : quote.toList.all isInner = true := by
        cases quote with
        | none => rfl
        | some q =>
            simp only [Option.all_some, isPlainQuote, Bool.or_eq_true, beq_iff_eq] at quotes
            obtain rfl | rfl := quotes <;> decide
      have colon : isInner ':' = true := by decide
      rw [Member.text_pair]
      simp only [List.all_append, List.all_cons, quoted, name_inner name named, blank_inner gap blank, colon,
        blank_inner space clear, expression_inner value valued, Bool.and_self]

variable (object : AssignedObject) (formed : object.isFormed = true)

include formed

theorem object_formed : (∀ slot ∈ object.slots, slot.isFormed = true) ∧
    ∀ gap ∈ object.trailing, gap.all isBlank = true := by
  simp only [AssignedObject.isFormed, Bool.and_eq_true, List.all_eq_true, Option.all_eq_true] at formed
  exact ⟨formed.1.2, fun gap member => List.all_eq_true.mpr (formed.2 gap member)⟩

theorem members_formed (member : Member) (inside : member ∈ object.members) : member.isFormed = true := by
  obtain ⟨slot, slotted, rfl⟩ := List.mem_map.mp inside
  exact (slot_parts slot ((object_formed object formed).1 slot slotted)).2.1

theorem body_inner : object.body.all isInner = true := by
  obtain ⟨slots, trailing⟩ := object_formed object formed
  apply join_all isInner [','] (by decide)
  intro part member
  obtain slotted | last := List.mem_append.mp member
  · obtain ⟨slot, inside, rfl⟩ := List.mem_map.mp slotted
    obtain ⟨before, shaped, after⟩ := slot_parts slot (slots slot inside)
    rw [Slot.text, List.all_append, List.all_append, blank_inner _ before, member_inner _ shaped, blank_inner _ after]
    rfl
  · exact blank_inner part (trailing part (Option.mem_toList.mp last))

theorem object_shaped : object.statement.isShaped = true := by
  have inner := body_inner object formed
  simp only [AssignedObject.isFormed, Bool.and_eq_true] at formed
  simp only [AssignedObject.statement, ExportStatement.isShaped, Bool.and_eq_true]
  exact ⟨formed.1.1, inner⟩

theorem object_exported : normalizeExports object.text = mapLines exportLine (objectDeclarations object.body) :=
  congrArg (mapLines exportLine) (printed_object (object_shaped object formed) object.gap object.space object.body
    object.trail object.closed rfl)

end Inner

end DevServer.CommonJs
