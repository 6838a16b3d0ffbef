import Mathlib.Algebra.Order.BigOperators.Group.List
import Mathlib.Algebra.Order.Group.Nat
import DevServer.Proofs.AssignedObjects
import DevServer.Proofs.ConstantLines

set_option autoImplicit false

namespace DevServer.CommonJs

open Text

def Member.isCarried : Member → Bool
  | shorthand name => isIdentifier name
  | pair _ _ _ _ value => !value.contains ',' && !(split '\n' value).tail.any isAssigned &&
      dropReturns value == value
  | spread _ => false

-- Each member has one export of its name with its value, as a constant or in the list,
-- and there are no other exports.
def Carried (output : Text) (members : List Member) : Prop :=
  ∃ constants listed : List (Text × Text), output = constantText constants ++ listText listed ∧
    (∀ entry ∈ listed, isIdentifier entry.2 = true) ∧
    ((constants ++ listed).map some).Perm (members.map Member.export?) ∧
    ((constants ++ listed).map Prod.fst).Nodup

section Weights

theorem sum_filtered_some {α β : Type} (read : α → Option β) (weigh : β → Nat) (items : List α) :
    ((items.filterMap read).map weigh).sum = (items.map fun item => (read item).elim 0 weigh).sum := by
  induction items with
  | nil => rfl
  | cons item items ih =>
      cases kind : read item with
      | none => simp [kind, ih]
      | some entry => simp [kind, ih]

def held (entry : Text × Text) : Nat := if isIdentifier entry.2 then 0 else weight entry

theorem held_sum (entries : List (Text × Text)) : (entries.map held).sum ≤ (entries.map weight).sum := by
  induction entries with
  | nil => exact Nat.le_refl 0
  | cons entry entries ih =>
      have here : held entry ≤ weight entry := by
        unfold held
        split
        · exact Nat.zero_le _
        · exact Nat.le_refl _
      simp only [List.map_cons, List.sum_cons]
      omega

theorem held_listed (entries : List (Text × Text)) (identified : ∀ entry ∈ entries, isIdentifier entry.2 = true) :
    (entries.map held).sum = 0 := by
  apply List.sum_eq_zero
  intro amount member
  obtain ⟨entry, inside, rfl⟩ := List.mem_map.mp member
  rw [held, if_pos (identified entry inside)]

end Weights

section Members

theorem identifier_carried (quote : Option Char) (name gap space value : Text) (identified : isIdentifier value = true) :
    (Member.pair quote name gap space value).isCarried = true := by
  have comma := identifier_absent value identified ',' (by decide)
  have unbroken := identifier_absent value identified '\n' (by decide)
  have clean := identifier_absent value identified '\r' (by decide)
  simp [Member.isCarried, comma, split_none '\n' value unbroken, drop_returns_none value clean]

theorem carried_whole (member : Member) (carried : member.isCarried = true) : member.isWhole = true := by
  cases member with
  | shorthand name => rfl
  | spread value => cases carried
  | pair quote name gap space value =>
      simp only [Member.isCarried, Bool.and_eq_true] at carried
      exact carried.1.1

theorem carried_declared (member : Member) (carried : member.isCarried = true) :
    ∃ entry, member.declared? = some entry ∧ member.export? = some entry := by
  cases member with
  | shorthand name => exact ⟨_, if_pos carried, rfl⟩
  | spread value => cases carried
  | pair quote name gap space value =>
      refine ⟨_, ?_, rfl⟩
      cases identified : isIdentifier value with
      | true => simp [Member.declared?, Member.constant?, Member.listed?, identified]
      | false => simp [Member.declared?, Member.constant?, identified]

theorem carried_perm (members : List Member) (carried : ∀ member ∈ members, member.isCarried = true) :
    ((members.filterMap Member.constant? ++ members.filterMap Member.listed?).map some).Perm
      (members.map Member.export?) := by
  have same : (members.filterMap Member.declared?).map some = members.map Member.export? := by
    induction members with
    | nil => rfl
    | cons member members ih =>
        obtain ⟨entry, declared, exported⟩ := carried_declared member (carried member List.mem_cons_self)
        rw [List.filterMap_cons_some declared, List.map_cons, List.map_cons, exported,
          ih fun other inside => carried other (List.mem_cons_of_mem _ inside)]
  rw [← same]
  exact (entries_perm members).map some

end Members

section Output

variable (object : AssignedObject) (formed : object.isFormed = true)

include formed

theorem constants_named (entry : Text × Text) (member : Member) (inside : member ∈ object.members)
    (exported : member.export? = some entry) : '\n' ∉ entry.1 ∧ '\r' ∉ entry.1 :=
  name_line entry.1 (export_parts member (members_formed object formed member inside) entry exported).1

theorem carried_output (carried : ∀ member ∈ object.members, member.isCarried = true) :
    normalizeExports object.text = constantText (object.members.filterMap Member.constant?) ++
      listText (object.members.filterMap Member.listed?) := by
  have whole : ∀ slot ∈ object.slots, slot.member.isWhole = true := fun slot inside =>
    carried_whole _ (carried _ (List.mem_map.mpr ⟨slot, inside, rfl⟩))
  obtain ⟨slots, trailing⟩ := object_formed object formed
  obtain ⟨_, declared⟩ := body_declarations slots trailing whole
  have constants (entry : Text × Text) (inside : entry ∈ object.members.filterMap Member.constant?) :
      ('\n' ∉ entry.1 ∧ '\r' ∉ entry.1) ∧ (split '\n' entry.2).tail.any isAssigned = false ∧ returned entry = entry := by
    obtain ⟨member, within, constant⟩ := List.mem_filterMap.mp inside
    have here := carried member within
    refine ⟨constants_named object formed entry member within (constant_export member entry constant).1, ?_⟩
    cases member with
    | shorthand name => cases constant
    | spread value => cases constant
    | pair quote name gap space value =>
        obtain ⟨exported, _⟩ := constant_export _ entry constant
        cases exported
        simp only [Member.isCarried, Bool.and_eq_true, Bool.not_eq_true', beq_iff_eq] at here
        exact ⟨here.1.2, by rw [returned, here.2]⟩
  have single : '\n' ∉ listText (object.members.filterMap Member.listed?) := by
    apply list_text_absent '\n' (by decide)
    intro entry inside
    obtain ⟨member, within, listed⟩ := List.mem_filterMap.mp inside
    obtain ⟨exported, identified⟩ := listed_export member entry listed
    exact ⟨(constants_named object formed entry member within exported).1,
      identifier_absent entry.2 identified '\n' (by decide)⟩
  have unassigned : isAssigned (listText (object.members.filterMap Member.listed?)) = false := by
    obtain ⟨more, begins⟩ := list_text_begins (object.members.filterMap Member.listed?)
    rw [begins]
    exact declared_unassigned _
  have same : (object.members.filterMap Member.constant?).map returned = object.members.filterMap Member.constant? :=
    (List.map_congr_left fun entry inside => (constants entry inside).2.2).trans (List.map_id _)
  have kept := constants_kept _ _ (fun entry inside => (constants entry inside).1)
    (fun entry inside => (constants entry inside).2.1) single unassigned
  rw [same] at kept
  rw [object_exported object formed, AssignedObject.body, declared]
  exact kept

theorem output_begins : '{' ∉ mapLines exportLine (constantLines object.body) ∧ ∃ rest,
    normalizeExports object.text = mapLines exportLine (constantLines object.body) ++ "export " ++ '{' :: rest := by
  refine ⟨constant_lines_braceless object.body (body_inner object formed), ?_⟩
  rw [object_exported object formed]
  exact declarations_begin object.body

theorem never_whole (more : Text) : normalizeExports object.text ≠ "export default " ++ (object.literal ++ more) := by
  intro same
  obtain ⟨braceless, rest, begins⟩ := output_begins object formed
  have word : '{' ∉ "export ".toList := by decide
  have absent : '{' ∉ mapLines exportLine (constantLines object.body) ++ "export " := by
    rw [List.mem_append, not_or]
    exact ⟨braceless, word⟩
  have default' : '{' ∉ "export default ".toList := by decide
  have spelled : "export default ".toList = "export d".toList ++ "efault ".toList := by decide
  have front := first_place '{' _ rest _ (object.body ++ ['}'] ++ more) (begins.symm.trans same) absent default'
  rw [spelled] at front
  exact absurd (List.append_inj' front (by decide)).2 (by decide)

section Carried

variable {constants listed : List (Text × Text)}
  (output : normalizeExports object.text = constantText constants ++ listText listed)
  (identified : ∀ entry ∈ listed, isIdentifier entry.2 = true)
  (perm : ((constants ++ listed).map some).Perm (object.members.map Member.export?))

include perm

omit formed in
theorem entry_member (entry : Text × Text) :
    (entry ∈ constants ∨ entry ∈ listed) ↔ ∃ member ∈ object.members, member.export? = some entry := by
  have same : some entry ∈ (constants ++ listed).map some ↔ some entry ∈ object.members.map Member.export? :=
    perm.mem_iff
  simpa using same

omit formed in
theorem member_exports (member : Member) (inside : member ∈ object.members) :
    ∃ entry, member.export? = some entry := by
  have exported : member.export? ∈ (constants ++ listed).map some :=
    perm.mem_iff.mpr (List.mem_map.mpr ⟨member, inside, rfl⟩)
  obtain ⟨entry, _, same⟩ := List.mem_map.mp exported
  exact ⟨entry, same.symm⟩

theorem constants_parts (entry : Text × Text) (inside : entry ∈ constants) :
    isName entry.1 = true ∧ entry.2.all isInner = true := by
  obtain ⟨member, within, exported⟩ := (entry_member object perm entry).mp (.inl inside)
  exact export_parts member (members_formed object formed member within) entry exported

theorem constants_braceless : '{' ∉ constantText constants := by
  have outside (text : Text) (inner : text.all isInner = true) : '{' ∉ text :=
    fun member => absurd (List.all_eq_true.mp inner _ member) (by decide)
  intro member
  obtain ⟨entry, inside, within⟩ := List.mem_flatMap.mp member
  obtain ⟨named, valued⟩ := constants_parts object formed perm entry inside
  have front := constant_front_absent '{' (by decide) entry.1 (outside entry.1 (name_inner entry.1 named))
  rw [constant_line_parts, List.append_assoc, List.append_assoc, List.mem_append, List.mem_append] at within
  obtain first | second | third := within
  · exact front first
  · exact outside entry.2 valued second
  · exact absurd third (by decide)

include output

theorem constants_printed : mapLines exportLine (constantLines object.body) = constantText constants := by
  obtain ⟨braceless, rest, begins⟩ := output_begins object formed
  obtain ⟨more, list⟩ := list_text_begins listed
  have word : '{' ∉ "export ".toList := by decide
  have absent : '{' ∉ mapLines exportLine (constantLines object.body) ++ "export " := by
    rw [List.mem_append, not_or]
    exact ⟨braceless, word⟩
  have absent' : '{' ∉ constantText constants ++ "export " := by
    rw [List.mem_append, not_or]
    exact ⟨constants_braceless object formed perm, word⟩
  rw [list, ← List.append_assoc] at output
  exact List.append_cancel_right (first_place '{' _ rest _ more (begins.symm.trans output) absent absent')

include identified

theorem members_whole (member : Member) (inside : member ∈ object.members) : member.isWhole = true := by
  obtain ⟨entry, exported⟩ := member_exports object perm member inside
  cases member with
  | shorthand name => rfl
  | spread value => cases exported
  | pair quote name gap space value =>
      have commaless : ',' ∉ value := by
        intro cut
        obtain constant | list := (entry_member object perm (name, value)).mpr ⟨_, inside, rfl⟩
        · have printed : ',' ∈ constantText constants := by
            refine List.mem_flatMap.mpr ⟨_, constant, ?_⟩
            rw [constant_line_parts]
            simp [cut]
          rw [← constants_printed object formed output perm] at printed
          exact constant_lines_commaless object.body printed
        · exact identifier_absent value (identified _ list) ',' (by decide) cut
      simpa [Member.isWhole] using commaless

theorem constants_sent : mapLines exportLine (constantText (object.members.filterMap Member.constant?)) =
    constantText constants := by
  obtain ⟨slots, trailing⟩ := object_formed object formed
  have whole : ∀ slot ∈ object.slots, slot.member.isWhole = true := fun slot inside =>
    members_whole object formed output identified perm _ (List.mem_map.mpr ⟨slot, inside, rfl⟩)
  have printed := constants_printed object formed output perm
  rw [AssignedObject.body, (body_declarations slots trailing whole).1] at printed
  exact printed

theorem values_unassigned (entry : Text × Text) (inside : entry ∈ object.members.filterMap Member.constant?) :
    (split '\n' entry.2).tail.any isAssigned = false := by
  have settled := export_lines_unassigned (constantText (object.members.filterMap Member.constant?))
  rw [constants_sent object formed output identified perm, assigns_iff] at settled
  have parts := constant_text_assigned constants
    (fun entry inside => (name_line _ (constants_parts object formed perm entry inside).1).1) []
  rw [List.append_nil, List.any_eq_false.mpr fun part member => by simp [settled part member]] at parts
  obtain ⟨member, within, constant⟩ := List.mem_filterMap.mp inside
  obtain ⟨exported, other⟩ := constant_export member entry constant
  obtain here | list := (entry_member object perm entry).mpr ⟨member, within, exported⟩
  · have none' := (Bool.or_eq_false_iff.mp parts.symm).1
    simpa using List.any_eq_false.mp none' entry here
  · rw [identified entry list] at other
    cases other

theorem constants_returned : constantText constants =
    constantText ((object.members.filterMap Member.constant?).map returned) := by
  have named (entry : Text × Text) (inside : entry ∈ object.members.filterMap Member.constant?) :
      '\n' ∉ entry.1 ∧ '\r' ∉ entry.1 := by
    obtain ⟨member, within, constant⟩ := List.mem_filterMap.mp inside
    exact constants_named object formed entry member within (constant_export member entry constant).1
  have kept := constants_kept _ [] named (values_unassigned object formed output identified perm) List.not_mem_nil
    (by decide)
  rw [List.append_nil, List.append_nil] at kept
  rw [← constants_sent object formed output identified perm, kept]

theorem members_held (member : Member) (inside : member ∈ object.members) :
    member.export?.elim 0 held ≤ member.constant?.elim 0 fun entry => weight (returned entry) := by
  have pointwise (member : Member) :
      (member.constant?.elim 0 fun entry => weight (returned entry)) ≤ member.export?.elim 0 held := by
    cases constant : member.constant? with
    | none => exact Nat.zero_le _
    | some entry =>
        obtain ⟨exported, other⟩ := constant_export member entry constant
        rw [exported, Option.elim_some, Option.elim_some, held, other]
        exact (returned_lighter entry).1
  have total : (object.members.map fun member => member.export?.elim 0 held).sum ≤
      (object.members.map fun member => member.constant?.elim 0 fun entry => weight (returned entry)).sum := by
    have exports : (object.members.map fun member => member.export?.elim 0 held).sum =
        (constants.map held).sum + (listed.map held).sum := by
      have moved := (perm.map fun entry? => entry?.elim 0 held).sum_eq
      rw [List.map_map, List.map_map] at moved
      rw [← List.sum_append, ← List.map_append]
      exact moved.symm
    have printed := congrArg List.length (constants_returned object formed output identified perm)
    rw [constant_text_length, constant_text_length, List.map_map,
      sum_filtered_some Member.constant? (weight ∘ returned)] at printed
    rw [exports, held_listed listed identified, Nat.add_zero]
    exact (held_sum constants).trans (Nat.le_of_eq printed)
  by_contra heavier
  exact absurd (List.sum_lt_sum _ _ (fun member _ => pointwise member) ⟨member, inside, Nat.lt_of_not_le heavier⟩)
    (Nat.not_lt_of_le total)

theorem members_carried (member : Member) (inside : member ∈ object.members) : member.isCarried = true := by
  obtain ⟨entry, exported⟩ := member_exports object perm member inside
  have weighed := members_held object formed output identified perm member inside
  have whole := members_whole object formed output identified perm member inside
  cases member with
  | spread value => cases exported
  | shorthand name =>
      cases known : isIdentifier name with
      | true => exact known
      | false => simp [Member.export?, Member.constant?, held, known, weight] at weighed
  | pair quote name gap space value =>
      cases known : isIdentifier value with
      | true => exact identifier_carried quote name gap space value known
      | false =>
          have constant : (Member.pair quote name gap space value).constant? = some (name, value) := by
            simp [Member.constant?, known]
          have unassigned := values_unassigned object formed output identified perm (name, value)
            (List.mem_filterMap.mpr ⟨_, inside, constant⟩)
          rw [constant, Option.elim_some, Member.export?, Option.elim_some, held, known] at weighed
          have kept := (returned_lighter (name, value)).2 weighed
          rw [Member.isWhole] at whole
          simp only [Member.isCarried, whole, unassigned, kept, Bool.not_false, Bool.and_self, beq_self_eq_true]

end Carried

end Output

section Objects

def AssignedObject.names (object : AssignedObject) : List Text :=
  (object.members.filterMap Member.export?).map Prod.fst

theorem names_perm (object : AssignedObject) (constants listed : List (Text × Text))
    (perm : ((constants ++ listed).map some).Perm (object.members.map Member.export?)) :
    ((constants ++ listed).map Prod.fst).Perm object.names := by
  have entries := perm.filterMap id
  rw [List.filterMap_map, List.filterMap_map] at entries
  simp only [Function.id_comp, List.filterMap_some] at entries
  exact entries.map Prod.fst

-- An object is never kept whole. Each of its members is exported once with its whole value
-- exactly when no value is cut at a comma or changed as a line, none is spread and no two
-- have the same name.
theorem members_carried_iff (object : AssignedObject) (formed : object.isFormed = true) :
    ((∃ more, normalizeExports object.text = "export default " ++ (object.literal ++ more)) ∨
      Carried (normalizeExports object.text) object.members) ↔
    (∀ member ∈ object.members, member.isCarried = true) ∧ object.names.Nodup := by
  constructor
  · rintro (⟨more, whole⟩ | ⟨constants, listed, output, identified, perm, distinct⟩)
    · exact absurd whole (never_whole object formed more)
    · exact ⟨members_carried object formed output identified perm, (names_perm object _ _ perm).nodup_iff.mp distinct⟩
  · rintro ⟨carried, distinct⟩
    have perm := carried_perm object.members carried
    refine .inr ⟨_, _, carried_output object formed carried, ?_, perm, (names_perm object _ _ perm).nodup_iff.mpr distinct⟩
    intro entry inside
    obtain ⟨member, _, listed⟩ := List.mem_filterMap.mp inside
    exact (listed_export member entry listed).2

def mixedMembers : AssignedObject :=
  ⟨" ", " ", [⟨" ", .shorthand "a", []⟩, ⟨" ", .pair (some '\'') "b" [] " " "f(x) ?\n  y : 'z'", []⟩,
    ⟨" ", .pair none "c" [] " " "d", " "⟩], none, [], true⟩

theorem mixed_members_carried : mixedMembers.isFormed = true ∧
    Carried (normalizeExports mixedMembers.text) mixedMembers.members := by
  have formed : mixedMembers.isFormed = true := by decide +kernel
  obtain ⟨more, whole⟩ | carried := (members_carried_iff mixedMembers formed).mpr ⟨by decide +kernel, by decide +kernel⟩
  · exact absurd whole (never_whole mixedMembers formed more)
  · exact ⟨formed, carried⟩

def spreadMembers : AssignedObject :=
  ⟨" ", " ", [⟨" ", .spread "base", []⟩, ⟨" ", .pair none "a" [] " " "f(1, 2)", []⟩,
    ⟨" ", .pair none "b" [] " " "c", " "⟩], none, [], true⟩

theorem spread_members_cut : spreadMembers.isFormed = true ∧ spreadMembers.names.Nodup ∧
    normalizeExports spreadMembers.text = "export const a = f(1;\nexport \x7b c as b \x7d;" ∧
    ¬ ((∃ more, normalizeExports spreadMembers.text = "export default " ++ (spreadMembers.literal ++ more)) ∨
      Carried (normalizeExports spreadMembers.text) spreadMembers.members) := by
  have formed : spreadMembers.isFormed = true := by decide +kernel
  refine ⟨formed, by decide +kernel, by decide +kernel, ?_⟩
  rintro (⟨more, whole⟩ | ⟨constants, listed, _, _, perm, _⟩)
  · exact never_whole spreadMembers formed more whole
  · obtain ⟨entry, exported⟩ := member_exports spreadMembers perm (.spread "base") (by decide +kernel)
    cases exported

end Objects

end DevServer.CommonJs
