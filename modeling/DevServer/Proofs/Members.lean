import DevServer.Proofs.Declarations
import DevServer.Proofs.Trimming

set_option autoImplicit false

namespace DevServer.Text

theorem split_listed (parts : List Text) (trailing : Option Text) (commaless : ∀ part ∈ parts, ',' ∉ part)
    (some' : ∀ part ∈ parts, trim part ≠ []) (blank : ∀ gap ∈ trailing, gap.all isBlank = true) :
    ((split ',' (join [','] (parts ++ trailing.toList))).map trim).filter (· ≠ []) = parts.map trim := by
  by_cases none' : parts ++ trailing.toList = []
  · rw [none', (List.append_eq_nil_iff.mp none').1]
    rfl
  · have unbroken : ∀ part ∈ parts ++ trailing.toList, ',' ∉ part := by
      intro part member
      obtain listed | last := List.mem_append.mp member
      · exact commaless part listed
      · exact unspaced ',' (by decide) part (blank part (Option.mem_toList.mp last))
    have kept : (parts.map trim).filter (· ≠ []) = parts.map trim := by
      rw [List.filter_eq_self]
      intro part member
      obtain ⟨listed, inside, rfl⟩ := List.mem_map.mp member
      exact decide_eq_true (some' listed inside)
    have dropped : (trailing.toList.map trim).filter (· ≠ []) = [] := by
      cases trailing with
      | none => rfl
      | some gap => simp [trim_blank gap (blank gap rfl)]
    rw [split_join ',' _ none' unbroken, List.map_append, List.filter_append, kept, dropped, List.append_nil]

theorem part_codes (c : Char) (part : isIdentPart c = true) :
    (48 ≤ c.toNat ∧ c.toNat ≤ 57 ∨ 65 ≤ c.toNat ∧ c.toNat ≤ 90 ∨ 97 ≤ c.toNat ∧ c.toNat ≤ 122) ∨ c = '_' ∨ c = '$' := by
  delta isIdentPart isWord Char.isAlphanum Char.isAlpha Char.isUpper Char.isLower Char.isDigit at part
  simp only [Bool.or_eq_true, Bool.and_eq_true, decide_eq_true_eq, beq_iff_eq, ge_iff_le,
    UInt32.le_iff_toNat_le] at part
  simp only [Char.toNat]
  tauto

theorem part_not_blank (c : Char) (part : isIdentPart c = true) : isBlank c = false := by
  obtain codes | rfl | rfl := part_codes c part
  · simp only [isBlank, Bool.or_eq_false_iff, Bool.and_eq_false_iff, decide_eq_false_iff_not, beq_eq_false_iff_ne]
    omega
  · decide
  · decide

end DevServer.Text

namespace DevServer.CommonJs

open Text

def isNamePart (c : Char) : Bool := !isBlank c && !isPlainQuote c && c != '{' && c != '}' && c != ',' && c != ':'

def isName (text : Text) : Bool := text != [] && text.all isNamePart

def isExpression (text : Text) : Bool := isTrimmed text && text.all (fun c => c != '{' && c != '}')

inductive Member where
  | shorthand (name : Text)
  | pair (quote : Option Char) (name gap space value : Text)
  | spread (value : Text)
deriving DecidableEq, Repr

namespace Member

def text : Member → Text
  | shorthand name => name
  | pair quote name gap space value =>
    quote.toList ++ (name ++ (quote.toList ++ (gap ++ ':' :: (space ++ value))))
  | spread value => "..." ++ value

def isFormed : Member → Bool
  | shorthand name => isName name
  | pair quote name gap space value => quote.all isPlainQuote && isName name && gap.all isBlank &&
      space.all isBlank && isExpression value
  | spread value => isExpression value

def export? : Member → Option (Text × Text)
  | shorthand name => some (name, name)
  | pair _ name _ _ value => some (name, value)
  | spread _ => none

def constant? : Member → Option (Text × Text)
  | pair _ name _ _ value => if isIdentifier value then none else some (name, value)
  | _ => none

def listed? : Member → Option (Text × Text)
  | shorthand name => if isIdentifier name then some (name, name) else none
  | pair _ name _ _ value => if isIdentifier value then some (name, value) else none
  | spread _ => none

def declared? (member : Member) : Option (Text × Text) := member.constant?.or member.listed?

-- Whether a member is split at none of its commas, and is not taken for a pair.
def isWhole : Member → Bool
  | shorthand _ => true
  | pair _ _ _ _ value => !value.contains ','
  | spread value => !value.contains ',' && !value.contains ':'

theorem text_pair (quote : Option Char) (name gap space value : Text) : (pair quote name gap space value).text =
    quote.toList ++ (name ++ (quote.toList ++ (gap ++ ':' :: (space ++ value)))) := rfl

theorem text_spread (value : Text) : (spread value).text = "..." ++ value := rfl

end Member

structure Slot where
  before : Text
  member : Member
  after : Text
deriving DecidableEq, Repr

namespace Slot

def text (slot : Slot) : Text := slot.before ++ (slot.member.text ++ slot.after)

def isFormed (slot : Slot) : Bool :=
  slot.before.all isBlank && slot.member.isFormed && slot.after.all isBlank

end Slot

def objectBody (slots : List Slot) (trailing : Option Text) : Text :=
  join [','] (slots.map Slot.text ++ trailing.toList)

def exportEntry (entry : Text × Text) : Text :=
  if entry.2 = entry.1 then entry.1 else entry.2 ++ " as " ++ entry.1

def constantLine (entry : Text × Text) : Text := exportConst entry.1 entry.2 ++ ";"

def constantText (constants : List (Text × Text)) : Text :=
  constants.flatMap fun entry => constantLine entry ++ ['\n']

def listText (listed : List (Text × Text)) : Text :=
  "export \x7b " ++ (join ", " (listed.map exportEntry) ++ " \x7d;")

theorem list_opens (rest : Text) : "export \x7b ".toList ++ rest = "export ".toList ++ '{' :: ' ' :: rest := by
  have word : "export \x7b ".toList = "export ".toList ++ ['{', ' '] := by decide
  rw [word, List.append_assoc]
  rfl

theorem list_text_begins (listed : List (Text × Text)) : ∃ more, listText listed = "export " ++ '{' :: more :=
  ⟨_, list_opens _⟩

theorem entry_absent (c : Char) (foreign : c ∉ " as ".toList) (entry : Text × Text) (unnamed : c ∉ entry.1)
    (unvalued : c ∉ entry.2) : c ∉ exportEntry entry := by
  unfold exportEntry
  split
  · exact unnamed
  · simp only [List.mem_append, not_or]
    exact ⟨⟨unvalued, foreign⟩, unnamed⟩

theorem list_text_absent (c : Char) (foreign : c ∉ "export \x7b as, \x7d;".toList) (listed : List (Text × Text))
    (absent : ∀ entry ∈ listed, c ∉ entry.1 ∧ c ∉ entry.2) : c ∉ listText listed := by
  have opening : "export \x7b ".toList ⊆ "export \x7b as, \x7d;".toList := by decide
  have closing : " \x7d;".toList ⊆ "export \x7b as, \x7d;".toList := by decide
  have comma : ", ".toList ⊆ "export \x7b as, \x7d;".toList := by decide
  have word : " as ".toList ⊆ "export \x7b as, \x7d;".toList := by decide
  have middle : c ∉ join ", " (listed.map exportEntry) := by
    apply join_absent c ", " fun member => foreign (comma member)
    intro part member
    obtain ⟨entry, inside, rfl⟩ := List.mem_map.mp member
    exact entry_absent c (fun member => foreign (word member)) entry (absent entry inside).1 (absent entry inside).2
  unfold listText
  simp only [List.mem_append, not_or]
  exact ⟨fun member => foreign (opening member), middle, fun member => foreign (closing member)⟩

section Names

theorem identifier_inside (name : Text) (identified : isIdentifier name = true) :
    ∀ c ∈ name, isIdentPart c = true := by
  cases name with
  | nil => cases identified
  | cons c rest =>
      simp only [isIdentifier, Bool.and_eq_true] at identified
      intro d member
      obtain rfl | later := List.mem_cons.mp member
      · exact isIdentPart_of_isIdentStart identified.1
      · exact List.all_eq_true.mp identified.2 d later

theorem identifier_absent (name : Text) (identified : isIdentifier name = true) (c : Char)
    (foreign : isIdentPart c = false) : c ∉ name := by
  intro member
  rw [identifier_inside name identified c member] at foreign
  cases foreign

theorem name_parts (name : Text) (named : isName name = true) :
    name ≠ [] ∧ ∀ c ∈ name, isBlank c = false ∧ isPlainQuote c = false ∧ c ≠ '{' ∧ c ≠ '}' ∧ c ≠ ',' ∧ c ≠ ':' := by
  simp only [isName, Bool.and_eq_true, bne_iff_ne, List.all_eq_true, isNamePart, Bool.not_eq_true', and_assoc] at named
  exact named

theorem name_solid (name : Text) (named : isName name = true) (p : Char → Bool)
    (outside : ∀ c, isBlank c = false ∧ isPlainQuote c = false → p c = false) :
    name.head?.any (!p ·) = true ∧ name.getLast?.any (!p ·) = true := by
  obtain ⟨some', inside⟩ := name_parts name named
  have solid (c : Char) (member : c ∈ name) : p c = false :=
    outside c ⟨(inside c member).1, (inside c member).2.1⟩
  constructor
  · cases first : name.head? with
    | none => exact absurd (List.head?_eq_none_iff.mp first) some'
    | some c => simp [solid c (List.mem_of_head? first)]
  · cases last : name.getLast? with
    | none => exact absurd (List.getLast?_eq_none_iff.mp last) some'
    | some c => simp [solid c (List.mem_of_getLast? last)]

theorem name_trimmed (name : Text) (named : isName name = true) : isTrimmed name = true := by
  obtain ⟨first, last⟩ := name_solid name named isBlank fun c outside => outside.1
  simp [isTrimmed, first, last]

theorem identifier_name (name : Text) (identified : isIdentifier name = true) : isName name = true := by
  have some' : name ≠ [] := by
    rintro rfl
    cases identified
  have other (c : Char) (outside : isIdentPart c = false) (d : Char) (member : d ∈ name) : d ≠ c := by
    rintro rfl
    exact identifier_absent name identified d outside member
  simp only [isName, Bool.and_eq_true, bne_iff_ne, List.all_eq_true, isNamePart, Bool.not_eq_true', isPlainQuote,
    Bool.or_eq_false_iff, beq_eq_false_iff_ne, and_assoc]
  exact ⟨some', fun c member => ⟨part_not_blank c (identifier_inside name identified c member),
    other _ (by decide) c member, other _ (by decide) c member, other _ (by decide) c member, other _ (by decide) c member,
    other _ (by decide) c member, other _ (by decide) c member⟩⟩

theorem name_line (name : Text) (named : isName name = true) : '\n' ∉ name ∧ '\r' ∉ name := by
  have inside := (name_parts name named).2
  constructor
  · exact fun member => absurd (inside _ member).1 (by decide)
  · exact fun member => absurd (inside _ member).1 (by decide)

end Names

section Members

theorem pair_parts (quote : Option Char) (name gap space value : Text)
    (formed : (Member.pair quote name gap space value).isFormed = true) :
    quote.all isPlainQuote = true ∧ isName name = true ∧ gap.all isBlank = true ∧ space.all isBlank = true ∧
      isTrimmed value = true ∧ ∀ c ∈ value, c ≠ '{' ∧ c ≠ '}' := by
  simp only [Member.isFormed, isExpression, Bool.and_eq_true] at formed
  refine ⟨formed.1.1.1.1, formed.1.1.1.2, formed.1.1.2, formed.1.2, formed.2.1, fun c member => ?_⟩
  simpa using List.all_eq_true.mp formed.2.2 c member

theorem constant_export (member : Member) (entry : Text × Text) (constant : member.constant? = some entry) :
    member.export? = some entry ∧ isIdentifier entry.2 = false := by
  cases member with
  | shorthand name => cases constant
  | spread value => cases constant
  | pair quote name gap space value =>
      rw [Member.constant?] at constant
      split at constant
      · cases constant
      · rename_i other
        cases constant
        exact ⟨rfl, by simpa using other⟩

theorem listed_export (member : Member) (entry : Text × Text) (listed : member.listed? = some entry) :
    member.export? = some entry ∧ isIdentifier entry.2 = true := by
  cases member with
  | shorthand name =>
      rw [Member.listed?] at listed
      split at listed
      · rename_i identified
        cases listed
        exact ⟨rfl, identified⟩
      · cases listed
  | spread value => cases listed
  | pair quote name gap space value =>
      rw [Member.listed?] at listed
      split at listed
      · rename_i identified
        cases listed
        exact ⟨rfl, identified⟩
      · cases listed

theorem declared_export (member : Member) (entry : Text × Text) (declared : member.declared? = some entry) :
    member.export? = some entry := by
  rw [Member.declared?, Option.or_eq_some_iff] at declared
  obtain constant | ⟨_, listed⟩ := declared
  · exact (constant_export member entry constant).1
  · exact (listed_export member entry listed).1

theorem entries_perm (members : List Member) :
    (members.filterMap Member.constant? ++ members.filterMap Member.listed?).Perm
      (members.filterMap Member.declared?) := by
  induction members with
  | nil => exact .nil
  | cons member members ih =>
      cases constant : member.constant? with
      | some entry =>
          have unlisted : member.listed? = none := by
            cases listed : member.listed? with
            | none => rfl
            | some other =>
                obtain ⟨exported, unknown⟩ := constant_export member entry constant
                obtain ⟨exported', known⟩ := listed_export member other listed
                rw [exported] at exported'
                cases exported'
                rw [unknown] at known
                cases known
          have declared : member.declared? = some entry := by rw [Member.declared?, constant]; rfl
          rw [List.filterMap_cons_some constant, List.filterMap_cons_none unlisted, List.filterMap_cons_some declared]
          exact ih.cons entry
      | none =>
          have declared : member.declared? = member.listed? := by rw [Member.declared?, constant]; rfl
          cases listed : member.listed? with
          | none =>
              rw [List.filterMap_cons_none constant, List.filterMap_cons_none listed,
                List.filterMap_cons_none (declared.trans listed)]
              exact ih
          | some entry =>
              rw [List.filterMap_cons_none constant, List.filterMap_cons_some listed,
                List.filterMap_cons_some (declared.trans listed)]
              exact List.perm_middle.trans (ih.cons entry)

theorem declared_sublist (members : List Member) :
    (members.filterMap Member.declared?).Sublist (members.filterMap Member.export?) := by
  induction members with
  | nil => exact .slnil
  | cons member members ih =>
      cases declared : member.declared? with
      | some entry =>
          rw [List.filterMap_cons_some declared, List.filterMap_cons_some (declared_export member entry declared)]
          exact ih.cons_cons entry
      | none =>
          rw [List.filterMap_cons_none declared]
          cases exported : member.export? with
          | none =>
              rw [List.filterMap_cons_none exported]
              exact ih
          | some entry =>
              rw [List.filterMap_cons_some exported]
              exact ih.cons entry

theorem member_trimmed (member : Member) (formed : member.isFormed = true) : isTrimmed member.text = true := by
  cases member with
  | shorthand name => exact name_trimmed name formed
  | spread value =>
      simp only [Member.isFormed, isExpression, isTrimmed, Bool.and_eq_true] at formed
      exact trimmed_append _ [] value rfl formed.1.2
  | pair quote name gap space value =>
      obtain ⟨quotes, named, _, _, trimmed, _⟩ := pair_parts quote name gap space value formed
      have first : (quote.toList ++ name).head?.any (!isBlank ·) = true := by
        cases quote with
        | none => exact (name_solid name named isBlank fun c outside => outside.1).1
        | some q => simpa using plain_quote_misses isBlank rfl rfl q (by simpa using quotes)
      simp only [isTrimmed, Bool.and_eq_true] at trimmed
      have whole : (Member.pair quote name gap space value).text =
          quote.toList ++ name ++ (quote.toList ++ (gap ++ ':' :: space) ++ value) := by simp [Member.text]
      rw [whole]
      exact trimmed_append _ _ value first trimmed.2

theorem pair_cut (quote : Option Char) (name gap space value : Text)
    (formed : (Member.pair quote name gap space value).isFormed = true) :
    cutAt? ':' (Member.pair quote name gap space value).text =
      some (quote.toList ++ (name ++ (quote.toList ++ gap)), space ++ value) := by
  obtain ⟨quotes, named, blank, _⟩ := pair_parts quote name gap space value formed
  have quoted : ':' ∉ quote.toList := by
    cases quote with
    | none => exact List.not_mem_nil
    | some q =>
        have other : ':' ≠ q := by
          rintro rfl
          cases quotes
        simpa using other
  have outside : ':' ∉ name := fun member => ((name_parts name named).2 _ member).2.2.2.2.2 rfl
  have spaced := unspaced ':' (by decide) gap blank
  exact (cut_at_some ':' _ _ _).mpr ⟨by simp [Member.text], by simp [quoted, outside, spaced]⟩

theorem key_read (quote : Option Char) (name gap : Text) (quotes : quote.all isPlainQuote = true)
    (named : isName name = true) (blank : gap.all isBlank = true) :
    trimOf (fun c => c == '"' || c == '\'') (trim (quote.toList ++ (name ++ (quote.toList ++ gap)))) = name := by
  obtain ⟨first, last⟩ := name_solid name named (fun c => c == '"' || c == '\'') fun c outside => by
    have plain := outside.2
    simp only [isPlainQuote, Bool.or_eq_false_iff] at plain ⊢
    exact ⟨plain.2, plain.1⟩
  cases quote with
  | none =>
      have trimmed := trim_trimmed [] name gap rfl blank (name_trimmed name named)
      have unquoted := trim_between (fun c => c == '"' || c == '\'') [] name [] rfl rfl first last
      simp only [List.nil_append, List.append_nil] at trimmed unquoted
      simp only [Option.toList_none, List.nil_append, trimmed, unquoted]
  | some q =>
      have plain : isPlainQuote q = true := quotes
      have single := plain_quote_misses isBlank rfl rfl q plain
      have solid : isTrimmed (q :: (name ++ [q])) = true :=
        trimmed_append [q] name [q] (by simpa using single) (by simpa using single)
      have trimmed := trim_trimmed [] (q :: (name ++ [q])) gap rfl blank solid
      have dropped : [q].all (fun c => c == '"' || c == '\'') = true := by
        simp only [isPlainQuote, Bool.or_eq_true] at plain
        simpa using plain.symm
      have unquoted := trim_between (fun c => c == '"' || c == '\'') [q] name [q] dropped dropped first last
      simp only [List.nil_append, List.cons_append, List.append_assoc] at trimmed unquoted
      simp only [Option.toList_some, List.cons_append, List.nil_append, trimmed, unquoted]

theorem pair_entry (quote : Option Char) (name gap space value : Text)
    (formed : (Member.pair quote name gap space value).isFormed = true) :
    ObjectEntry.ofText (Member.pair quote name gap space value).text =
      if isIdentifier value then .listed (exportEntry (name, value)) else .constant name value := by
  obtain ⟨quotes, named, blank, clear, trimmed, _⟩ := pair_parts quote name gap space value formed
  have value' : trim (space ++ value) = value := by
    simpa using trim_trimmed space value [] clear rfl trimmed
  simp only [ObjectEntry.ofText, pair_cut quote name gap space value formed, key_read quote name gap quotes named blank,
    value', exportEntry]

theorem member_entry (member : Member) (formed : member.isFormed = true) (whole : member.isWhole = true) :
    (ObjectEntry.ofText member.text).constant? = member.constant?.map constantLine ∧
      (ObjectEntry.ofText member.text).listed? = member.listed?.map exportEntry := by
  cases member with
  | shorthand name =>
      have single : cutAt? ':' name = none := by
        rw [cut_at_none]
        exact fun member => ((name_parts name formed).2 _ member).2.2.2.2.2 rfl
      cases identified : isIdentifier name with
      | true => simp [ObjectEntry.ofText, Member.text, single, identified, Member.constant?, Member.listed?,
          ObjectEntry.constant?, ObjectEntry.listed?, exportEntry]
      | false => simp [ObjectEntry.ofText, Member.text, single, identified, Member.constant?, Member.listed?,
          ObjectEntry.constant?, ObjectEntry.listed?]
  | pair quote name gap space value =>
      rw [pair_entry quote name gap space value formed]
      cases identified : isIdentifier value with
      | true => simp [Member.constant?, Member.listed?, identified, ObjectEntry.constant?, ObjectEntry.listed?]
      | false => simp [Member.constant?, Member.listed?, identified, ObjectEntry.constant?, ObjectEntry.listed?,
          constantLine]
  | spread value =>
      have single : cutAt? ':' ("..." ++ value) = none := by
        rw [cut_at_none]
        have dots : ':' ∉ "...".toList := by decide
        simp only [Member.isWhole, Bool.and_eq_true, Bool.not_eq_true', List.contains_eq_mem,
          decide_eq_false_iff_not] at whole
        rw [List.mem_append, not_or]
        exact ⟨dots, whole.2⟩
      have dropped : ObjectEntry.ofText ("..." ++ value) = .dropped := by
        rw [ObjectEntry.ofText, single]
        rfl
      rw [Member.text_spread, dropped]
      exact ⟨rfl, rfl⟩

theorem member_commaless (member : Member) (formed : member.isFormed = true) (whole : member.isWhole = true) :
    ',' ∉ member.text := by
  cases member with
  | shorthand name => exact fun member => ((name_parts name formed).2 _ member).2.2.2.2.1 rfl
  | spread value =>
      have dots : ',' ∉ "...".toList := by decide
      simp only [Member.isWhole, Bool.and_eq_true, Bool.not_eq_true', List.contains_eq_mem,
        decide_eq_false_iff_not] at whole
      rw [Member.text_spread, List.mem_append, not_or]
      exact ⟨dots, whole.1⟩
  | pair quote name gap space value =>
      obtain ⟨quotes, named, blank, clear, _, _⟩ := pair_parts quote name gap space value formed
      have quoted : ',' ∉ quote.toList := by
        cases quote with
        | none => exact List.not_mem_nil
        | some q =>
            have other : ',' ≠ q := by
              rintro rfl
              cases quotes
            simpa using other
      have outside : ',' ∉ name := fun member => ((name_parts name named).2 _ member).2.2.2.2.1 rfl
      have spaced := unspaced ',' (by decide)
      have uncut : ',' ∉ value := by simpa [Member.isWhole] using whole
      simp [Member.text, quoted, outside, spaced gap blank, spaced space clear, uncut]

end Members

section Bodies

variable {slots : List Slot} {trailing : Option Text} (formed : ∀ slot ∈ slots, slot.isFormed = true)
  (blank : ∀ gap ∈ trailing, gap.all isBlank = true)

theorem slot_parts (slot : Slot) (formed : slot.isFormed = true) :
    slot.before.all isBlank = true ∧ slot.member.isFormed = true ∧ slot.after.all isBlank = true := by
  simp only [Slot.isFormed, Bool.and_eq_true] at formed
  exact ⟨formed.1.1, formed.1.2, formed.2⟩

theorem slot_trim (slot : Slot) (formed : slot.isFormed = true) : trim slot.text = slot.member.text := by
  obtain ⟨before, member, after⟩ := slot_parts slot formed
  exact trim_trimmed _ _ _ before after (member_trimmed _ member)

include formed blank

theorem body_entries (whole : ∀ slot ∈ slots, slot.member.isWhole = true) :
    objectEntries (objectBody slots trailing) = slots.map fun slot => ObjectEntry.ofText slot.member.text := by
  have commaless : ∀ part ∈ slots.map Slot.text, ',' ∉ part := by
    intro part member
    obtain ⟨slot, inside, rfl⟩ := List.mem_map.mp member
    obtain ⟨before, member, after⟩ := slot_parts slot (formed slot inside)
    simp [Slot.text, unspaced ',' (by decide) _ before, unspaced ',' (by decide) _ after, member_commaless _ member (whole slot inside)]
  have some' : ∀ part ∈ slots.map Slot.text, trim part ≠ [] := by
    intro part member
    obtain ⟨slot, inside, rfl⟩ := List.mem_map.mp member
    rw [slot_trim slot (formed slot inside)]
    exact trimmed_some _ (member_trimmed _ (slot_parts slot (formed slot inside)).2.1)
  rw [objectEntries, objectBody, split_listed _ trailing commaless some' blank, List.map_map, List.map_map]
  exact List.map_congr_left fun slot member => congrArg ObjectEntry.ofText (slot_trim slot (formed slot member))

def membersOf (slots : List Slot) : List Member := slots.map Slot.member

theorem body_declarations (whole : ∀ slot ∈ slots, slot.member.isWhole = true) :
    constantLines (objectBody slots trailing) = constantText ((membersOf slots).filterMap Member.constant?) ∧
      objectDeclarations (objectBody slots trailing) =
        constantText ((membersOf slots).filterMap Member.constant?) ++
          listText ((membersOf slots).filterMap Member.listed?) := by
  have entries := body_entries formed blank whole
  have one (slot : Slot) (member : slot ∈ slots) :=
    member_entry slot.member (slot_parts slot (formed slot member)).2.1 (whole slot member)
  have constants : (objectEntries (objectBody slots trailing)).filterMap ObjectEntry.constant? =
      ((membersOf slots).filterMap Member.constant?).map constantLine := by
    rw [entries, membersOf, List.filterMap_map, List.filterMap_map, List.map_filterMap]
    exact List.filterMap_congr fun slot member => (one slot member).1
  have listed : (objectEntries (objectBody slots trailing)).filterMap ObjectEntry.listed? =
      ((membersOf slots).filterMap Member.listed?).map exportEntry := by
    rw [entries, membersOf, List.filterMap_map, List.filterMap_map, List.map_filterMap]
    exact List.filterMap_congr fun slot member => (one slot member).2
  have lines : constantLines (objectBody slots trailing) =
      constantText ((membersOf slots).filterMap Member.constant?) := by
    rw [constantLines, constants, List.flatMap_map]
    rfl
  refine ⟨lines, ?_⟩
  rw [declarations_parts, lines, exportList, listed]
  rfl

end Bodies

end DevServer.CommonJs
