import Mathlib.Data.List.Perm.Subperm
import DevServer.Proofs.SourceRows

set_option autoImplicit false

namespace DevServer.CommonJs

open Text

section Rows

theorem single_exported (start name gap value : Text) (starts : start = "exports." ∨ start = "module.exports.")
    (identified : isIdentifier name = true) (blank : gap.all isSpace = true) :
    exportLine (start ++ (name ++ (gap ++ '=' :: value))) =
      if name = "default" then "export default " ++ spaces value else exportConst name (spaces value) := by
  have read : ((start ++ (name ++ (gap ++ '=' :: value))).after? "module.").getD
      (start ++ (name ++ (gap ++ '=' :: value))) = "exports." ++ (name ++ (gap ++ '=' :: value)) := by
    obtain rfl | rfl := starts
    · rw [after_apart "module." "exports." _ (by decide) (by decide)]
      rfl
    · have parts : "module.exports.".toList = "module.".toList ++ "exports.".toList := by decide
      rw [parts, List.append_assoc, after?_append]
      rfl
  have ends := sign_ends_name gap value blank
  have assigned : afterAssignment? (gap ++ '=' :: value) = some (spaces value) := by
    have sign : after? ('=' :: value) "=" = some value := after?_append ['='] value
    unfold afterAssignment? spaces
    rw [drop_while_stop isSpace gap '=' value blank (by decide), sign]
    rfl
  have named : namedExport? (start ++ (name ++ (gap ++ '=' :: value))) = some (name, spaces value) := by
    unfold namedExport?
    simp only [read, after?_append, identifier_read name _ identified ends, assigned, Option.bind_eq_bind, Option.bind_some]
  rw [exportLine, named]

theorem single_read (start name gap value : Text) (starts : start = "exports." ∨ start = "module.exports.")
    (identified : isIdentifier name = true) (blank : gap.all isSpace = true) :
    readLine (start ++ (name ++ (gap ++ '=' :: value))) = some (if name = "default" then .whole else .constant name) := by
  rw [readLine, single_exported start name gap value starts identified blank]
  split
  · exact whole_read _
  · rw [export_const_append]
    exact constant_read name _ fun c member => part_not_blank c (identifier_inside name identified c member)

theorem object_reads (object : AssignedObject) (ending : Text) (formed : (Row.assigned object ending).isFormed = true)
    (whole : (Row.assigned object ending).isWhole = true) :
    AreRead (split '\n' (Row.assigned object ending).printed) (Row.assigned object ending).declarations := by
  simp only [Row.isFormed, Bool.and_eq_true, Bool.not_eq_true', List.contains_eq_mem, decide_eq_false_iff_not] at formed
  obtain ⟨⟨⟨⟨shaped, plain⟩, _⟩, unbroken⟩, _⟩ := formed
  have members := members_formed object shaped
  obtain ⟨slots, trailing⟩ := object_formed object shaped
  have parts := (body_declarations slots trailing fun slot inside =>
    List.all_eq_true.mp whole _ (List.mem_map.mpr ⟨slot, inside, rfl⟩)).2
  have constants (entry : Text × Text) (inside : entry ∈ object.members.filterMap Member.constant?) :
      isName entry.1 = true ∧
        ∀ line ∈ (split '\n' entry.2).tail, isAssigned line = false ∧ isModuleLine line = false := by
    obtain ⟨member, within, constant⟩ := List.mem_filterMap.mp inside
    obtain ⟨exported, _⟩ := constant_export member entry constant
    refine ⟨(export_parts member (members member within) entry exported).1, fun line later => ?_⟩
    have lines := List.all_eq_true.mp plain member within
    cases member with
    | shorthand name => cases constant
    | spread value => cases constant
    | pair quote name gap space value =>
        cases exported
        simpa using List.all_eq_true.mp lines line later
  have listed (entry : Text × Text) (inside : entry ∈ object.members.filterMap Member.listed?) :
      isName entry.1 = true ∧ isName entry.2 = true := by
    obtain ⟨member, within, listed⟩ := List.mem_filterMap.mp inside
    obtain ⟨exported, identified⟩ := listed_export member entry listed
    exact ⟨(export_parts member (members member within) entry exported).1, identifier_name entry.2 identified⟩
  rw [Row.printed, AssignedObject.body, parts, List.append_assoc]
  change AreRead (split '\n' (constantText (object.members.filterMap Member.constant?) ++
    (listText (object.members.filterMap Member.listed?) ++ ending))) _
  rw [constant_text_split]
  exact (constants_read _ (fun entry inside => (constants entry inside).1) fun entry inside =>
    (constants entry inside).2).append (list_reads _ ending listed unbroken)

theorem row_reads (row : Row) (formed : row.isFormed = true) (whole : row.isWhole = true) :
    AreRead (split '\n' row.printed) row.declarations := by
  cases row with
  | code line =>
      simp only [Row.isFormed, Bool.and_eq_true, Bool.not_eq_true', List.contains_eq_mem, decide_eq_false_iff_not]
        at formed
      obtain ⟨⟨⟨unbroken, unassigned⟩, other⟩, _⟩ := formed
      rw [Row.printed, Row.text, split_none '\n' line unbroken]
      · refine plain_reads [line] fun part member => ?_
        rw [List.mem_singleton.mp member]
        exact ⟨unassigned, other⟩
      · intro object ending same
        cases same
  | single start name gap value =>
      obtain ⟨starts, identified, blank, single⟩ := single_parts start name gap value formed
      have chomped : chomp (start ++ (name ++ (gap ++ '=' :: value))) = start ++ (name ++ (gap ++ '=' :: chomp value)) := by
        rw [chomp_over start _ (by simp), chomp_over name _ (by simp), chomp_over gap _ (by simp), chomp]
        intro same _
        cases same
      rw [Row.printed, Row.text, split_none '\n' _ single]
      · exact AreRead.single _ _ (single_read start name gap value starts identified blank)
          (by rw [chomped]; exact single_read start name gap _ starts identified blank)
      · intro object ending same
        cases same
  | assigned object ending => exact object_reads object ending formed whole

theorem rows_read (rows : List Row) (formed : ∀ row ∈ rows, row.isFormed = true)
    (whole : ∀ row ∈ rows, row.isWhole = true) :
    AreRead (split '\n' (join ['\n'] (rows.map Row.printed))) (rows.flatMap Row.declarations) := by
  induction rows with
  | nil => exact plain_reads [[]] (by decide)
  | cons row rest ih =>
      have here := row_reads row (formed row List.mem_cons_self) (whole row List.mem_cons_self)
      have later := ih (fun other member => formed other (List.mem_cons_of_mem _ member))
        fun other member => whole other (List.mem_cons_of_mem _ member)
      cases rest with
      | nil =>
          rw [List.flatMap_cons, List.flatMap_nil, List.append_nil]
          exact here
      | cons next rest =>
          have below : join ['\n'] ((row :: next :: rest).map Row.printed) =
              row.printed ++ '\n' :: join ['\n'] ((next :: rest).map Row.printed) := by simp [join]
          rw [below, split_concat, List.flatMap_cons]
          exact here.append later

end Rows

section Names

theorem member_legal (member : Member) : member.isLegal = true ↔
    (∀ entry ∈ member.constant?, isReserved entry.1 = false) ∧ ∀ entry ∈ member.listed?, isBinding entry.2 = true := by
  have words : ∀ word ∈ reservedWords, isIdentifier word = true := by decide
  have other (name : Text) (unknown : isIdentifier name = false) : isReserved name = false := by
    rw [isReserved, List.contains_eq_mem, decide_eq_false_iff_not]
    intro member
    rw [words name member] at unknown
    cases unknown
  cases member with
  | shorthand name =>
      cases identified : isIdentifier name with
      | true => simp [Member.isLegal, Member.constant?, Member.listed?, identified, isBinding]
      | false => simp [Member.isLegal, Member.constant?, Member.listed?, identified, other name identified]
  | spread value => simp [Member.isLegal, Member.constant?, Member.listed?]
  | pair quote name gap space value =>
      cases identified : isIdentifier value with
      | true => simp [Member.isLegal, Member.constant?, Member.listed?, identified, isBinding]
      | false => simp [Member.isLegal, Member.constant?, Member.listed?, identified]

theorem row_legal (row : Row) :
    (∀ declaration ∈ row.declarations, declaration.isLegal = true) ↔ row.isLegal = true := by
  cases row with
  | code line => simp [Row.declarations, Row.isLegal]
  | single start name gap value =>
      by_cases named : name = "default"
      · rw [Row.declarations, if_pos named, Row.isLegal, named]
        decide
      · rw [Row.declarations, if_neg named, Row.isLegal, beq_false_of_ne named, Bool.false_or]
        simp only [List.mem_singleton, forall_eq, Declaration.isLegal]
  | assigned object ending =>
      simp only [Row.declarations, Row.isLegal, List.all_eq_true, member_legal, List.mem_append, List.mem_singleton,
        or_imp, forall_and, forall_eq, Declaration.isLegal, List.mem_map, List.mem_filterMap, Option.mem_def]
      constructor
      · rintro ⟨constants, listed⟩
        refine ⟨fun member inside entry constant => ?_, fun member inside entry item => ?_⟩
        · simpa [Declaration.isLegal] using constants _ ⟨entry, ⟨member, inside, constant⟩, rfl⟩
        · exact listed _ ⟨entry, ⟨member, inside, item⟩, rfl⟩
      · rintro ⟨constants, listed⟩
        refine ⟨?_, ?_⟩
        · rintro _ ⟨entry, ⟨member, inside, constant⟩, rfl⟩
          simpa [Declaration.isLegal] using constants member inside entry constant
        · rintro _ ⟨entry, ⟨member, inside, item⟩, rfl⟩
          exact listed member inside entry item

theorem row_names (row : Row) : (row.declarations.flatMap Declaration.names).Subperm row.names := by
  cases row with
  | code line => exact List.Subperm.refl []
  | single start name gap value =>
      by_cases named : name = "default"
      · rw [Row.declarations, if_pos named, Row.names, named]
        exact List.Subperm.refl _
      · rw [Row.declarations, if_neg named]
        exact List.Subperm.refl [name]
  | assigned object ending =>
      have declared : (Row.assigned object ending).declarations.flatMap Declaration.names =
          (object.members.filterMap Member.constant? ++ object.members.filterMap Member.listed?).map Prod.fst := by
        simp [Row.declarations, Declaration.names, List.flatMap_map, Function.comp_def, ← List.map_eq_flatMap]
      rw [declared]
      exact ((entries_perm object.members).map Prod.fst).subperm.trans
        ((declared_sublist object.members).map Prod.fst).subperm

theorem rows_names (rows : List Row) :
    ((rows.flatMap Row.declarations).flatMap Declaration.names).Subperm (rows.flatMap Row.names) := by
  induction rows with
  | nil => exact List.Subperm.refl []
  | cons row rest ih =>
      rw [List.flatMap_cons, List.flatMap_append, List.flatMap_cons]
      exact (row_names row).append ih

-- The declarations of a source of exports with distinct names are those of its rows, and
-- they are well-formed exactly when no constant has a reserved name, `default` in an object
-- among them, and no literal or other reserved word is listed as a binding. No value is cut
-- at a comma here, and each object leaves the line feed behind it.
theorem exports_well_formed_iff (rows : List Row) (formed : ∀ row ∈ rows, row.isFormed = true)
    (whole : ∀ row ∈ rows, row.isWhole = true) (ended : ∀ row ∈ rows.dropLast, row.isEnded = true)
    (undefined' : matches? propertyMatcher (sourceOf rows) = false) (distinct : (rows.flatMap Row.names).Nodup) :
    declarations (normalizeExports (sourceOf rows)) = rows.flatMap Row.declarations ∧
      (IsWellFormed (declarations (normalizeExports (sourceOf rows))) ↔ ∀ row ∈ rows, row.isLegal = true) := by
  have unchanged : definedFrom none (sourceOf rows) = sourceOf rows := scan_unmatched _ none _ undefined'
  have found : declarations (normalizeExports (sourceOf rows)) = rows.flatMap Row.declarations := by
    rw [exports_passes, unchanged, rows_passed rows formed ended]
    exact lines_read _ _ (rows_read rows formed whole)
  have once : ((rows.flatMap Row.declarations).flatMap Declaration.names).Nodup := by
    obtain ⟨names, perm, sublist⟩ := rows_names rows
    exact perm.nodup_iff.mp (distinct.sublist sublist)
  refine ⟨found, ?_⟩
  rw [found, IsWellFormed]
  constructor
  · rintro ⟨_, legal⟩ row inside
    exact (row_legal row).mp fun declaration member => legal declaration (List.mem_flatMap.mpr ⟨row, inside, member⟩)
  · intro legal
    refine ⟨once, fun declaration member => ?_⟩
    obtain ⟨row, inside, within⟩ := List.mem_flatMap.mp member
    exact (row_legal row).mpr (legal row inside) declaration within

def mixedRows : List Row :=
  [.code "const a = 1;", .single "exports." "default" " " " a;", .single "module.exports." "b" " " " [a, 1];",
    .assigned ⟨" ", " ", [⟨" ", .shorthand "a", []⟩, ⟨" ", .pair (some '"') "c" [] " " "1", []⟩,
      ⟨" ", .pair none "d" [] " " "a", " "⟩], none, [], true⟩ " // all", .code []]

theorem mixed_rows_well_formed : IsWellFormed (declarations (normalizeExports (sourceOf mixedRows))) :=
  (exports_well_formed_iff mixedRows (by decide +kernel) (by decide +kernel) (by decide +kernel) (by decide +kernel)
    (by decide +kernel)).2.mpr (by decide +kernel)

def literalRows : List Row :=
  [.assigned ⟨" ", " ", [⟨" ", .pair none "default" [] " " "1", []⟩, ⟨" ", .pair none "a" [] " " "true", " "⟩], none, [],
    true⟩ [], .code []]

theorem literal_rows_ill_formed : (∀ row ∈ literalRows, row.isFormed = true) ∧ (literalRows.flatMap Row.names).Nodup ∧
    normalizeExports (sourceOf literalRows) = "export const default = 1;\nexport \x7b true as a \x7d;\n" ∧
    ¬ IsWellFormed (declarations (normalizeExports (sourceOf literalRows))) := by
  refine ⟨by decide +kernel, by decide +kernel, by decide +kernel, by decide +kernel⟩

end Names

end DevServer.CommonJs
