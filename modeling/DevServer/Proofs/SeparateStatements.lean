import DevServer.Proofs.Assignments
import DevServer.Proofs.ExportStatements
import DevServer.Proofs.Marks

set_option autoImplicit false

namespace DevServer.CommonJs

open Text ExportStatement

def stacked (above : List ExportStatement) (last : Option ExportStatement) : Text :=
  above.flatMap (fun statement => statement.text ++ ['\n']) ++ last.elim [] text

section Stacks

variable {above : List ExportStatement} {last : Option ExportStatement}
  (formed : ∀ statement ∈ above, statement.isFormed = true)
  (formed' : ∀ statement ∈ last, statement.isFormed = true)

theorem stacked_cons (statement : ExportStatement) (above : List ExportStatement) (last : Option ExportStatement) :
    stacked (statement :: above) last = statement.text ++ '\n' :: stacked above last := by
  simp [stacked]

include formed formed'

theorem stacked_solid : isSolid (stacked above last) = true := by
  cases above with
  | nil =>
      cases last with
      | none => rfl
      | some statement =>
          have solid := statement_solid (formed_parts (formed' statement rfl)).1 []
          rwa [List.append_nil] at solid
  | cons statement above =>
      rw [stacked_cons]
      exact statement_solid (formed_parts (formed statement List.mem_cons_self)).1 _

theorem stacked_feeds : (stacked above last).count '\n' = above.length := by
  induction above with
  | nil =>
      cases last with
      | none => rfl
      | some statement => exact List.count_eq_zero.mpr (formed_parts (formed' statement rfl)).2.1
  | cons statement above ih =>
      rw [stacked_cons, List.count_append, List.count_cons_self,
        List.count_eq_zero.mpr (formed_parts (formed statement List.mem_cons_self)).2.1,
        ih fun other member => formed other (List.mem_cons_of_mem _ member)]
      simp

theorem stacked_behind (rest : Text) (place : '\n' :: rest <:+ stacked above last) :
    ∃ above', above' <:+ above ∧ rest = stacked above' last := by
  induction above with
  | nil =>
      cases last with
      | none => simp [stacked] at place
      | some statement =>
          exact absurd (place.subset List.mem_cons_self) (formed_parts (formed' statement rfl)).2.1
  | cons statement above ih =>
      have unbroken := (formed_parts (formed statement List.mem_cons_self)).2.1
      obtain ⟨front, whole⟩ := place
      rw [stacked_cons] at whole
      obtain ⟨gap, spelled, same⟩ | ⟨gap, rfl, same⟩ := List.append_eq_append_iff.mp whole
      · cases gap with
        | nil => exact ⟨above, List.suffix_cons _ _, by simpa using same⟩
        | cons c gap =>
            rw [spelled, ← (List.cons.inj same).1] at unbroken
            simp at unbroken
      · cases gap with
        | nil => exact ⟨above, List.suffix_cons _ _, by simpa using same.symm⟩
        | cons c gap =>
            obtain ⟨above', suffix, rfl⟩ := ih (fun other member => formed other (List.mem_cons_of_mem _ member))
              ⟨gap, (List.cons.inj same).2.symm⟩
            exact ⟨above', suffix.trans (List.suffix_cons _ _), rfl⟩

end Stacks

section Passes

def passed (above : List ExportStatement) (last : Option ExportStatement) : Text :=
  above.flatMap (fun statement => definedFrom none statement.text ++ ['\n']) ++
    definedFrom none (last.elim [] text)

def glued (above : List ExportStatement) (last : Option ExportStatement) : Text :=
  above.flatMap (fun statement => printed statement ++ if statement.isOpen then [] else ['\n']) ++
    last.elim [] printed

theorem passed_cons (statement : ExportStatement) (above : List ExportStatement) (last : Option ExportStatement) :
    passed (statement :: above) last = definedFrom none statement.text ++ '\n' :: passed above last := by
  simp [passed]

theorem defined_first (before : Option Char) (c : Char) (rest : Text) :
    ∃ d more, definedFrom before (c :: rest) = d :: more ∧ (d = c ∨ d = 'e') := by
  cases hit : propertyMatcher before (c :: rest) with
  | none => exact ⟨c, _, defined_kept before c rest hit, .inl rfl⟩
  | some found =>
      obtain ⟨used, nonempty, whole⟩ := property_consumes before _ found.1 found.2 hit
      rw [whole] at hit ⊢
      exact ⟨'e', _, defined_found before used found.2 found.1 nonempty hit, .inr rfl⟩

variable {above : List ExportStatement} {last : Option ExportStatement}
  (formed : ∀ statement ∈ above, statement.isFormed = true)

include formed

theorem defined_stacked (kept : (definedFrom none (stacked above last)).count '\n' = (stacked above last).count '\n') :
    definedFrom none (stacked above last) = passed above last := by
  induction above with
  | nil => rfl
  | cons statement above ih =>
      have unbroken := (formed_parts (formed statement List.mem_cons_self)).2.1
      rw [stacked_cons] at kept ⊢
      obtain ⟨line, later⟩ := defined_line none _ statement.text _ rfl unbroken kept
      rw [defined_before] at later
      rw [line, defined_before (some '\n'), passed_cons,
        ih (fun other member => formed other (List.mem_cons_of_mem _ member)) later]

variable (formed' : ∀ statement ∈ last, statement.isFormed = true)

include formed'

theorem passed_solid : isSolid (passed above last) = true := by
  have solid (statement : ExportStatement) (formed : statement.isFormed = true) (more : Text) :
      isSolid (definedFrom none statement.text ++ more) = true := by
    obtain ⟨c, rest, same, first⟩ := statement_first (formed_parts formed).1
    obtain ⟨d, more', begins, kind⟩ := defined_first none c rest
    rw [same, begins]
    obtain rfl | rfl := kind
    · obtain rfl | rfl | rfl := first <;> rfl
    · rfl
  cases above with
  | nil =>
      cases last with
      | none => rfl
      | some statement =>
          have alone := solid statement (formed' statement rfl) []
          rwa [List.append_nil] at alone
  | cons statement above =>
      rw [passed_cons]
      exact solid statement (formed statement List.mem_cons_self) _

theorem assigned_stacked : assignedFrom none (passed above last) = glued above last := by
  induction above with
  | nil => cases last <;> rfl
  | cons statement above ih =>
      have later : ∀ other ∈ above, other.isFormed = true := fun other member =>
        formed other (List.mem_cons_of_mem _ member)
      rw [passed_cons, printed_line (formed statement List.mem_cons_self) none rfl _ (passed_solid later formed'),
        assigned_before (some '\n') rfl, ih later]
      simp [glued]

end Passes

section Feeds

def innerFeeds (above : List ExportStatement) (last : Option ExportStatement) : Nat :=
  (above.map fun statement => (printed statement).count '\n').sum +
    last.elim 0 fun statement => (printed statement).count '\n'

theorem glued_feeds (above : List ExportStatement) (last : Option ExportStatement) :
    (glued above last).count '\n' + above.countP isOpen = above.length + innerFeeds above last := by
  induction above with
  | nil => cases last <;> simp [glued, innerFeeds]
  | cons statement above ih =>
      have whole : glued (statement :: above) last = printed statement ++
          ((if statement.isOpen then [] else ['\n']) ++ glued above last) := by simp [glued]
      have inner : innerFeeds (statement :: above) last =
          (printed statement).count '\n' + innerFeeds above last := by simp [innerFeeds, Nat.add_assoc]
      rw [whole, inner, List.count_append, List.count_append, List.countP_cons, List.length_cons]
      cases statement.isOpen with
      | true => simp only [if_true, List.count_nil]; omega
      | false => simp; omega

theorem feeds_behind_defined (before : Option Char) (text : Text)
    (starts : ∀ rest, '\n' :: rest <:+ text → feedsAt (definedFrom none rest) ≤ feedsAt rest) :
    feedsBehind (definedFrom before text) ≤ feedsBehind text := by
  induction before, text using scan_induction property_consumes with
  | nil before => exact Nat.le_refl _
  | kept before c rest miss ih =>
      have later := ih fun more place => starts more (place.trans (List.suffix_cons c rest))
      rw [defined_kept before c rest miss, feedsBehind, feedsBehind]
      by_cases feed : c = '\n'
      · subst feed
        have here := starts rest List.suffix_rfl
        rw [defined_before]
        rw [defined_before] at later
        simp only [if_true]
        omega
      · simpa [feed] using later
  | found before used left property nonempty hit ih =>
      have later := ih fun more place => starts more (place.trans (List.suffix_append used left))
      have longer := feeds_behind_append used left
      rw [defined_found before used left property nonempty hit,
        feeds_behind_unbroken _ _ (declaration_unbroken before _ left property hit)]
      omega

theorem feeds_at_other (start rest : Text) (other : IsOther start) : feedsAt (start ++ rest) = 0 := by
  unfold feedsAt
  rw [other none rest]

section Statement

variable {statement : ExportStatement} (formed : statement.isFormed = true)

include formed

theorem feeds_at_statement (more : Text) :
    feedsAt (statement.text ++ more) ≤ (printed statement).count '\n' := by
  cases kind : statement with
  | object gap space members trail closed =>
      rw [← kind, feedsAt, object_hit (formed_parts formed).1 gap space members trail closed kind none rfl more,
        printed_object (formed_parts formed).1 gap space members trail closed kind]
  | _ =>
      obtain ⟨⟨start, rest, same, other⟩, _⟩ := other_start (formed_parts formed).1 (by rw [kind]; rfl) none more
      rw [← kind, same, feeds_at_other start rest other]
      exact Nat.zero_le _

theorem feeds_at_defined (more : Text) (solid : isSolid (spaces more) = true) :
    feedsAt (definedFrom none (statement.text ++ more)) ≤ feedsAt (statement.text ++ more) := by
  cases kind : statement with
  | object gap space members trail closed =>
      rw [← kind, defined_object (formed_parts formed).1 (by rw [kind]; rfl) none more solid, feedsAt, feedsAt,
        object_hit (formed_parts formed).1 gap space members trail closed kind none rfl,
        object_hit (formed_parts formed).1 gap space members trail closed kind none rfl]
  | _ =>
      obtain ⟨_, start, rest, same, other⟩ := other_start (formed_parts formed).1 (by rw [kind]; rfl) none more
      rw [← kind, same, feeds_at_other start rest other]
      exact Nat.zero_le _

end Statement

variable {above : List ExportStatement} {last : Option ExportStatement}
  (formed : ∀ statement ∈ above, statement.isFormed = true)
  (formed' : ∀ statement ∈ last, statement.isFormed = true)

include formed formed'

theorem feeds_at_stacked :
    feedsAt (definedFrom none (stacked above last)) ≤ feedsAt (stacked above last) := by
  cases above with
  | nil =>
      cases last with
      | none => exact Nat.le_refl _
      | some statement =>
          have alone := feeds_at_defined (formed' statement rfl) [] rfl
          rwa [List.append_nil] at alone
  | cons statement above =>
      have solid := stacked_solid (fun other member => formed other (List.mem_cons_of_mem _ member)) formed'
      have skipped : spaces ('\n' :: stacked above last) = stacked above last := solid_spaces _ solid
      rw [stacked_cons]
      exact feeds_at_defined (formed statement List.mem_cons_self) _ (by rw [skipped]; exact solid)

theorem feeds_stacked : feedsAt (stacked above last) + feedsBehind (stacked above last) ≤ innerFeeds above last := by
  induction above with
  | nil =>
      cases last with
      | none => exact Nat.le_refl _
      | some statement =>
          have here := feeds_at_statement (formed' statement rfl) []
          have behind := feeds_behind_unbroken statement.text [] (formed_parts (formed' statement rfl)).2.1
          rw [List.append_nil] at here behind
          simp only [stacked, innerFeeds, List.flatMap_nil, List.nil_append, Option.elim_some, List.map_nil,
            List.sum_nil, Nat.zero_add, behind]
          exact here
  | cons statement above ih =>
      have here := feeds_at_statement (formed statement List.mem_cons_self) ('\n' :: stacked above last)
      have behind := feeds_behind_unbroken statement.text ('\n' :: stacked above last)
        (formed_parts (formed statement List.mem_cons_self)).2.1
      have later := ih fun other member => formed other (List.mem_cons_of_mem _ member)
      have inner : innerFeeds (statement :: above) last =
          (printed statement).count '\n' + innerFeeds above last := by simp [innerFeeds, Nat.add_assoc]
      rw [feedsBehind, if_pos rfl] at behind
      rw [stacked_cons, inner, behind]
      omega

theorem passes_feeds : (assignedFrom none (definedFrom none (stacked above last))).count '\n' ≤
    (definedFrom none (stacked above last)).count '\n' + innerFeeds above last := by
  have bound := assigned_feeds none (definedFrom none (stacked above last))
  have here := feeds_at_stacked formed formed'
  have total := feeds_stacked formed formed'
  have behind := feeds_behind_defined none (stacked above last) (by
    intro rest place
    obtain ⟨above', suffix, rfl⟩ := stacked_behind formed formed' rest place
    exact feeds_at_stacked (fun other member => formed other (suffix.subset member)) formed')
  simp only [Option.any_none, Bool.false_eq_true, if_false] at bound
  omega

end Feeds

section Apart

variable {above : List ExportStatement} {last : Option ExportStatement}
  (formed : ∀ statement ∈ above, statement.isFormed = true)
  (formed' : ∀ statement ∈ last, statement.isFormed = true)

def converted (above : List ExportStatement) (last : Option ExportStatement) : Text :=
  above.flatMap (fun statement => normalizeExports statement.text ++ ['\n']) ++
    last.elim [] fun statement => normalizeExports statement.text

theorem exports_feeds (text : Text) :
    (normalizeExports text).count '\n' = (assignedFrom none (definedFrom none text)).count '\n' :=
  map_lines_feeds exportLine rfl export_line_unbroken _

theorem converted_feeds (above : List ExportStatement) (last : Option ExportStatement) :
    (converted above last).count '\n' = above.length + innerFeeds above last := by
  have one (statement : ExportStatement) :
      (normalizeExports statement.text).count '\n' = (printed statement).count '\n' := exports_feeds _
  induction above with
  | nil => cases last <;> simp [converted, innerFeeds, one]
  | cons statement above ih =>
      have whole : converted (statement :: above) last =
          normalizeExports statement.text ++ '\n' :: converted above last := by simp [converted]
      have inner : innerFeeds (statement :: above) last =
          (printed statement).count '\n' + innerFeeds above last := by simp [innerFeeds, Nat.add_assoc]
      rw [whole, inner, List.count_append, List.count_cons_self, ih, one, List.length_cons]
      omega

include formed

theorem glued_converted (closed : ∀ statement ∈ above, statement.isOpen = false) :
    mapLines exportLine (glued above last) = converted above last := by
  induction above with
  | nil => cases last <;> rfl
  | cons statement above ih =>
      have absent : '\r' ∉ printed statement := returns_objects _
        (returns_properties _ (formed_parts (formed statement List.mem_cons_self)).2.2)
      have whole : glued (statement :: above) last = printed statement ++ '\n' :: glued above last := by
        simp [glued, closed statement List.mem_cons_self]
      have alone : converted (statement :: above) last =
          normalizeExports statement.text ++ '\n' :: converted above last := by simp [converted]
      rw [whole, alone, map_lines_break exportLine rfl _ _ absent,
        ih (fun other member => formed other (List.mem_cons_of_mem _ member))
          fun other member => closed other (List.mem_cons_of_mem _ member)]
      rfl

include formed'

theorem stacked_apart_iff : normalizeExports (stacked above last) = converted above last ↔
    (∀ statement ∈ above, statement.isOpen = false) ∧
      (definedFrom none (stacked above last)).count '\n' = (stacked above last).count '\n' := by
  constructor
  · intro same
    have total := congrArg (List.count '\n') same
    have bound := passes_feeds formed formed'
    have fewer := defined_feeds none (stacked above last)
    have feeds := stacked_feeds formed formed'
    rw [exports_feeds, converted_feeds] at total
    have kept : (definedFrom none (stacked above last)).count '\n' = (stacked above last).count '\n' := by omega
    refine ⟨?_, kept⟩
    rw [defined_stacked formed kept, assigned_stacked formed formed'] at total
    have glue := glued_feeds above last
    have none' : above.countP isOpen = 0 := by omega
    intro statement member
    simpa using List.countP_eq_zero.mp none' statement member
  · rintro ⟨closed, kept⟩
    rw [exports_passes, defined_stacked formed kept, assigned_stacked formed formed', glued_converted formed closed]

end Apart

section Ended

theorem defined_ended {statement : ExportStatement} (formed : statement.isFormed = true)
    (ended : statement.isEnded = true) (rest : Text) (solid : isSolid rest = true) :
    definedFrom none (statement.text ++ '\n' :: rest) =
      definedFrom none statement.text ++ '\n' :: definedFrom none rest := by
  have feed : definedFrom none ('\n' :: rest) = '\n' :: definedFrom none rest :=
    defined_front none ['\n'] rest (by decide)
  cases kind : statement with
  | single start name value =>
      rw [kind] at ended
      have absent : ¬ "Object.defineProperty(".toList <:+: (ExportStatement.single start name value).text := by
        rw [← includes_within, Bool.not_eq_true]
        simpa [isEnded] using ended
      have alone := defined_unmarked none _ [] rfl absent
      rw [List.append_nil] at alone
      rw [defined_unmarked none _ ('\n' :: rest) rfl absent, alone, feed]
      simp [definedFrom, scanFrom, render]
  | object gap space members trail closed =>
      have skipped : spaces ('\n' :: rest) = rest := solid_spaces rest solid
      have object : statement.isObject = true := by rw [kind]; rfl
      rw [← kind, defined_object (formed_parts formed).1 object none _ (by rw [skipped]; exact solid), defined_alone (formed_parts formed).1 object, feed]
  | defined front inner gap trail closed =>
      obtain ⟨shaped, _⟩ := formed_parts formed
      rw [kind] at shaped ended
      simp only [isShaped, isEnded, Bool.and_eq_true, Bool.not_eq_true', List.contains_eq_mem,
        decide_eq_false_iff_not] at shaped ended
      obtain ⟨⟨rfl, outside⟩, inside⟩ := ended
      have word : '}' ∉ "Object.defineProperty(".toList := by decide
      have absent : '}' ∉ "Object.defineProperty(".toList ++ (front ++ '{' :: inner) := by
        simp only [List.mem_append, List.mem_cons, not_or]
        exact ⟨word, outside, by decide, inside⟩
      have whole (more : Text) : (ExportStatement.defined front inner gap trail true).text ++ more =
          "Object.defineProperty(".toList ++ (front ++ '{' :: inner) ++ '}' :: (gap ++ ')' :: (trail ++ ';' :: more)) := by
        rw [text_defined]
        simp only [semicolon, if_true, List.append_assoc, List.cons_append, List.nil_append]
      have parted := defined_closed none _ gap trail ('\n' :: rest) absent shaped.1 shaped.2
      have alone := whole []
      rw [List.append_nil] at alone
      rw [whole, parted, alone, feed]

theorem defined_feeds_ended {above : List ExportStatement} {last : Option ExportStatement}
    (formed : ∀ statement ∈ above, statement.isFormed = true) (formed' : ∀ statement ∈ last, statement.isFormed = true)
    (ended : ∀ statement ∈ above, statement.isEnded = true) :
    (definedFrom none (stacked above last)).count '\n' = (stacked above last).count '\n' := by
  have one (statement : ExportStatement) (formed : statement.isFormed = true) :
      (definedFrom none statement.text).count '\n' = 0 := by
    have fewer := defined_feeds none statement.text
    rw [List.count_eq_zero.mpr (formed_parts formed).2.1] at fewer
    omega
  rw [stacked_feeds formed formed']
  induction above with
  | nil =>
      cases last with
      | none => rfl
      | some statement => exact one statement (formed' statement rfl)
  | cons statement above ih =>
      have later : ∀ other ∈ above, other.isFormed = true := fun other member =>
        formed other (List.mem_cons_of_mem _ member)
      have here := formed statement List.mem_cons_self
      rw [stacked_cons, defined_ended here (ended statement List.mem_cons_self) _ (stacked_solid later formed'),
        List.count_append, List.count_cons_self, one statement here,
        ih later fun other member => ended other (List.mem_cons_of_mem _ member), List.length_cons]
      omega

theorem ended_closed (statement : ExportStatement) (ended : statement.isEnded = true) :
    statement.isOpen = false := by
  cases statement with
  | object gap space members trail closed => simpa [isOpen, isEnded] using ended
  | _ => rfl

end Ended

section Statements

def listed (statements : List ExportStatement) (final : Bool) : Text :=
  join ['\n'] (statements.map text) ++ if final then ['\n'] else []

theorem joined_parts (print : ExportStatement → Text) (statements : List ExportStatement) (some' : statements ≠ [])
    (final : Bool) : join ['\n'] (statements.map print) ++ (if final then ['\n'] else []) =
      (if final then statements else statements.dropLast).flatMap (fun statement => print statement ++ ['\n']) ++
        (if final then none else statements.getLast?).elim [] print := by
  have parts := List.dropLast_concat_getLast some'
  conv => lhs; rw [← parts]
  rw [List.map_append, List.map_singleton, join_snoc, List.flatMap_map]
  cases final with
  | true =>
      conv => rhs; rw [← parts]
      simp
  | false => simp [List.getLast?_eq_some_getLast some']

-- Each statement is converted as if it were alone exactly when no assigned object leaves
-- the line feed behind it to be taken, and none is taken with a defined property. So it
-- is where semicolons end the objects and the properties.
theorem statements_apart_iff (statements : List ExportStatement) (final : Bool) (some' : statements ≠ [])
    (formed : ∀ statement ∈ statements, statement.isFormed = true) :
    (normalizeExports (listed statements final) =
        join ['\n'] (statements.map fun statement => normalizeExports statement.text) ++
          (if final then ['\n'] else []) ↔
      (∀ statement ∈ (if final then statements else statements.dropLast), statement.isOpen = false) ∧
        (rewrite propertyMatcher Property.declaration (listed statements final)).count '\n' =
          (listed statements final).count '\n') ∧
    ((∀ statement ∈ (if final then statements else statements.dropLast), statement.isEnded = true) →
      normalizeExports (listed statements final) =
        join ['\n'] (statements.map fun statement => normalizeExports statement.text) ++
          (if final then ['\n'] else [])) := by
  have above : ∀ statement ∈ (if final then statements else statements.dropLast), statement.isFormed = true := by
    intro statement member
    cases final with
    | true => exact formed statement member
    | false => exact formed statement (List.dropLast_subset statements member)
  have last : ∀ statement ∈ (if final then none else statements.getLast?), statement.isFormed = true := by
    intro statement member
    cases final with
    | true => cases member
    | false => exact formed statement (List.mem_of_getLast? member)
  have whole : listed statements final = stacked _ _ := joined_parts text statements some' final
  rw [whole, joined_parts (fun statement => normalizeExports statement.text) statements some' final]
  refine ⟨stacked_apart_iff above last, fun ended => (stacked_apart_iff above last).mpr ⟨?_, ?_⟩⟩
  · exact fun statement member => ended_closed statement (ended statement member)
  · exact defined_feeds_ended above last ended

def singleThenObject : List ExportStatement :=
  [.single "exports." "a " " f({ });", .object " " " " " b, c: 1 " [] true, .defined "exports, 'd', " " value: 2 " [] [] true]

theorem single_then_object_apart : normalizeExports (listed singleThenObject true) =
    join ['\n'] (singleThenObject.map fun statement => normalizeExports statement.text) ++ ['\n'] :=
  (statements_apart_iff singleThenObject true (by decide) (by decide)).2 (by decide)

def objectThenSingle : List ExportStatement :=
  [.object " " " " " a " [] false, .single "exports." "b " " 1"]

theorem object_then_single_joined : (∀ statement ∈ objectThenSingle, statement.isFormed = true) ∧
    normalizeExports (listed objectThenSingle true) = "export \x7b a \x7d;exports.b = 1\n" ∧
    normalizeExports (listed objectThenSingle true) ≠
      join ['\n'] (objectThenSingle.map fun statement => normalizeExports statement.text) ++ ['\n'] := by
  refine ⟨by decide, by decide +kernel, by decide +kernel⟩

end Statements

end DevServer.CommonJs
