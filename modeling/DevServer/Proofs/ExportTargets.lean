import Mathlib.Data.List.Basic
import Mathlib.Data.List.Lex
import DevServer.Package.Manifest

set_option autoImplicit false

namespace DevServer.Json

section Members

variable {members : Members} {name : Text} {inner : Value}

theorem get_smaller (found : Members.get? name members = some inner) : sizeOf inner < sizeOf members := by
  induction members with
  | nil => cases found
  | cons member rest ih =>
      obtain ⟨other, value⟩ := member
      rw [Members.get?] at found
      by_cases same : name = other
      · rw [if_pos same] at found
        cases found
        simp only [List.cons.sizeOf_spec, Prod.mk.sizeOf_spec]
        omega
      · rw [if_neg same] at found
        have later := ih found
        simp only [List.cons.sizeOf_spec]
        omega

end Members

theorem member_induction {motive : Value → Prop}
    (plain : ∀ value, (∀ members, value ≠ .object members) → motive value)
    (object : ∀ members, (∀ name inner, Members.get? name members = some inner → motive inner) →
      motive (.object members)) (value : Value) : motive value := by
  cases value with
  | null => exact plain _ fun _ => Value.noConfusion
  | bool _ => exact plain _ fun _ => Value.noConfusion
  | number _ => exact plain _ fun _ => Value.noConfusion
  | string _ => exact plain _ fun _ => Value.noConfusion
  | array _ => exact plain _ fun _ => Value.noConfusion
  | object members =>
      refine object members fun name inner found => ?_
      have smaller := get_smaller found
      exact member_induction plain object inner
termination_by sizeOf value
decreasing_by
  simp only [Value.object.sizeOf_spec]
  omega

def Value.at? : List Text → Value → Option Value
  | [], value => some value
  | name :: path, value => (value.member? name).bind (Value.at? path)

theorem string_at (path : List Text) (text : Text) (inner : Value)
    (leads : Value.at? path (.string text) = some inner) : path = [] := by
  cases path with
  | nil => rfl
  | cons name path => cases leads

end DevServer.Json

namespace DevServer.Package

open Text Json

section Targets

theorem looked_targets (name : Text) (members : Members) :
    ((memberTargets members).lookup name).join = (Members.get? name members).bind target? := by
  induction members with
  | nil => rfl
  | cons member rest ih =>
      obtain ⟨other, value⟩ := member
      rw [memberTargets, memberTarget, List.lookup_cons, Members.get?]
      by_cases same : name = other
      · rw [if_pos same, beq_iff_eq.mpr same]
        rfl
      · rw [if_neg same, beq_eq_false_iff_ne.mpr same]
        exact ih

theorem object_target (members : Members) : target? (.object members) =
    conditions.findSome? fun condition => (Members.get? condition members).bind target? := by
  rw [target?]
  simp only [looked_targets]

theorem first_answer {α : Type} (answer : Text → Option α) (names : List Text) (a : α)
    (found : names.findSome? answer = some a) : ∃ name ∈ names, answer name = some a ∧
      ∀ other ∈ names, (answer other).isSome = true → names.idxOf name ≤ names.idxOf other := by
  obtain ⟨front, name, back, rfl, here, none'⟩ := List.findSome?_eq_some_iff.mp found
  have outside (other : Text) (answers : (answer other).isSome = true) : other ∉ front := by
    intro member
    rw [none' other member] at answers
    cases answers
  refine ⟨name, by simp, here, fun other _ answers => ?_⟩
  rw [List.idxOf_append_of_notMem (outside name (by rw [here]; rfl)),
    List.idxOf_append_of_notMem (outside other answers), List.idxOf_cons_self]
  omega

theorem answers_same {α : Type} (answer other : Text → Option α) (names : List Text)
    (same : ∀ name ∈ names, answer name = other name) : names.findSome? answer = names.findSome? other := by
  induction names with
  | nil => rfl
  | cons name rest ih =>
      rw [List.findSome?_cons, List.findSome?_cons, same name List.mem_cons_self,
        ih fun later member => same later (List.mem_cons_of_mem name member)]

-- A path at or before another in the order of words, where names are ordered by priority.
def Precedes (path other : List Text) : Prop :=
  path = other ∨ List.Lex (fun name next => conditions.idxOf name < conditions.idxOf next) path other

theorem precedes_antisymm (path other : List Text) (first : Precedes path other) (back : Precedes other path) :
    path = other := by
  have strict : Std.Asymm fun name next : Text => conditions.idxOf name < conditions.idxOf next :=
    ⟨fun _ _ => Nat.lt_asymm⟩
  obtain same | before := first
  · exact same
  · obtain same | after := back
    · exact same.symm
    · exact absurd after ((List.Lex.asymm _).asymm _ _ before)

def LeadsTo (value : Value) (path : List Text) (target : Text) : Prop :=
  path ⊆ conditions ∧ value.at? path = some (.string target)

theorem leads_object {members : Members} {path : List Text} {target : Text}
    (leads : LeadsTo (.object members) path target) : ∃ name rest inner, path = name :: rest ∧
      name ∈ conditions ∧ Members.get? name members = some inner ∧ LeadsTo inner rest target := by
  obtain ⟨allowed, reached⟩ := leads
  cases path with
  | nil => cases reached
  | cons name rest =>
      obtain ⟨inner, member, below⟩ := Option.bind_eq_some_iff.mp reached
      exact ⟨name, rest, inner, rfl, allowed List.mem_cons_self, member,
        fun other inside => allowed (List.mem_cons_of_mem _ inside), below⟩

theorem target_of_path (value : Value) (path : List Text) (target : Text)
    (leads : LeadsTo value path target) : (target? value).isSome = true := by
  induction value using member_induction generalizing path with
  | plain value other =>
      cases path with
      | nil =>
          cases leads.2
          rfl
      | cons name rest =>
          obtain ⟨inner, member, _⟩ := Option.bind_eq_some_iff.mp leads.2
          cases value with
          | object members => exact absurd rfl (other members)
          | _ => cases member
  | object members ih =>
      obtain ⟨name, rest, inner, rfl, allowed, member, below⟩ := leads_object leads
      have answers := ih name inner member rest below
      rw [object_target, List.findSome?_isSome_iff]
      exact ⟨name, allowed, by rw [member]; exact answers⟩

theorem path_of_target (value : Value) (target : Text) (found : target? value = some target) :
    ∃ path, LeadsTo value path target ∧
      ∀ other text, LeadsTo value other text → Precedes path other := by
  induction value using member_induction generalizing target with
  | plain value other =>
      cases value with
      | string text =>
          cases found
          refine ⟨[], ⟨List.nil_subset _, rfl⟩, fun other text leads => .inl ?_⟩
          exact (string_at other _ _ leads.2).symm
      | object members => exact absurd rfl (other members)
      | _ => cases found
  | object members ih =>
      rw [object_target] at found
      obtain ⟨name, allowed, here, first⟩ := first_answer _ _ _ found
      obtain ⟨inner, member, below⟩ := Option.bind_eq_some_iff.mp here
      obtain ⟨path, ⟨within, reached⟩, least⟩ := ih name inner member target below
      refine ⟨name :: path, ⟨List.cons_subset.mpr ⟨allowed, within⟩, ?_⟩, fun other text leads => ?_⟩
      · exact Option.bind_eq_some_iff.mpr ⟨inner, member, reached⟩
      · obtain ⟨name', rest, inner', rfl, allowed', member', below'⟩ := leads_object leads
        have answers : ((Members.get? name' members).bind target?).isSome = true := by
          rw [member']
          exact target_of_path inner' rest text below'
        have before := first name' allowed' answers
        by_cases same : name = name'
        · subst same
          rw [member] at member'
          cases member'
          exact (least rest text below').imp (congrArg (List.cons name)) List.Lex.cons
        · have apart : conditions.idxOf name ≠ conditions.idxOf name' := fun equal =>
            same ((List.idxOf_inj allowed).mp equal)
          exact .inr (.rel (Nat.lt_of_le_of_ne before apart))

end Targets

section Pruning

mutual

def onlyConditions : Value → Value
  | .object members => .object (conditionMembers members)
  | .null => .null
  | .bool value => .bool value
  | .number value => .number value
  | .string text => .string text
  | .array items => .array items

def conditionMembers : List (Text × Value) → List (Text × Value)
  | [] => []
  | member :: rest => conditionMember member ++ conditionMembers rest

def conditionMember : Text × Value → List (Text × Value)
  | (name, value) => if name ∈ conditions then [(name, onlyConditions value)] else []

end

theorem condition_kept (name : Text) (members : Members) (allowed : name ∈ conditions) :
    Members.get? name (conditionMembers members) = (Members.get? name members).map onlyConditions := by
  induction members with
  | nil => rfl
  | cons member rest ih =>
      obtain ⟨other, value⟩ := member
      rw [conditionMembers, conditionMember, Members.get?]
      by_cases same : name = other
      · subst same
        rw [if_pos allowed, if_pos rfl, List.singleton_append, Members.get?, if_pos rfl]
        rfl
      · rw [if_neg same]
        by_cases listed : other ∈ conditions
        · rw [if_pos listed, List.singleton_append, Members.get?, if_neg same, ih]
        · rw [if_neg listed, List.nil_append, ih]

theorem pruned_target (value : Value) : target? (onlyConditions value) = target? value := by
  induction value using member_induction with
  | plain value other =>
      cases value with
      | object members => exact absurd rfl (other members)
      | _ => rfl
  | object members ih =>
      rw [onlyConditions, object_target, object_target]
      refine answers_same _ _ _ fun name allowed => ?_
      rw [condition_kept name members allowed]
      cases member : Members.get? name members with
      | none => rfl
      | some inner => exact ih name inner member

end Pruning

section Manifests

variable (fields : Members)

def described (exports : Value) : Manifest := Manifest.ofValue (.object (Members.put "exports" exports fields))

theorem described_exports (exports : Value) : (described fields exports).exports = ExportMap.ofValue? exports := by
  rw [described, Manifest.ofValue, Value.member?, Members.get?_put, if_pos rfl]
  rfl

theorem described_same (exports other : Value) (same : ExportMap.ofValue? exports = ExportMap.ofValue? other) :
    described fields exports = described fields other := by
  have field (exports : Value) (name : Text) (named : name ≠ "exports") :
      (Value.object (Members.put "exports" exports fields)).member? name = (Value.object fields).member? name := by
    rw [Value.member?, Value.member?, Members.get?_put, if_neg named]
  have mapped := described_exports fields exports
  have mapped' := described_exports fields other
  rw [described, Manifest.ofValue] at mapped mapped' ⊢
  rw [described, Manifest.ofValue]
  simp only at mapped mapped' ⊢
  rw [mapped, mapped', same, field _ "name" (by decide), field _ "main" (by decide), field _ "module" (by decide),
    field _ "name" (by decide), field _ "main" (by decide), field _ "module" (by decide)]

def isKeyed (members : Members) : Bool := members.any fun member => member.1.startsWith "."

def rootOnly (entry : Value) : ExportMap := [(".".toList, entry)]

theorem keyed_map (members : Members) (keyed : isKeyed members = true) :
    ExportMap.ofValue? (.object members) = some members := if_pos keyed

theorem unkeyed_map (members : Members) (unkeyed : isKeyed members = false) :
    ExportMap.ofValue? (.object members) = some (rootOnly (.object members)) :=
  if_neg fun keyed => by
    rw [isKeyed, keyed] at unkeyed
    cases unkeyed

theorem root_map (entry : Value) : ExportMap.ofValue? (.object (rootOnly entry)) = some (rootOnly entry) :=
  keyed_map (rootOnly entry) rfl

theorem map_keyed (exports : Value) (map : ExportMap) (mapped : ExportMap.ofValue? exports = some map) :
    isKeyed map = true := by
  cases exports with
  | string target =>
      cases mapped
      rfl
  | object members =>
      cases keyed : isKeyed members with
      | true =>
          rw [keyed_map members keyed] at mapped
          cases mapped
          exact keyed
      | false =>
          rw [unkeyed_map members keyed] at mapped
          cases mapped
          rfl
  | _ => cases mapped

theorem root_lookup (entry : Value) (subpath : Text) : lookup (rootOnly entry) subpath =
    if subpath = [] then Lookup.ofEntry entry else .missingKey := by
  rw [lookup, rootOnly, Members.get?, exportKey]
  cases subpath with
  | nil => rfl
  | cons c rest => rfl

end Manifests

-- A target is the string that the first path of conditions leads to, with no regard to
-- other members; a manifest's exports are a map of keys already, or the entry of the package.
theorem targets_by_priority (value : Value) (fields : Members) :
    (∀ target, target? value = some target ↔ ∃ path, LeadsTo value path target ∧
      ∀ other text, LeadsTo value other text → Precedes path other) ∧
    ((target? value).isSome = true ↔ ∃ path target, LeadsTo value path target) ∧
    target? (onlyConditions value) = target? value ∧
    (∀ target, described fields (.string target) = described fields (.object (rootOnly (.string target))) ∧
      (described fields (.string target)).exports = some (rootOnly (.string target))) ∧
    (∀ members, isKeyed members = false →
      described fields (.object members) = described fields (.object (rootOnly (.object members))) ∧
      (described fields (.object members)).exports = some (rootOnly (.object members))) ∧
    (∀ entry subpath, lookup (rootOnly entry) subpath =
      if subpath = [] then Lookup.ofEntry entry else .missingKey) ∧
    (∀ members, isKeyed members = true → (described fields (.object members)).exports = some members) ∧
    ∀ exports map, (described fields exports).exports = some map →
      described fields (.object map) = described fields exports := by
  refine ⟨fun target => ⟨path_of_target value target, ?_⟩, ⟨?_, ?_⟩, pruned_target value, fun target => ⟨?_, ?_⟩,
    fun members unkeyed => ⟨?_, ?_⟩, root_lookup, fun members keyed => ?_, fun exports map mapped => ?_⟩
  · rintro ⟨path, leads, first⟩
    obtain ⟨found, answer⟩ := Option.isSome_iff_exists.mp (target_of_path value path target leads)
    obtain ⟨path', leads', first'⟩ := path_of_target value found answer
    have same := precedes_antisymm path path' (first path' found leads') (first' path target leads)
    have reached := leads.2
    rw [same, leads'.2] at reached
    cases reached
    exact answer
  · intro found
    obtain ⟨target, found⟩ := Option.isSome_iff_exists.mp found
    obtain ⟨path, leads, _⟩ := path_of_target value target found
    exact ⟨path, target, leads⟩
  · rintro ⟨path, target, leads⟩
    exact target_of_path value path target leads
  · exact described_same fields _ _ (root_map (.string target)).symm
  · exact described_exports fields (.string target)
  · exact described_same fields _ _ ((unkeyed_map members unkeyed).trans (root_map _).symm)
  · exact (described_exports fields _).trans (unkeyed_map members unkeyed)
  · exact (described_exports fields _).trans (keyed_map members keyed)
  · rw [described_exports] at mapped
    exact described_same fields _ _ ((keyed_map map (map_keyed exports map mapped)).trans mapped.symm)

def nestedEntry : Value := .object
  [("import", .object [("types", .string "./t.d.ts")]), ("node", .string "./n.js"),
    ("default", .object [("default", .string "./d.js"), ("browser", .object [("module", .string "./b.js")])])]

theorem nested_entry_target : target? nestedEntry = some "./b.js".toList ∧
    LeadsTo nestedEntry ["default", "browser", "module"] "./b.js" ∧
    (∃ path, LeadsTo nestedEntry path "./b.js" ∧
      ∀ other text, LeadsTo nestedEntry other text → Precedes path other) ∧
    (described [] nestedEntry).exports = some (rootOnly nestedEntry) ∧
    lookup (rootOnly nestedEntry) "x" = .missingKey := by
  obtain ⟨found, _, _, _, unkeyed, looked, _⟩ := targets_by_priority nestedEntry []
  have answer : target? nestedEntry = some "./b.js".toList := rfl
  have leads : LeadsTo nestedEntry ["default", "browser", "module"] "./b.js" := ⟨by decide, rfl⟩
  exact ⟨answer, leads, (found _).mp answer, (unkeyed _ (by decide)).2, looked nestedEntry "x"⟩

end DevServer.Package
