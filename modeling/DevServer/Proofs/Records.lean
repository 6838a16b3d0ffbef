import Mathlib.Data.List.Nodup
import DevServer.Config.Basic
import DevServer.Proofs.JsonValues

set_option autoImplicit false

namespace DevServer.Json

open Reader

inductive Given (φ : Type) where
  | field (f : φ)
  | other (name : Text)

def Chosen {α : Type} (given : α → Prop) (fallback value : α) : Prop :=
  (∀ a, given a → value = a) ∧ ((∀ a, ¬ given a) → value = fallback)

section Records

variable {φ σ β : Type} (nameOf : φ → Text)

namespace Given

def name : Given φ → Text
  | field f => nameOf f
  | other name => name

def key : Given φ → Option Text
  | field f => some (nameOf f)
  | other _ => none

def Shown (known : List Text) (fieldShown : φ → Text → Prop) : Given φ → Text → Prop
  | field f, shown => fieldShown f shown
  | other name, shown => name ∉ known ∧ WellFormed shown

def put (set : σ → φ → σ) (state : σ) : Given φ → σ
  | field f => set state f
  | other _ => state

end Given

def Once (items : List (Given φ)) : Prop := (items.filterMap (Given.key nameOf)).Nodup

instance (items : List (Given φ)) : Decidable (Once nameOf items) := inferInstanceAs (Decidable (List.Nodup _))

def IsRecord (known : List Text) (fieldShown : φ → Text → Prop) (items : List (Given φ)) (shown : Text) : Prop :=
  Once nameOf items ∧ ∃ inside, shown = '\x7b' :: (inside ++ ['\x7d']) ∧
    Listed (Row Escaped (Given.name nameOf) (Given.Shown known fieldShown)) items inside

variable {nameOf}

theorem once_later (first : Given φ) (items : List (Given φ)) (once : Once nameOf (first :: items)) :
    Once nameOf items := by
  rw [Once, List.filterMap_cons] at once
  cases first with
  | field f => exact (List.nodup_cons.mp once).2
  | other name => exact once

theorem once_apart (f g : φ) (items : List (Given φ)) (once : Once nameOf (.field f :: items))
    (later : Given.field g ∈ items) : nameOf f ≠ nameOf g := by
  intro same
  rw [Once, List.filterMap_cons] at once
  refine (List.nodup_cons.mp once).1 (List.mem_filterMap.mpr ⟨_, later, ?_⟩)
  rw [Given.key, same]

theorem once_unique (items : List (Given φ)) (once : Once nameOf items) (f g : φ) (given : Given.field f ∈ items)
    (given' : Given.field g ∈ items) (same : nameOf f = nameOf g) : f = g := by
  induction items with
  | nil => cases given
  | cons first items ih =>
      rcases List.mem_cons.mp given with rfl | inside
      · rcases List.mem_cons.mp given' with found | inside'
        · exact (Given.field.inj found).symm
        · exact absurd same (once_apart f g items once inside')
      · rcases List.mem_cons.mp given' with rfl | inside'
        · exact absurd same.symm (once_apart g f items once inside)
        · exact ih (once_later first items once) inside inside'

section Reading

variable {free : σ → φ → Prop} {set : σ → φ → σ}

variable {known : List Text} {fieldShown : φ → Text → Prop} {member : σ → Text → Reader σ} {positions : Reader σ}
variable (fields : ∀ state f gap gap' shown rest, free state f → isBlankText gap = true →
  isBlankText gap' = true → fieldShown f shown → Ended rest →
  member state (nameOf f) (gap ++ ':' :: (gap' ++ (shown ++ rest))) = .ok (set state f, rest))
variable (others : ∀ state name, name ∉ known → member state name = do Config.unknown; return state)
include fields others

variable (keeps : ∀ state f g, nameOf f ≠ nameOf g → free state g → free (set state f) g)
include keeps

end Reading

section Chosen

variable {α : Type} {set : σ → φ → σ} {held : σ → Option β} {make : α → φ} {value : α → β}
variable (sets : ∀ state a, held (set state (make a)) = some (value a))
variable (keeps : ∀ state f, (∀ a, f ≠ make a) → held (set state f) = held state)
include sets keeps

theorem held_later (items : List (Given φ)) (state : σ) (b : β)
    (found : held (items.foldl (Given.put set) state) = some b) :
    held state = some b ∨ ∃ a, Given.field (make a) ∈ items ∧ value a = b := by
  induction items generalizing state with
  | nil => exact .inl found
  | cons first items ih =>
      rcases ih _ found with before | ⟨a, later, same⟩
      · cases first with
        | other name => exact .inl before
        | field f =>
            by_cases own : ∃ a, f = make a
            · obtain ⟨a, rfl⟩ := own
              rw [Given.put, sets] at before
              exact .inr ⟨a, List.mem_cons_self .., Option.some.inj before⟩
            · rw [Given.put, keeps state f fun a same => own ⟨a, same⟩] at before
              exact .inl before
      · exact .inr ⟨a, List.mem_cons_of_mem _ later, same⟩

theorem held_none (items : List (Given φ)) (state : σ) (free : held (items.foldl (Given.put set) state) = none) :
    held state = none ∧ ∀ a, Given.field (make a) ∉ items := by
  induction items generalizing state with
  | nil => exact ⟨free, fun a => List.not_mem_nil⟩
  | cons first items ih =>
      obtain ⟨before, later⟩ := ih _ free
      cases first with
      | other name => exact ⟨before, fun a => List.not_mem_cons_of_ne_of_not_mem (by simp) (later a)⟩
      | field f =>
          have apart (a : α) : f ≠ make a := by
            rintro rfl
            rw [Given.put, sets] at before
            cases before
          rw [Given.put, keeps state f apart] at before
          have apart' (a : α) : Given.field (make a) ≠ .field f := fun same => apart a (Given.field.inj same).symm
          exact ⟨before, fun a => List.not_mem_cons_of_ne_of_not_mem (apart' a) (later a)⟩

variable (set held make value) in
theorem field_chosen (named : ∀ a b, nameOf (make a) = nameOf (make b)) (items : List (Given φ))
    (once : Once nameOf items) (empty : σ) (bare : held empty = none) (fallback : β) :
    (∀ a, Given.field (make a) ∈ items → (held (items.foldl (Given.put set) empty)).getD fallback = value a) ∧
      ((∀ a, Given.field (make a) ∉ items) → (held (items.foldl (Given.put set) empty)).getD fallback = fallback) := by
  cases last : held (items.foldl (Given.put set) empty) with
  | none =>
      obtain ⟨_, free⟩ := held_none sets keeps items empty last
      exact ⟨fun a inside => absurd inside (free a), fun _ => rfl⟩
  | some b =>
      rcases held_later sets keeps items empty b last with before | ⟨a, inside, rfl⟩
      · rw [bare] at before
        cases before
      · refine ⟨fun a' inside' => ?_, fun free => absurd inside (free a)⟩
        have same := once_unique items once (make a) (make a') inside inside' (named a a')
        exact Option.some.inj ((sets empty a).symm.trans (same ▸ sets empty a'))

end Chosen

end Records

end DevServer.Json
