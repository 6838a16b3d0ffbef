import DevServer.LiveUpdate.Message
import DevServer.Proofs.JsonValues

set_option autoImplicit false

namespace DevServer.LiveUpdate.Message

open Text Json Json.Reader

inductive Part where
  | kind (tag : Kind)
  | path (text : Text)

namespace Part

def name : Part → Text
  | .kind _ => kindName
  | .path _ => pathName

def Shown : Part → Text → Prop
  | .kind tag, shown => Denotes shown tag.name
  | .path text, shown => Denotes shown text

def isKind : Part → Bool
  | .kind _ => true
  | .path _ => false

def add (state : Option Kind × List (Text × Value)) : Part → Option Kind × List (Text × Value)
  | .kind tag => (some tag, state.2)
  | .path text => (state.1, state.2 ++ [(pathName, .string text)])

def Fits (state : Option Kind × List (Text × Value)) (parts : List Part) : Prop :=
  state.1.toList.length + parts.countP isKind ≤ 1

theorem fits_later (state : Option Kind × List (Text × Value)) (part : Part) (parts : List Part)
    (fits : Fits state (part :: parts)) : Fits (add state part) parts := by
  cases part with
  | kind tag =>
      simp only [Fits, add, isKind, List.countP_cons, if_true, Option.toList_some, List.length_singleton] at fits ⊢
      omega
  | path text =>
      simp only [Fits, add, isKind, List.countP_cons] at fits ⊢
      simpa using fits

end Part

def parts : Message → List Part
  | update path => [.kind .update, .path path]
  | reload => [.kind .reload]

theorem kind_read (kind : Kind) (shown : Text) (denotes : Denotes shown kind.name) : Reads Message.kind shown kind := by
  intro gap rest blank ended
  rw [Message.kind, bind_read _ (text_read shown kind.name denotes gap rest blank ended)]
  cases kind <;> rfl

theorem string_value_read (depth : Nat) (shown text : Text) (denotes : Denotes shown text) :
    Reads (valueAt depth) shown (.string text) := by
  obtain ⟨inside, rfl, spelled⟩ := denotes
  intro gap rest blank _
  have read : string (inside ++ '"' :: rest) = .ok (text, rest) := spelled_read escape_iff inside text rest spelled
  have taken (inner : Option (Reader Value)) :
      valueWith inner (gap ++ ('"' :: (inside ++ ['"']) ++ rest)) = .ok (.string text, rest) := by
    unfold valueWith
    rw [List.cons_append, List.append_assoc, bind_read _ (skip_space_read '"' gap _ blank rfl)]
    simp only
    rw [bind_read _ (drop_read _ _), List.singleton_append, bind_read _ read]
    rfl
  cases depth with
  | zero => exact taken none
  | succ depth => exact taken (some (valueAt depth))

theorem part_read (state : Option Kind × List (Text × Value)) (part : Part) (parts : List Part)
    (gap gap' shown rest : Text) (fits : Part.Fits state (part :: parts)) (blank : isBlankText gap = true)
    (blank' : isBlankText gap' = true) (given : part.Shown shown) (ended : Ended rest) :
    member state part.name (gap ++ ':' :: (gap' ++ (shown ++ rest))) = .ok (Part.add state part, rest) := by
  cases part with
  | kind tag =>
      have none' : state.1 = none := by
        rw [Part.Fits, List.countP_cons] at fits
        cases taken : state.1 with
        | none => rfl
        | some other =>
            rw [taken] at fits
            simp only [Part.isKind, if_true, Option.toList_some, List.length_singleton] at fits
            omega
      have read := once_read Message.kind gap gap' shown rest tag (kind_read tag shown given) blank blank' ended
      rw [member, Part.name, if_pos rfl, none', bind_read _ read]
      rfl
  | path text =>
      have read := string_value_read (maxDepth - 1) shown text given gap' rest blank' ended
      rw [member, Part.name, if_neg (by decide), bind_read _ (colon_read gap _ blank), inner, bind_read _ read]
      rfl

theorem encoded_listed (message : Message) : ∃ inside, message.encode = '\x7b' :: (inside ++ ['\x7d']) ∧
    Listed (Row Escaped Part.name Part.Shown) message.parts inside := by
  have kindRow (tag : Kind) : Row Escaped Part.name Part.Shown (.kind tag) (quote kindName ++ ':' :: quote tag.name) :=
    quoted_member kindName _ _ (quote_denotes tag.name)
  cases message with
  | update path =>
      have pathRow : Row Escaped Part.name Part.Shown (.path path) (quote pathName ++ ':' :: quote path) :=
        quoted_member pathName _ _ (quote_denotes path)
      refine ⟨_, ?_, .some (row_more (kindRow .update) (row_last pathRow))⟩
      rfl
  | reload =>
      refine ⟨_, ?_, .some (row_last (kindRow .reload))⟩
      rfl

theorem sent_message_read (message : Message) : decode message.encode = .ok message := by
  obtain ⟨inside, same, listed⟩ := encoded_listed message
  have fits : Part.Fits (none, []) message.parts := by
    cases message with
    | update path => exact Nat.le_refl 1
    | reload => exact Nat.le_refl 1
  have all : members string member (none, []) (inside ++ ['\x7d']) = .ok (message.parts.foldl Part.add (none, []), []) :=
    members_read member Part.add Part.Fits escape_iff part_read Part.fits_later message.parts inside [] (none, [])
      listed fits
  have opened := skip_to_read '\x7b' [] message.encode [] rfl (by rw [same]; rfl) rfl
  rw [List.nil_append, List.append_nil] at opened
  have taken : reader message.encode = .ok (message, []) := by
    rw [reader, bind_read _ opened]
    simp only
    rw [same, bind_read _ (drop_read _ _), bind_read _ all]
    cases message with
    | update path => rfl
    | reload => rfl
  rw [decode, Json.read, taken]
  rfl

end DevServer.LiveUpdate.Message
