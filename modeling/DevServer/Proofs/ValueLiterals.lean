import DevServer.Proofs.ClientKeys
import DevServer.Proofs.Messages

set_option autoImplicit false

namespace DevServer

open Text Json

-- A literal of a value, which is read back from it whatever stands behind it.
structure IsLiteral (literal value : Text) : Prop where
  denotes : Denotes literal value
  visible : ∀ c ∈ literal, ' ' ≤ c
  decoded : ∀ rest, Reader.text (literal ++ rest) = .ok (value, rest)
  closed : ∀ rest front back other, literal ++ rest = front ++ back → Denotes front other →
    front = literal ∧ other = value

theorem quote_literal (value : Text) : IsLiteral (quote value) value where
  denotes := quote_denotes value
  visible := quote_visible value
  decoded := fun rest => text_taken (quote value) value [] rest (quote_denotes value) rfl
  closed := fun rest front back other same denotes => by
    obtain ⟨literal, text, _⟩ := literals_apart front (quote value) other value back rest denotes (quote_denotes value)
      same.symm
    exact ⟨literal, text⟩

namespace IsLiteral

theorem unbroken {literal value : Text} (isLiteral : IsLiteral literal value) : '\n' ∉ literal := by
  intro feed
  exact absurd (isLiteral.visible '\n' feed) (by decide)

end IsLiteral

namespace Env

theorem literal_unbroken (client : Client) (key : Text) : '\n' ∉ client.literal key := by
  by_cases listed : key ∈ builtIn
  · simp only [builtIn, List.mem_cons, List.not_mem_nil, or_false] at listed
    rcases listed with rfl | rfl | rfl
    · exact (quote_literal client.mode).unbroken
    · change '\n' ∉ Client.bool (decide (client.mode = developmentMode))
      cases decide (client.mode = developmentMode) <;> decide
    · change '\n' ∉ Client.bool (!decide (client.mode = developmentMode))
      cases decide (client.mode = developmentMode) <;> decide
  · rw [literal_other client key listed]
    exact (quote_literal (client.value key)).unbroken

theorem begun_feeds (text key rest : Text) (begins : BeginsWithKey text key rest) :
    text.count '\n' = rest.count '\n' := by
  obtain ⟨rfl, identified, _⟩ := begins
  have inside : '\n' ∉ key := by
    intro member
    obtain ⟨_, _, all⟩ := identifier_some key (identifier_read key [] identified rfl)
    exact absurd (List.all_eq_true.mp all '\n' member) (by decide)
  rw [List.count_append, List.count_append, List.count_eq_zero_of_not_mem inside,
    List.count_eq_zero_of_not_mem (by decide : '\n' ∉ keyMark)]
  omega

theorem substituted_feeds (print : Text → Text) (unbroken : ∀ key, '\n' ∉ print key) (code made : Text)
    (substituted : Substituted print code made) : made.count '\n' = code.count '\n' := by
  induction substituted with
  | nil => rfl
  | kept c _ _ ih => rw [List.count_cons, List.count_cons, ih]
  | @key text key rest made begins _ ih =>
      rw [List.count_append, List.count_eq_zero_of_not_mem (unbroken key), begun_feeds text key rest begins, ih]
      omega

theorem client_feeds (client : Client) (code : Text) : (client.substitute code).count '\n' = code.count '\n' :=
  substituted_feeds client.literal (literal_unbroken client) code _ (substitute_pass client.literal none code)

theorem given_value (mode key value : Text) : (Client.mk mode [] [(key, value)]).value key = value := by
  have found : lookup? key [(key, value)] = some value := (lookup_iff key value _).mpr ⟨[], [], rfl, by simp⟩
  rw [Client.value, found]
  rfl

end Env

namespace Plugin

def styleFront : Text :=
  "const style = document.createElement('style');\n".toList ++
  ("style.setAttribute('data-kindle-css', '');\n".toList ++ "style.textContent = ".toList)

def styleBack : Text := ";\n".toList ++ "document.head.appendChild(style);\nexport default \x7b\x7d;\n".toList

theorem style_parts (style : Text) : styleModule style = styleFront ++ (quote style ++ styleBack) := by
  unfold styleModule styleFront styleBack
  iterate 6 rw [List.append_assoc]

theorem style_feeds (style : Text) : (styleModule style).count '\n' = 5 := by
  have front : styleFront.count '\n' = 2 := by decide +kernel
  have back : styleBack.count '\n' = 3 := by decide +kernel
  rw [style_parts, List.count_append, List.count_append, List.count_eq_zero_of_not_mem (quote_literal style).unbroken,
    front, back]

end Plugin

open LiveUpdate

theorem written_values_kept :
    (∀ message : Message, Message.decode message.encode = .ok message) ∧
    (∀ text, (∃ message : Message, message.encode = text) → (Message.decode text).map Message.encode = .ok text) ∧
    (∀ client : Env.Client, IsLiteral (client.literal "MODE") client.mode) ∧
    (∀ (client : Env.Client) (key : Text), key ∉ Env.builtIn → IsLiteral (client.literal key) (client.value key)) ∧
    (∀ mode key value : Text, (Env.Client.mk mode [] [(key, value)]).value key = value) ∧
    (∀ (client : Env.Client) (code : Text), (client.substitute code).count '\n' = code.count '\n') ∧
    (∃ before after : Text, ∀ style, (Plugin.styleModule style).count '\n' = 5 ∧
      ∃ literal, Plugin.styleModule style = before ++ (literal ++ after) ∧ IsLiteral literal style) := by
  refine ⟨Message.sent_message_read, ?_, fun client => quote_literal client.mode, ?_, Env.given_value, Env.client_feeds,
    Plugin.styleFront, Plugin.styleBack, fun style => ⟨Plugin.style_feeds style, quote style, Plugin.style_parts style,
      quote_literal style⟩⟩
  · rintro text ⟨message, rfl⟩
    rw [Message.sent_message_read message]
    rfl
  · intro client key other
    rw [Env.literal_other client key other]
    exact quote_literal (client.value key)

def breakout : Text := "\"; alert(1) //\n\\u0022\x01"

theorem breakout_kept : "KEY".toList ∉ Env.builtIn ∧
    (Env.Client.mk "test" [] [("KEY", breakout)]).literal "KEY" = "\"\\\"; alert(1) //\\n\\\\u0022\\u0001\"".toList ∧
    IsLiteral "\"\\\"; alert(1) //\\n\\\\u0022\\u0001\"" breakout ∧
    Message.decode "\x7b\"kind\":\"update\",\"path\":\"\\\"; alert(1) //\\n\\\\u0022\\u0001\"\x7d" =
      .ok (.update breakout) := by
  obtain ⟨sent, _, _, literal, value, _⟩ := written_values_kept
  have written : (Env.Client.mk "test" [] [("KEY", breakout)]).literal "KEY" =
      "\"\\\"; alert(1) //\\n\\\\u0022\\u0001\"".toList := by decide +kernel
  have held := literal (Env.Client.mk "test" [] [("KEY", breakout)]) "KEY" (by decide)
  rw [value, written] at held
  exact ⟨by decide, written, held, sent (.update breakout)⟩

end DevServer
