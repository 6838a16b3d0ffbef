import DevServer.Proofs.Lines
import DevServer.Proofs.StringLiterals

set_option autoImplicit false

namespace DevServer.Json

open Reader

def isBlankText (gap : Text) : Bool := gap.all isSpace

def endsValue (c : Char) : Bool := isSpace c || c == ',' || c == ']' || c == '}'

def Ended (rest : Text) : Prop := rest.head?.all endsValue = true

-- A reader takes the blanks and exactly this much, and gives this.
def Reads {α : Type} (reader : Reader α) (shown : Text) (a : α) : Prop :=
  ∀ gap rest, isBlankText gap = true → Ended rest → reader (gap ++ (shown ++ rest)) = .ok (a, rest)

section Rows

variable {α : Type} (one : α → Text → Prop)

inductive Rows : List α → Text → Prop where
  | last {a : α} {before shown after : Text} : isBlankText before = true → one a shown → isBlankText after = true →
      Rows [a] (before ++ (shown ++ after))
  | more {a : α} {rows : List α} {before shown after rest : Text} : isBlankText before = true → one a shown →
      isBlankText after = true → Rows rows rest → Rows (a :: rows) (before ++ (shown ++ (after ++ ',' :: rest)))

inductive Listed : List α → Text → Prop where
  | none {gap : Text} : isBlankText gap = true → Listed [] gap
  | some {rows : List α} {text : Text} : Rows one rows text → Listed rows text

variable {one} {a : α} {rows : List α} {shown rest : Text}

theorem row_last (given : one a shown) : Rows one [a] shown := by
  have last := @Rows.last α one a [] shown [] rfl given rfl
  rwa [List.nil_append, List.append_nil] at last

theorem row_more (given : one a shown) (later : Rows one rows rest) : Rows one (a :: rows) (shown ++ ',' :: rest) :=
  @Rows.more α one a rows [] shown [] rest rfl given rfl later

end Rows

section Steps

variable {α β : Type} {first : Reader α} {text left : Text} {a : α}

theorem bind_read (next : α → Reader β) (read : first text = .ok (a, left)) : (first >>= next) text = next a left := by
  change (first text >>= fun found => next found.1 found.2) = _
  rw [read]
  rfl

theorem skip_space_read (c : Char) (gap rest : Text) (blank : isBlankText gap = true) (solid : isSpace c = false) :
    skipSpace (gap ++ c :: rest) = .ok (some c, c :: rest) := by
  have stops := Text.drop_while_stop isSpace gap c rest blank solid
  change Except.ok (((gap ++ c :: rest).dropWhile isSpace).head?, (gap ++ c :: rest).dropWhile isSpace) = _
  rw [stops, List.head?_cons]

theorem skip_to_read (c : Char) (gap shown rest : Text) (blank : isBlankText gap = true)
    (begins : shown.head? = some c) (solid : isSpace c = false) :
    skipSpace (gap ++ (shown ++ rest)) = .ok (some c, shown ++ rest) := by
  obtain ⟨more, rfl⟩ := List.head?_eq_some_iff.mp begins
  exact skip_space_read c gap (more ++ rest) blank solid

theorem get_read (text : Text) : (get : Reader Text) text = .ok (text, text) := rfl

theorem drop_read (c : Char) (rest : Text) : drop (c :: rest) = .ok ((), rest) := rfl

theorem close_read (bracket : Char) (gap rest : Text) (blank : isBlankText gap = true)
    (solid : isSpace bracket = false) : close bracket (gap ++ bracket :: rest) = .ok ((), rest) := by
  have skipped := skip_space_read bracket gap rest blank solid
  rw [close, bind_read _ skipped]
  change (if bracket = bracket then drop else throw .malformed) (bracket :: rest) = _
  rw [if_pos rfl, drop_read]

theorem colon_read (gap rest : Text) (blank : isBlankText gap = true) :
    colon (gap ++ ':' :: rest) = .ok ((), rest) :=
  close_read ':' gap rest blank rfl

inductive Leads : Bool → Text → Prop where
  | start : Leads true []
  | comma {gap : Text} : isBlankText gap = true → Leads false (gap ++ [','])

theorem has_item_read (first : Bool) (lead before rest : Text) (c : Char) (leads : Leads first lead)
    (blank : isBlankText before = true) (solid : isSpace c = false) (inside : c ≠ ']') :
    hasItem first (lead ++ (before ++ c :: rest)) = .ok (true, c :: rest) := by
  have skipped := skip_space_read c before rest blank solid
  cases leads with
  | start =>
      rw [List.nil_append, hasItem, bind_read _ skipped]
      simp only [if_true]
      rfl
  | @comma gap gapped =>
      have comma := skip_space_read ',' gap (before ++ c :: rest) gapped rfl
      rw [List.append_assoc, List.singleton_append, hasItem, bind_read _ comma]
      change (drop >>= fun _ => skipSpace >>= _) (',' :: (before ++ c :: rest)) = _
      rw [bind_read _ (drop_read _ _), bind_read _ skipped]
      simp only
      rfl

theorem no_item_read (first : Bool) (gap rest : Text) (blank : isBlankText gap = true) :
    hasItem first (gap ++ ']' :: rest) = .ok (false, ']' :: rest) := by
  rw [hasItem, bind_read _ (skip_space_read ']' gap rest blank rfl)]
  rfl

theorem has_member_read (first : Bool) (lead before rest : Text) (leads : Leads first lead)
    (blank : isBlankText before = true) : hasMember first (lead ++ (before ++ '"' :: rest)) = .ok (true, '"' :: rest) := by
  have skipped := skip_space_read '"' before rest blank rfl
  cases leads with
  | start =>
      rw [List.nil_append, hasMember, bind_read _ skipped]
      rfl
  | @comma gap gapped =>
      have comma := skip_space_read ',' gap (before ++ '"' :: rest) gapped rfl
      rw [List.append_assoc, List.singleton_append, hasMember, bind_read _ comma]
      change (drop >>= fun _ => skipSpace >>= _) (',' :: (before ++ '"' :: rest)) = _
      rw [bind_read _ (drop_read _ _), bind_read _ skipped]
      rfl

theorem no_member_read (first : Bool) (gap rest : Text) (blank : isBlankText gap = true) :
    hasMember first (gap ++ '\x7d' :: rest) = .ok (false, '\x7d' :: rest) := by
  rw [hasMember, bind_read _ (skip_space_read '\x7d' gap rest blank rfl)]
  rfl

end Steps

theorem blank_ends (c : Char) (gap : Text) (blank : isBlankText (c :: gap) = true) : endsValue c = true := by
  have space : isSpace c = true := List.all_eq_true.mp blank c List.mem_cons_self
  rw [endsValue, space]
  rfl

theorem ended_behind (gap rest : Text) (c : Char) (blank : isBlankText gap = true) (ends : endsValue c = true) :
    Ended (gap ++ c :: rest) := by
  cases gap with
  | nil => exact ends
  | cons d gap => exact blank_ends d gap blank

section Items

variable {α : Type} {one : α → Text → Prop}

theorem rows_length (rows : List α) (text : Text) (listed : Rows one rows text)
    (solid : ∀ a shown, one a shown → shown ≠ []) : rows.length ≤ text.length := by
  induction listed with
  | @last a before shown after _ given _ =>
      have some' := List.length_pos_of_ne_nil (solid a shown given)
      simp only [List.length_append, List.length_cons, List.length_nil]
      omega
  | @more a rows before shown after rest _ _ _ _ ih =>
      simp only [List.length_append, List.length_cons]
      omega

def Begins (shown : Text) : Prop := ∃ c rest, shown = c :: rest ∧ isSpace c = false ∧ c ≠ ']'

variable {item : Reader α}

theorem item_step (fuel : Nat) (first : Bool) (text inner left rest : Text) (a : α) (rows : List α)
    (more : hasItem first text = .ok (true, inner)) (read : item inner = .ok (a, left))
    (later : itemsFrom item fuel false left = .ok (rows, rest)) :
    itemsFrom item (fuel + 1) first text = .ok (a :: rows, rest) := by
  rw [itemsFrom, bind_read _ more, if_pos rfl, bind_read _ read, bind_read _ later]
  rfl

theorem items_end (fuel : Nat) (first : Bool) (gap rest : Text) (blank : isBlankText gap = true) :
    itemsFrom item (fuel + 1) first (gap ++ ']' :: rest) = .ok ([], ']' :: rest) := by
  rw [itemsFrom, bind_read _ (no_item_read first gap rest blank), if_neg Bool.false_ne_true]
  rfl

variable (reads : ∀ a shown, one a shown → Reads item shown a) (begins : ∀ a shown, one a shown → Begins shown)
include reads begins

theorem rows_read (rows : List α) (text : Text) (listed : Rows one rows text) (fuel : Nat) (first : Bool)
    (lead rest : Text) (leads : Leads first lead) (enough : rows.length < fuel) :
    itemsFrom item fuel first (lead ++ (text ++ ']' :: rest)) = .ok (rows, ']' :: rest) := by
  induction listed generalizing fuel first lead with
  | @last a before shown after blank given blank' =>
      obtain ⟨fuel, rfl⟩ : ∃ fewer, fuel = fewer + 2 := ⟨fuel - 2, by simp at enough; omega⟩
      have read := reads a shown given [] _ rfl (ended_behind after rest ']' blank' rfl)
      obtain ⟨c, shown, rfl, solid, inside⟩ := begins a shown given
      have more := has_item_read first lead before (shown ++ (after ++ ']' :: rest)) c leads blank solid inside
      simp only [List.append_assoc, List.cons_append, List.nil_append] at read more ⊢
      exact item_step _ first _ _ _ _ a [] more read (items_end fuel false after rest blank')
  | @more a rows before shown after text' blank given blank' _ ih =>
      obtain ⟨fuel, rfl⟩ : ∃ fewer, fuel = fewer + 1 := ⟨fuel - 1, by simp at enough; omega⟩
      have read := reads a shown given [] _ rfl (ended_behind after (text' ++ ']' :: rest) ',' blank' rfl)
      obtain ⟨c, shown, rfl, solid, inside⟩ := begins a shown given
      have more := has_item_read first lead before (shown ++ (after ++ ',' :: (text' ++ ']' :: rest))) c leads blank
        solid inside
      have later := ih fuel false (after ++ [',']) (.comma blank') (by simpa using enough)
      simp only [List.append_assoc, List.cons_append, List.nil_append] at read more later ⊢
      exact item_step _ first _ _ _ _ a rows more read later

theorem items_read (rows : List α) (text rest : Text) (listed : Listed one rows text) :
    items item (text ++ ']' :: rest) = .ok (rows, rest) := by
  have all : itemsFrom item ((text ++ ']' :: rest).length + 1) true (text ++ ']' :: rest) =
      .ok (rows, ']' :: rest) := by
    cases listed with
    | none blank => exact items_end _ true text rest blank
    | some listed =>
        have solid (a : α) (shown : Text) (given : one a shown) : shown ≠ [] := by
          obtain ⟨c, rest, rfl, _⟩ := begins a shown given
          exact List.cons_ne_nil c rest
        have few := rows_length rows text listed solid
        refine rows_read reads begins rows text listed _ true [] rest .start ?_
        rw [List.length_append]
        omega
  have closed := close_read ']' [] rest rfl rfl
  rw [List.nil_append] at closed
  rw [items, bind_read _ (get_read _), bind_read _ all, bind_read _ closed]
  rfl

end Items

inductive Member (Escape : Text → Char → Prop) (name : Text) (value : Text → Prop) : Text → Prop where
  | mk {inside gap gap' shown : Text} : Spelled Escape inside name → isBlankText gap = true →
      isBlankText gap' = true → value shown →
      Member Escape name value ('"' :: (inside ++ '"' :: (gap ++ ':' :: (gap' ++ shown))))

section Members

theorem quoted_member (name : Text) (value : Text → Prop) (shown : Text) (given : value shown) :
    Member Escaped name value (quote name ++ ':' :: shown) := by
  have spelled : Member Escaped name value ('"' :: (name.flatMap escaped ++ '"' :: ([] ++ ':' :: ([] ++ shown)))) :=
    .mk (quoted_spelled name) rfl rfl given
  have same : quote name ++ ':' :: shown = '"' :: (name.flatMap escaped ++ '"' :: ([] ++ ':' :: ([] ++ shown))) := by
    simp [quote]
  rwa [same]

variable {σ ε : Type} {escape : Text → Except Fault (Char × Text)} {Escape : Text → Char → Prop}
variable {nameOf : ε → Text} {value : ε → Text → Prop} {member : σ → Text → Reader σ} {step : σ → ε → σ}
variable {Good : σ → List ε → Prop}

def Row (Escape : Text → Char → Prop) (nameOf : ε → Text) (value : ε → Text → Prop) (e : ε) : Text → Prop :=
  Member Escape (nameOf e) (value e)

theorem member_step (name : Reader Text) (fuel : Nat) (first : Bool) (text inner behind left rest called : Text)
    (state next last : σ) (more : hasMember first text = .ok (true, '"' :: inner))
    (named : name inner = .ok (called, behind)) (read : member state called behind = .ok (next, left))
    (later : membersFrom name member fuel false next left = .ok (last, rest)) :
    membersFrom name member (fuel + 1) first state text = .ok (last, rest) := by
  rw [membersFrom, bind_read _ more, if_pos rfl, bind_read _ (drop_read _ _), bind_read _ named, bind_read _ read]
  exact later

theorem members_end (name : Reader Text) (fuel : Nat) (first : Bool) (gap rest : Text) (state : σ)
    (blank : isBlankText gap = true) :
    membersFrom name member (fuel + 1) first state (gap ++ '\x7d' :: rest) = .ok (state, '\x7d' :: rest) := by
  rw [membersFrom, bind_read _ (no_member_read first gap rest blank), if_neg Bool.false_ne_true]
  rfl

variable (escapes : ∀ text rest c, escape text = .ok (c, rest) ↔ ∃ used, text = used ++ rest ∧ Escape used c)
variable (reads : ∀ state e es gap gap' shown rest, Good state (e :: es) → isBlankText gap = true →
  isBlankText gap' = true → value e shown → Ended rest →
  member state (nameOf e) (gap ++ ':' :: (gap' ++ (shown ++ rest))) = .ok (step state e, rest))
include escapes reads

theorem row_read (state : σ) (e : ε) (es : List ε) (shown rest : Text) (good : Good state (e :: es))
    (given : Row Escape nameOf value e shown) (ended : Ended rest) :
    ∃ inner behind, shown ++ rest = '"' :: inner ∧ Reader.stringFrom escape 0 inner = .ok (nameOf e, behind) ∧
      member state (nameOf e) behind = .ok (step state e, rest) := by
  cases given with
  | @mk inside gap gap' shown spelled blank blank' valued =>
      have named := spelled_read escapes inside (nameOf e) (gap ++ ':' :: (gap' ++ (shown ++ rest))) spelled
      have read := reads state e es gap gap' shown rest good blank blank' valued ended
      refine ⟨_, _, ?_, named, read⟩
      simp

variable (steps : ∀ state e es, Good state (e :: es) → Good (step state e) es)
include steps

theorem member_rows_read (rows : List ε) (text : Text) (listed : Rows (Row Escape nameOf value) rows text) (fuel : Nat)
    (first : Bool) (lead rest : Text) (state : σ) (leads : Leads first lead) (enough : rows.length < fuel)
    (good : Good state rows) :
    membersFrom (Reader.stringFrom escape 0) member fuel first state (lead ++ (text ++ '\x7d' :: rest)) =
      .ok (rows.foldl step state, '\x7d' :: rest) := by
  induction listed generalizing fuel first lead state with
  | @last e before shown after blank given blank' =>
      obtain ⟨fuel, rfl⟩ : ∃ fewer, fuel = fewer + 2 := ⟨fuel - 2, by simp at enough; omega⟩
      obtain ⟨inner, behind, opens, named, read⟩ := row_read escapes reads state e [] shown _ good given
        (ended_behind after rest '\x7d' blank' rfl)
      have more := has_member_read first lead before inner leads blank
      simp only [List.append_assoc]
      rw [opens]
      exact member_step _ _ first _ inner behind _ _ _ state _ _ more named read
        (members_end _ fuel false after rest _ blank')
  | @more e rows before shown after text' blank given blank' _ ih =>
      obtain ⟨fuel, rfl⟩ : ∃ fewer, fuel = fewer + 1 := ⟨fuel - 1, by simp at enough; omega⟩
      obtain ⟨inner, behind, opens, named, read⟩ := row_read escapes reads state e rows shown _ good given
        (ended_behind after (text' ++ '\x7d' :: rest) ',' blank' rfl)
      have more := has_member_read first lead before inner leads blank
      have later := ih fuel false (after ++ [',']) (step state e) (.comma blank') (by simpa using enough)
        (steps state e rows good)
      simp only [List.append_assoc, List.cons_append, List.nil_append] at later ⊢
      rw [opens]
      exact member_step _ _ first _ inner behind _ _ _ state _ _ more named read later

variable (member step Good) in
theorem members_read (rows : List ε) (text rest : Text) (state : σ) (listed : Listed (Row Escape nameOf value) rows text)
    (good : Good state rows) :
    members (Reader.stringFrom escape 0) member state (text ++ '\x7d' :: rest) = .ok (rows.foldl step state, rest) := by
  have all : membersFrom (Reader.stringFrom escape 0) member ((text ++ '\x7d' :: rest).length + 1) true state
      (text ++ '\x7d' :: rest) = .ok (rows.foldl step state, '\x7d' :: rest) := by
    cases listed with
    | none blank => exact members_end _ _ true text rest state blank
    | some listed =>
        have solid (e : ε) (shown : Text) (given : Row Escape nameOf value e shown) : shown ≠ [] := by
          cases given
          exact List.cons_ne_nil _ _
        have few := rows_length rows text listed solid
        refine member_rows_read escapes reads steps rows text listed _ true [] rest state .start ?_ good
        rw [List.length_append]
        omega
  have closed := close_read '\x7d' [] rest rfl rfl
  rw [List.nil_append] at closed
  rw [members, bind_read _ (get_read _), bind_read _ all, bind_read _ closed]
  rfl

end Members

end DevServer.Json
