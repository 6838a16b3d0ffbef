import DevServer.Proofs.Lines
import DevServer.Proofs.Scan

set_option autoImplicit false

namespace DevServer.Text

inductive Edited (edit : Text → Text → Prop) : Text → Text → Prop where
  | nil : Edited edit [] []
  | keep (c : Char) {a b : Text} : Edited edit a b → Edited edit (c :: a) (c :: b)
  | change {old new a b : Text} : edit old new → Edited edit a b → Edited edit (old ++ a) (new ++ b)

section Edits

variable {edit : Text → Text → Prop} {a b : Text}

theorem Edited.refl (text : Text) : Edited edit text text := by
  induction text with
  | nil => exact .nil
  | cons c text ih => exact .keep c ih

theorem Edited.append {c d : Text} (first : Edited edit a b) (second : Edited edit c d) :
    Edited edit (a ++ c) (b ++ d) := by
  induction first with
  | nil => exact second
  | keep x _ ih => exact .keep x ih
  | change changed _ ih =>
      rw [List.append_assoc, List.append_assoc]
      exact .change changed ih

theorem Edited.single {old new : Text} (changed : edit old new) : Edited edit old new := by
  simpa using Edited.change changed Edited.nil

theorem rewrite_edited {α : Type} {matcher : Matcher α} {print : α → Text}
    (consumes : Consumes matcher)
    (hits : ∀ before used left found, matcher before (used ++ left) = some (found, left) →
      Edited edit used (print found))
    (before : Option Char) (text : Text) :
    Edited edit text (render print (scanFrom matcher 0 before text)) := by
  induction before, text using scan_induction consumes with
  | nil before => exact .nil
  | kept before c rest miss ih =>
      rw [scan_kept before c rest miss]
      exact .keep c ih
  | found before used left found nonempty hit ih =>
      rw [scan_found before used left found nonempty hit]
      exact (hits before used left found hit).append ih

theorem map_lines_edited (line' : Text → Text) (empty : line' [] = [])
    (lines : ∀ line, '\n' ∉ line → '\r' ∉ line → Edited edit line (line' line)) (text : Text)
    (absent : '\r' ∉ text) : Edited edit text (mapLines line' text) := by
  have whole := join_split '\n' text
  have unfed (part : Text) (member : part ∈ split '\n' text) := not_mem_of_split '\n' text part member
  have unreturned (part : Text) := split_absent '\n' '\r' text part absent
  rw [mapLines, linewise, linewise_join line' empty]
  generalize split '\n' text = parts at whole unfed unreturned
  rw [← whole]
  clear whole absent
  induction parts with
  | nil => exact .nil
  | cons part rest ih =>
      have here := lines part (unfed part List.mem_cons_self) (unreturned part List.mem_cons_self)
      cases rest with
      | nil => exact here
      | cons next rest =>
          have later := ih (fun part member => unfed part (List.mem_cons_of_mem _ member))
            fun part member => unreturned part (List.mem_cons_of_mem _ member)
          rw [edit_parts_cons, chomp_none part (unreturned part List.mem_cons_self)]
          cases edited : editParts line' (next :: rest) with
          | nil => exact absurd edited (edit_parts_ne_nil line' _ (List.cons_ne_nil _ _))
          | cons other tail =>
              rw [join_cons, join_cons, ← edited]
              exact (here.append (.refl ['\n'])).append later

theorem absent_edited (c : Char) (edited : Edited edit a b)
    (kept : ∀ old new, edit old new → c ∉ old → c ∉ new) (absent : c ∉ a) : c ∉ b := by
  induction edited with
  | nil => exact absent
  | keep x _ ih =>
      simp only [List.mem_cons, not_or] at absent ⊢
      exact ⟨absent.1, ih absent.2⟩
  | change changed _ ih =>
      simp only [List.mem_append, not_or] at absent ⊢
      exact ⟨kept _ _ changed absent.1, ih absent.2⟩

theorem length_edited (edited : Edited edit a b)
    (longer : ∀ old new, edit old new → old.length ≤ new.length) : a.length ≤ b.length := by
  induction edited with
  | nil => exact Nat.le_refl _
  | keep c _ ih => simpa using ih
  | change changed _ ih =>
      have here := longer _ _ changed
      rw [List.length_append, List.length_append]
      omega

theorem suffix_edited (edited : Edited edit a b) (rest : Text) (suffix : rest <:+ b) :
    (∃ source, source <:+ a ∧ Edited edit source rest) ∨
      ∃ old front tail more, edit old (front ++ tail) ∧ front ≠ [] ∧ tail ≠ [] ∧
        rest = tail ++ more := by
  induction edited with
  | nil => exact .inl ⟨[], List.suffix_refl [], by rw [List.suffix_nil.mp suffix]; exact .nil⟩
  | keep c edited ih =>
      rcases List.suffix_cons_iff.mp suffix with rfl | later
      · exact .inl ⟨_, List.suffix_refl _, edited.keep c⟩
      · rcases ih later with ⟨source, inside, related⟩ | found
        · exact .inl ⟨source, inside.trans (List.suffix_cons c _), related⟩
        · exact .inr found
  | @change old new a b changed edited ih =>
      obtain ⟨front, whole⟩ := suffix
      rcases List.append_eq_append_iff.mp whole with ⟨tail, rfl, rfl⟩ | ⟨gap, rfl, rfl⟩
      · cases front with
        | nil => exact .inl ⟨_, List.suffix_refl _, edited.change changed⟩
        | cons c front =>
            cases tail with
            | nil => exact .inl ⟨a, List.suffix_append old a, edited⟩
            | cons d tail => exact .inr ⟨old, c :: front, d :: tail, b, changed, by simp, by simp, rfl⟩
      · rcases ih (List.suffix_append gap rest) with ⟨source, inside, related⟩ | found
        · exact .inl ⟨source, inside.trans (List.suffix_append old a), related⟩
        · exact .inr found

theorem edited_front (front : Text)
    (first : ∀ old new, edit old new → ∃ c rest, old = c :: rest ∧ c ∉ front)
    (edited : Edited edit (front ++ a) b) : ∃ text, b = front ++ text ∧ Edited edit a text := by
  induction front generalizing b with
  | nil => exact ⟨b, rfl, edited⟩
  | cons d front ih =>
      have later (old new : Text) (changed : edit old new) : ∃ c rest, old = c :: rest ∧ c ∉ front := by
        obtain ⟨c, rest, same, absent⟩ := first old new changed
        exact ⟨c, rest, same, fun member => absent (List.mem_cons_of_mem d member)⟩
      generalize same : d :: front ++ a = text at edited
      cases edited with
      | nil => cases same
      | keep c edited =>
          cases same
          obtain ⟨text, rfl, rest⟩ := ih later edited
          exact ⟨text, rfl, rest⟩
      | @change old new source _ changed edited =>
          obtain ⟨c, rest, rfl, absent⟩ := first _ _ changed
          rw [(List.cons.inj same).1] at absent
          exact absurd List.mem_cons_self absent

theorem edited_none (last : ∀ old new, edit old new → ∃ rest c, old = rest ++ [c] ∧ c ∉ a)
    (edited : Edited edit a b) : b = a := by
  induction edited with
  | nil => rfl
  | @keep c a b _ ih =>
      rw [ih]
      intro old new changed
      obtain ⟨rest, d, same, absent⟩ := last old new changed
      exact ⟨rest, d, same, fun member => absent (List.mem_cons_of_mem c member)⟩
  | change changed _ _ =>
      obtain ⟨rest, c, rfl, absent⟩ := last _ _ changed
      simp at absent

theorem edited_back (back : Text)
    (last : ∀ old new, edit old new → ∃ rest c, old = rest ++ [c] ∧ c ∉ back)
    (edited : Edited edit (a ++ back) b) : ∃ text, b = text ++ back := by
  generalize whole : a ++ back = source at edited
  induction edited generalizing a with
  | nil => exact ⟨[], (List.append_eq_nil_iff.mp whole).2.symm⟩
  | @keep c source text edited ih =>
      cases a with
      | nil =>
          rw [List.nil_append] at whole
          rw [whole] at last
          exact ⟨[], by rw [edited_none last (edited.keep c), whole, List.nil_append]⟩
      | cons d a =>
          obtain ⟨text, rfl⟩ := ih (List.cons.inj whole).2
          exact ⟨c :: text, rfl⟩
  | @change old new source text changed edited ih =>
      obtain ⟨rest, c, rfl, absent⟩ := last _ _ changed
      rcases List.append_eq_append_iff.mp whole with ⟨gap, same, tail⟩ | ⟨gap, rfl, tail⟩
      · rcases List.eq_nil_or_concat gap with rfl | ⟨gap, d, rfl⟩
        · obtain ⟨text, rfl⟩ := ih (a := []) tail
          exact ⟨new ++ text, (List.append_assoc _ _ _).symm⟩
        · have final : c = d := by
            have ends := congrArg List.getLast? same
            simpa using ends
          rw [tail, final] at absent
          simp at absent
      · obtain ⟨text, rfl⟩ := ih tail.symm
        exact ⟨new ++ text, (List.append_assoc _ _ _).symm⟩

def Avoids (found : Text → Bool) (text : Text) : Prop := ∀ rest, rest <:+ text → found rest = false

theorem avoids_cons (found : Text → Bool) (c : Char) (text : Text) :
    Avoids found (c :: text) ↔ found (c :: text) = false ∧ Avoids found text := by
  constructor
  · intro avoids
    exact ⟨avoids _ (List.suffix_refl _), fun rest suffix =>
      avoids rest (suffix.trans (List.suffix_cons c text))⟩
  · rintro ⟨here, later⟩ rest suffix
    rcases List.suffix_cons_iff.mp suffix with rfl | inside
    · exact here
    · exact later rest inside

-- A place of the edited text is one of the text before, or it is inside of an edit.
theorem avoids_edited (found : Text → Bool) (edited : Edited edit a b)
    (reflects : ∀ a b, Edited edit a b → found b = true → found a = true)
    (inside : ∀ old front tail more, edit old (front ++ tail) → front ≠ [] → tail ≠ [] →
      found (tail ++ more) = false)
    (avoids : Avoids found a) : Avoids found b := by
  intro rest suffix
  rcases suffix_edited edited rest suffix with ⟨source, within, related⟩ |
    ⟨old, front, tail, more, changed, begun, unfinished, rfl⟩
  · cases present : found rest with
    | false => rfl
    | true =>
        have earlier := reflects source rest related present
        rw [avoids source within] at earlier
        cases earlier
  · exact inside old front tail more changed begun unfinished

def isApart : Text → Text → Bool
  | [], _ => true
  | c :: mark, start =>
    !start.startsWith (c :: mark) && !startsWith (c :: mark) start && isApart mark start

theorem apart_append (c : Char) (mark start left more : Text)
    (apart : isApart (c :: mark) start = true) : c :: mark ++ left ≠ start ++ more := by
  intro same
  simp only [isApart, Bool.and_eq_true, Bool.not_eq_true'] at apart
  obtain ⟨⟨longer, shorter⟩, _⟩ := apart
  rcases List.append_eq_append_iff.mp same with ⟨gap, whole, _⟩ | ⟨gap, whole, _⟩
  · rw [startsWith_iff.mpr ⟨gap, whole⟩] at longer
    cases longer
  · rw [startsWith_iff.mpr ⟨gap, whole⟩] at shorter
    cases shorter

theorem apart_behind (front mark start : Text) (apart : isApart (front ++ mark) start = true) :
    isApart mark start = true := by
  induction front with
  | nil => exact apart
  | cons c front ih =>
      rw [List.cons_append, isApart, Bool.and_eq_true] at apart
      exact ih apart.2

theorem after_apart (mark start more : Text) (some' : mark ≠ []) (apart : isApart mark start = true) :
    after? (start ++ more) mark = none := by
  cases mark with
  | nil => exact absurd rfl some'
  | cons c mark =>
      cases found : after? (start ++ more) (c :: mark) with
      | none => rfl
      | some left => exact absurd (after?_eq_some.mp found).symm (apart_append c mark start left more apart)

-- What is put in begins with `start`, in place of something that neither a space nor
-- a comma begins.
def Opens (edit : Text → Text → Prop) (start : Text) : Prop :=
  ∀ old new, edit old new →
    (∃ more, new = start ++ more) ∧ ∃ c rest, old = c :: rest ∧ isSpace c = false ∧ c ≠ ','

section Opening

variable {start : Text} (opens : Opens edit start)

include opens

theorem after_edited (mark right : Text) (apart : isApart mark start = true)
    (edited : Edited edit a b) (found : after? b mark = some right) :
    ∃ left, after? a mark = some left ∧ Edited edit left right := by
  induction mark generalizing a b with
  | nil =>
      simp only [after?, Option.some.injEq] at found
      subst found
      exact ⟨a, by simp [after?], edited⟩
  | cons d mark ih =>
      have rest : isApart mark start = true := by
        simp only [isApart, Bool.and_eq_true] at apart
        exact apart.2
      cases edited with
      | nil => cases found
      | keep c edited =>
          by_cases same : c = d
          · simp only [after?, if_pos same] at found ⊢
            exact ih rest edited found
          · simp [after?, same] at found
      | change changed edited =>
          obtain ⟨⟨more, rfl⟩, _⟩ := opens _ _ changed
          have whole := after?_eq_some.mp found
          rw [List.append_assoc] at whole
          exact absurd whole.symm (apart_append d mark start right _ apart)

theorem spaces_edited (solid : start.head?.any isSpace = false) (begun : start ≠ [])
    (edited : Edited edit a b) : Edited edit (spaces a) (spaces b) := by
  unfold spaces
  induction edited with
  | nil => exact .nil
  | keep c edited ih =>
      by_cases space : isSpace c = true
      · simpa [List.dropWhile_cons, space] using ih
      · simpa [List.dropWhile_cons, space] using edited.keep c
  | @change old new a b changed edited ih =>
      obtain ⟨⟨more, rfl⟩, c, rest, rfl, other, _⟩ := opens _ _ changed
      cases start with
      | nil => exact absurd rfl begun
      | cons d start =>
          have stop : isSpace d = false := by simpa using solid
          have whole := edited.change changed
          simpa [List.dropWhile_cons, stop, other] using whole

theorem char_edited (p : Char → Bool) (begun : start ≠ []) (foreign : start.head?.any p = false)
    (c : Char) (right : Text) (edited : Edited edit a b) (found : char? p b = some (c, right)) :
    ∃ left, char? p a = some (c, left) ∧ Edited edit left right := by
  obtain ⟨rfl, holds⟩ := char_some p c found
  generalize same : c :: right = text at edited
  cases edited with
  | nil => cases same
  | keep d edited =>
      cases same
      exact ⟨_, if_pos holds, edited⟩
  | change changed edited =>
      obtain ⟨⟨more, rfl⟩, _⟩ := opens _ _ changed
      cases start with
      | nil => exact absurd rfl begun
      | cons d start =>
          simp only [List.cons_append, List.cons.injEq] at same
          rw [← same.1] at foreign
          simp [holds] at foreign

-- A run and the character that ends it are met by no edit that begins with a longer
-- run or with one that ends otherwise.
theorem run_edited (p : Char → Bool) (run right : Text) (c : Char) (inside : run.all p = true)
    (stop : p c = false) (foreign : (start.dropWhile p).head?.any (· ≠ c) = true)
    (edited : Edited edit a (run ++ c :: right)) :
    ∃ left, a = run ++ c :: left ∧ Edited edit left right := by
  have apart (run more : Text) (inside : run.all p = true) : run ++ c :: right ≠ start ++ more := by
    intro same
    have ends := congrArg (List.dropWhile p) same
    rw [drop_while_stop p run c right inside stop, List.dropWhile_append] at ends
    cases rest : start.dropWhile p with
    | nil => simp [rest] at foreign
    | cons d tail =>
        simp only [rest, List.isEmpty_cons, Bool.false_eq_true, if_false, List.cons_append,
          List.cons.injEq] at ends
        simp [rest, ends.1] at foreign
  induction run generalizing a with
  | nil =>
      generalize same : [] ++ c :: right = text at edited
      cases edited with
      | nil => cases same
      | keep d edited =>
          cases same
          exact ⟨_, rfl, edited⟩
      | change changed edited =>
          obtain ⟨⟨more, rfl⟩, _⟩ := opens _ _ changed
          rw [List.append_assoc] at same
          exact absurd same (apart [] _ rfl)
  | cons d run ih =>
      generalize same : d :: run ++ c :: right = text at edited
      cases edited with
      | nil => cases same
      | keep e edited =>
          cases same
          simp only [List.all_cons, Bool.and_eq_true] at inside
          obtain ⟨left, rfl, related⟩ := ih inside.2 edited
          exact ⟨left, rfl, related⟩
      | change changed edited =>
          obtain ⟨⟨more, rfl⟩, _⟩ := opens _ _ changed
          rw [List.append_assoc] at same
          exact absurd same (apart (d :: run) _ inside)

end Opening

theorem while_edited (p : Char → Bool)
    (passed : ∀ old new, edit old new → old.all p = true ∧ new.all p = true)
    (edited : Edited edit a b) :
    Edited edit (a.takeWhile p) (b.takeWhile p) ∧ Edited edit (a.dropWhile p) (b.dropWhile p) := by
  induction edited with
  | nil => exact ⟨.nil, .nil⟩
  | keep c edited ih =>
      by_cases holds : p c = true
      · simp only [List.takeWhile_cons, List.dropWhile_cons, holds, if_true]
        exact ⟨ih.1.keep c, ih.2⟩
      · simp only [List.takeWhile_cons, List.dropWhile_cons, holds]
        exact ⟨.nil, edited.keep c⟩
  | change changed edited ih =>
      obtain ⟨first, second⟩ := passed _ _ changed
      rw [List.takeWhile_append_of_pos (List.all_eq_true.mp first),
        List.takeWhile_append_of_pos (List.all_eq_true.mp second),
        List.dropWhile_append_of_pos (List.all_eq_true.mp first),
        List.dropWhile_append_of_pos (List.all_eq_true.mp second)]
      exact ⟨.change changed ih.1, ih.2⟩

-- Every edit puts in a character that the front of the text lacks, before the one
-- that ends the front: so the front was there before.
theorem front_edited (p : Char → Bool) (c : Char)
    (blocked : ∀ old new, edit old new → ∃ d ∈ new.takeWhile (· != c), p d = false)
    (front right : Text) (inside : front.all p = true) (edited : Edited edit a (front ++ c :: right)) :
    ∃ left, a = front ++ c :: left := by
  have never (front old new more : Text) (inside : front.all p = true) (changed : edit old new) :
      front ++ c :: right ≠ new ++ more := by
    intro same
    obtain ⟨d, member, outside⟩ := blocked old new changed
    have within : d ∈ (new ++ more).takeWhile (· != c) := by
      rw [List.takeWhile_append]
      split
      · exact List.mem_append_left _ ((List.takeWhile_prefix _).subset member)
      · exact member
    rw [← same, List.takeWhile_append, List.takeWhile_cons] at within
    have known : d ∈ front := by
      split at within
      · simpa using within
      · exact (List.takeWhile_prefix _).subset within
    rw [List.all_eq_true.mp inside d known] at outside
    cases outside
  induction front generalizing a with
  | nil =>
      generalize same : [] ++ c :: right = text at edited
      cases edited with
      | nil => cases same
      | keep d edited =>
          cases same
          exact ⟨_, rfl⟩
      | change changed edited => exact absurd same (never [] _ _ _ rfl changed)
  | cons d front ih =>
      generalize same : d :: front ++ c :: right = text at edited
      cases edited with
      | nil => cases same
      | keep e edited =>
          cases same
          simp only [List.all_cons, Bool.and_eq_true] at inside
          obtain ⟨left, rfl⟩ := ih inside.2 edited
          exact ⟨left, rfl⟩
      | change changed edited => exact absurd same (never (d :: front) _ _ _ inside changed)

end Edits

end DevServer.Text
