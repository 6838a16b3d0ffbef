import DevServer.Text.Lines

set_option autoImplicit false

namespace DevServer.Text

-- Line feeds without the carriage return directly before them.
def dropReturns : Text → Text
  | [] => []
  | '\r' :: '\n' :: text => '\n' :: dropReturns text
  | c :: text => c :: dropReturns text

theorem take_while_stop (p : Char → Bool) (run : Text) (c : Char) (rest : Text)
    (inside : run.all p = true) (stop : p c = false) : (run ++ c :: rest).takeWhile p = run := by
  rw [List.takeWhile_append_of_pos (List.all_eq_true.mp inside), List.takeWhile_cons, stop]
  simp

theorem drop_while_stop (p : Char → Bool) (run : Text) (c : Char) (rest : Text)
    (inside : run.all p = true) (stop : p c = false) :
    (run ++ c :: rest).dropWhile p = c :: rest := by
  rw [List.dropWhile_append_of_pos (List.all_eq_true.mp inside), List.dropWhile_cons, stop]
  simp

theorem all_without (c : Char) (text : Text) (absent : c ∉ text) :
    text.all (fun d => decide (d ≠ c)) = true := by
  rw [List.all_eq_true]
  intro d member
  rw [decide_eq_true_eq]
  rintro rfl
  exact absent member

theorem cut_at_some (sep : Char) (text left right : Text) :
    cutAt? sep text = some (left, right) ↔ text = left ++ sep :: right ∧ sep ∉ left := by
  induction text generalizing left with
  | nil => simp [cutAt?]
  | cons c text ih =>
      by_cases same : c = sep
      · cases left with
        | nil => simp [cutAt?, same]
        | cons d left =>
            simp only [cutAt?, if_pos same, Option.some.injEq, Prod.mk.injEq, List.cons_append,
              List.cons.injEq, List.mem_cons, not_or]
            constructor
            · rintro ⟨absurd', _⟩
              cases absurd'
            · rintro ⟨⟨rfl, _⟩, differs, _⟩
              exact absurd same.symm differs
      · cases left with
        | nil => simp [cutAt?, same]
        | cons d left =>
            have later := ih left
            simp only [cutAt?, if_neg same, Option.map_eq_some_iff, Prod.exists, Prod.mk.injEq,
              List.cons_append, List.cons.injEq, List.mem_cons, not_or]
            constructor
            · rintro ⟨l, r, found, ⟨rfl, rfl⟩, rfl⟩
              obtain ⟨whole, absent⟩ := later.mp found
              exact ⟨⟨rfl, whole⟩, Ne.symm same, absent⟩
            · rintro ⟨⟨rfl, whole⟩, _, absent⟩
              exact ⟨left, right, later.mpr ⟨whole, absent⟩, ⟨rfl, rfl⟩, rfl⟩

theorem first_place (mark : Char) (left right left' right' : Text) (same : left ++ mark :: right = left' ++ mark :: right')
    (absent : mark ∉ left) (absent' : mark ∉ left') : left = left' := by
  have first := (cut_at_some mark _ left right).mpr ⟨rfl, absent⟩
  have second := (cut_at_some mark _ left' right').mpr ⟨same, absent'⟩
  rw [first] at second
  exact congrArg Prod.fst (Option.some.inj second)

theorem cut_at_none (sep : Char) (text : Text) : cutAt? sep text = none ↔ sep ∉ text := by
  induction text with
  | nil => simp [cutAt?]
  | cons c text ih =>
      by_cases same : c = sep
      · simp [cutAt?, same]
      · simp [cutAt?, same, ih, Ne.symm same]

theorem not_mem_of_split (sep : Char) (text part : Text) (member : part ∈ split sep text) :
    sep ∉ part := by
  induction text generalizing part with
  | nil =>
      rw [split, List.mem_singleton] at member
      simp [member]
  | cons c text ih =>
      rw [split] at member
      by_cases same : c = sep
      · rw [if_pos same] at member
        rcases List.mem_cons.mp member with empty | later
        · simp [empty]
        · exact ih part later
      · rw [if_neg same] at member
        cases parts : split sep text with
        | nil => exact absurd parts (split_ne_nil sep text)
        | cons head tail =>
            rw [parts] at member ih
            rcases List.mem_cons.mp member with first | later
            · subst first
              simp [Ne.symm same, ih head List.mem_cons_self]
            · exact ih part (List.mem_cons_of_mem _ later)

theorem split_append (sep : Char) (part text : Text) (absent : sep ∉ part) :
    split sep (part ++ sep :: text) = part :: split sep text := by
  induction part with
  | nil => simp [split]
  | cons c part ih =>
      simp only [List.mem_cons, not_or] at absent
      rw [List.cons_append, split, if_neg (Ne.symm absent.1), ih absent.2]

theorem split_concat (sep : Char) (left right : Text) :
    split sep (left ++ sep :: right) = split sep left ++ split sep right := by
  induction left with
  | nil => simp [split]
  | cons c left ih =>
      rw [List.cons_append, split, split]
      by_cases same : c = sep
      · rw [if_pos same, if_pos same, ih]
        rfl
      · rw [if_neg same, if_neg same, ih]
        cases parts : split sep left with
        | nil => exact absurd parts (split_ne_nil sep left)
        | cons part rest => rfl

theorem split_unbroken (front text head : Text) (tail : List Text) (unbroken : '\n' ∉ front)
    (parts : split '\n' text = head :: tail) : split '\n' (front ++ text) = (front ++ head) :: tail := by
  induction front with
  | nil => exact parts
  | cons c front ih =>
      simp only [List.mem_cons, not_or] at unbroken
      rw [List.cons_append, split, if_neg (Ne.symm unbroken.1), ih unbroken.2]
      rfl

theorem split_none (sep : Char) (part : Text) (absent : sep ∉ part) : split sep part = [part] := by
  induction part with
  | nil => rfl
  | cons c part ih =>
      simp only [List.mem_cons, not_or] at absent
      rw [split, if_neg (Ne.symm absent.1), ih absent.2]

theorem split_join (sep : Char) (parts : List Text) (some' : parts ≠ [])
    (absent : ∀ part ∈ parts, sep ∉ part) : split sep (join [sep] parts) = parts := by
  induction parts with
  | nil => exact absurd rfl some'
  | cons part rest ih =>
      have here := absent part List.mem_cons_self
      cases rest with
      | nil => exact split_none sep part here
      | cons next rest =>
          have later := ih (List.cons_ne_nil _ _) fun part member =>
            absent part (List.mem_cons_of_mem _ member)
          rw [join, List.append_assoc]
          · change split sep (part ++ sep :: join [sep] (next :: rest)) = _
            rw [split_append sep part _ here, later]
          · simp

theorem join_cons (sep part next : Text) (rest : List Text) :
    join sep (part :: next :: rest) = part ++ sep ++ join sep (next :: rest) := rfl

theorem join_snoc (sep : Text) (parts : List Text) (last : Text) :
    join sep (parts ++ [last]) = parts.flatMap (· ++ sep) ++ last := by
  induction parts with
  | nil => rfl
  | cons part rest ih =>
      rw [List.flatMap_cons, List.append_assoc, ← ih]
      cases rest with
      | nil => rfl
      | cons next rest => rfl

theorem linewise_cons {α : Type} (feed : α) (edit : Text → List α) (line next : Text)
    (rest : List Text) : linewiseOf feed edit (line :: next :: rest) =
      edit (chomp line) ++ feed :: linewiseOf feed edit (next :: rest) := rfl

theorem chomp_cases (text : Text) :
    text = chomp text ∨ text = chomp text ++ ['\r'] := by
  fun_induction chomp text with
  | case1 => exact .inl rfl
  | case2 => exact .inr rfl
  | case3 c text other ih =>
      rcases ih with same | cut
      · exact .inl (congrArg (List.cons c) same)
      · exact .inr (congrArg (List.cons c) cut)

theorem chomp_front (text : Text) : chomp text <+: text := by
  rcases chomp_cases text with same | cut
  · exact ⟨[], by rw [List.append_nil, ← same]⟩
  · exact ⟨['\r'], cut.symm⟩

theorem chomp_none (text : Text) (absent : '\r' ∉ text) : chomp text = text := by
  rcases chomp_cases text with same | cut
  · exact same.symm
  · rw [cut] at absent
    simp at absent

theorem chomp_clean (front rest : Text) (absent : '\r' ∉ front) : chomp (front ++ rest) = front ++ chomp rest := by
  induction front with
  | nil => rfl
  | cons c front ih =>
      rw [List.mem_cons, not_or] at absent
      rw [List.cons_append, List.cons_append, ← ih absent.2, chomp]
      rintro return' _
      exact absent.1 return'.symm

theorem chomp_over (front rest : Text) (some' : rest ≠ []) : chomp (front ++ rest) = front ++ chomp rest := by
  induction front with
  | nil => rfl
  | cons c front ih =>
      rw [List.cons_append, List.cons_append, ← ih, chomp]
      rintro _ last
      exact some' (List.append_eq_nil_iff.mp last).2

theorem drop_returns_line (part text : Text) (absent : '\n' ∉ part) :
    dropReturns (part ++ '\n' :: text) = chomp part ++ '\n' :: dropReturns text := by
  fun_induction chomp part with
  | case1 => rfl
  | case2 => rfl
  | case3 c part other ih =>
      simp only [List.mem_cons, not_or] at absent
      rw [List.cons_append, List.cons_append, ← ih absent.2]
      cases part with
      | nil =>
          rw [List.nil_append, dropReturns]
          intro rest return' _
          exact other return' rfl
      | cons d part =>
          rw [dropReturns]
          intro rest _ feed
          simp only [List.cons_append, List.cons.injEq] at feed
          exact absent.2 (by simp [feed.1])

theorem drop_returns_same (text : Text) (absent : ¬ ['\r', '\n'] <:+: text) :
    dropReturns text = text := by
  fun_induction dropReturns text with
  | case1 => rfl
  | case2 text ih => exact absurd (List.prefix_append ['\r', '\n'] text).isInfix absent
  | case3 c text other ih =>
      rw [ih fun inside => absent (inside.trans (List.suffix_cons c text).isInfix)]

theorem drop_returns_none (text : Text) (absent : '\r' ∉ text) : dropReturns text = text :=
  drop_returns_same text fun inside => absent (inside.subset List.mem_cons_self)

theorem drop_returns_last (part : Text) (absent : '\n' ∉ part) : dropReturns part = part :=
  drop_returns_same part fun inside =>
    absent (inside.subset (List.mem_cons_of_mem _ List.mem_cons_self))

theorem drop_returns_sublist (text : Text) : (dropReturns text).Sublist text := by
  fun_induction dropReturns text with
  | case1 => exact .slnil
  | case2 text ih => exact (ih.cons_cons '\n').cons '\r'
  | case3 c text other ih => exact ih.cons_cons c

theorem drop_returns_append (front rest : Text) (apart : rest.head? ≠ some '\n') :
    dropReturns (front ++ rest) = dropReturns front ++ dropReturns rest := by
  fun_induction dropReturns front with
  | case1 => rfl
  | case2 text ih => rw [List.cons_append, List.cons_append, dropReturns, ih, List.cons_append]
  | case3 c text other ih =>
      rw [List.cons_append, List.cons_append, ← ih]
      cases text with
      | nil =>
          rw [List.nil_append, dropReturns]
          rintro more _ rfl
          exact apart rfl
      | cons d text =>
          rw [dropReturns]
          intro more return' feed
          simp only [List.cons_append, List.cons.injEq] at feed
          exact other text return' (by rw [feed.1])

theorem drop_returns_clean (front rest : Text) (absent : '\r' ∉ front) :
    dropReturns (front ++ rest) = front ++ dropReturns rest := by
  induction front with
  | nil => rfl
  | cons c front ih =>
      rw [List.mem_cons, not_or] at absent
      rw [List.cons_append, List.cons_append, ← ih absent.2, dropReturns]
      exact fun more return' _ => absent.1 return'.symm

theorem returns_front (front text : Text) (unbroken : '\n' ∉ front)
    (opens : front <+: dropReturns text) : front <+: text := by
  cases front with
  | nil => exact List.nil_prefix
  | cons c front =>
      simp only [List.mem_cons, not_or] at unbroken
      fun_cases dropReturns text with
      | case1 => exact absurd opens (by simp [dropReturns])
      | case2 text =>
          rw [dropReturns] at opens
          exact absurd (List.cons_prefix_cons.mp opens).1.symm unbroken.1
      | case3 d text other =>
          rw [dropReturns] at opens
          · obtain ⟨rfl, later⟩ := List.cons_prefix_cons.mp opens
            exact List.cons_prefix_cons.mpr ⟨rfl, returns_front front text unbroken.2 later⟩
          · exact other

theorem returns_inside (part text : Text) (unbroken : '\n' ∉ part)
    (inside : part <:+: dropReturns text) : part <:+: text := by
  fun_induction dropReturns text with
  | case1 => exact inside
  | case2 text ih =>
      rcases List.infix_cons_iff.mp inside with opens | later
      · exact (returns_front part ('\r' :: '\n' :: text) unbroken (by simpa only [dropReturns] using opens)).isInfix
      · exact (ih later).trans (List.suffix_append ['\r', '\n'] text).isInfix
  | case3 c text other ih =>
      rcases List.infix_cons_iff.mp inside with opens | later
      · refine (returns_front part (c :: text) unbroken ?_).isInfix
        rwa [dropReturns]
        exact other
      · exact (ih later).trans (List.suffix_cons c text).isInfix

theorem map_lines_id (text : Text) : mapLines id text = dropReturns text := by
  have absent (part : Text) (member : part ∈ split '\n' text) := not_mem_of_split '\n' text part member
  rw [mapLines, linewise, ← congrArg dropReturns (join_split '\n' text)]
  generalize split '\n' text = parts at absent
  induction parts with
  | nil => rfl
  | cons part rest ih =>
      have here := absent part List.mem_cons_self
      cases rest with
      | nil =>
          rw [linewiseOf, join, drop_returns_last part here]
          split <;> simp_all
      | cons next rest =>
          have later := ih fun part member => absent part (List.mem_cons_of_mem _ member)
          rw [linewise_cons, join_cons, later, List.append_assoc]
          exact (drop_returns_line part _ here).symm

-- The parts between line feeds after every line is edited; the last one is not
-- ended by a feed and keeps its carriage return.
def editParts (edit : Text → Text) : List Text → List Text
  | [] => []
  | [last] => [edit last]
  | line :: rest => edit (chomp line) :: editParts edit rest

theorem edit_parts_cons (edit : Text → Text) (line next : Text) (rest : List Text) :
    editParts edit (line :: next :: rest) =
      edit (chomp line) :: editParts edit (next :: rest) := rfl

theorem edit_parts_ne_nil (edit : Text → Text) (parts : List Text) (some' : parts ≠ []) :
    editParts edit parts ≠ [] := by
  fun_cases editParts edit parts with
  | case1 => exact absurd rfl some'
  | case2 => simp
  | case3 => simp

theorem linewise_join (edit : Text → Text) (empty : edit [] = []) (parts : List Text) :
    linewiseOf '\n' edit parts = join ['\n'] (editParts edit parts) := by
  fun_induction editParts edit parts with
  | case1 => rfl
  | case2 last =>
      rw [linewiseOf, join]
      split
      · rename_i nothing
        rw [nothing, empty]
      · rfl
  | case3 line rest more ih =>
      cases later : editParts edit rest with
      | nil =>
          cases rest with
          | nil => exact absurd rfl more
          | cons next rest => exact absurd later (edit_parts_ne_nil edit _ (by simp))
      | cons next rest' =>
          rw [linewiseOf, ih, later, join_cons]
          · simp
          · exact more

theorem edit_parts_snoc (edit : Text → Text) (parts : List Text) (last : Text) :
    editParts edit (parts ++ [last]) = parts.map (fun line => edit (chomp line)) ++ [edit last] := by
  induction parts with
  | nil => rfl
  | cons line rest ih =>
      rw [List.map_cons, List.cons_append, List.cons_append, ← ih]
      cases rest with
      | nil => rfl
      | cons next rest => rfl

def lastLine (text : Text) : Text := (split '\n' text).getLast (split_ne_nil '\n' text)

def aboveLast (text : Text) : Text := (split '\n' text).dropLast.flatMap (· ++ ['\n'])

theorem above_last (text : Text) : aboveLast text ++ lastLine text = text := by
  have parts := List.dropLast_concat_getLast (split_ne_nil '\n' text)
  have whole := join_split '\n' text
  rw [← parts, join_snoc] at whole
  exact whole

theorem last_line_single (text : Text) (absent : '\n' ∉ text) : lastLine text = text := by
  simp [lastLine, split_none '\n' text absent]

theorem drop_returns_above (parts : List Text) (last : Text) (absent : ∀ part ∈ parts, '\n' ∉ part)
    (single : '\n' ∉ last) : dropReturns (parts.flatMap (· ++ ['\n']) ++ last) =
      parts.flatMap (fun line => chomp line ++ ['\n']) ++ last := by
  induction parts with
  | nil => exact drop_returns_last last single
  | cons part rest ih =>
      have later := ih fun line member => absent line (List.mem_cons_of_mem _ member)
      have here := drop_returns_line part (rest.flatMap (· ++ ['\n']) ++ last)
        (absent part List.mem_cons_self)
      rw [later] at here
      simpa using here

theorem above_returns (text : Text) : dropReturns (aboveLast text) =
    (split '\n' text).dropLast.flatMap fun line => chomp line ++ ['\n'] := by
  have dropped := drop_returns_above (split '\n' text).dropLast [] (fun part member =>
    not_mem_of_split '\n' text part ((List.dropLast_sublist _).subset member)) List.not_mem_nil
  rwa [List.append_nil, List.append_nil] at dropped

theorem last_returns (text : Text) :
    dropReturns text = dropReturns (aboveLast text) ++ lastLine text := by
  have dropped := drop_returns_above (split '\n' text).dropLast (lastLine text) (fun part member =>
      not_mem_of_split '\n' text part ((List.dropLast_sublist _).subset member))
    (not_mem_of_split '\n' text _ (List.getLast_mem _))
  rw [above_returns, ← dropped]
  exact congrArg dropReturns (above_last text).symm

theorem drop_returns_front (front rest other : Text) :
    dropReturns front ++ rest = front ++ other ↔ dropReturns front = front ∧ rest = other := by
  fun_induction dropReturns front with
  | case1 => simp
  | case2 text ih => simp
  | case3 c text other' ih => simpa [and_assoc] using ih

theorem split_last_line (front rest : Text) (single : '\n' ∉ rest) :
    split '\n' (front ++ rest) = (split '\n' front).dropLast ++ [lastLine front ++ rest] := by
  have absent (part : Text) := not_mem_of_split '\n' front part
  have above := above_last front
  unfold aboveLast at above
  conv => lhs; rw [← above, List.append_assoc, ← join_snoc]
  apply split_join
  · simp
  · intro part member
    rcases List.mem_append.mp member with before | last
    · exact absent part ((List.dropLast_sublist _).subset before)
    · rw [List.mem_singleton.mp last, List.mem_append, not_or]
      exact ⟨absent _ (List.getLast_mem _), single⟩

theorem map_lines_last (edit : Text → Text) (empty : edit [] = []) (front rest : Text)
    (single : '\n' ∉ rest) : mapLines edit (front ++ rest) =
      (split '\n' front).dropLast.flatMap (fun line => edit (chomp line) ++ ['\n']) ++
        edit (lastLine front ++ rest) := by
  rw [mapLines, linewise, split_last_line front rest single, linewise_join edit empty, edit_parts_snoc,
    join_snoc, List.flatMap_map]

theorem map_lines_concat (edit : Text → Text) (text rest : Text) : mapLines edit (text ++ '\n' :: rest) =
    (split '\n' text).flatMap (fun line => edit (chomp line) ++ ['\n']) ++ mapLines edit rest := by
  unfold mapLines linewise
  rw [split_concat]
  induction split '\n' text with
  | nil => rfl
  | cons part parts ih =>
      rw [List.flatMap_cons, List.append_assoc, ← ih]
      cases parts with
      | nil =>
          cases later : split '\n' rest with
          | nil => exact absurd later (split_ne_nil '\n' rest)
          | cons next tail => simp [linewise_cons]
      | cons next parts => simp [linewise_cons]

theorem map_lines_single (edit : Text → Text) (empty : edit [] = []) (line : Text) (unbroken : '\n' ∉ line) :
    mapLines edit line = edit line := by
  have whole := map_lines_last edit empty [] line unbroken
  simpa [split, lastLine] using whole

theorem map_lines_above (edit : Text → Text) (empty : edit [] = []) (above : List Text) (rest : Text) :
    mapLines edit (above.flatMap (· ++ ['\n']) ++ rest) =
      mapLines edit (above.flatMap (· ++ ['\n'])) ++ mapLines edit rest := by
  have nothing : mapLines edit [] = [] := (map_lines_single edit empty [] List.not_mem_nil).trans empty
  obtain rfl | ⟨front, last, rfl⟩ := List.eq_nil_or_concat above
  · rw [List.flatMap_nil, nothing]
    rfl
  · have whole (rest : Text) : (front.concat last).flatMap (· ++ ['\n']) ++ rest =
        front.flatMap (· ++ ['\n']) ++ last ++ '\n' :: rest := by simp
    have alone := whole []
    rw [List.append_nil] at alone
    rw [whole, alone, map_lines_concat, map_lines_concat, nothing, List.append_nil]

theorem mem_chomp (text : Text) (c : Char) (member : c ∈ chomp text) : c ∈ text :=
  (chomp_front text).subset member

theorem edit_parts_absent (edit : Text → Text)
    (kept : ∀ line, '\n' ∉ line → '\n' ∉ edit line) (parts : List Text)
    (absent : ∀ part ∈ parts, '\n' ∉ part) : ∀ part ∈ editParts edit parts, '\n' ∉ part := by
  fun_induction editParts edit parts with
  | case1 => exact absent
  | case2 last =>
      intro part member
      rw [List.mem_singleton.mp member]
      exact kept last (absent last List.mem_cons_self)
  | case3 line rest more ih =>
      intro part member
      rcases List.mem_cons.mp member with here | later
      · rw [here]
        apply kept
        intro feed
        exact absent line List.mem_cons_self (mem_chomp line _ feed)
      · exact ih (fun part member => absent part (List.mem_cons_of_mem _ member)) part later

theorem split_map_lines (edit : Text → Text) (empty : edit [] = [])
    (kept : ∀ line, '\n' ∉ line → '\n' ∉ edit line) (text : Text) :
    split '\n' (mapLines edit text) = editParts edit (split '\n' text) := by
  rw [mapLines, linewise, linewise_join edit empty]
  apply split_join
  · exact edit_parts_ne_nil edit _ (split_ne_nil '\n' text)
  · exact edit_parts_absent edit kept _ fun part member => not_mem_of_split '\n' text part member

theorem mem_join (sep : Char) (parts : List Text) (part : Text) (c : Char) (member : part ∈ parts)
    (inside : c ∈ part) : c ∈ join [sep] parts := by
  induction parts with
  | nil => cases member
  | cons first rest ih =>
      cases rest with
      | nil =>
          rw [List.mem_singleton] at member
          rw [join, ← member]
          exact inside
      | cons next rest =>
          rw [join_cons]
          rcases List.mem_cons.mp member with rfl | later
          · exact List.mem_append_left _ (List.mem_append_left _ inside)
          · exact List.mem_append_right _ (ih later)

theorem split_absent (sep c : Char) (text part : Text) (absent : c ∉ text)
    (member : part ∈ split sep text) : c ∉ part := by
  intro inside
  have whole := mem_join sep _ part c member inside
  rw [join_split] at whole
  exact absent whole

theorem lines_absent (c : Char) (other : c ≠ '\n') (edit : Text → Text)
    (kept : ∀ line, c ∉ line → c ∉ edit line) (text : Text) (absent : c ∉ text) : c ∉ mapLines edit text := by
  have parts (part : Text) (member : part ∈ split '\n' text) := split_absent '\n' c text part absent member
  rw [mapLines, linewise]
  generalize split '\n' text = lines at parts
  induction lines with
  | nil => exact List.not_mem_nil
  | cons line rest ih =>
      have here := parts line List.mem_cons_self
      cases rest with
      | nil =>
          rw [linewiseOf]
          split
          · exact List.not_mem_nil
          · exact kept line here
      | cons next rest =>
          have later := ih fun part member => parts part (List.mem_cons_of_mem _ member)
          rw [linewise_cons, List.mem_append, List.mem_cons, not_or, not_or]
          exact ⟨kept _ fun member => here (mem_chomp line c member), other, later⟩

theorem map_lines_congr (edit other : Text → Text) (text : Text)
    (same : ∀ line ∈ lines text, edit line = other line) : mapLines edit text = mapLines other text := by
  rw [lines] at same
  rw [mapLines, mapLines, linewise, linewise]
  generalize split '\n' text = parts at same ⊢
  induction parts with
  | nil => rfl
  | cons part rest ih =>
      cases rest with
      | nil =>
          rw [linesOf] at same
          rw [linewiseOf, linewiseOf]
          by_cases empty : part = []
          · rw [if_pos empty, if_pos empty]
          · rw [if_neg empty] at same
            rw [if_neg empty, if_neg empty, same part List.mem_cons_self]
      | cons next rest =>
          rw [linewise_cons, linewise_cons, same (chomp part) List.mem_cons_self,
            ih fun line member => same line (List.mem_cons_of_mem _ member)]

theorem map_lines_returns (edit : Text → Text) (text : Text)
    (same : ∀ line ∈ lines text, edit line = line) : mapLines edit text = dropReturns text := by
  rw [map_lines_congr edit id text same, map_lines_id]

theorem map_lines_same (edit : Text → Text) (text : Text) (absent : '\r' ∉ text)
    (same : ∀ line ∈ lines text, edit line = line) : mapLines edit text = text := by
  rw [map_lines_returns edit text same, drop_returns_none text absent]

-- A line that has lost its return may lose another one with the next round.
theorem mem_lines_returns (text line : Text) (member : line ∈ lines (dropReturns text)) :
    ∃ other ∈ lines text, line = other ∨ line = chomp other := by
  rw [lines, ← map_lines_id, split_map_lines id rfl fun _ unbroken => unbroken] at member
  rw [lines]
  generalize split '\n' text = parts at member ⊢
  induction parts with
  | nil => cases member
  | cons part rest ih =>
      cases rest with
      | nil => exact ⟨line, member, .inl rfl⟩
      | cons next rest =>
          have some' := edit_parts_ne_nil id (next :: rest) (List.cons_ne_nil _ _)
          rw [edit_parts_cons] at member
          obtain ⟨first, more, whole⟩ := List.exists_cons_of_ne_nil some'
          rw [whole] at member ih
          rcases List.mem_cons.mp member with here | later
          · exact ⟨chomp part, List.mem_cons_self, .inr here⟩
          · obtain ⟨other, within, same⟩ := ih later
            exact ⟨other, List.mem_cons_of_mem _ within, same⟩

theorem mem_lines_of (parts : List Text) (line : Text) (member : line ∈ linesOf parts) :
    ∃ part ∈ parts, line = part ∨ line = chomp part := by
  induction parts with
  | nil => cases member
  | cons part rest ih =>
      cases rest with
      | nil =>
          rw [linesOf] at member
          split at member
          · cases member
          · exact ⟨part, List.mem_cons_self, .inl (List.mem_singleton.mp member)⟩
      | cons next rest =>
          rcases List.mem_cons.mp member with same | later
          · exact ⟨part, List.mem_cons_self, .inr same⟩
          · obtain ⟨other, within, same⟩ := ih later
            exact ⟨other, List.mem_cons_of_mem _ within, same⟩

theorem any_same {α : Type} (p q : α → Bool) (items : List α) (same : ∀ item ∈ items, p item = q item) :
    items.any p = items.any q := by
  induction items with
  | nil => rfl
  | cons item rest ih =>
      rw [List.any_cons, List.any_cons, same item List.mem_cons_self,
        ih fun other member => same other (List.mem_cons_of_mem item member)]

section Any

variable (p : Text → Bool) (silent : p [] = false)

include silent

theorem any_lines (returned : ∀ line, p (chomp line) = p line) (text : Text) :
    (lines text).any p = (split '\n' text).any p := by
  unfold lines
  induction split '\n' text with
  | nil => rfl
  | cons part rest ih =>
      cases rest with
      | nil =>
          rw [linesOf]
          by_cases empty : part = []
          · simp [empty, silent]
          · rw [if_neg empty]
      | cons next rest =>
          change (chomp part :: linesOf (next :: rest)).any p = _
          rw [List.any_cons, List.any_cons, ih, returned]

theorem any_map_lines (edit : Text → Text) (text : Text) :
    (split '\n' (mapLines edit text)).any p =
      (lines text).any fun line => (split '\n' (edit line)).any p := by
  unfold mapLines linewise lines
  induction split '\n' text with
  | nil => simp [linewiseOf, linesOf, split, silent]
  | cons part rest ih =>
      cases rest with
      | nil =>
          rw [linewiseOf, linesOf]
          by_cases nothing : part = []
          · simp [nothing, split, silent]
          · simp [nothing]
      | cons next rest =>
          rw [linewise_cons, split_concat, List.any_append, ih]
          rfl

end Any

theorem lines_unbroken (text line : Text) (member : line ∈ lines text) : '\n' ∉ line := by
  obtain ⟨part, within, same⟩ := mem_lines_of _ line member
  have absent := not_mem_of_split '\n' text part within
  rcases same with rfl | rfl
  · exact absent
  · exact fun feed => absent (mem_chomp part '\n' feed)

theorem mem_lines (text line : Text) (absent : '\r' ∉ text) (member : line ∈ lines text) :
    line ∈ split '\n' text := by
  obtain ⟨part, within, same⟩ := mem_lines_of _ line member
  have unreturned := split_absent '\n' '\r' text part absent within
  rw [chomp_none part unreturned, or_self] at same
  rw [same]
  exact within

theorem split_head (text : Text) :
    ∃ rest, split '\n' text = text.takeWhile (· ≠ '\n') :: rest := by
  induction text with
  | nil => exact ⟨[], rfl⟩
  | cons c text ih =>
      obtain ⟨rest, same⟩ := ih
      rw [split]
      by_cases feed : c = '\n'
      · rw [if_pos feed, feed]
        exact ⟨_, rfl⟩
      · rw [if_neg feed, same, List.takeWhile_cons, if_pos (decide_eq_true feed)]
        exact ⟨rest, rfl⟩

theorem line_opens (front rest : Text) (unbroken : '\n' ∉ front) :
    (front ++ rest).takeWhile (· ≠ '\n') = front ++ rest.takeWhile (· ≠ '\n') :=
  List.takeWhile_append_of_pos (List.all_eq_true.mp (all_without '\n' front unbroken))

theorem mem_split_tail (text part : Text) : part ∈ (split '\n' text).tail ↔
    ∃ rest, '\n' :: rest <:+ text ∧ part = rest.takeWhile (· ≠ '\n') := by
  induction text with
  | nil => simp [split]
  | cons c text ih =>
      obtain ⟨rest, parts⟩ := split_head text
      rw [parts, List.tail_cons] at ih
      by_cases feed : c = '\n'
      · subst feed
        rw [split, if_pos rfl, List.tail_cons, parts, List.mem_cons, ih]
        constructor
        · rintro (rfl | ⟨rest, suffix, rfl⟩)
          · exact ⟨text, List.suffix_refl _, rfl⟩
          · exact ⟨rest, suffix.trans (List.suffix_cons _ _), rfl⟩
        · rintro ⟨rest, suffix, rfl⟩
          rcases List.suffix_cons_iff.mp suffix with same | inside
          · rw [(List.cons.inj same).2]
            exact .inl rfl
          · exact .inr ⟨rest, inside, rfl⟩
      · rw [split, if_neg feed, parts, List.tail_cons, ih]
        constructor
        · rintro ⟨rest, suffix, rfl⟩
          exact ⟨rest, suffix.trans (List.suffix_cons _ _), rfl⟩
        · rintro ⟨rest, suffix, rfl⟩
          rcases List.suffix_cons_iff.mp suffix with same | inside
          · exact absurd (List.cons.inj same).1.symm feed
          · exact ⟨rest, inside, rfl⟩

theorem mem_split_iff (text part : Text) : part ∈ split '\n' text ↔
    ∃ rest, '\n' :: rest <:+ '\n' :: text ∧ part = rest.takeWhile (· ≠ '\n') := by
  have parts := mem_split_tail ('\n' :: text) part
  rw [split, if_pos rfl, List.tail_cons] at parts
  exact parts

theorem lines_inside (text line : Text) (member : line ∈ lines text) : line <:+: text := by
  obtain ⟨part, within, same⟩ := mem_lines_of _ line member
  obtain ⟨rest, behind, opens⟩ := (mem_split_iff text part).mp within
  have front : line <+: rest := by
    have whole : part <+: rest := opens ▸ List.takeWhile_prefix _
    rcases same with rfl | rfl
    · exact whole
    · exact (chomp_front part).trans whole
  have tail : rest <:+ text := by
    rcases List.suffix_cons_iff.mp behind with whole | within
    · exact (List.cons.inj whole).2 ▸ List.suffix_rfl
    · exact (List.suffix_cons '\n' rest).trans within
  exact front.isInfix.trans tail.isInfix

end DevServer.Text
