import DevServer.Proofs.Marks
import DevServer.Proofs.Scan
import Mathlib.Data.List.Infix
import Mathlib.Data.List.MinMax

set_option autoImplicit false

namespace DevServer.Text

def keyAt (keys : List Text) : Matcher Text := fun _ text =>
  ((keys.filter text.startsWith).argmax List.length).bind fun key => (text.after? key).map (key, ·)

def valueOf (table : List (Text × Text)) (key : Text) : Text := (table.lookup key).getD key

def substitute (table : List (Text × Text)) (code : Text) : Text :=
  rewrite (keyAt (table.map Prod.fst)) (valueOf table) code

theorem starts_iff (text start : Text) : text.startsWith start = true ↔ start <+: text := by
  rw [startsWith_iff]
  exact exists_congr fun rest => eq_comm

theorem key_none (keys : List Text) (before : Option Char) (text : Text) :
    keyAt keys before text = none ↔ ∀ key ∈ keys, ¬ key <+: text := by
  have absent : keys.filter text.startsWith = [] ↔ ∀ key ∈ keys, ¬ key <+: text := by
    rw [List.filter_eq_nil_iff]
    simp only [starts_iff]
  rw [← absent, ← List.argmax_eq_none (f := List.length), keyAt]
  cases longest : (keys.filter text.startsWith).argmax List.length with
  | none => simp
  | some key =>
      have begins := (List.mem_filter.mp (List.argmax_mem longest)).2
      obtain ⟨left, whole⟩ := startsWith_iff.mp begins
      rw [Option.bind_some, after?_eq_some.mpr whole]
      simp

theorem key_longest (keys : List Text) (before : Option Char) (text key left : Text)
    (found : keyAt keys before text = some (key, left)) :
    key ∈ keys ∧ text = key ++ left ∧ ∀ other ∈ keys, other <+: text → other.length ≤ key.length := by
  rw [keyAt, Option.bind_eq_some_iff] at found
  obtain ⟨longest, argmax, rest⟩ := found
  obtain ⟨left', after, same⟩ := Option.map_eq_some_iff.mp rest
  cases same
  refine ⟨(List.mem_filter.mp (List.argmax_mem argmax)).1, after?_eq_some.mp after, fun other member begins => ?_⟩
  exact List.le_of_mem_argmax (List.mem_filter.mpr ⟨member, (starts_iff text other).mpr begins⟩) argmax

theorem key_found (keys : List Text) (before : Option Char) (text key left : Text) :
    keyAt keys before text = some (key, left) ↔
      key ∈ keys ∧ text = key ++ left ∧ ∀ other ∈ keys, other <+: text → other.length ≤ key.length := by
  refine ⟨key_longest keys before text key left, fun ⟨member, whole, bound⟩ => ?_⟩
  have begins : key <+: text := ⟨left, whole.symm⟩
  cases answer : keyAt keys before text with
  | none => exact absurd begins ((key_none keys before text).mp answer key member)
  | some found =>
      obtain ⟨longest, left'⟩ := found
      obtain ⟨member', whole', bound'⟩ := key_longest keys before text longest left' answer
      have begins' : longest <+: text := ⟨left', whole'.symm⟩
      have length := Nat.le_antisymm (bound longest member' begins') (bound' key member begins)
      have same := (List.prefix_of_prefix_length_le begins' begins length.le).eq_of_length length
      rw [same] at whole' ⊢
      rw [List.append_cancel_left (whole'.symm.trans whole)]

section Keys

variable {keys : List Text}

theorem keys_consume (filled : ∀ key ∈ keys, key ≠ []) : Consumes (keyAt keys) := by
  intro before text key left found
  obtain ⟨member, whole, _⟩ := key_longest keys before text key left found
  exact ⟨key, filled key member, whole⟩

theorem scan_key (filled : ∀ key ∈ keys, key ≠ []) (before : Option Char) (text key left : Text)
    (found : keyAt keys before text = some (key, left)) : text = key ++ left ∧
      scanFrom (keyAt keys) 0 before text = .found key :: scanFrom (keyAt keys) 0 key.getLast? left := by
  obtain ⟨member, whole, _⟩ := key_longest keys before text key left found
  rw [whole] at found ⊢
  exact ⟨rfl, scan_found before key left key (filled key member) found⟩

def Placed (keys : List Text) : Piece Text → Text → Prop
  | .kept c, rest => ∀ key ∈ keys, ¬ key <+: c :: rest
  | .found key, rest => key ∈ keys ∧ ∀ other ∈ keys, other <+: key ++ rest → other.length ≤ key.length

theorem scan_placed (filled : ∀ key ∈ keys, key ≠ []) (before : Option Char) (text : Text) :
    render id (scanFrom (keyAt keys) 0 before text) = text ∧
      ∀ piece rest, piece :: rest <:+ scanFrom (keyAt keys) 0 before text → Placed keys piece (render id rest) := by
  induction before, text using scan_induction (keys_consume filled) with
  | nil before =>
      refine ⟨rfl, fun piece rest inside => ?_⟩
      cases List.suffix_nil.mp inside
  | kept before c text miss ih =>
      obtain ⟨prints, placed⟩ := ih
      rw [scan_kept before c text miss]
      refine ⟨congrArg (List.cons c) prints, fun piece rest inside => ?_⟩
      rcases List.suffix_cons_iff.mp inside with here | later
      · cases here
        rw [prints]
        exact (key_none keys before (c :: text)).mp miss
      · exact placed piece rest later
  | found before used left key some' found ih =>
      obtain ⟨prints, placed⟩ := ih
      obtain ⟨member, whole, bound⟩ := key_longest keys before (used ++ left) key left found
      have same : used = key := List.append_cancel_right whole
      subst same
      rw [scan_found before used left used some' found]
      refine ⟨congrArg (used ++ ·) prints, fun piece rest inside => ?_⟩
      rcases List.suffix_cons_iff.mp inside with here | later
      · cases here
        rw [prints]
        exact ⟨member, bound⟩
      · exact placed piece rest later

theorem matches_key (filled : ∀ key ∈ keys, key ≠ []) (text : Text) :
    matches? (keyAt keys) text = true ↔ ∃ key ∈ keys, key <:+: text := by
  rw [matches?, matches_iff]
  constructor
  · intro ⟨front, c, rest, whole, hit⟩
    obtain ⟨⟨key, left⟩, found⟩ := Option.isSome_iff_exists.mp hit
    obtain ⟨member, whole', _⟩ := key_longest keys _ _ key left found
    refine ⟨key, member, front, left, ?_⟩
    rw [whole, whole', List.append_assoc]
  · intro ⟨key, member, front, back, whole⟩
    obtain ⟨c, key, rfl⟩ := List.exists_cons_of_ne_nil (filled key member)
    refine ⟨front, c, key ++ back, by rw [← whole, List.append_assoc]; rfl, ?_⟩
    rw [Option.isSome_iff_ne_none]
    intro none
    exact (key_none keys _ _).mp none (c :: key) member ⟨back, rfl⟩

end Keys

section One

variable {key : Text}

theorem one_filled (some' : key ≠ []) : ∀ other ∈ [key], other ≠ [] := by
  intro other member
  rwa [List.mem_singleton.mp member]

theorem one_found (before : Option Char) (left : Text) : keyAt [key] before (key ++ left) = some (key, left) := by
  refine (key_found [key] before _ key left).mpr ⟨List.mem_singleton_self key, rfl, fun other member _ => ?_⟩
  rw [List.mem_singleton.mp member]

theorem scan_pieces_iff (some' : key ≠ []) (pieces : List (Piece Text))
    (own : ∀ other, .found other ∈ pieces → other = key) (before : Option Char) :
    scanFrom (keyAt [key]) 0 before (render id pieces) = pieces ↔
      ∀ c rest, .kept c :: rest <:+ pieces → ¬ key <+: c :: render id rest := by
  induction pieces generalizing before with
  | nil => simp [render, scanFrom]
  | cons piece pieces ih =>
      have later (before : Option Char) := ih (fun other member => own other (List.mem_cons_of_mem piece member)) before
      cases piece with
      | kept c =>
          change scanFrom (keyAt [key]) 0 before (c :: render id pieces) = _ ↔ _
          by_cases begins : key <+: c :: render id pieces
          · refine iff_of_false (fun same => ?_) (fun all => all c pieces List.suffix_rfl begins)
            obtain ⟨left, whole⟩ := begins
            have found := (scan_key (one_filled some') before _ key left (one_found before left)).2
            rw [whole, same] at found
            cases found
          · have miss : keyAt [key] before (c :: render id pieces) = none := by
              refine (key_none [key] before _).mpr fun other member => ?_
              rwa [List.mem_singleton.mp member]
            rw [scan_kept before c _ miss, List.cons_eq_cons, later (some c)]
            simp only [List.suffix_cons_iff, List.cons_eq_cons, Piece.kept.injEq]
            constructor
            · rintro ⟨_, all⟩ d rest (⟨rfl, rfl⟩ | inside)
              · exact begins
              · exact all d rest inside
            · exact fun all => ⟨trivial, fun d rest place => all d rest (.inr place)⟩
      | found other =>
          rw [own other List.mem_cons_self]
          change scanFrom (keyAt [key]) 0 before (key ++ render id pieces) = _ ↔ _
          rw [(scan_key (one_filled some') before _ key _ (one_found before _)).2, List.cons_eq_cons,
            later key.getLast?]
          simp [List.suffix_cons_iff]

theorem value_one (value : Text) : valueOf [(key, value)] key = value := by
  rw [valueOf, List.lookup_cons_self]
  rfl

theorem replace_skip (d : Char) (old new skipped rest : Text) :
    replace.go new d old skipped.length (skipped ++ rest) = replace.go new d old 0 rest := by
  induction skipped with
  | nil => rfl
  | cons c skipped ih => exact ih

theorem replace_substitutes (some' : key ≠ []) (value text : Text) :
    replace text key value = substitute [(key, value)] text := by
  obtain ⟨d, old, rfl⟩ := List.exists_cons_of_ne_nil some'
  change replace.go value d old 0 text = render _ (scanFrom (keyAt [d :: old]) 0 none text)
  generalize (none : Option Char) = before
  induction before, text using scan_induction (keys_consume (one_filled some')) with
  | nil before => rfl
  | kept before c rest miss ih =>
      have apart := (key_none [d :: old] before (c :: rest)).mp miss _ (List.mem_singleton_self _)
      rw [scan_kept before c rest miss, render_cons, ← ih, replace.go, if_neg]
      · rfl
      · rwa [starts_iff]
  | found before used left key some'' hit ih =>
      obtain ⟨member, whole, _⟩ := key_longest [d :: old] before (used ++ left) key left hit
      have same := List.append_cancel_right whole
      rw [List.mem_singleton.mp member] at same hit
      subst same
      rw [scan_found before (d :: old) left _ some'' hit, render_cons, ← ih, Piece.render, value_one,
        List.cons_append, replace.go, if_pos, replace_skip]
      exact (starts_iff _ _).mpr ⟨left, rfl⟩

end One

section Values

variable {table : List (Text × Text)}

theorem value_listed (distinct : (table.map Prod.fst).Nodup) (key value : Text) (member : (key, value) ∈ table) :
    valueOf table key = value := by
  induction table with
  | nil => cases member
  | cons entry table ih =>
      obtain ⟨first, kept⟩ := entry
      rw [List.map_cons, List.nodup_cons] at distinct
      rcases List.mem_cons.mp member with same | later
      · cases same
        rw [valueOf, List.lookup_cons_self]
        rfl
      · have other : (key == first) = false := by
          rw [beq_eq_false_iff_ne]
          rintro rfl
          exact distinct.1 (List.mem_map.mpr ⟨_, later, rfl⟩)
        rw [valueOf, List.lookup_cons, other]
        exact ih distinct.2 later

theorem value_unlisted (key : Text) (absent : key ∉ table.map Prod.fst) : valueOf table key = key := by
  rw [valueOf, List.lookup_eq_none_iff.mpr]
  · rfl
  · intro entry member
    rw [bne_iff_ne]
    rintro rfl
    exact absent (List.mem_map_of_mem member)

theorem value_cases (table : List (Text × Text)) (key : Text) :
    key ∉ table.map Prod.fst ∧ valueOf table key = key ∨ (key, valueOf table key) ∈ table := by
  by_cases listed : key ∈ table.map Prod.fst
  · right
    rw [valueOf]
    cases found : table.lookup key with
    | none =>
        obtain ⟨entry, member, rfl⟩ := List.mem_map.mp listed
        simpa using List.lookup_eq_none_iff.mp found entry member
    | some value =>
        obtain ⟨front, back, rfl, _⟩ := List.lookup_eq_some_iff.mp found
        exact List.mem_append_right front List.mem_cons_self
  · exact .inl ⟨listed, value_unlisted key listed⟩

theorem value_append (key value : Text) (absent : key ∉ table.map Prod.fst) (other : Text) :
    valueOf (table ++ [(key, value)]) other = if other = key then value else valueOf table other := by
  by_cases same : other = key
  · subst same
    rw [if_pos rfl, valueOf, List.lookup_append, List.lookup_eq_none_iff.mpr]
    · exact value_one value
    · intro entry member
      rw [bne_iff_ne]
      rintro rfl
      exact absent (List.mem_map_of_mem member)
  · rw [if_neg same, valueOf, List.lookup_append]
    have unlisted : [(key, value)].lookup other = none := by
      rw [List.lookup_eq_none_iff]
      simpa using same
    rw [unlisted, Option.or_none, valueOf]

theorem key_perm (keys others : List Text) (perm : others.Perm keys) : keyAt others = keyAt keys := by
  funext before text
  cases answer : keyAt keys before text with
  | none =>
      have absent := (key_none keys before text).mp answer
      exact (key_none others before text).mpr fun key member => absent key (perm.mem_iff.mp member)
  | some found =>
      obtain ⟨key, left⟩ := found
      obtain ⟨member, whole, bound⟩ := (key_found keys before text key left).mp answer
      exact (key_found others before text key left).mpr
        ⟨perm.mem_iff.mpr member, whole, fun other member' => bound other (perm.mem_iff.mp member')⟩

theorem substitute_perm (distinct : (table.map Prod.fst).Nodup) (other : List (Text × Text))
    (perm : other.Perm table) (code : Text) : substitute other code = substitute table code := by
  have keys := perm.map Prod.fst
  have distinct' := keys.nodup_iff.mpr distinct
  have values : valueOf other = valueOf table := by
    funext key
    by_cases listed : key ∈ table.map Prod.fst
    · obtain ⟨⟨_, value⟩, member, rfl⟩ := List.mem_map.mp listed
      rw [value_listed distinct _ value member, value_listed distinct' _ value (perm.mem_iff.mpr member)]
    · rw [value_unlisted key listed, value_unlisted key (mt keys.mem_iff.mp listed)]
  rw [substitute, substitute, values, key_perm _ _ keys]

end Values

end DevServer.Text
