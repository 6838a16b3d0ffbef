import DevServer.Plugin.Builtin
import DevServer.Proofs.KeyScans

set_option autoImplicit false

namespace DevServer.Plugin

open Text

def turned (done : List (Text × Text)) (code : Text) : Text := (done.foldl replaceOne (none, code)).2

theorem includes_matches (key text : Text) (some' : key ≠ []) :
    text.includes key = matches? (keyAt [key]) text := by
  rw [Bool.eq_iff_iff, includes_within, matches_key (one_filled some')]
  simp

theorem replace_one (state : Option Text × Text) (key value : Text) (some' : key ≠ []) :
    replaceOne state (key, value) =
      (if key <:+: state.2 then some (substitute [(key, value)] state.2) else state.1,
        substitute [(key, value)] state.2) := by
  rw [replaceOne]
  by_cases inside : key <:+: state.2
  · rw [if_pos ((includes_within _ _).mpr inside), if_pos inside, replace_substitutes some']
  · have miss : matches? (keyAt [key]) state.2 = false := by
      rw [← includes_matches key _ some', Bool.eq_false_iff]
      exact mt (includes_within _ _).mp inside
    have same : substitute [(key, value)] state.2 = state.2 := scan_unmatched _ none state.2 miss
    rw [if_neg (mt (includes_within _ _).mp inside), if_neg inside, same]

theorem turned_snoc (done : List (Text × Text)) (key value code : Text) (some' : key ≠ []) :
    turned (done ++ [(key, value)]) code = substitute [(key, value)] (turned done code) := by
  rw [turned, List.foldl_append, List.foldl_cons, List.foldl_nil, replace_one _ key value some']
  rfl

theorem answered_turned (table : List (Text × Text)) (made : Text) :
    (table.foldl replaceOne (some made, made)).1 = some (table.foldl replaceOne (some made, made)).2 := by
  induction table generalizing made with
  | nil => rfl
  | cons entry table ih =>
      rw [List.foldl_cons, replaceOne]
      by_cases inside : made.includes entry.1 = true
      · rw [if_pos inside]
        exact ih (made.replace entry.1 entry.2)
      · rw [if_neg inside]
        exact ih made

theorem replace_all_turned (table : List (Text × Text)) (code : Text) :
    (replaceAll table code = none ↔ ∀ entry ∈ table, ¬ entry.1 <:+: code) ∧
      ∀ made, replaceAll table code = some made → made = turned table code := by
  induction table with
  | nil =>
      refine ⟨iff_of_true rfl fun entry member => absurd member List.not_mem_nil, fun made answer => ?_⟩
      cases answer
  | cons entry table ih =>
      rw [replaceAll, turned, List.foldl_cons, replaceOne]
      by_cases inside : entry.1 <:+: code
      · rw [if_pos ((includes_within _ _).mpr inside)]
        dsimp only
        rw [answered_turned]
        refine ⟨iff_of_false (by simp) fun absent => absent _ List.mem_cons_self inside, fun made answer => ?_⟩
        exact (Option.some.inj answer).symm
      · rw [if_neg (mt (includes_within _ _).mp inside)]
        obtain ⟨none, answer⟩ := ih
        refine ⟨?_, answer⟩
        rw [List.forall_mem_cons]
        exact none.trans (iff_and_self.mpr fun _ => inside)

-- The pieces of a text in the turn of a key: what is found of other keys is plain text.
def inTurn (done : List (Text × Text)) (key : Text) (pieces : List (Piece Text)) : List (Piece Text) :=
  pieces.flatMap fun
    | .kept c => [.kept c]
    | .found other => if other = key then [.found key] else (valueOf done other).map .kept

theorem render_kept (text : Text) (print : Text → Text) : render print (text.map .kept) = text := by
  induction text with
  | nil => rfl
  | cons c text ih => exact congrArg (List.cons c) ih

theorem in_turn_print (done : List (Text × Text)) (key : Text) (print : Text → Text) (pieces : List (Piece Text)) :
    render print (inTurn done key pieces) =
      render (fun other => if other = key then print key else valueOf done other) pieces := by
  induction pieces with
  | nil => rfl
  | cons piece pieces ih =>
      rw [inTurn, List.flatMap_cons, render_append, render_cons]
      change _ ++ render print (inTurn done key pieces) = _
      rw [ih]
      congr 1
      cases piece with
      | kept c => rfl
      | found other =>
          by_cases same : other = key
          · simp [same, Piece.render, render]
          · simp only [same, if_false, render_kept, Piece.render]

theorem in_turn_own (done : List (Text × Text)) (key : Text) (pieces : List (Piece Text)) (other : Text)
    (found : .found other ∈ inTurn done key pieces) : other = key := by
  obtain ⟨piece, _, member⟩ := List.mem_flatMap.mp found
  cases piece with
  | kept c => simp at member
  | found another =>
      by_cases same : another = key
      · simpa [same] using member
      · simp [same] at member

theorem in_turn_kept (done : List (Text × Text)) (key : Text) (pieces : List (Piece Text)) (c : Char)
    (rest : List (Piece Text)) (place : .kept c :: rest <:+ inTurn done key pieces) :
    ∃ piece after, piece :: after <:+ pieces ∧
      (piece = .kept c ∧ rest = inTurn done key after ∨ ∃ other part, piece = .found other ∧ other ≠ key ∧
        c :: part <:+ valueOf done other ∧ rest = part.map .kept ++ inTurn done key after) := by
  induction pieces with
  | nil => cases List.suffix_nil.mp place
  | cons piece pieces ih =>
      have deeper (later : .kept c :: rest <:+ inTurn done key pieces) :
          ∃ piece' after, piece' :: after <:+ piece :: pieces ∧
            (piece' = .kept c ∧ rest = inTurn done key after ∨ ∃ other part, piece' = .found other ∧ other ≠ key ∧
              c :: part <:+ valueOf done other ∧ rest = part.map .kept ++ inTurn done key after) := by
        obtain ⟨piece', after, inside, kind⟩ := ih later
        exact ⟨piece', after, inside.trans (List.suffix_cons piece pieces), kind⟩
      obtain ⟨front, whole⟩ := place
      rw [inTurn, List.flatMap_cons] at whole
      change _ = _ ++ inTurn done key pieces at whole
      rcases List.append_eq_append_iff.mp whole with ⟨start, here, split⟩ | ⟨back, _, later⟩
      · cases start with
        | nil => exact deeper ⟨[], split⟩
        | cons first start =>
            obtain ⟨rfl, behind⟩ := List.cons.inj split
            refine ⟨piece, pieces, List.suffix_rfl, ?_⟩
            cases piece with
            | kept d =>
                obtain ⟨_, last⟩ | ⟨_, short⟩ := List.append_eq_singleton_iff.mp here.symm
                · obtain ⟨same, rfl⟩ := List.cons.inj last
                  exact .inl ⟨same.symm, behind⟩
                · cases short
            | found other =>
                by_cases same : other = key
                · simp only [same, if_true] at here
                  obtain ⟨_, last⟩ | ⟨_, short⟩ := List.append_eq_singleton_iff.mp here.symm
                  · cases last
                  · cases short
                · simp only [same, if_false] at here
                  obtain ⟨left, right, value, _, rest'⟩ := List.map_eq_append_iff.mp here
                  obtain ⟨d, part, rfl, kept, rfl⟩ := List.map_eq_cons_iff.mp rest'
                  cases kept
                  exact .inr ⟨other, part, rfl, same, ⟨left, value.symm⟩, behind⟩
      · exact deeper ⟨back, later.symm⟩

def Overlaps (first second : Text) : Prop := ∃ part ∈ first.tails, part ≠ [] ∧ part <+: second

def Meets (value key : Text) : Prop :=
  key <:+: value ∨ value <:+: key ∨ Overlaps value key ∨ Overlaps key value

instance (first second : Text) : Decidable (Overlaps first second) :=
  inferInstanceAs (Decidable (∃ part ∈ first.tails, part ≠ [] ∧ part <+: second))

instance (value key : Text) : Decidable (Meets value key) :=
  inferInstanceAs (Decidable (key <:+: value ∨ value <:+: key ∨ Overlaps value key ∨ Overlaps key value))

theorem meets_behind (value key front rest : Text) (longer : ¬ key <+: front)
    (begins : key <+: front ++ (value ++ rest)) : Meets value key := by
  rcases List.prefix_or_prefix_of_prefix begins (List.prefix_append front (value ++ rest)) with inside | ⟨part, rfl⟩
  · exact absurd inside longer
  · have some' : part ≠ [] := by
      rintro rfl
      exact longer (by rw [List.append_nil])
    have part_begins := (List.prefix_append_right_inj front).mp begins
    rcases List.prefix_or_prefix_of_prefix part_begins (List.prefix_append value rest) with within | ⟨more, rfl⟩
    · exact .inr (.inr (.inr ⟨part, (List.mem_tails _ _).mpr (List.suffix_append front part), some', within⟩))
    · exact .inr (.inl ⟨front, more, List.append_assoc front value more⟩)

theorem begins_before (done : List (Text × Text)) (key : Text) (apart : ∀ entry ∈ done, ¬ Meets entry.2 key)
    (pieces : List (Piece Text)) (front : Text) (begins : key <+: front ++ render (valueOf done) pieces) :
    key <+: front ++ render id pieces := by
  induction pieces generalizing front with
  | nil => exact begins
  | cons piece pieces ih =>
      rw [render_cons] at begins ⊢
      by_cases longer : key <+: front
      · exact longer.trans (List.prefix_append front _)
      cases piece with
      | kept c =>
          rw [← List.append_assoc] at begins ⊢
          exact ih (front ++ [c]) begins
      | found other =>
          rcases value_cases done other with ⟨_, same⟩ | listed
          · rw [Piece.render, same, ← List.append_assoc] at begins
            rw [← List.append_assoc]
            exact ih (front ++ other) begins
          · exact absurd (meets_behind (valueOf done other) key front _ longer begins) (apart _ listed)

def occurrences (table : List (Text × Text)) (code : Text) : List (Piece Text) :=
  scan (keyAt (table.map Prod.fst)) code

def FindsOwn (table : List (Text × Text)) (code : Text) (done : List (Text × Text)) (key : Text) : Prop :=
  scan (keyAt [key]) (turned done code) = inTurn done key (occurrences table code)

-- With the values of the turns before put in, the key of each turn stands nowhere else.
def Undisturbed (table : List (Text × Text)) (code : Text) : Prop :=
  ∀ done key value later, table = done ++ (key, value) :: later →
    ∀ c rest, .kept c :: rest <:+ inTurn done key (occurrences table code) → ¬ key <+: c :: render id rest

def ValuesApart (table : List (Text × Text)) : Prop :=
  table.Pairwise fun earlier later => ¬ Meets earlier.2 later.1

def KeysApart (table : List (Text × Text)) (code : Text) : Prop :=
  table.Pairwise fun earlier later => ∀ rest, .found later.1 :: rest <:+ occurrences table code →
    ∀ part ∈ later.1.tails, part ≠ [] → ¬ earlier.1 <+: part ++ render id rest

def Unnested (table : List (Text × Text)) : Prop :=
  table.Pairwise fun earlier later => ¬ earlier.1 <:+: later.1 ∧
    ∀ part ∈ later.1.tails, part ≠ [] → part ≠ later.1 → ¬ part <+: earlier.1

section Turns

variable {table : List (Text × Text)} (filled : ∀ entry ∈ table, entry.1 ≠ [])
  (distinct : (table.map Prod.fst).Nodup) (code : Text)

include filled in
theorem keys_filled : ∀ key ∈ table.map Prod.fst, key ≠ [] := by
  intro key member
  obtain ⟨entry, listed, rfl⟩ := List.mem_map.mp member
  exact filled entry listed

include distinct in
theorem key_absent (done later : List (Text × Text)) (key value : Text) (split : table = done ++ (key, value) :: later) :
    key ∉ done.map Prod.fst := by
  rw [split, List.map_append, List.nodup_append] at distinct
  exact fun member => distinct.2.2 key member key List.mem_cons_self rfl

theorem turn_text (done : List (Text × Text)) (key : Text) (absent : key ∉ done.map Prod.fst)
    (pieces : List (Piece Text)) : render id (inTurn done key pieces) = render (valueOf done) pieces := by
  have print : (fun other => if other = key then id key else valueOf done other) = valueOf done := by
    funext other
    by_cases same : other = key
    · rw [if_pos same, same, value_unlisted key absent]
      rfl
    · rw [if_neg same]
  rw [in_turn_print, print]

theorem turn_put (done : List (Text × Text)) (key value : Text) (absent : key ∉ done.map Prod.fst)
    (pieces : List (Piece Text)) :
    render (valueOf [(key, value)]) (inTurn done key pieces) = render (valueOf (done ++ [(key, value)])) pieces := by
  have print : (fun other => if other = key then valueOf [(key, value)] key else valueOf done other) =
      valueOf (done ++ [(key, value)]) := by
    funext other
    rw [value_append key value absent, value_one]
  rw [in_turn_print, print]

theorem turn_step (done : List (Text × Text)) (key value : Text) (some' : key ≠ []) (absent : key ∉ done.map Prod.fst)
    (own : FindsOwn table code done key) :
    turned (done ++ [(key, value)]) code = render (valueOf (done ++ [(key, value)])) (occurrences table code) := by
  rw [turned_snoc done key value code some', ← turn_put done key value absent, ← own]
  rfl

include filled distinct in
-- The turns by induction: the text is the code with the values of the turns before.
theorem turns_run (step : ∀ done key value later, table = done ++ (key, value) :: later →
      turned done code = render (valueOf done) (occurrences table code) → FindsOwn table code done key)
    (done later : List (Text × Text)) (split : table = done ++ later) :
    turned done code = render (valueOf done) (occurrences table code) := by
  induction done using List.reverseRecOn generalizing later with
  | nil =>
      have print : valueOf [] = id := rfl
      rw [print, occurrences, scan, (scan_placed (keys_filled filled) none code).1]
      rfl
  | append_singleton done entry ih =>
      obtain ⟨key, value⟩ := entry
      rw [List.append_assoc] at split
      have some' : key ≠ [] := filled (key, value) (split ▸ List.mem_append_right done List.mem_cons_self)
      exact turn_step code done key value some' (key_absent distinct done later key value split)
        (step done key value later split (ih _ split))

include filled distinct in
theorem finds_own_iff (done later : List (Text × Text)) (key value : Text) (split : table = done ++ (key, value) :: later)
    (text : turned done code = render (valueOf done) (occurrences table code)) :
    FindsOwn table code done key ↔
      ∀ c rest, .kept c :: rest <:+ inTurn done key (occurrences table code) → ¬ key <+: c :: render id rest := by
  have some' : key ≠ [] := filled (key, value) (split ▸ List.mem_append_right done List.mem_cons_self)
  rw [FindsOwn, text, ← turn_text done key (key_absent distinct done later key value split)]
  exact scan_pieces_iff some' _ (in_turn_own done key _) none

include filled distinct in
theorem undisturbed_iff : Undisturbed table code ↔
    ∀ done key value later, table = done ++ (key, value) :: later → FindsOwn table code done key := by
  constructor
  · intro clean
    have step (done : List (Text × Text)) (key value : Text) (later : List (Text × Text))
        (split : table = done ++ (key, value) :: later)
        (text : turned done code = render (valueOf done) (occurrences table code)) : FindsOwn table code done key :=
      (finds_own_iff filled distinct code done later key value split text).mpr (clean done key value later split)
    intro done key value later split
    exact step done key value later split (turns_run filled distinct code step done _ split)
  · intro own done key value later split
    have text := turns_run filled distinct code (fun done key value later split _ => own done key value later split)
      done _ split
    exact (finds_own_iff filled distinct code done later key value split text).mp (own done key value later split)

include filled distinct in
theorem undisturbed_substitutes (clean : Undisturbed table code) : turned table code = substitute table code := by
  have own := (undisturbed_iff filled distinct code).mp clean
  exact turns_run filled distinct code (fun done key value later split _ => own done key value later split) table []
    (List.append_nil table).symm

include filled distinct in
theorem undisturbed_apart (values : ValuesApart table) (keys : KeysApart table code) : Undisturbed table code := by
  intro done key value later split c rest place begins
  have apart : ∀ entry ∈ done, ¬ Meets entry.2 key := by
    intro entry member
    rw [ValuesApart, split, List.pairwise_append] at values
    exact values.2.2 entry member (key, value) List.mem_cons_self
  have absent := key_absent distinct done later key value split
  have listed : key ∈ table.map Prod.fst := by
    rw [split]
    simp
  obtain ⟨piece, after, inside, ⟨rfl, rfl⟩ | ⟨other, part, rfl, differs, ending, rfl⟩⟩ :=
    in_turn_kept done key (occurrences table code) c rest place
  · rw [turn_text done key absent] at begins
    have before := begins_before done key apart after [c] begins
    exact (scan_placed (keys_filled filled) none code).2 _ after inside key listed before
  · rw [render_append, render_kept, turn_text done key absent] at begins
    have tail : c :: part ∈ (valueOf done other).tails := (List.mem_tails _ _).mpr ending
    rcases value_cases done other with ⟨unlisted, same⟩ | entry
    · -- The other key has its turn later.
      rw [same] at tail
      have before := begins_before done key apart after (c :: part) begins
      obtain ⟨member, _⟩ := (scan_placed (keys_filled filled) none code).2 _ after inside
      obtain ⟨another, own, rfl⟩ := List.mem_map.mp member
      rw [split, List.mem_append, List.mem_cons] at own
      rw [KeysApart, split, List.pairwise_append] at keys
      rcases own with front | rfl | behind
      · exact unlisted (List.mem_map_of_mem front)
      · exact differs rfl
      · rw [split] at inside
        exact List.rel_of_pairwise_cons keys.2.1 behind after inside (c :: part) tail (List.cons_ne_nil c part) before
    · refine apart _ entry ?_
      rcases List.prefix_or_prefix_of_prefix begins (List.prefix_append (c :: part) _) with within | longer
      · exact .inl (within.isInfix.trans ending.isInfix)
      · exact .inr (.inr (.inl ⟨c :: part, tail, List.cons_ne_nil c part, longer⟩))

include filled in
theorem unnested_apart (apart : Unnested table) : KeysApart table code := by
  refine apart.imp_of_mem fun {earlier later} listed _ ⟨outside, parted⟩ rest place part tail some' begins => ?_
  obtain ⟨member, bound⟩ := (scan_placed (keys_filled filled) none code).2 _ rest place
  have ending := ((List.mem_tails _ _).mp tail).isInfix
  rcases List.prefix_or_prefix_of_prefix begins (List.prefix_append part _) with within | longer
  · exact outside (within.isInfix.trans ending)
  · by_cases whole : part = later.1
    · -- The later key was found, so the earlier one is no longer.
      subst whole
      have length := bound earlier.1 (List.mem_map_of_mem listed) begins
      exact outside (List.prefix_of_prefix_length_le begins (List.prefix_append later.1 _) length).isInfix
    · exact parted part tail some' whole longer

include filled in
theorem turned_fold : turned table code = table.foldl (fun text entry => substitute [entry] text) code := by
  have fold (state : Option Text × Text) : (table.foldl replaceOne state).2 =
      table.foldl (fun text entry => substitute [entry] text) state.2 := by
    induction table generalizing state with
    | nil => rfl
    | cons entry table ih =>
        rw [List.foldl_cons, List.foldl_cons, ih fun entry member => filled entry (List.mem_cons_of_mem _ member),
          replace_one state entry.1 entry.2 (filled entry List.mem_cons_self)]
  exact fold (none, code)

theorem define_turned (module : Text) (occurs : ∃ entry ∈ table, entry.1 <:+: code) :
    (define table).transform code module = .ok (some (turned table code)) := by
  obtain ⟨none, answer⟩ := replace_all_turned table code
  change Except.ok (replaceAll table code) = _
  cases made : replaceAll table code with
  | none =>
      obtain ⟨entry, member, inside⟩ := occurs
      exact absurd inside (none.mp made entry member)
  | some text => rw [answer text made]

end Turns

theorem define_substitutes (table : List (Text × Text)) (module : Text) (filled : ∀ entry ∈ table, entry.1 ≠ [])
    (distinct : (table.map Prod.fst).Nodup) :
    (∀ before text key left, keyAt (table.map Prod.fst) before text = some (key, left) ↔
      key ∈ table.map Prod.fst ∧ text = key ++ left ∧
        ∀ other ∈ table.map Prod.fst, other <+: text → other.length ≤ key.length) ∧
    (∀ entry ∈ table, valueOf table entry.1 = entry.2) ∧
    (∀ other : List (Text × Text), other.Perm table → ∀ code, substitute other code = substitute table code) ∧
    (∀ code, (define table).transform code module = .ok none ↔ ∀ entry ∈ table, ¬ entry.1 <:+: code) ∧
    (∀ code, (∃ entry ∈ table, entry.1 <:+: code) → (define table).transform code module =
      .ok (some (table.foldl (fun text entry => substitute [entry] text) code))) ∧
    (∀ code, Undisturbed table code ↔
      ∀ done key value later, table = done ++ (key, value) :: later → FindsOwn table code done key) ∧
    (∀ code, Undisturbed table code → (∃ entry ∈ table, entry.1 <:+: code) →
      (define table).transform code module = .ok (some (substitute table code))) ∧
    (∀ code, ValuesApart table → KeysApart table code → Undisturbed table code) ∧
    (∀ code, Unnested table → KeysApart table code) := by
  refine ⟨key_found (table.map Prod.fst), fun entry member => value_listed distinct entry.1 entry.2 member,
    fun other perm code => substitute_perm distinct other perm code, fun code => ?_, fun code occurs => ?_,
    undisturbed_iff filled distinct, fun code clean occurs => ?_, undisturbed_apart filled distinct,
    unnested_apart filled⟩
  · rw [← (replace_all_turned table code).1]
    change Except.ok (replaceAll table code) = _ ↔ _
    rw [Except.ok.injEq]
  · rw [define_turned code module occurs, turned_fold filled]
  · rw [define_turned code module occurs, undisturbed_substitutes filled distinct code clean]

def apartTable : List (Text × Text) := [("API_URL", "'/api'"), ("DEBUG", "true")]

theorem apart_keys_substituted : (define apartTable).transform "if (DEBUG) get(API_URL);" "/p/a.js" =
    .ok (some "if (true) get('/api');") := by
  obtain ⟨_, _, _, _, _, _, once, clean, apart⟩ := define_substitutes apartTable "/p/a.js" (by decide) (by decide)
  have values : ValuesApart apartTable := by
    rw [ValuesApart]
    decide
  have keys : Unnested apartTable := by
    rw [Unnested]
    decide
  have undisturbed := clean "if (DEBUG) get(API_URL);" values (apart _ keys)
  rw [once _ undisturbed ⟨("DEBUG", "true"), by decide, by decide⟩]
  rfl

theorem nested_keys_disturbed :
    (define [("DEBUG", "true"), ("DEBUG_LEVEL", "3")]).transform "log(DEBUG_LEVEL);\n" "/p/a.js" =
      .ok (some "log(true_LEVEL);\n") ∧
    substitute [("DEBUG", "true"), ("DEBUG_LEVEL", "3")] "log(DEBUG_LEVEL);\n" = "log(3);\n".toList ∧
    (define [("A", "B"), ("B", "2")]).transform "A" "/p/a.js" = .ok (some "2") ∧
    substitute [("A", "B"), ("B", "2")] "A" = "B".toList := by
  decide +kernel

end DevServer.Plugin
