import DevServer.Proofs.LiftedLoads

set_option autoImplicit false

namespace DevServer.CommonJs

open Text

def callOf (arguments : Text) : Text := loadCall ++ (arguments ++ [')'])

def IsCallAt (pieces : List (Piece Text)) (front arguments : Text) : Prop :=
  ∃ before after, pieces = before ++ .found arguments :: after ∧ render callOf before = front

def IsInside (pieces : List (Piece Text)) (front : Text) : Prop :=
  ∃ earlier inner outer, IsCallAt pieces earlier (inner ++ (loadCall ++ outer)) ∧
    front = earlier ++ (loadCall ++ inner)

section Places

theorem call_of_last (arguments : Text) : (callOf arguments).getLast? = some ')' := by simp [callOf]

theorem call_at_kept (c : Char) (pieces : List (Piece Text)) (front arguments : Text) :
    IsCallAt (.kept c :: pieces) front arguments ↔
      ∃ front', front = c :: front' ∧ IsCallAt pieces front' arguments := by
  constructor
  · intro ⟨before, after, whole, placed⟩
    cases before with
    | nil => cases whole
    | cons piece before =>
        obtain ⟨rfl, later⟩ := List.cons.inj whole
        exact ⟨render callOf before, placed.symm, before, after, later, rfl⟩
  · intro ⟨front', same, before, after, whole, placed⟩
    refine ⟨.kept c :: before, after, congrArg (List.cons _) whole, ?_⟩
    rw [render_cons, placed, same]
    rfl

theorem call_at_found (first : Text) (pieces : List (Piece Text)) (front arguments : Text) :
    IsCallAt (.found first :: pieces) front arguments ↔ front = [] ∧ arguments = first ∨
      ∃ front', front = callOf first ++ front' ∧ IsCallAt pieces front' arguments := by
  constructor
  · intro ⟨before, after, whole, placed⟩
    cases before with
    | nil =>
        cases whole
        exact .inl ⟨placed.symm, rfl⟩
    | cons piece before =>
        obtain ⟨rfl, later⟩ := List.cons.inj whole
        exact .inr ⟨render callOf before, placed.symm, before, after, later, rfl⟩
  · intro here
    obtain ⟨rfl, rfl⟩ | ⟨front', same, before, after, whole, placed⟩ := here
    · exact ⟨[], pieces, rfl, rfl⟩
    · refine ⟨.found first :: before, after, congrArg (List.cons _) whole, ?_⟩
      rw [render_cons, placed, same]
      rfl

theorem call_first (first : Text) (pieces : List (Piece Text)) (arguments : Text) :
    IsCallAt (.found first :: pieces) [] arguments ↔ arguments = first := by
  rw [call_at_found]
  constructor
  · intro placed
    obtain ⟨_, same⟩ | ⟨front', whole, _⟩ := placed
    · exact same
    · cases whole
  · exact fun same => .inl ⟨rfl, same⟩

theorem call_behind (first : Text) (pieces : List (Piece Text)) (front arguments : Text) :
    IsCallAt (.found first :: pieces) (callOf first ++ front) arguments ↔ IsCallAt pieces front arguments := by
  rw [call_at_found]
  constructor
  · intro placed
    obtain ⟨empty, _⟩ | ⟨front', whole, placed⟩ := placed
    · cases empty
    · rwa [List.append_cancel_left whole]
  · exact fun placed => .inr ⟨front, rfl, placed⟩

theorem inside_behind (front : Text) (pieces : List (Piece Text)) (inside : IsInside pieces front) : front ≠ [] := by
  obtain ⟨earlier, inner, outer, _, rfl⟩ := inside
  exact List.append_ne_nil_of_right_ne_nil _ (List.cons_ne_nil _ _)

theorem inside_kept (c : Char) (pieces : List (Piece Text)) (front : Text) :
    IsInside (.kept c :: pieces) (c :: front) ↔ IsInside pieces front := by
  constructor
  · intro ⟨earlier, inner, outer, placed, same⟩
    obtain ⟨earlier', rfl, later⟩ := (call_at_kept c pieces _ _).mp placed
    exact ⟨earlier', inner, outer, later, (List.cons.inj same).2⟩
  · intro ⟨earlier, inner, outer, placed, same⟩
    refine ⟨c :: earlier, inner, outer, (call_at_kept c pieces _ _).mpr ⟨earlier, rfl, placed⟩, ?_⟩
    rw [same, List.cons_append]

theorem inside_found (first : Text) (pieces : List (Piece Text)) (front : Text) :
    IsInside (.found first :: pieces) (callOf first ++ front) ↔ IsInside pieces front := by
  constructor
  · intro ⟨earlier, inner, outer, placed, same⟩
    obtain ⟨rfl, rfl⟩ | ⟨earlier', rfl, later⟩ := (call_at_found first pieces _ _).mp placed
    · have lengths := congrArg List.length same
      simp only [callOf, List.length_append, List.length_cons, List.length_nil] at lengths
      omega
    · rw [List.append_assoc] at same
      exact ⟨earlier', inner, outer, later, List.append_cancel_left same⟩
  · intro ⟨earlier, inner, outer, placed, same⟩
    refine ⟨callOf first ++ earlier, inner, outer, (call_at_found first pieces _ _).mpr (.inr ⟨earlier, rfl, placed⟩), ?_⟩
    rw [same, List.append_assoc]

theorem call_inside (inner outer : Text) (pieces : List (Piece Text)) :
    IsInside (.found (inner ++ (loadCall ++ outer)) :: pieces) (loadCall ++ inner) ∧
      ∀ arguments, ¬ IsCallAt (.found (inner ++ (loadCall ++ outer)) :: pieces) (loadCall ++ inner) arguments := by
  refine ⟨⟨[], inner, outer, (call_first _ pieces _).mpr rfl, rfl⟩, fun arguments placed => ?_⟩
  obtain ⟨empty, _⟩ | ⟨front', same, _⟩ := (call_at_found _ pieces _ arguments).mp placed
  · cases empty
  · have lengths := congrArg List.length same
    simp only [callOf, List.length_append, List.length_cons, List.length_nil] at lengths
    omega

theorem call_apart (front gap rest : Text) (some' : front ≠ [])
    (same : loadCall ++ gap = front ++ (loadCall ++ rest)) :
    ∃ inner, front = loadCall ++ inner ∧ gap = inner ++ (loadCall ++ rest) := by
  obtain ⟨inner, whole, behind⟩ | ⟨more, whole, behind⟩ := List.append_eq_append_iff.mp same
  · exact ⟨inner, whole, behind⟩
  · cases more with
    | nil => exact ⟨[], by simpa using whole.symm, behind.symm⟩
    | cons c more =>
        cases front with
        | nil => exact absurd rfl some'
        | cons d front =>
            have tail : loadCall.tail = front ++ c :: more := congrArg List.tail whole
            have apart : isApart (front ++ c :: more) loadCall = true := by
              rw [← tail]
              decide
            exact absurd behind.symm (apart_append c more loadCall gap rest (apart_behind front _ _ apart))

-- A load call of a text that begins with another is that one, one among its arguments, or
-- one behind it.
theorem call_places (first left front rest : Text) (place : callOf first ++ left = front ++ (loadCall ++ rest)) :
    front = [] ∨ (∃ inner outer, first = inner ++ (loadCall ++ outer) ∧ front = loadCall ++ inner) ∨
      ∃ front', front = callOf first ++ front' ∧ left = front' ++ (loadCall ++ rest) := by
  by_cases empty : front = []
  · exact .inl empty
  · obtain later | ⟨gap, whole, behind⟩ := List.append_eq_append_iff.mp place
    · exact .inr (.inr later)
    · rw [callOf, List.append_assoc] at place
      obtain ⟨inner, rfl, _⟩ := call_apart front _ rest empty place
      rw [callOf, List.append_assoc] at whole
      have inside := List.append_cancel_left whole
      cases gap using List.reverseRecOn with
      | nil => exact .inr (.inr ⟨[], by rw [List.append_nil, callOf, whole, List.append_nil], behind.symm⟩)
      | append_singleton outer last =>
          rw [← List.append_assoc] at inside
          obtain ⟨rfl, same⟩ := List.append_inj' inside rfl
          obtain rfl := (List.cons.inj same).1
          -- The parenthesis that ends the outer call is behind the one that opens the inner.
          rw [load_call_parts, List.append_assoc, List.append_assoc] at behind
          obtain ⟨more, rfl⟩ := cut_within outer loadName left rest ')' '(' (by decide) (by decide) behind.symm
          exact .inr (.inl ⟨inner, more, by simp [load_call_parts], rfl⟩)

end Places

section Line

theorem name_ended (c : Char) : isIdentPart c = false ∧ c ≠ '.' ↔
    c.isAlphanum = false ∧ c ≠ '_' ∧ c ≠ '$' ∧ c ≠ '.' := by
  simp [isIdentPart, isWord, and_assoc]

theorem load_matched (before : Option Char) (rest arguments left : Text) :
    loadMatcher before (loadCall ++ rest) = some (arguments, left) ↔
      before.any joinsCall = false ∧ closing? rest = some (arguments, left) := by
  cases joined : before.any joinsCall <;> simp [loadMatcher, joined, after?_append]

theorem call_at_iff (before : Option Char) (text front rest arguments : Text)
    (place : text = front ++ (loadCall ++ rest)) :
    IsCallAt (scanFrom loadMatcher 0 before text) front arguments ↔
      ¬ IsInside (scanFrom loadMatcher 0 before text) front ∧
        ∃ left, loadMatcher (front.getLast?.or before) (loadCall ++ rest) = some (arguments, left) := by
  induction before, text using scan_induction load_consumes generalizing front with
  | nil before => cases front <;> cases place
  | kept before c behind miss ih =>
      rw [scan_kept before c behind miss, call_at_kept]
      cases front with
      | nil =>
          rw [List.nil_append] at place
          simp [← place, miss]
      | cons d front =>
          obtain ⟨rfl, later⟩ := List.cons.inj place
          rw [inside_kept, last_cons, ← ih front later]
          simp
  | found before used left first nonempty hit ih =>
      obtain rfl := load_used before used left first hit
      rw [← callOf] at place hit ih
      rw [← callOf, scan_found before (callOf first) left first nonempty hit]
      obtain rfl | ⟨inner, outer, rfl, rfl⟩ | ⟨front', rfl, later⟩ := call_places first left front rest place
      · rw [List.nil_append] at place
        have outside : ¬ IsInside (.found first :: scanFrom loadMatcher 0 (callOf first).getLast? left) [] :=
          fun inside => inside_behind [] _ inside rfl
        rw [call_first, ← place]
        simp [outside, hit, eq_comm]
      · obtain ⟨inside, none'⟩ := call_inside inner outer
          (scanFrom loadMatcher 0 (callOf (inner ++ (loadCall ++ outer))).getLast? left)
        exact iff_of_false (none' arguments) fun ⟨outside, _⟩ => outside inside
      · have last : (callOf first ++ front').getLast?.or before = front'.getLast?.or (callOf first).getLast? := by
          rw [List.getLast?_append, Option.or_assoc, call_of_last]
          rfl
        rw [inside_found, call_behind, last]
        exact ih front' later

theorem scan_whole (before : Option Char) (text : Text) :
    render callOf (scanFrom loadMatcher 0 before text) = text := by
  induction before, text using scan_induction load_consumes with
  | nil before => rfl
  | kept before c rest miss ih =>
      rw [scan_kept before c rest miss, render_cons, ih]
      rfl
  | found before used left arguments nonempty hit ih =>
      rw [scan_found before used left arguments nonempty hit, render_cons, ih, load_used before used left arguments hit]
      rfl

theorem call_found (line : Text) : hasCall line = true ↔ ∃ arguments, .found arguments ∈ scan loadMatcher line := by
  rw [hasCall, matches?, ← scanFrom_any_found, List.any_eq_true]
  constructor
  · intro ⟨piece, member, found⟩
    cases piece with
    | kept c => cases found
    | found arguments => exact ⟨arguments, member⟩
  · exact fun ⟨arguments, member⟩ => ⟨.found arguments, member, rfl⟩

theorem calls_replaced (line : Text) : ∃ pieces : List (Piece Text),
    render (fun arguments => "require(" ++ arguments ++ ")") pieces = line ∧
    liftCalls line = render (fun arguments => "(await import(" ++ arguments ++ ")).default") pieces ∧
    (hasCall line = true ↔ ∃ arguments, .found arguments ∈ pieces) ∧
    ∀ front rest, line = front ++ (loadCall ++ rest) →
      ((∃ arguments, IsCallAt pieces front arguments) ↔ ¬ IsInside pieces front ∧
        (∀ c, front.getLast? = some c → c.isAlphanum = false ∧ c ≠ '_' ∧ c ≠ '$' ∧ c ≠ '.') ∧
        (closing? rest).isSome = true) ∧
      ∀ arguments, IsCallAt pieces front arguments → ∃ left, closing? rest = some (arguments, left) := by
  refine ⟨scan loadMatcher line, scan_whole none line, rfl, call_found line, fun front rest place => ?_⟩
  have answer (arguments : Text) : IsCallAt (scan loadMatcher line) front arguments ↔
      ¬ IsInside (scan loadMatcher line) front ∧
        ∃ left, front.getLast?.any joinsCall = false ∧ closing? rest = some (arguments, left) := by
    simpa only [scan, Option.or_none, load_matched] using call_at_iff none line front rest arguments place
  constructor
  · simp only [← name_ended]
    rw [← joins_none, Option.isSome_iff_exists]
    constructor
    · intro ⟨arguments, placed⟩
      obtain ⟨outside, left, apart, closes⟩ := (answer arguments).mp placed
      exact ⟨outside, apart, _, closes⟩
    · intro ⟨outside, apart, (arguments, left), closes⟩
      exact ⟨arguments, (answer arguments).mpr ⟨outside, left, apart, closes⟩⟩
  · intro arguments placed
    obtain ⟨_, left, _, closes⟩ := (answer arguments).mp placed
    exact ⟨left, closes⟩

example : liftCalls "a.require(require('x'))+require(require(')'))require(b" =
    "a.require((await import('x')).default)+(await import(require(')'))).defaultrequire(b".toList := by
  decide

end Line

end DevServer.CommonJs
