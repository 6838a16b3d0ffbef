set_option autoImplicit false

namespace DevServer

abbrev Text := List Char

instance : Coe String Text := ⟨String.toList⟩

namespace Text

def after? : Text → Text → Option Text
  | text, [] => some text
  | [], _ :: _ => none
  | c :: text, d :: start => if c = d then after? text start else none

def startsWith (text start : Text) : Bool := (after? text start).isSome

def endsWith (text ending : Text) : Bool := startsWith text.reverse ending.reverse

def cut? : Text → Text → Option (Text × Text)
  | [], mark => if mark = [] then some ([], []) else none
  | c :: text, mark =>
    match after? (c :: text) mark with
    | some right => some ([], right)
    | none => (cut? text mark).map fun (left, right) => (c :: left, right)

def includes (text mark : Text) : Bool := (cut? text mark).isSome

def cutAt? (sep : Char) : Text → Option (Text × Text)
  | [] => none
  | c :: text =>
    if c = sep then some ([], text)
    else (cutAt? sep text).map fun (left, right) => (c :: left, right)

def split (sep : Char) : Text → List Text
  | [] => [[]]
  | c :: text =>
    if c = sep then [] :: split sep text
    else match split sep text with
      | [] => [[c]]
      | part :: parts => (c :: part) :: parts

def join (sep : Text) : List Text → Text
  | [] => []
  | [part] => part
  | part :: parts => part ++ sep ++ join sep parts

def ofNat (n : Nat) : Text := Nat.toDigits 10 n

def toNat? (digits : Text) : Option Nat :=
  if digits ≠ [] ∧ digits.all Char.isDigit then
    some (digits.foldl (fun n c => 10 * n + (c.toNat - 48)) 0)
  else none

def size : Text → Nat
  | [] => 0
  | c :: text => c.utf8Size + size text

def isBefore : Text → Text → Bool
  | [], _ => true
  | _ :: _, [] => false
  | c :: text, d :: other => c.toNat < d.toNat || (c == d && isBefore text other)

def trimStartOf (drop : Char → Bool) (text : Text) : Text := text.dropWhile drop

def trimEndOf (drop : Char → Bool) (text : Text) : Text :=
  (text.reverse.dropWhile drop).reverse

def trimOf (drop : Char → Bool) (text : Text) : Text := trimEndOf drop (trimStartOf drop text)

-- Puts `new` for every occurrence of `old`, leftmost first; an empty `old` occurs
-- before every character and at the end.
def replace (text old new : Text) : Text :=
  match old with
  | [] => new ++ text.flatMap fun c => c :: new
  | d :: old => go d old 0 text
where
  go (d : Char) (old : Text) : Nat → Text → Text
    | _, [] => []
    | skip + 1, _ :: text => go d old skip text
    | 0, c :: text =>
      if startsWith (c :: text) (d :: old) then new ++ go d old old.length text
      else c :: go d old 0 text

theorem after?_append (start rest : Text) : after? (start ++ rest) start = some rest := by
  induction start with
  | nil => simp [after?]
  | cons c start ih => simp [after?, ih]

theorem after?_eq_some {text start rest : Text} :
    after? text start = some rest ↔ text = start ++ rest := by
  constructor
  · intro h
    fun_induction after? text start with
    | case1 => simp_all
    | case2 => simp at h
    | case3 _ _ _ ih => simp [ih h]
    | case4 => simp at h
  · rintro rfl
    exact after?_append start rest

theorem startsWith_iff {text start : Text} :
    startsWith text start = true ↔ ∃ rest, text = start ++ rest := by
  simp [startsWith, Option.isSome_iff_exists, after?_eq_some]

theorem cut?_eq {text mark left right : Text} (h : cut? text mark = some (left, right)) :
    text = left ++ mark ++ right := by
  induction text generalizing left with
  | nil =>
    simp only [cut?] at h
    split at h <;> simp_all
  | cons c text ih =>
    simp only [cut?] at h
    split at h
    · rename_i rest found
      simp only [Option.some.injEq, Prod.mk.injEq] at h
      obtain ⟨rfl, rfl⟩ := h
      simpa using after?_eq_some.mp found
    · simp only [Option.map_eq_some_iff, Prod.mk.injEq, Prod.exists] at h
      obtain ⟨l, r, found, rfl, rfl⟩ := h
      simp [ih found]

theorem split_ne_nil (sep : Char) (text : Text) : split sep text ≠ [] := by
  cases text with
  | nil => simp [split]
  | cons c text =>
    simp only [split]
    split
    · simp
    · split <;> simp

theorem join_split (sep : Char) (text : Text) : join [sep] (split sep text) = text := by
  induction text with
  | nil => rfl
  | cons c text ih =>
    simp only [split]
    split
    · rename_i same
      cases h : split sep text with
      | nil => exact absurd h (split_ne_nil sep text)
      | cons part parts => simp [join, ← h, ih, same]
    · cases h : split sep text with
      | nil => exact absurd h (split_ne_nil sep text)
      | cons part parts =>
        rw [h] at ih
        cases parts <;> simp_all [join]

end Text
end DevServer
