import DevServer.Text.Basic

set_option autoImplicit false

namespace DevServer.Text

-- The characters with the Unicode property White_Space.
def isBlank (c : Char) : Bool :=
  let n := c.toNat
  (9 ≤ n && n ≤ 13) || n == 0x20 || n == 0x85 || n == 0xA0 || n == 0x1680 ||
  (0x2000 ≤ n && n ≤ 0x200A) || n == 0x2028 || n == 0x2029 || n == 0x202F ||
  n == 0x205F || n == 0x3000

def isSpace (c : Char) : Bool :=
  let n := c.toNat
  (9 ≤ n && n ≤ 13) || n == 0x20

def isWord (c : Char) : Bool := c.isAlphanum || c == '_'

def isIdentStart (c : Char) : Bool := c.isAlpha || c == '_' || c == '$'

def isIdentPart (c : Char) : Bool := isWord c || c == '$'

def isQuote (c : Char) : Bool := c == '\'' || c == '"' || c == '\x60'

def isIdentifier : Text → Bool
  | [] => false
  | c :: text => isIdentStart c && text.all isIdentPart

def trimStart : Text → Text := trimStartOf isBlank
def trimEnd : Text → Text := trimEndOf isBlank
def trim : Text → Text := trimOf isBlank

theorem isIdentPart_of_isIdentStart {c : Char} (h : isIdentStart c = true) :
    isIdentPart c = true := by
  simp only [isIdentStart, isIdentPart, isWord, Char.isAlphanum, Bool.or_eq_true] at *
  rcases h with (h | h) | h <;> simp [h]

end DevServer.Text
