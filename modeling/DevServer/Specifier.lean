import DevServer.Text.Lines
import DevServer.Text.Scan

set_option autoImplicit false

namespace DevServer.Specifier

open Text

def modulesRoute : Text := "/@modules/"

def isBare (specifier : Text) : Bool :=
  !(specifier = [] ∨ specifier.startsWith "." ∨ specifier.startsWith "/" ∨
    specifier.startsWith ['\x00'] ∨ specifier.includes "://" ∨ specifier.startsWith "data:")

def isLiteralQuote (c : Char) : Bool := c == '\'' || c == '"'

structure Literal where
  lead : Text
  specifier : Text
  rest : Text
deriving DecidableEq, Repr

-- The literal a text opens with, after blanks; `lead` ends in its quote and `rest`
-- begins with it.
def literal? (text : Text) : Option Literal :=
  match trimStart text with
  | [] => none
  | quote :: inner =>
    if isLiteralQuote quote then
      (cutAt? quote inner).map fun (specifier, rest) =>
        ⟨text.takeWhile isBlank ++ [quote], specifier, quote :: rest⟩
    else none

def isStaticImport (statement : Text) : Bool :=
  statement.startsWith "import " &&
    (statement.includes " from " || statement.any isLiteralQuote)

def isReexport (statement : Text) : Bool :=
  statement.startsWith "export " && statement.includes " from "

def isStatic (line : Text) : Bool :=
  let statement := trimStart line
  isStaticImport statement || isReexport statement

def cutBehind? (mark line : Text) : Option (Text × Text) :=
  (line.cut? mark).map fun (left, right) => (left ++ mark, right)

-- The one literal of a statement, behind the first ` from ` or else the first
-- `import`.
def staticLiteral? (line : Text) : Option Literal := do
  let (lead, text) ← (cutBehind? " from " line).orElse fun _ => cutBehind? "import" line
  let literal ← literal? text
  some { literal with lead := lead ++ literal.lead }

def importCall : Text := "import("

def callMatcher : Matcher Literal := fun _ text => do
  let literal ← literal? (← text.after? importCall)
  some ({ literal with lead := importCall ++ literal.lead }, literal.rest)

def keep (text : Text) : List (Piece Text) := text.map .kept

def Literal.pieces (literal : Literal) : List (Piece Text) :=
  keep literal.lead ++ [.found literal.specifier]

def callPieces : Piece Literal → List (Piece Text)
  | .kept c => [.kept c]
  | .found literal => literal.pieces

def linePieces (line : Text) : List (Piece Text) :=
  if isStatic line then
    match staticLiteral? line with
    | some literal => literal.pieces ++ keep literal.rest
    | none => keep line
  else (scan callMatcher line).flatMap callPieces

def pieces (code : Text) : List (Piece Text) := linewise (.kept '\n') linePieces code

def all (code : Text) : List Text := (pieces code).filterMap Piece.found?

def rewrite (map : Text → Option Text) (code : Text) : Text :=
  render (fun specifier => (map specifier).getD specifier) (pieces code)

def bareUrl? (specifier : Text) : Option Text :=
  if isBare specifier then some (modulesRoute ++ specifier) else none

def rewriteBare (code : Text) : Text := rewrite bareUrl? code

end DevServer.Specifier
