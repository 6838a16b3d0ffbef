import DevServer.CommonJs.Load
import DevServer.Text.Lines

set_option autoImplicit false

namespace DevServer.CommonJs

open Text

-- Splits at the parenthesis that closes an open call. Literals are skipped: `quote`
-- is the one the scan is inside, `depth` the calls still open.
def closingFrom : Nat → Option Char → Text → Option (Text × Text)
  | _, _, [] => none
  | depth, some q, '\\' :: c :: text =>
    (closingFrom depth (some q) text).map fun (inner, rest) => ('\\' :: c :: inner, rest)
  | depth, some q, c :: text =>
    (closingFrom depth (if c = q then none else some q) text).map
      fun (inner, rest) => (c :: inner, rest)
  | depth, none, c :: text =>
    if c = ')' ∧ depth = 0 then some ([], text)
    else
      let depth := if c = '(' then depth + 1 else if c = ')' then depth - 1 else depth
      (closingFrom depth (if isQuote c then some c else none) text).map
        fun (inner, rest) => (c :: inner, rest)

def closing? (text : Text) : Option (Text × Text) := closingFrom 0 none text

def joinsCall (c : Char) : Bool := isIdentPart c || c == '.'

def loadMatcher : Matcher Text := fun before text =>
  if before.any joinsCall then none
  else do
    let text ← text.after? loadCall
    closing? text

def awaited (arguments : Text) : Text := "(await import(" ++ arguments ++ ")).default"

def liftCalls (line : Text) : Text := rewrite loadMatcher awaited line

def hasCall (line : Text) : Bool := matches? loadMatcher line

def isComment (line : Text) : Bool :=
  let text := trimStart line
  text.startsWith "//" || text.startsWith "/*" || text.startsWith "*"

def isExportLine (line : Text) : Bool :=
  line.startsWith "exports." || line.startsWith "module.exports" ||
  line.startsWith "Object.defineProperty(exports"

def isBound (line : Text) : Bool := (Load.ofLine? line).isSome

def isLiftable (line : Text) : Bool :=
  !isBound line && !isComment line && line.includes loadCall

def liftLine (line : Text) : Text := if isLiftable line then liftCalls line else line

def isLifted (line : Text) : Bool := isLiftable line && hasCall line

def moduleWords : List Text :=
  ["import ", "import\x7b", "import\"", "import'", "export ", "export\x7b"]

def isModuleLine (line : Text) : Bool :=
  moduleWords.any fun word => (trimStart line).startsWith word

def hasModuleSyntax (text : Text) : Bool := (lines text).any isModuleLine

def hasAsyncWrapper (text : Text) : Bool :=
  text.includes "async function" || text.includes "(async () =>" || text.includes "(async()=>"

def hasPendingModuleSyntax (source : Text) : Bool :=
  (lines source).any fun line => isBound line || isExportLine line

def wrap (text : Text) : Text :=
  "(async () => \x7b\n" ++ trimEndOf (· == '\n') text ++ "\n\x7d)();" ++
    (if text.getLast? = some '\n' then "\n" else "")

def lift (source : Text) : Text :=
  let text := mapLines liftLine source
  if (lines source).any isLifted && !hasPendingModuleSyntax source &&
      !hasModuleSyntax text && !hasAsyncWrapper text
  then wrap text else text

end DevServer.CommonJs
