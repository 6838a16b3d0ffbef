import DevServer.FileTree.Basic
import DevServer.Text.Scan

set_option autoImplicit false

namespace DevServer.CommonJs

open Text

def defaultExtension : Text := ".js"
def fallbackExtension : Text := ".mjs"

def isRelative (source : Text) : Bool := source.startsWith "." || source.startsWith "/"

def lastSegment (source : Text) : Text := (source.reverse.takeWhile (· ≠ '/')).reverse

def withExtension (source : Text) : Text :=
  let name := lastSegment source
  if isRelative source && !(name = [] ∨ name = ['.'] ∨ name = ['.', '.']) &&
      (Path.extensionOf? name).isNone
  then source ++ defaultExtension else source

structure RelativeLiteral where
  opening : Char
  path : Text
  closing : Char
deriving DecidableEq, Repr

def isPlainQuote (c : Char) : Bool := c == '\'' || c == '"'

def dots? (text : Text) : Option (Text × Text) :=
  match text with
  | '.' :: '.' :: '/' :: rest => some ("../", rest)
  | '.' :: '/' :: rest => some ("./", rest)
  | _ => none

-- A quoted relative path with the default extension, on one line. The path is given
-- without that extension; the quotes need not agree.
def literalMatcher : Matcher RelativeLiteral := fun _ text => do
  let (opening, text) ← char? isPlainQuote text
  let (dots, text) ← dots? text
  let inner : Text := text.takeWhile fun c => !isPlainQuote c && c != '\n'
  let (closing, rest) ← char? isPlainQuote (text.drop inner.length)
  if inner.endsWith defaultExtension then
    some (⟨opening, dots ++ inner.take (inner.length - defaultExtension.length), closing⟩, rest)
  else none

def repaired (tree : FileTree) (dir : Path) (literal : RelativeLiteral) : Text :=
  let whole (ending : Text) := literal.path ++ ending
  let ending :=
    if literal.opening = literal.closing ∧
        !tree.isPresent (dir.join (whole defaultExtension)) ∧
        tree.isPresent (dir.join (whole fallbackExtension))
    then fallbackExtension else defaultExtension
  literal.opening :: whole ending ++ [literal.closing]

def repairExtensions (tree : FileTree) (file : Path) (source : Text) : Text :=
  rewrite literalMatcher (repaired tree ((Path.parent? file).getD ['/'])) source

end DevServer.CommonJs
