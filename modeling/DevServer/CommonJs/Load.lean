import DevServer.Text.Scan

set_option autoImplicit false

namespace DevServer.CommonJs

open Text

inductive Binding where
  | whole (name : Text)
  | members (list : Text)
  | member (name field : Text)
  | called (name arguments : Text)
deriving DecidableEq, Repr

structure Load where
  binding : Binding
  source : Text
deriving DecidableEq, Repr

def loadCall : Text := "require("

def keyword? (text : Text) : Option Text :=
  (text.after? "const").orElse fun _ =>
    (text.after? "let").orElse fun _ => text.after? "var"

def assignment? (text : Text) : Option Text := ((spaces text).after? "=").map spaces

def quoted? (text : Text) : Option (Text × Text) := do
  let (_, text) ← char? isQuote text
  let (inner, text) ← run? (fun c => !isQuote c) text
  let (_, text) ← char? isQuote text
  some (inner, text)

def call? (text : Text) : Option (Text × Text) := do
  let text ← text.after? loadCall
  let (source, text) ← quoted? (spaces text)
  let text ← (spaces text).after? ")"
  some (source, text)

def endsStatement (text : Text) : Bool :=
  match spaces text with
  | ';' :: rest => spaces rest = []
  | rest => rest = []

def callArguments? (text : Text) : Option Text :=
  let ending := match spaces text.reverse with
    | ';' :: rest => spaces rest
    | rest => rest
  match ending with
  | ')' :: arguments => some arguments.reverse
  | _ => none

def named? (name source rest : Text) : Option Load :=
  match rest with
  | '.' :: rest => do
    let (field, rest) ← identifier? rest
    if endsStatement rest then some ⟨.member name field, source⟩ else none
  | '(' :: rest => do
    let arguments ← callArguments? rest
    some ⟨.called name arguments, source⟩
  | rest => if endsStatement rest then some ⟨.whole name, source⟩ else none

def ofName? (text : Text) : Option Load := do
  let (name, text) ← identifier? (← someSpace? text)
  let text ← assignment? text
  let (source, rest) ← call? text
  named? name source rest

def ofMembers? (text : Text) : Option Load := do
  let text ← (spaces text).after? "\x7b"
  let list := text.takeWhile (· ≠ '}')
  let (_, text) ← char? (· == '}') (text.dropWhile (· ≠ '}'))
  let text ← assignment? text
  let (source, rest) ← call? text
  if endsStatement rest then some ⟨.members list, source⟩ else none

def Load.ofLine? (line : Text) : Option Load := do
  let text ← keyword? line
  (ofName? text).orElse fun _ => ofMembers? text

end DevServer.CommonJs
