import DevServer.Text.Basic

set_option autoImplicit false

namespace DevServer.Text

def chomp : Text → Text
  | [] => []
  | ['\r'] => []
  | c :: text => c :: chomp text

def linesOf : List Text → List Text
  | [] => []
  | [last] => if last = [] then [] else [last]
  | line :: rest => chomp line :: linesOf rest

def lines (text : Text) : List Text := linesOf (split '\n' text)

def linewiseOf {α : Type} (feed : α) (edit : Text → List α) : List Text → List α
  | [] => []
  | [last] => if last = [] then [] else edit last
  | line :: rest => edit (chomp line) ++ feed :: linewiseOf feed edit rest

-- The edited lines, with a feed for every line feed of the text.
def linewise {α : Type} (feed : α) (edit : Text → List α) (text : Text) : List α :=
  linewiseOf feed edit (split '\n' text)

def mapLines (edit : Text → Text) (text : Text) : Text := linewise '\n' edit text

end DevServer.Text
