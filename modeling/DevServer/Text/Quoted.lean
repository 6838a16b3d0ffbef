import DevServer.Text.Unseen

set_option autoImplicit false

namespace DevServer.Text

def shown (c : Char) : Text :=
  if c = '"' then "\\\""
  else if c = '\\' then "\\\\"
  else if c = '\n' then "\\n"
  else if c = '\r' then "\\r"
  else if c = '\t' then "\\t"
  else if c = '\x00' then "\\0"
  else if isUnseen c then "\\u\x7b" ++ Nat.toDigits 16 c.toNat ++ "\x7d"
  else [c]

def quoted (text : Text) : Text := '"' :: text.flatMap shown ++ ['"']

def quotedList (texts : List Text) : Text := '[' :: join ", " (texts.map quoted) ++ [']']

end DevServer.Text
