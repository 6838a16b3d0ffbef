import DevServer.Http.Media.Application
import DevServer.Http.Media.Image
import DevServer.Http.Media.Private
import DevServer.Http.Media.Sound
import DevServer.Http.Media.Special
import DevServer.Http.Media.Text
import DevServer.Http.Media.Vendor
import DevServer.Http.Media.Video
import DevServer.Path

set_option autoImplicit false

namespace DevServer.Http.Media

def binary : Text := "application/octet-stream"

def types : List (String × String) :=
  textTypes ++ imageTypes ++ applicationTypes ++ soundTypes ++ videoTypes ++ specialTypes ++
    privateTypes ++ vendorTypes

-- A character in lower case. Letters outside ASCII count when all that they stand for
-- in comparisons is ASCII.
def folded (c : Char) : Text :=
  match c with
  | 'ſ' => "s"
  | 'ß' | 'ẞ' | '𝾕' => "ss"
  | '\u212a' => "k"
  | 'ﬀ' => "ff"
  | 'ﬁ' => "fi"
  | 'ﬂ' => "fl"
  | 'ﬃ' => "ffi"
  | 'ﬄ' => "ffl"
  | 'ﬅ' | 'ﬆ' => "st"
  | _ => [c.toLower]

def ofExtension? (extension : Text) : Option Text :=
  let wanted := extension.flatMap folded
  (types.find? fun (_, extensions) => (Text.split ' ' extensions).contains wanted).map (·.1)

def ofPath (path : Path) : Text := ((Path.extension? path).bind ofExtension?).getD binary

end DevServer.Http.Media
