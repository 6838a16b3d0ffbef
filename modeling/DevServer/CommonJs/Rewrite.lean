import DevServer.CommonJs.Export
import DevServer.CommonJs.Import
import DevServer.CommonJs.Lift

set_option autoImplicit false

namespace DevServer.CommonJs

open Text

def replaceWord (word new source : Text) : Text := rewrite (wholeWord word) (fun _ => new) source

def replacePathGlobals (source : Text) : Text :=
  replaceWord "__dirname" "new URL(\".\", import.meta.url).pathname"
    (replaceWord "__filename" "new URL(import.meta.url).pathname" source)

def toModule (tree : FileTree) (file : Path) (source : Text) : Text :=
  replacePathGlobals (repairExtensions tree file (normalizeExports (normalizeImports (lift source))))

end DevServer.CommonJs
