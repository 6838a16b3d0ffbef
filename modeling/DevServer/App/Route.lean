import DevServer.Page
import DevServer.Path
import DevServer.Specifier

set_option autoImplicit false

namespace DevServer

inductive Route where
  | page
  | refreshShim
  | liveUpdate
  | dependency (tail : Text)
  | source
  | publicFile
deriving DecidableEq, Repr

namespace Route

open Text

def sourceExtensions : List Text := ["js", "mjs", "jsx", "ts", "tsx", "css"]

def isSource (path : Text) : Bool :=
  (Path.extension? path).any fun ending => sourceExtensions.contains ending

def dependencyTail? (path : Text) : Option Text :=
  match path.after? Specifier.modulesRoute with
  | some (c :: tail) => some (c :: tail)
  | _ => none

def ofPath (path : Text) : Route :=
  if path = "/" then page
  else if path = Page.refreshShimRoute then refreshShim
  else if path = Page.liveUpdateRoute then liveUpdate
  else match dependencyTail? path with
    | some tail => dependency tail
    | none => if isSource path then source else publicFile

end Route
end DevServer
