import DevServer.Http.Basic
import DevServer.Http.Date
import DevServer.Http.Media
import DevServer.Http.Range

set_option autoImplicit false

namespace DevServer.Http.Files

def indexFile : Text := "index.html"

def path? (dir : Path) (url : Text) : Option Path := do
  let relative ← Percent.decodeText? (url.dropWhile (· == '/'))
  let parts := Path.components relative
  if parts.all Component.isInner then
    some (Path.extend dir (parts.filterMap Component.name?))
  else none

-- An absent file, and one to be opened whose name no file can have.
def isAbsence (method : Method) : FileError → Bool
  | .notFound => true
  | .notDirectory => true
  | .nulInName => method = .get
  | _ => false

def failure (request : Request) (error : FileError) : Response :=
  if isAbsence request.method error then Response.bare .notFound
  else Response.plain .serverError ("Failed to serve " ++ request.target.path)

def severalRanges : Text := "Cannot serve multipart range requests"

def content (request : Request) (media : Text) (size : Nat) (node : Node) : Response :=
  match request.visible? "range" with
  | none => ⟨.ok, [(.contentType, media)], request.method.sent node.content⟩
  | some asked =>
    match Range.demand size asked with
    | .one first last =>
      ⟨.partialContent, [(.contentType, media)],
        request.method.sent (node.content.extract first (last + 1))⟩
    | .several => ⟨.rangeNotSatisfiable, [(.contentType, media)], Text.bytes severalRanges⟩
    | .unmet => ⟨.rangeNotSatisfiable, [(.contentType, media)], .empty⟩

def failsPrecondition (request : Request) (modified : Instant) : Bool :=
  ((request.visible? "if-unmodified-since").bind Date.parse?).any (· < Date.ofInstant modified)

def isKnown (request : Request) (modified : Instant) : Bool :=
  ((request.visible? "if-modified-since").bind Date.parse?).any (Date.ofInstant modified ≤ ·)

def serveNode (tree : FileTree) (request : Request) (path : Path) (place : FileTree.Place)
    (node : Node) : Response :=
  if failsPrecondition request (tree.modified place node) then Response.bare .preconditionFailed
  else if isKnown request (tree.modified place node) then Response.bare .notModified
  else content request (Media.ofPath path) (tree.size place node) node

def serveFile (tree : FileTree) (request : Request) (path : Path) : Response :=
  match tree.find true path with
  | .ok (place, node) => serveNode tree request path place node
  | .error error => failure request error

def respond (tree : FileTree) (dir : Path) (request : Request) : Response :=
  if !request.method.isRead then Response.methodNotAllowed
  else match path? dir request.target.path with
    | none => Response.bare .notFound
    | some path =>
      if !tree.isDir path then serveFile tree request path
      else if request.target.path.getLast? = some '/' then
        serveFile tree request (path.join indexFile)
      else match request.target.withSlash? with
        | some target => Response.redirect target.text
        | none => Response.bare .serverError

end DevServer.Http.Files
