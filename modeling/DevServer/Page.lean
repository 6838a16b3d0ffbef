import DevServer.FileTree.Basic
import DevServer.Layout

set_option autoImplicit false

namespace DevServer.Page

open Text

def liveUpdateRoute : Text := "/@bootstrap/live-update"
def refreshShimRoute : Text := "/@bootstrap/refresh-shim"
def indexFile : Text := "index.html"

def candidates : List Text :=
  ["index.html", "public/index.html", "static/index.html", "app/index.html"]

mutual
-- The index pages at and below a node, a directory's entries by name. Links are not
-- followed, and a directory whose path cannot be named is passed over.
def pagesAt (path : Path) (name : Text) : Node → List Path
  | .file _ _ => if name = indexFile then [path] else []
  | .link _ => []
  | .dir entries =>
    if FileTree.isNameable path then
      ((pagesIn path entries).mergeSort fun a b => a.1.isBefore b.1).flatMap Prod.snd
    else []
def pagesIn (dir : Path) : Forest → List (Text × List Path)
  | .nil => []
  | .cons name node rest =>
    if name = packagesDir then pagesIn dir rest
    else (name, pagesAt (Path.join dir name) name node) :: pagesIn dir rest
end

def walkStart? (tree : FileTree) (root : Path) : Option Node :=
  match tree.nodeItself root with
  | .ok (.link target) =>
    match tree.node root with
    | .ok (.dir entries) => some (.dir entries)
    | _ => some (.link target)
  | .ok node => some node
  | .error _ => none

def walk (tree : FileTree) (root : Path) : List Path :=
  match walkStart? tree root with
  | some node => pagesAt root ((Path.fileName? root).getD root) node
  | none => []

def find? (tree : FileTree) (root : Path) : Option Path :=
  ((candidates.map (Path.join root)).find? tree.isFile).orElse fun _ => (walk tree root).head?

def moduleTag (source : Text) : Text := "<script type=\"module\" src=\"" ++ source ++ "\"></script>\n"

def bootstrapTags (entry : Text) : Text :=
  moduleTag liveUpdateRoute ++ moduleTag refreshShimRoute ++ moduleTag entry

def bodyEnd : Text := "</body>"

def isBodyEnd (text : Text) : Bool := Text.startsWith (text.map Char.toLower) bodyEnd

def cutAtBodyEnd? : Text → Option (Text × Text)
  | [] => none
  | c :: text =>
    match cutAtBodyEnd? text with
    | some (left, right) => some (c :: left, right)
    | none => if isBodyEnd (c :: text) then some ([], c :: text) else none

def lineEnd (page : Text) : Text :=
  if page = [] ∨ page.getLast? = some '\n' then [] else ['\n']

def inject (page entry : Text) : Text :=
  match cutAtBodyEnd? page with
  | some (left, right) => left ++ bootstrapTags entry ++ right
  | none => page ++ lineEnd page ++ bootstrapTags entry

end DevServer.Page
