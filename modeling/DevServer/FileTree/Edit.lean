import DevServer.FileTree.Basic

set_option autoImplicit false

namespace DevServer.FileTree

def makeDirs : FileTree → Place → List Text → FileTree × Place
  | tree, place, [] => (tree, place)
  | tree, place, segment :: rest =>
    match follow tree.root true maxLinks place [segment] with
    | .ok (there, _) => makeDirs tree there rest
    | .error _ =>
      let there := place ++ [segment]
      makeDirs { tree with root := Node.put .empty tree.root there } there rest

def put (tree : FileTree) (place : Place) (new : Node) : FileTree :=
  { tree with root := Node.put new tree.root place }

-- Where a new file lands that is written at a name: a link there is followed, even to
-- what is not there yet.
def landing? (root : Node) : Nat → Place → Text → Option Place
  | 0, _, _ => none
  | links + 1, place, last =>
    match root.at? (place ++ [last]) with
    | some (.link target) =>
      match (Path.significant.ends (Path.segments target)).reverse with
      | [] => none
      | name :: above =>
        let start := if Path.isAbsolute target then [] else place
        match follow root true maxLinks start above.reverse with
        | .ok (there, _) => landing? root links there name
        | .error _ => none
    | _ => some (place ++ [last])

def write (tree : FileTree) (path : Path) (new : Node) : FileTree :=
  match Path.significant.ends (Path.segments path) with
  | [] => tree
  | part :: parts =>
    let (tree, place) := makeDirs tree (tree.start path) (part :: parts).dropLast
    let last := (part :: parts).getLast (by simp)
    match follow tree.root true maxLinks place [last], new with
    | .ok (_, .dir _), .dir _ => tree
    | .ok (there, _), .file _ _ => tree.put there new
    | .error _, .file _ _ => ((landing? tree.root maxLinks place last).map (tree.put · new)).getD tree
    | _, _ => tree.put (place ++ [last]) new

def remove (tree : FileTree) (path : Path) : FileTree :=
  match tree.find false path with
  | .ok (place, _) => { tree with root := tree.root.erase place }
  | .error _ => tree

end DevServer.FileTree
