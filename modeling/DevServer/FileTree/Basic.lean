import DevServer.Path

set_option autoImplicit false

namespace DevServer

-- Times are nanoseconds since the epoch.
abbrev Instant := Int

mutual
inductive Node where
  | file (content : ByteArray) (modified : Instant)
  | link (target : Path)
  | dir (entries : Forest)
inductive Forest where
  | nil
  | cons (name : Text) (node : Node) (rest : Forest)
end

inductive FileError where
  | notFound
  | notDirectory
  | isDirectory
  | nameTooLong
  | tooManyLinks
  | nulInName
  | notText
deriving DecidableEq, Repr

def FileError.message : FileError → Text
  | notFound => "No such file or directory (os error 2)"
  | notDirectory => "Not a directory (os error 20)"
  | isDirectory => "Is a directory (os error 21)"
  | nameTooLong => "File name too long (os error 36)"
  | tooManyLinks => "Too many levels of symbolic links (os error 40)"
  | nulInName => "file name contained an unexpected NUL byte"
  | notText => "stream did not contain valid UTF-8"

namespace Forest

def get? (query : Text) : Forest → Option Node
  | nil => none
  | cons name node rest => if query = name then some node else get? query rest

def put (query : Text) (new : Node) : Forest → Forest
  | nil => cons query new nil
  | cons name node rest =>
    if query = name then cons name new rest else cons name node (put query new rest)

def erase (query : Text) : Forest → Forest
  | nil => nil
  | cons name node rest => if query = name then rest else cons name node (erase query rest)

end Forest

namespace Node

def empty : Node := dir .nil

def entries : Node → Forest
  | dir entries => entries
  | _ => .nil

def isFile : Node → Bool
  | file _ _ => true
  | _ => false

def isDir : Node → Bool
  | dir _ => true
  | _ => false

def content : Node → ByteArray
  | file content _ => content
  | _ => .empty

def at? : Node → List Text → Option Node
  | node, [] => some node
  | dir entries, name :: rest =>
    match entries.get? name with
    | some node => at? node rest
    | none => none
  | _, _ :: _ => none

def put (new : Node) : Node → List Text → Node
  | _, [] => new
  | node, name :: rest =>
    dir (node.entries.put name (put new ((node.entries.get? name).getD empty) rest))

def erase : Node → List Text → Node
  | node, [] => node
  | dir entries, [name] => dir (entries.erase name)
  | dir entries, name :: rest =>
    match entries.get? name with
    | some node => dir (entries.put name (erase node rest))
    | none => dir entries
  | node, _ => node

end Node

-- What a directory shows of itself besides its entries.
structure Listing where
  modified : Instant
  size : Nat

structure FileTree where
  root : Node
  workDir : List Text
  listing : List Text → Listing

def Text.ofBytes? (bytes : ByteArray) : Option Text := bytes.utf8Decode?.map Array.toList

def Text.bytes (text : Text) : ByteArray := (String.ofList text).toUTF8

namespace FileTree

abbrev Place := List Text
abbrev Found := Except FileError (Place × Node)

def blockSize : Nat := 4096

def empty (workDir : List Text) (made : Instant) : FileTree :=
  ⟨Node.put .empty .empty workDir, workDir, fun _ => ⟨made, blockSize⟩⟩

def modified (tree : FileTree) (place : Place) : Node → Instant
  | .file _ modified => modified
  | _ => (tree.listing place).modified

def size (tree : FileTree) (place : Place) : Node → Nat
  | .file content _ => content.size
  | _ => (tree.listing place).size

def maxName : Nat := 255
def maxPath : Nat := 4095
def maxLinks : Nat := 40

-- Follows segments up to a link; `onLink` goes on from there. When `last` is false a
-- link at the very end is the answer itself. A place that `fits` refuses is too long
-- to be looked at.
def followWith (fits : Place → Bool) (root : Node) (last : Bool)
    (onLink : Place → List Text → Found) : List Text → Place → Found
  | [], place =>
    match root.at? place with
    | some node => .ok (place, node)
    | none => .error .notFound
  | segment :: rest, place =>
    match root.at? place with
    | some (.dir entries) =>
      if segment = [] ∨ segment = ['.'] then followWith fits root last onLink rest place
      else if segment = ['.', '.'] then followWith fits root last onLink rest place.dropLast
      else if maxName < Text.size segment ∨ fits (place ++ [segment]) = false then
        .error .nameTooLong
      else match entries.get? segment with
        | none => .error .notFound
        | some (.link target) =>
          if rest = [] ∧ last = false then .ok (place ++ [segment], .link target)
          else onLink (if Path.isAbsolute target then [] else place)
            (Path.segments target ++ rest)
        | some _ => followWith fits root last onLink rest (place ++ [segment])
    | some _ => .error .notDirectory
    | none => .error .notFound

def followWithin (fits : Place → Bool) (root : Node) (last : Bool) :
    Nat → Place → List Text → Found
  | 0 => fun place rest =>
    followWith fits root last (fun _ _ => .error .tooManyLinks) rest place
  | links + 1 => fun place rest =>
    followWith fits root last (followWithin fits root last links) rest place

def follow : Node → Bool → Nat → Place → List Text → Found :=
  followWithin fun _ => true

def absolutePath (place : Place) : Path := Path.ofSegments true place

def isNameable (path : Path) : Bool := Text.size path ≤ maxPath

def start (tree : FileTree) (path : Path) : Place :=
  if Path.isAbsolute path then [] else tree.workDir

def find (tree : FileTree) (last : Bool) (path : Path) : Found :=
  if '\x00' ∈ path then .error .nulInName
  else if path = [] then .error .notFound
  else if isNameable path = false then .error .nameTooLong
  else follow tree.root last maxLinks (tree.start path) (Path.segments path)

def node (tree : FileTree) (path : Path) : Except FileError Node :=
  (tree.find true path).map Prod.snd

def nodeItself (tree : FileTree) (path : Path) : Except FileError Node :=
  (tree.find false path).map Prod.snd

def isFile (tree : FileTree) (path : Path) : Bool :=
  match tree.node path with
  | .ok node => node.isFile
  | .error _ => false

def isDir (tree : FileTree) (path : Path) : Bool :=
  match tree.node path with
  | .ok node => node.isDir
  | .error _ => false

def isPresent (tree : FileTree) (path : Path) : Bool :=
  match tree.node path with
  | .ok _ => true
  | .error _ => false

def read (tree : FileTree) (path : Path) : Except FileError ByteArray :=
  match tree.node path with
  | .ok (.file content _) => .ok content
  | .ok _ => .error .isDirectory
  | .error error => .error error

def readText (tree : FileTree) (path : Path) : Except FileError Text :=
  match tree.read path with
  | .ok bytes =>
    match Text.ofBytes? bytes with
    | some text => .ok text
    | none => .error .notText
  | .error error => .error error

-- The absolute path without links, dots and parents. It is built up segment by
-- segment, so the path itself may have any length, but not what it stands for.
def realPath (tree : FileTree) (path : Path) : Except FileError Path :=
  if '\x00' ∈ path then .error .nulInName
  else if path = [] then .error .notFound
  else (followWithin (isNameable ∘ absolutePath) tree.root true maxLinks (tree.start path)
    (Path.segments path)).map fun found => absolutePath found.1

theorem isFile_of_readText {tree : FileTree} {path : Path} {text : Text}
    (h : tree.readText path = .ok text) : tree.isFile path = true := by
  unfold readText read at h
  unfold isFile
  cases found : tree.node path with
  | error e => simp [found] at h
  | ok node => cases node <;> simp_all [Node.isFile]

end FileTree
end DevServer
