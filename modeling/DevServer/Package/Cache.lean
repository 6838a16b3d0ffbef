import DevServer.Package.Resolve

set_option autoImplicit false

namespace DevServer.Package

-- Milliseconds since the epoch in a word, if not before it, and bytes.
structure Stamp where
  modified : Option Nat
  size : Option Nat
deriving DecidableEq, Repr

namespace Stamp

def empty : Stamp := ⟨none, none⟩

-- The numbers of 64 bits.
def wordSize : Nat := 18446744073709551616

def milliseconds? (time : Instant) : Option Nat :=
  if 0 ≤ time then some (time.toNat / 1000000 % wordSize) else none

def of (tree : FileTree) (path : Path) : Stamp :=
  match tree.find true path with
  | .ok (place, node) => ⟨milliseconds? (tree.modified place node), some (tree.size place node)⟩
  | .error _ => empty

def matchesNow (stamp : Stamp) (tree : FileTree) (path : Path) : Bool :=
  tree.isPresent path && stamp == of tree path

end Stamp

structure Key where
  specifier : Text
  root : Path
deriving Repr

-- Roots are the same when their components agree.
def Key.same (a b : Key) : Bool := a.specifier == b.specifier && Path.same a.root b.root

structure Entry where
  key : Key
  resolution : Resolution
  stamp : Stamp
deriving Repr

abbrev Entries := List Entry

namespace Entries

def find? (key : Key) (entries : Entries) : Option Entry :=
  List.find? (fun entry => entry.key.same key) entries

def remove (key : Key) (entries : Entries) : Entries :=
  entries.filter fun entry => !entry.key.same key

def isFresh (tree : FileTree) (entry : Entry) : Bool :=
  entry.stamp.matchesNow tree entry.resolution.manifest && tree.isPresent entry.resolution.file

def get (tree : FileTree) (key : Key) (entries : Entries) : Option Path × Entries :=
  match find? key entries with
  | none => (none, entries)
  | some entry =>
    if isFresh tree entry then (some entry.resolution.file, entries)
    else (none, remove key entries)

def set (tree : FileTree) (key : Key) (resolution : Resolution) (entries : Entries) : Entries :=
  ⟨key, resolution, Stamp.of tree resolution.manifest⟩ :: remove key entries

def dependsOn (manifest : Path) (entry : Entry) : Bool :=
  Path.same entry.resolution.manifest manifest

def invalidate (manifest : Path) (entries : Entries) : Nat × Entries :=
  ((entries.filter (dependsOn manifest)).length,
    entries.filter fun entry => !dependsOn manifest entry)

end Entries

inductive Cache where
  | off
  | memory (entries : Entries)
deriving Repr

namespace Cache

def entries : Cache → Entries
  | off => []
  | memory entries => entries

def get (tree : FileTree) (key : Key) : Cache → Option Path × Cache
  | off => (none, off)
  | memory entries =>
    let (hit, entries) := entries.get tree key
    (hit, memory entries)

def set (tree : FileTree) (key : Key) (resolution : Resolution) : Cache → Cache
  | off => off
  | memory entries => memory (entries.set tree key resolution)

def invalidate (manifest : Path) : Cache → Nat × Cache
  | off => (0, off)
  | memory entries =>
    let (count, entries) := entries.invalidate manifest
    (count, memory entries)

def resolve (tree : FileTree) (specifier : Text) (root : Path) (cache : Cache) :
    Except ResolveError Path × Cache :=
  let key : Key := ⟨specifier, root⟩
  match cache.get tree key with
  | (some file, cache) => (.ok file, cache)
  | (none, cache) =>
    match Package.resolve tree specifier root with
    | .ok resolution => (.ok resolution.file, cache.set tree key resolution)
    | .error error => (.error error, cache)

end Cache
end DevServer.Package
