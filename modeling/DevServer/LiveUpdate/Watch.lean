import DevServer.Layout
import DevServer.LiveUpdate.Message

set_option autoImplicit false

namespace DevServer.LiveUpdate

open Text

inductive Change where
  | added
  | modified
  | removed
deriving DecidableEq, Repr

inductive Event where
  | any
  | access
  | create
  | modify
  | remove
  | other
deriving DecidableEq, Repr

def Event.change? : Event → Option Change
  | create => some .added
  | modify => some .modified
  | remove => some .removed
  | any => none
  | access => none
  | other => none

def ignoredNames : List Text := [packagesDir, buildDir]

def isIgnored (path root : Path) : Bool :=
  (Path.relativeTo path root).any fun part =>
    part.name?.any fun name => name.startsWith "." || ignoredNames.contains name

structure Notice where
  change : Change
  path : Path
deriving DecidableEq, Repr

def Notice.message (notice : Notice) (root : Path) : Message := classify notice.path root

def notices (event : Event) (paths : List Path) (root : Path) : List Notice :=
  match event.change? with
  | some change => (paths.filter fun path => !isIgnored path root).map (Notice.mk change)
  | none => []

end DevServer.LiveUpdate
