import DevServer.Package.Manifest

set_option autoImplicit false

namespace DevServer.Package

def ancestorsFrom : Nat → Path → List Path
  | 0, _ => []
  | fuel + 1, path =>
    match path.parent? with
    | some parent => path :: ancestorsFrom fuel parent
    | none => []

def ancestors (path : Path) : List Path := ancestorsFrom (path.length + 1) path

def installPath (package : Text) (dir : Path) : Path :=
  Path.join (Path.join dir packagesDir) package

-- The package installed nearest to a directory; the root of the tree is not searched.
def packageRoot? (tree : FileTree) (package : Text) (root : Path) : Option Path :=
  ((ancestors root).map (installPath package)).find? tree.isDir

def targetPath (packageRoot : Path) (target : Text) : Path :=
  packageRoot.join ((target.after? "./").getD target)

def probeEndings : List Text := ["", ".js", ".mjs"]
def defaultEntry : Text := "index.js"

def probe? (tree : FileTree) (base : Path) : Option Path :=
  (probeEndings.map (base ++ ·)).find? tree.isFile

def entryField? (manifest : Manifest) : Option Text :=
  manifest.module.orElse fun _ => manifest.main

def resolveIn (tree : FileTree) (packageRoot : Path) (manifest : Manifest) (request : Request) :
    Except ResolveError Path :=
  match manifest.exports with
  | some exports =>
    match lookup exports request.subpath with
    | .target target => .ok (targetPath packageRoot target)
    | .missingKey | .noCondition => .error (.notExported request)
  | none =>
    let probe (candidate : Text) : Except ResolveError Path :=
      match probe? tree (packageRoot.join candidate) with
      | some path => .ok path
      | none => .error (.unresolvable request)
    if request.subpath = [] then
      match entryField? manifest with
      | some field => .ok (targetPath packageRoot field)
      | none => probe defaultEntry
    else probe request.subpath

structure Resolution where
  file : Path
  manifest : Path
deriving DecidableEq, Repr

def resolve (tree : FileTree) (specifier : Text) (root : Path) :
    Except ResolveError Resolution :=
  let request := Request.ofSpecifier specifier
  if request.package = [] ∨ isRelative specifier then .error (.packageNotFound specifier)
  else match packageRoot? tree request.package root with
    | none => .error (.packageNotFound request.package)
    | some packageRoot => do
      let manifest ← Manifest.read tree packageRoot
      let file ← resolveIn tree packageRoot manifest request
      .ok ⟨file, manifestPath packageRoot⟩

end DevServer.Package
