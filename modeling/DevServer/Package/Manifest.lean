import DevServer.FileTree.Basic
import DevServer.Json.Reader
import DevServer.Layout
import DevServer.Package.Exports

set_option autoImplicit false

namespace DevServer.Package

open Json

structure Manifest where
  name : Option Text
  main : Option Text
  module : Option Text
  exports : Option ExportMap
deriving Repr

def Manifest.ofValue (value : Value) : Manifest :=
  let text? (field : Text) : Option Text := (value.member? field).bind Value.text?
  { name := text? "name"
    main := text? "main"
    module := text? "module"
    exports := (value.member? "exports").bind ExportMap.ofValue? }

inductive ResolveError where
  | manifestMissing (path : Path)
  | manifestUnreadable (path : Path) (cause : FileError)
  | manifestInvalid (path : Path) (fault : Fault)
  | packageNotFound (package : Text)
  | notExported (request : Request)
  | unresolvable (request : Request)
deriving DecidableEq, Repr

def ResolveError.message : ResolveError → Text
  | manifestMissing path => "package manifest not found at " ++ path
  | manifestUnreadable path cause =>
    "cannot read package manifest at " ++ path ++ ": " ++ cause.message
  | manifestInvalid path fault =>
    "package manifest at " ++ path ++ " is not valid JSON: " ++ fault.message
  | packageNotFound package => "cannot find package `" ++ package ++ "`"
  | notExported request =>
    "subpath `" ++ exportKey request.subpath ++ "` is not exported by package `" ++
      request.package ++ "`"
  | unresolvable request =>
    "cannot resolve subpath `" ++ exportKey request.subpath ++ "` in package `" ++
      request.package ++ "`"

def manifestPath (packageRoot : Path) : Path := packageRoot.join manifestFile

def Manifest.read (tree : FileTree) (packageRoot : Path) : Except ResolveError Manifest :=
  let path := manifestPath packageRoot
  match tree.readText path with
  | .error .notFound => .error (.manifestMissing path)
  | .error cause => .error (.manifestUnreadable path cause)
  | .ok text =>
    match Json.read Reader.value text with
    | .ok value => .ok (Manifest.ofValue value)
    | .error fault => .error (.manifestInvalid path fault)

end DevServer.Package
