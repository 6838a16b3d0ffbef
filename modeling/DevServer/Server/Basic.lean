import DevServer.CommonJs.Rewrite
import DevServer.Env.Client
import DevServer.LiveUpdate.Message
import DevServer.Package.Cache
import DevServer.Plugin.Basic
import DevServer.Specifier

set_option autoImplicit false

namespace DevServer

inductive Loader where
  | js
  | jsx
deriving DecidableEq, Repr

def Loader.ofPath (path : Path) : Loader :=
  if ('x' ∈ (Path.extension? path).getD []) then jsx else js

structure Toolchain where
  lower : Text → Text → Loader → Except Text Text
  bundle : Text → Path → Except Text Text

def Toolchain.passthrough : Toolchain where
  lower := fun code _ _ => .ok code
  bundle := fun code _ => .ok code

inductive ServeError where
  | fileNotFound (url : Text)
  | unresolved (specifier : Text) (cause : Package.ResolveError)
  | unreadable (path : Path) (cause : FileError)
  | toolchain (module : Text) (message : Text)
deriving DecidableEq, Repr

def ServeError.message : ServeError → Text
  | fileNotFound url => "file not found: " ++ url
  | unresolved specifier cause => "cannot resolve `" ++ specifier ++ "`: " ++ cause.message
  | unreadable path cause => "failed to read " ++ path ++ ": " ++ cause.message
  | toolchain module message => "toolchain failed on " ++ module ++ ": " ++ message

def ServeError.isNotFound : ServeError → Bool
  | toolchain _ _ => false
  | _ => true

structure ServedModule where
  code : Text
  file : Option Path
deriving DecidableEq, Repr

structure Reply where
  calls : List Call
  answer : Except ServeError ServedModule

structure Server where
  root : Path
  plugins : Pipeline
  toolchain : Toolchain

namespace Server

open Text

def isInPackages (path : Path) : Bool := (Path.names path).contains packagesDir

def isStyle (path : Path) : Bool := Path.extension? path = some "css".toList

def fileForUrl? (root : Path) (url : Text) : Option Path :=
  let relative : Path := url.dropWhile (· == '/')
  if (Path.components relative).all Component.isInner then some (Path.join root relative) else none

def relativeProbes : List Text := ["", ".js", ".mjs", "/index.js"]

def rebased? (tree : FileTree) (dir root : Path) (specifier : Text) : Option Text := do
  if !(specifier.startsWith "./" || specifier.startsWith "../") then none
  else
    let target := Path.normalize (dir.join specifier)
    let found ← (relativeProbes.map (target ++ ·)).find? tree.isFile
    if Path.isWithin found root then some (LiveUpdate.projectPath found root) else none

def rebase (tree : FileTree) (file root : Path) (code : Text) : Text :=
  match Path.parent? file with
  | some dir => Specifier.rewrite (rebased? tree dir root) code
  | none => code

def dependencyCode (tree : FileTree) (root file : Path) (source : Text) : Text :=
  rebase tree file root (Env.substituteDependency source)

structure Converted where
  calls : List Call
  code : Text

def projectCode (tree : FileTree) (plugins : Pipeline) (file : Path) (source : Text) : Converted :=
  let converted := CommonJs.toModule tree file source
  let run := plugins.run .transform converted file
  match run.outcome with
  | .ok code => ⟨run.calls, code⟩
  | .error _ => ⟨run.calls, converted⟩

def convert (server : Server) (tree : FileTree) (file : Path) (source : Text) : Converted :=
  if isInPackages file then ⟨[], dependencyCode tree server.root file source⟩
  else projectCode tree server.plugins file source

def lowered (toolchain : Toolchain) (file : Path) (code : Text) : Text :=
  match toolchain.lower code file (Loader.ofPath file) with
  | .ok new => new
  | .error _ => code

def emptyStyle : Text := "export default \x7b\x7d;"

def source (server : Server) (tree : FileTree) (url : Text) : Reply :=
  match fileForUrl? server.root url with
  | none => ⟨[], .error (.fileNotFound url)⟩
  | some file =>
    if !tree.isFile file then
      if isStyle file then ⟨[], .ok ⟨emptyStyle, none⟩⟩ else ⟨[], .error (.fileNotFound url)⟩
    else match tree.readText file with
      | .error cause => ⟨[], .error (.unreadable file cause)⟩
      | .ok text =>
        let converted := server.convert tree file text
        ⟨converted.calls,
          .ok ⟨lowered server.toolchain file (Specifier.rewriteBare converted.code), some file⟩⟩

def bundled (server : Server) (tree : FileTree) (file : Path) : Except ServeError ServedModule :=
  match tree.readText file with
  | .error cause => .error (.unreadable file cause)
  | .ok text =>
    match server.toolchain.bundle (Env.substituteDependency text) file with
    | .error message => .error (.toolchain file message)
    | .ok code => .ok ⟨Specifier.rewriteBare (rebase tree file server.root code), some file⟩

def dependency (server : Server) (tree : FileTree) (specifier : Text) (cache : Package.Cache) :
    Except ServeError ServedModule × Package.Cache :=
  match cache.resolve tree specifier server.root with
  | (.error cause, cache) => (.error (.unresolved specifier cause), cache)
  | (.ok file, cache) => (server.bundled tree file, cache)

end Server
end DevServer
