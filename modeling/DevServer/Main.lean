import DevServer.CommandLine.Basic
import DevServer.FileTree.Edit

set_option autoImplicit false

namespace DevServer.Main

def maxDepth : Nat := 64

def instantOf (path : Path) : IO Instant := do
  let modified := (← (← IO.FS.realPath (String.ofList path)).metadata).modified
  return modified.sec * 1000000000 + modified.nsec.toNat

def loadNode : Nat → String → IO Node
  | 0, _ => return Node.empty
  | depth + 1, path => do
    let place ← IO.FS.realPath path
    if ← place.isDir then
      let mut entries := Forest.nil
      for entry in ← place.readDir do
        try
          entries := .cons entry.fileName.toList (← loadNode depth entry.path.toString) entries
        catch _ => continue
      return .dir entries
    else
      return .file (← IO.FS.readBinFile place) (← instantOf path.toList)

def loadInto (tree : FileTree) (path : Path) : IO FileTree := do
  try
    return tree.write path (← loadNode maxDepth (String.ofList path))
  catch _ => return tree

def loadTree (here root : Path) : IO FileTree := do
  let mut tree := FileTree.empty (Path.names here) (← instantOf here)
  tree ← loadInto tree root
  for dir in Package.ancestors (here.join root) do
    tree ← loadInto tree (Path.join dir packagesDir)
  return tree

def environment : IO Env.Definitions := do
  let bytes ← try IO.FS.readBinFile "/proc/self/environ" catch _ => pure .empty
  return (Text.split '\x00' ((Text.ofBytes? bytes).getD [])).filterMap (Text.cutAt? '=')

def put (text : Text) : IO Unit := IO.print (String.ofList text)

def printResponse (response : Http.Response) : IO Unit := do
  put (Text.ofNat response.status.code ++ ['\n'])
  for (header, value) in response.headers do
    put (header.name ++ [':', ' '] ++ value ++ ['\n'])
  put ['\n']
  (← IO.getStdout).write response.body
  (← IO.getStdout).flush

partial def serve (here root : Path) (app : App) : IO Unit := do
  let line ← (← IO.getStdin).getLine
  match Text.split ' ' (Text.trim line) with
  | [method, target] =>
    let tree ← loadTree here root
    let (response, app) := app.respond tree ⟨.ofName method, .ofText target, []⟩
    printResponse response
    serve here root app
  | _ => unless line.isEmpty do serve here root app

def launch? (here : Path) (arguments : List Text) : Option Launch :=
  match CommandLine.intent here arguments with
  | .launch launch => some launch
  | _ => none

def run (arguments : List Text) : IO UInt32 := do
  let here := (← IO.FS.realPath ".").toString.toList
  let launch? := launch? here arguments
  let tree ← match launch? with
    | some launch => loadTree here launch.root
    | none => pure (FileTree.empty (Path.names here) (← instantOf here))
  match CommandLine.run tree (← environment) here arguments with
  | .exit exit =>
    put exit.out
    unless exit.err.isEmpty do IO.eprintln (String.ofList exit.err)
    return exit.code.toUInt32
  | .serve started =>
    if let some launch := launch? then
      IO.eprintln (String.ofList (started.notice launch.mode))
      serve here launch.root started.app
    return 0

end DevServer.Main

def main (arguments : List String) : IO UInt32 :=
  DevServer.Main.run (arguments.map String.toList)
