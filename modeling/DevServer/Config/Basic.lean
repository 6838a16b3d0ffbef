import DevServer.FileTree.Basic
import DevServer.Json.Reader
import DevServer.Layout

set_option autoImplicit false

namespace DevServer

abbrev Port := Nat

def maxPort : Port := 65535

structure ServerConfig where
  host : Text
  port : Port
deriving DecidableEq, Repr

structure Config where
  server : ServerConfig
  livePort : Port
  entry : Text
  plugins : List Text
  keepResolutions : Bool
  define : List (Text × Text)
deriving DecidableEq, Repr

def defaultHost : Text := "localhost"

def Config.default : Config where
  server := ⟨defaultHost, 3001⟩
  livePort := 5001
  entry := "/src/main.jsx"
  plugins := ["env", "css"]
  keepResolutions := false
  define := []

inductive SetupError where
  | configUnreadable (path : Path) (cause : FileError)
  | configInvalid (path : Path) (fault : Json.Fault)
  | unknownPlugin (name : Text)
  | rootNotFound (path : Path)
deriving DecidableEq, Repr

def SetupError.message : SetupError → Text
  | configUnreadable path cause => "Failed to read config at " ++ path ++ ": " ++ cause.message
  | configInvalid path fault => "Failed to parse config at " ++ path ++ ": " ++ fault.message
  | unknownPlugin name => "Unknown plugin `" ++ name ++ "` in configuration"
  | rootNotFound path => "Project root not found: " ++ path

namespace Config

open Json Json.Reader

def portNumber : Reader Port := natural maxPort

def record {σ : Type} (member : σ → Text → Reader σ) (positions : Reader σ) (empty : σ) :
    Reader σ := do
  match ← skipSpace with
  | some '{' => drop; members string member empty
  | some '[' =>
    drop
    let fields ← positions
    close ']'
    return fields
  | _ => mismatch

def unknown : Reader Unit := do
  colon
  skip

structure ServerFields where
  host : Option Text
  port : Option Port

def serverMember (fields : ServerFields) (name : Text) : Reader ServerFields := do
  if name = "host" then return { fields with host := ← once fields.host text }
  if name = "port" then return { fields with port := ← once fields.port portNumber }
  unknown
  return fields

def serverRecord : Reader ServerConfig := do
  let fields ← record serverMember
    (do return { host := ← next? true text, port := ← next? false portNumber }) ⟨none, none⟩
  let plain := Config.default.server
  return ⟨fields.host.getD plain.host, fields.port.getD plain.port⟩

def livePortMember (field : Option Port) (name : Text) : Reader (Option Port) := do
  if name = "port" then once field portNumber
  else
    unknown
    return field

def liveUpdateRecord : Reader Port := do
  return (← record livePortMember (next? true portNumber) none).getD Config.default.livePort

def pairs : Reader (List (Text × Text)) := do
  return (← table text).mergeSort fun a b => a.1.isBefore b.1

structure Fields where
  server : Option ServerConfig
  livePort : Option Port
  entry : Option Text
  plugins : Option (List Text)
  keepResolutions : Option Bool
  define : Option (List (Text × Text))

def noFields : Fields := ⟨none, none, none, none, none, none⟩

def Fields.fill (fields : Fields) : Config where
  server := fields.server.getD Config.default.server
  livePort := fields.livePort.getD Config.default.livePort
  entry := fields.entry.getD Config.default.entry
  plugins := fields.plugins.getD Config.default.plugins
  keepResolutions := fields.keepResolutions.getD Config.default.keepResolutions
  define := fields.define.getD Config.default.define

def member (fields : Fields) (name : Text) : Reader Fields := do
  if name = "server" then return { fields with server := ← once fields.server serverRecord }
  if name = "liveUpdate" then return { fields with livePort := ← once fields.livePort liveUpdateRecord }
  if name = "entry" then return { fields with entry := ← once fields.entry text }
  if name = "plugins" then return { fields with plugins := ← once fields.plugins (list text) }
  if name = "resolveCache" then
    return { fields with keepResolutions := ← once fields.keepResolutions flag }
  if name = "define" then return { fields with define := ← once fields.define pairs }
  unknown
  return fields

def positions : Reader Fields := do
  return {
    server := ← next? true serverRecord
    livePort := ← next? false liveUpdateRecord
    entry := ← next? false text
    plugins := ← next? false (list text)
    keepResolutions := ← next? false flag
    define := ← next? false pairs }

def reader : Reader Config := do return (← record member positions noFields).fill

def parse (path : Path) (source : Text) : Except SetupError Config :=
  match Json.read reader source with
  | .ok config => .ok config
  | .error fault => .error (.configInvalid path fault)

def file? (tree : FileTree) (root : Path) : Option Path → Option Path
  | some path => some (root.join path)
  | none =>
    let path := root.join configFile
    if tree.isFile path then some path else none

def load (tree : FileTree) (root : Path) (asked : Option Path) :
    Except SetupError (Option Path × Config) :=
  match file? tree root asked with
  | none => .ok (none, Config.default)
  | some path =>
    match tree.readText path with
    | .error cause => .error (.configUnreadable path cause)
    | .ok source => (parse path source).map fun config => (some path, config)

end Config
end DevServer
