import DevServer.Json.Value
import DevServer.Package.Request

set_option autoImplicit false

namespace DevServer.Package

open Json

abbrev ExportMap := Json.Members

def conditions : List Text := ["import", "module", "browser", "default"]

mutual
def target? : Value → Option Text
  | .string target => some target
  | .object members =>
    let targets := memberTargets members
    conditions.findSome? fun condition => (targets.lookup condition).join
  | .null => none
  | .bool _ => none
  | .number _ => none
  | .array _ => none
def memberTargets : List (Text × Value) → List (Text × Option Text)
  | [] => []
  | member :: rest => memberTarget member :: memberTargets rest
def memberTarget : Text × Value → Text × Option Text
  | (name, value) => (name, target? value)
end

inductive Lookup where
  | target (target : Text)
  | missingKey
  | noCondition
deriving DecidableEq, Repr

def Lookup.ofEntry (entry : Value) : Lookup :=
  match target? entry with
  | some found => .target found
  | none => .noCondition

def lookup (exports : ExportMap) (subpath : Text) : Lookup :=
  match Members.get? (exportKey subpath) exports with
  | some entry => Lookup.ofEntry entry
  | none => .missingKey

def rootKey : Text := exportKey []

def ExportMap.ofValue? : Value → Option ExportMap
  | .string target => some [(rootKey, .string target)]
  | .object members =>
    if members.any fun member => member.1.startsWith "." then some members
    else some [(rootKey, .object members)]
  | _ => none

end DevServer.Package
