import Mathlib.Data.List.Nodup
import DevServer.Config.Settings
import DevServer.Proofs.Bytes
import DevServer.Proofs.Records

set_option autoImplicit false

namespace DevServer.Config

open Json Json.Reader

section Tables

abbrev Definitions := List (Text × Text)

def IsDefinitions (entries : Definitions) (shown : Text) : Prop :=
  ∃ inside, shown = '\x7b' :: (inside ++ ['\x7d']) ∧
    Listed (Row Escaped Prod.fst fun e value => Denotes value e.2) entries inside

def redefine (all : Definitions) (entry : Text × Text) : Definitions :=
  all.filter (·.1 ≠ entry.1) ++ [(entry.1, entry.2)]

def tableOf (entries : Definitions) : Definitions :=
  (entries.foldl redefine []).mergeSort fun a b => a.1.isBefore b.1

end Tables

def IsPort (n : Port) (shown : Text) : Prop := IsNatural n shown ∧ n ≤ 65535

inductive ServerField where
  | host (name : Text)
  | port (n : Port)

namespace ServerField

def name : ServerField → Text
  | host _ => "host"
  | port _ => "port"

def Shown : ServerField → Text → Prop
  | host name, shown => Denotes shown name
  | port n, shown => IsPort n shown

def set (fields : ServerFields) : ServerField → ServerFields
  | host name => { fields with host := some name }
  | port n => { fields with port := some n }

def free (fields : ServerFields) : ServerField → Prop
  | host _ => fields.host = none
  | port _ => fields.port = none

end ServerField

section Servers

variable (fields : List (Given ServerField))

def IsServer (shown : Text) : Prop := IsRecord ServerField.name ["host", "port"] ServerField.Shown fields shown

def serverFields : ServerFields := fields.foldl (Given.put ServerField.set) ⟨none, none⟩

def serverOf : ServerConfig where
  host := (serverFields fields).host.getD "localhost"
  port := (serverFields fields).port.getD 3001

end Servers

inductive LiveUpdateField where
  | port (n : Port)

namespace LiveUpdateField

def name : LiveUpdateField → Text
  | port _ => "port"

def Shown : LiveUpdateField → Text → Prop
  | port n, shown => IsPort n shown

def set (_ : Option Port) : LiveUpdateField → Option Port
  | port n => some n

end LiveUpdateField

section LiveUpdates

variable (fields : List (Given LiveUpdateField))

def IsLiveUpdate (shown : Text) : Prop := IsRecord LiveUpdateField.name ["port"] LiveUpdateField.Shown fields shown

def livePortOf : Port := (fields.foldl (Given.put LiveUpdateField.set) none).getD 5001

end LiveUpdates

def IsTexts (texts : List Text) (shown : Text) : Prop :=
  ∃ inside, shown = '[' :: (inside ++ [']']) ∧ Listed (fun text value => Denotes value text) texts inside

inductive Field where
  | server (fields : List (Given ServerField))
  | liveUpdate (fields : List (Given LiveUpdateField))
  | entry (url : Text)
  | plugins (names : List Text)
  | resolveCache (b : Bool)
  | define (entries : Definitions)

namespace Field

def name : Field → Text
  | server _ => "server"
  | liveUpdate _ => "liveUpdate"
  | entry _ => "entry"
  | plugins _ => "plugins"
  | resolveCache _ => "resolveCache"
  | define _ => "define"

def known : List Text := ["server", "liveUpdate", "entry", "plugins", "resolveCache", "define"]

def Shown : Field → Text → Prop
  | server fields, shown => IsServer fields shown
  | liveUpdate fields, shown => IsLiveUpdate fields shown
  | entry url, shown => Denotes shown url
  | plugins names, shown => IsTexts names shown
  | resolveCache b, shown => shown = flagText b
  | define entries, shown => IsDefinitions entries shown

def set (fields : Fields) : Field → Fields
  | server given => { fields with server := some (serverOf given) }
  | liveUpdate given => { fields with livePort := some (livePortOf given) }
  | entry url => { fields with entry := some url }
  | plugins names => { fields with plugins := some names }
  | resolveCache b => { fields with keepResolutions := some b }
  | define entries => { fields with define := some (tableOf entries) }

def free (fields : Fields) : Field → Prop
  | server _ => fields.server = none
  | liveUpdate _ => fields.livePort = none
  | entry _ => fields.entry = none
  | plugins _ => fields.plugins = none
  | resolveCache _ => fields.keepResolutions = none
  | define _ => fields.define = none

end Field

section Objects

variable (items : List (Given Field))

section Servers

variable (fields : List (Given ServerField)) (once : Once ServerField.name fields)
include once

end Servers

theorem live_port (fields : List (Given LiveUpdateField)) (once : Once LiveUpdateField.name fields) :
    Chosen (fun port => .field (.port port) ∈ fields) 5001 (livePortOf fields) := by
  refine field_chosen LiveUpdateField.set id .port id (fun _ _ => rfl) (fun state f apart => ?_)
    (fun _ _ => rfl) fields once none rfl _
  cases f
  exact absurd rfl (apart _)

variable (once : Once Field.name items)
include once

end Objects

end DevServer.Config
