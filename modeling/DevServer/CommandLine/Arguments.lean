import DevServer.Config.Basic

set_option autoImplicit false

namespace DevServer.CommandLine

open Text

inductive Key where
  | verbose
  | json
  | cwd
  | help
  | version
  | port
  | livePort
  | host
  | config
  | mode
deriving DecidableEq, Repr

inductive Command where
  | version
  | dev
  | help
deriving DecidableEq, Repr

def Command.ofName? (name : Text) : Option Command :=
  if name = "version" then some version
  else if name = "dev" then some dev
  else if name = "help" then some help
  else none

namespace Key

def long : Key → Text
  | verbose => "verbose"
  | json => "json"
  | cwd => "cwd"
  | help => "help"
  | version => "version"
  | port => "port"
  | livePort => "live-port"
  | host => "host"
  | config => "config"
  | mode => "mode"

def short? : Key → Option Char
  | verbose => some 'v'
  | help => some 'h'
  | version => some 'V'
  | port => some 'p'
  | config => some 'c'
  | mode => some 'm'
  | _ => none

def takesValue : Key → Bool
  | verbose => false
  | json => false
  | help => false
  | version => false
  | _ => true

def mayRepeat : Key → Bool
  | verbose => true
  | _ => false

def everywhere : List Key := [verbose, json, cwd, help]

def known : Option Command → List Key
  | none => version :: everywhere
  | some .dev => [port, livePort, host, config, mode] ++ everywhere
  | some .version => everywhere
  | some .help => []

end Key

-- A port may be written with a sign, even zero with a minus.
def port? (text : Text) : Option Port :=
  let number :=
    match text with
    | '+' :: digits => toNat? digits
    | '-' :: digits => (toNat? digits).filter (· = 0)
    | digits => toNat? digits
  number.filter (· ≤ maxPort)

def accepts (key : Key) (value : Text) : Bool :=
  match key with
  | .port => (port? value).isSome
  | .livePort => (port? value).isSome
  | .cwd => value ≠ []
  | .config => value ≠ []
  | _ => true

inductive Stop where
  | help
  | version
  | invalid
deriving DecidableEq, Repr

structure Arguments where
  command : Option Command
  operand : Option Text
  given : List (Key × Text)
  givenBefore : List (Key × Text)
  pending : Option Key
  plain : Bool
deriving DecidableEq, Repr

namespace Arguments

def empty : Arguments := ⟨none, none, [], [], none, false⟩

-- What is given for a key; after the command counts more than before it.
def value? (arguments : Arguments) (key : Key) : Option Text :=
  (arguments.given.lookup key).orElse fun _ => arguments.givenBefore.lookup key

def has (arguments : Arguments) (key : Key) : Bool :=
  (arguments.given.lookup key).isSome && !key.mayRepeat

def give (arguments : Arguments) (key : Key) (value : Text) : Except Stop Arguments :=
  if arguments.has key || !accepts key value then .error .invalid
  else .ok { arguments with given := arguments.given ++ [(key, value)], pending := none }

def flag (arguments : Arguments) (key : Key) : Except Stop Arguments :=
  match key with
  | .help => .error .help
  | .version => .error .version
  | _ => arguments.give key []

def enter (arguments : Arguments) (command : Command) : Arguments :=
  { arguments with command := some command, given := [], givenBefore := arguments.given }

def operate (arguments : Arguments) (operand : Text) : Except Stop Arguments :=
  let takes :=
    match arguments.command with
    | some .dev => operand ≠ []
    | some .help => (Command.ofName? operand).isSome
    | _ => false
  if takes && arguments.operand.isNone then .ok { arguments with operand := some operand }
  else .error .invalid

def find? (arguments : Arguments) (is : Key → Bool) : Option Key :=
  (Key.known arguments.command).find? is

def long (arguments : Arguments) (name : Text) (value : Option Text) : Except Stop Arguments :=
  match arguments.find? fun key => key.long = name with
  | none => .error .invalid
  | some key =>
    match key.takesValue, value with
    | true, some value => arguments.give key value
    | true, none => .ok { arguments with pending := some key }
    | false, some _ => .error .invalid
    | false, none => arguments.flag key

def shorts (arguments : Arguments) : Text → Except Stop Arguments
  | [] => .ok arguments
  | c :: rest =>
    match arguments.find? fun key => key.short? = some c with
    | none => .error .invalid
    | some key =>
      if key.takesValue then
        match rest with
        | [] => .ok { arguments with pending := some key }
        | '=' :: value => arguments.give key value
        | value => arguments.give key value
      else
        match arguments.flag key with
        | .ok arguments => arguments.shorts rest
        | .error stop => .error stop

def word (arguments : Arguments) (text : Text) : Except Stop Arguments :=
  match arguments.command, Command.ofName? text with
  | none, some command => .ok (arguments.enter command)
  | _, _ => arguments.operate text

def step (arguments : Arguments) (argument : Text) : Except Stop Arguments :=
  if arguments.plain ∨ arguments.command = some .help then arguments.operate argument
  else match arguments.pending, argument with
    | some key, ['-'] => arguments.give key ['-']
    | some _, '-' :: _ => .error .invalid
    | some key, value => arguments.give key value
    | none, ['-'] => arguments.operate ['-']
    | none, ['-', '-'] => .ok { arguments with plain := true }
    | none, '-' :: '-' :: option =>
      match cutAt? '=' option with
      | some (name, value) => arguments.long name (some value)
      | none => arguments.long option none
    | none, '-' :: cluster => arguments.shorts cluster
    | none, text => arguments.word text

def finish (arguments : Arguments) : Except Stop Arguments :=
  if arguments.pending.isSome then .error .invalid
  else if arguments.command = some .help then .error .help
  else .ok arguments

def ofList (arguments : List Text) : Except Stop Arguments := do
  (← arguments.foldlM step empty).finish

end Arguments
end DevServer.CommandLine
