import ExpiringCache.Settings
import ExpiringCache.Text.Numeral
import ExpiringCache.Time

/-!
# The command line: what can be said

One command per process, with options that select and configure the engine. The
options of the engine may stand before the command or among its own arguments,
and each of them can also be given by an environment variable.
-/

namespace ExpiringCache.CommandLine

open Text

/-! ## Commands -/

/-- The names of the commands. -/
inductive Verb
  | set | get | take | contains | delete | list | stats
  deriving DecidableEq, Repr

namespace Verb

def all : List Verb := [set, get, take, contains, delete, list, stats]

def name : Verb → String
  | set => "set"
  | get => "get"
  | take => "take"
  | contains => "exists"
  | delete => "delete"
  | list => "list"
  | stats => "stats"

/-- The command of a name. -/
def ofName? (s : String) : Option Verb := all.find? (·.name == s)

/-- How many arguments a command takes. -/
def arity : Verb → Nat
  | set => 3
  | get | take | contains | delete => 2
  | list => 1
  | stats => 0

end Verb

/-- A command with its arguments. -/
inductive Command
  | set (ns key value : String) (ttlMillis : UInt64)
  | get (ns key : String)
  | take (ns key : String)
  | contains (ns key : String)
  | delete (ns key : String)
  | list (ns : String) (limit : Option UInt64)
  | stats
  deriving DecidableEq, Repr

/-- The time to live that a command asks for. Zero milliseconds ask for none. -/
def Command.ttl? : Command → Option Duration
  | .set _ _ _ millis => if millis = 0 then none else some (.ofMillis millis.toNat)
  | _ => none

/-! ## Options -/

inductive Flag
  | backend | delimiter | path | address | username | password | database | cluster
  | ttl | limit | help | version
  deriving DecidableEq, Repr

namespace Flag

/-- The options of the engine. -/
def engine : List Flag :=
  [backend, delimiter, path, address, username, password, database, cluster]

def name : Flag → String
  | backend => "backend"
  | delimiter => "delimiter"
  | path => "path"
  | address => "address"
  | username => "username"
  | password => "password"
  | database => "db"
  | cluster => "cluster"
  | ttl => "ttl-ms"
  | limit => "limit"
  | help => "help"
  | version => "version"

/-- The environment variable of an option of the engine. -/
def setBy? : Flag → Option String
  | backend => some "CACHEX_BACKEND"
  | delimiter => some "CACHEX_DELIMITER"
  | path => some "CACHEX_PATH"
  | address => some "CACHEX_ADDRESS"
  | username => some "CACHEX_USERNAME"
  | password => some "CACHEX_PASSWORD"
  | database => some "CACHEX_DB"
  | cluster => some "CACHEX_CLUSTER"
  | ttl | limit | help | version => none

/-- Whether an option is followed by a value. -/
def takesValue : Flag → Bool
  | cluster | help | version => false
  | _ => true

/-- The options that may stand before a command, or among the arguments of one. -/
def at? : Option Verb → List Flag
  | none => engine ++ [help, version]
  | some .set => engine ++ [help, ttl]
  | some .list => engine ++ [help, limit]
  | some _ => engine ++ [help]

end Flag

/-! ## Errors -/

/-- Why a command line is not carried out. -/
inductive UsageError
  | argumentConflict
  | helpAsked
  | helpInsteadOfNothing
  | invalidCommand
  | invalidValue
  | missingArgument
  | missingCommand
  | tooManyValues
  | unknownArgument
  | valueValidation
  | versionAsked
  deriving DecidableEq, Repr

/-- What is wrong with the value of an option. -/
def Flag.check (flag : Flag) (value : String) : Except UsageError Unit :=
  let require := fun (ok : Bool) (e : UsageError) => if ok then .ok () else .error e
  match flag with
  | .path => require (value != "") .invalidValue
  | .database => require (signed? 64 value.toList).isSome .valueValidation
  | .ttl | .limit => require (unsigned? 64 value.toList).isSome .valueValidation
  | .cluster => require (value == "true" || value == "false") .invalidValue
  | _ => .ok ()

/-! ## Settings -/

/-- The settings that the values of the options ask for. A process lives for one
command, so there is no background sweep. -/
def settingsOf (value? : Flag → Option String) : Settings :=
  let defaults : RemoteSettings := {}
  let remote : RemoteSettings :=
    { defaults with
      address := (value? .address).getD defaults.address
      database := (((value? .database).bind fun v => signed? 64 v.toList).map Int64.ofInt).getD 0
      cluster := value? .cluster == some "true" }
  let remote := match value? .username with
    | some name => remote.withUsername name
    | none => remote
  let remote := match value? .password with
    | some secret => remote.withPassword secret
    | none => remote
  let settings : Settings :=
    { engine := .ofName ((value? .backend).getD "embedded")
      memory := { sweepSeconds := 0 }
      embedded := { path := (value? .path).getD "data/cache", sweepSeconds := 0 }
      remote := remote }
  settings.withDelimiter ((value? .delimiter).getD Keys.defaultDelimiter)

end ExpiringCache.CommandLine
