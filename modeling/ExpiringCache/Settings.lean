import ExpiringCache.Engine
import ExpiringCache.Keys
import ExpiringCache.Path

/-!
# Settings

What describes a cache before it is opened: the engine, the delimiter of its
keys, and the parameters of each engine. Settings are made by changing the
defaults step by step (`with…`), where an empty delimiter, user name or password
counts as unset.

The address of a server is a list of nodes between commas. `nodes_join` says
that an address made of two addresses has the nodes of both.
-/

namespace ExpiringCache

open Text

/-- The default number of seconds between two sweeps. -/
def defaultSweepSeconds : UInt64 := 60

/-- The seconds between two sweeps; zero turns sweeping off. -/
def sweepInterval? (seconds : UInt64) : Option UInt64 :=
  if seconds = 0 then none else some seconds

structure MemorySettings where
  sweepSeconds : UInt64 := defaultSweepSeconds
  deriving DecidableEq, Repr

structure EmbeddedSettings where
  /-- The directory of the store. -/
  path : String := "data/cache"
  sweepSeconds : UInt64 := defaultSweepSeconds
  deriving DecidableEq, Repr

structure RemoteSettings where
  /-- The node of a single server, or the seed nodes of a cluster between commas. -/
  address : String := "127.0.0.1:6379"
  username : Option String := none
  password : Option String := none
  /-- The database that is selected on a single server. -/
  database : Int64 := 0
  /-- Whether the server is a cluster. -/
  cluster : Bool := false
  deriving DecidableEq, Repr

structure Settings where
  engine : Engine := .memory
  delimiter : String := Keys.defaultDelimiter
  memory : MemorySettings := {}
  embedded : EmbeddedSettings := {}
  remote : RemoteSettings := {}
  deriving DecidableEq, Repr

instance : Inhabited Settings := ⟨{}⟩

/-- A text that counts as unset when it is empty. -/
def unlessEmpty (s : String) : Option String := if s = "" then none else some s

namespace RemoteSettings

def withUsername (s : RemoteSettings) (name : String) : RemoteSettings :=
  { s with username := unlessEmpty name }

def withPassword (s : RemoteSettings) (secret : String) : RemoteSettings :=
  { s with password := unlessEmpty secret }

/-- The printed structure. The password is left out. -/
def shown (s : RemoteSettings) : String :=
  let hidden := s.password.map fun _ => "***"
  s!"RemoteSettings \x7b address: {quoted s.address}, username: {quotedOption s.username}, " ++
    s!"password: {quotedOption hidden}, database_index: {s.database.toInt}, " ++
    s!"cluster: {s.cluster} \x7d"

end RemoteSettings

/-! ## Nodes -/

/-- The nodes of an address: the pieces between commas, without the blanks
around them and without empty pieces. -/
def nodesOf (address : String) : List String :=
  (((address.toList.splitOn ',').map trimChars).filter (· ≠ [])).map String.ofList

def RemoteSettings.nodes (s : RemoteSettings) : List String := nodesOf s.address

theorem nodes_join (a b : String) : nodesOf (a ++ "," ++ b) = nodesOf a ++ nodesOf b := by
  have comma : (",".toList : List Char) = [','] := rfl
  have split := List.splitOnP_append_cons (p := (· == ',')) a.toList b.toList
    (beq_self_eq_true ',')
  simp [nodesOf, List.splitOn, comma, split]

namespace Settings

/-- Changes the delimiter. An empty one means the default. -/
def withDelimiter (s : Settings) (delimiter : String) : Settings :=
  { s with delimiter := (unlessEmpty delimiter).getD Keys.defaultDelimiter }

/-- How a cache with these settings composes its keys. An empty delimiter means
the default. -/
def keys (s : Settings) : Keys :=
  ⟨(unlessEmpty s.delimiter).getD Keys.defaultDelimiter⟩

/-- Whether two settings say the same. Their paths may be spelt in two ways. -/
def agrees (a b : Settings) : Bool :=
  decide ({ a with embedded.path := b.embedded.path } = b) &&
    Path.stepsOf a.embedded.path == Path.stepsOf b.embedded.path

/-- Whether settings say what the defaults say. -/
def isDefault (s : Settings) : Bool := s.agrees {}

end Settings

end ExpiringCache
