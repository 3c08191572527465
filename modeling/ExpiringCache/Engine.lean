import ExpiringCache.Text.Blank

/-!
# Engines

The storage engine that a cache is built on, and the names it goes by in
settings and on the command line.
-/

namespace ExpiringCache

/-- What holds the entries of a cache. -/
inductive Engine
  /-- An expiring table inside the process. -/
  | memory
  /-- A durable store in a directory. -/
  | embedded
  /-- A server, or a cluster of servers. -/
  | remote
  /-- Any other name. A cache of unknown engine is held in memory. -/
  | unknown
  deriving DecidableEq, Repr

namespace Engine

instance : Inhabited Engine := ⟨memory⟩

def name : Engine → String
  | memory => "memory"
  | embedded => "embedded"
  | remote => "remote"
  | unknown => "unknown"

/-- The engine of a name. Blanks around the name and the case of its ASCII
letters do not matter. -/
def ofName (s : String) : Engine :=
  match ((Text.trim s).map Char.toLower) with
  | "memory" => memory
  | "embedded" | "badger" | "sled" => embedded
  | "remote" | "redis" => remote
  | _ => unknown

end Engine

end ExpiringCache
