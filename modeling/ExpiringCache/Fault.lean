/-!
# Faults

What can go wrong in a cache. An absent or expired entry is an ordinary answer
and never a fault.
-/

namespace ExpiringCache

/-- A fault that the server, or the client's side of the connection, reports. -/
structure RemoteFault where
  /-- The class of the fault. -/
  kind : String
  /-- The code word of a server's error reply. -/
  code : Option String
  deriving DecidableEq, Repr

inductive Fault
  /-- The settings describe no cache. -/
  | config (reason : String)
  /-- A stored record cannot be decoded. -/
  | corrupted (reason : String)
  /-- The cache has been closed. -/
  | closed
  /-- The operating system reports a failure. -/
  | io (reason : String)
  /-- The durable store reports a failure. -/
  | store (reason : String)
  /-- The server or its connection reports a failure. -/
  | remote (fault : RemoteFault)
  deriving DecidableEq, Repr

namespace Fault

/-- The message of a fault. -/
def message : Fault → String
  | config reason => "invalid cache configuration: " ++ reason
  | corrupted reason => "corrupted entry: " ++ reason
  | closed => "cache is closed"
  | io reason => "I/O error: " ++ reason
  | store reason => "embedded store error: " ++ reason
  | remote fault => "remote store error: " ++ fault.kind

/-- Whether the fault comes from the engine that holds the entries, and not
from its settings or from its use. -/
def fromEngine : Fault → Bool
  | io _ | store _ | remote _ => true
  | config _ | corrupted _ | closed => false

end Fault

end ExpiringCache
