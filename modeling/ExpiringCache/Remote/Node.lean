import ExpiringCache.Remote.Url
import ExpiringCache.Settings

/-!
# Nodes

A node of a remote address is a URL, or `host:port` for short. Reading it gives
the place where the server listens, and the credentials, the database and the
version of the protocol that the URL asks for.
-/

namespace ExpiringCache

open Text

/-- Where a server listens. -/
inductive Place
  | network (host : String) (port : Nat)
  | socket (path : String)
  deriving DecidableEq, Repr

/-- The version of the protocol that is spoken with a server. -/
inductive Protocol
  | two
  | three
  deriving DecidableEq, Repr

/-- The version that a text names. -/
def Protocol.ofText? (text : String) : Option Protocol :=
  if text = "2" ∨ text = "resp2" then some .two
  else if text = "3" ∨ text = "resp3" then some .three
  else none

/-- A server, and what its address asks for. -/
structure Node where
  place : Place
  username : Option String
  password : Option String
  database : Int
  protocol : Protocol
  deriving DecidableEq, Repr

namespace Node

/-- The port on which a server listens unless its address says otherwise. -/
def defaultPort : Nat := 6379

/-- A database number in an address; an empty text means the first one. -/
def database? (cs : List Char) : Option Int := if cs = [] then some 0 else signed? 64 cs

/-- The version of the protocol that a URL asks for: the second one unless it
names another, which has to exist. -/
def protocol? (url : Url) : Option Protocol :=
  match url.parameter? "protocol" with
  | none => some .two
  | some text => Protocol.ofText? text

/-- The user name and password in the user information of a URL. An empty user
name counts as none, and so does an empty password. -/
def credentials? (info : List Char) : Option (Option String × Option String) := do
  let (name, secret) := splitAround ':' info
  let username ← if name = [] then some none else (decode? (percentDecode name)).map some
  let password ← match secret with
    | none | some [] => some none
    | some cs => (decode? (percentDecode cs)).map some
  pure (username, password)

/-- The node of a URL that names a host. -/
def ofNetwork? (url : Url) : Option Node := do
  let authority ← url.authority
  let (username, password) ← credentials? (authority.userInfo.getD [])
  guard (authority.host ≠ [])
  let host ← host? authority.host
  let port ← port? defaultPort authority.port
  let database ← database? (trimSlashes (resolvePath url.path))
  let protocol ← protocol? url
  pure ⟨.network host port, username, password, database, protocol⟩

/-- Whether an authority names this machine. If it does by an empty host, it has
neither a port nor a user name or password; a lone colon is neither of these. -/
def isLocal (authority : Authority) : Bool :=
  if authority.host = [] then
    authority.port.isNone && (authority.userInfo.isNone || authority.userInfo == some [':'])
  else authority.host = "localhost".toList && (port? defaultPort authority.port).isSome

/-- The node of a URL that names a socket file on this machine. -/
def ofSocket? (url : Url) : Option Node := do
  guard (url.authority.all isLocal ∧ url.path.head? = some '/')
  let database ← match url.parameter? "db" with
    | none => some 0
    | some text => signed? 64 text.toList
  let protocol ← protocol? url
  pure ⟨.socket (decodeLossy (percentDecode url.path)), url.parameter? "user",
    url.parameter? "pass", database, protocol⟩

/-- The node of a URL. A scheme that asks for an encrypted connection is not
served. -/
def ofUrl? (url : Url) : Option Node :=
  if url.scheme = "redis" then ofNetwork? url
  else if url.scheme = "unix" ∨ url.scheme = "redis+unix" then ofSocket? url
  else none

/-- Whether a text has a scheme in front. -/
def hasScheme : List Char → Bool
  | [] => false
  | c :: rest => beginsWith "://".toList (c :: rest) || hasScheme rest

/-- A node as a URL. -/
def urlText (text : String) : String :=
  if hasScheme text.toList then text else "redis://" ++ text

/-- Reads a node. -/
def parse? (text : String) : Option Node := (Url.parse? (urlText text)).bind ofUrl?

/-- Reads a node and puts the credentials of the settings, one by one where they
are set, in place of its own. -/
def configured? (s : RemoteSettings) (text : String) : Option Node :=
  (parse? text).map fun node =>
    { node with
      username := s.username.or node.username
      password := s.password.or node.password }

example : parse? "redis://u:p%40q@h:1/2" =
    some ⟨.network "h" 1, some "u", some "p@q", 2, .two⟩ := by
  decide +kernel

example : parse? "h?protocol=resp3" = some ⟨.network "h" 6379, none, none, 0, .three⟩ ∧
    parse? "h:99999" = none ∧ parse? "rediss://h" = none ∧ parse? "redis://h/x" = none ∧
    parse? "redis:///1" = none ∧ parse? "h?protocol=4" = none := by
  decide +kernel

example : (parse? "unix:///a").isSome ∧ (parse? "unix://:@/a").isSome ∧
    (parse? "unix://u:p@localhost:80/a").isSome ∧ parse? "unix://@/a" = none ∧
    parse? "unix://:80/a" = none ∧ parse? "unix://u@/a" = none ∧ parse? "unix://h/a" = none := by
  decide +kernel

end Node

end ExpiringCache
