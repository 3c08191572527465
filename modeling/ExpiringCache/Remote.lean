import ExpiringCache.Counters
import ExpiringCache.Keys
import ExpiringCache.Remote.Handshake
import ExpiringCache.Request

/-!
# Remote caches

A cache whose entries are on a server. Each request is one command, or two for
`take`: a read, and then a removal if there was something to read. The value is
handed out only once the removal is acknowledged.

A traversal scans the keys of the namespace page by page and reads each key on
its own. The server may repeat a key; it is read once. Keys that are no text, or
that lie outside the namespace, are passed over. The traversal ends with the
page whose cursor is zero.

Closing a remote cache drops the connection: every later request fails, and
nothing is sent any more.
-/

namespace ExpiringCache

structure Remote where
  keys : Keys
  /-- How the server is reached, until the cache is closed. -/
  mode : Option Mode
  counters : Counters

namespace Remote

/-- A cache on the server that the settings name. -/
def connect (s : RemoteSettings) (keys : Keys) (server : Option Server) (line : Line) :
    Except Fault Remote × Line :=
  let (mode, line) := Handshake.run s server line
  (mode.map fun mode => ⟨keys, some mode, .zero⟩, line)

/-- Applies a change to the counters. -/
def count (r : Remote) (change : Counters → Counters) : Remote :=
  { r with counters := change r.counters }

/-! ## Expiry -/

/-- The longest expiry that is asked of a server, in milliseconds. Together with
any clock reading up to `2 ^ 62` it stays within a signed 64-bit number. -/
def maxExpiry : Nat := UInt64.size / 4 - 1

/-- The expiry that is asked for, in milliseconds: at least one for a nonzero time
to live. -/
def expiry? (ttl : Option Duration) : Option Nat :=
  (limit? ttl).map fun d => min (max 1 d.millis) maxExpiry

/-! ## Commands -/

def setCommand (key value : Bytes) (ttl : Option Duration) : ServerCommand :=
  ServerCommand.ofTexts ["SET"] ++ [key, value] ++
    match expiry? ttl with
    | some millis => ServerCommand.ofTexts ["PX", toString millis]
    | none => []

/-- How many keys a server is asked to look at for one page of a scan. -/
def scanBatch : Nat := 100

def scanCommand (cursor : Nat) (pattern : String) : ServerCommand :=
  ServerCommand.ofTexts ["SCAN", toString cursor, "MATCH", pattern, "COUNT", toString scanBatch]

/-- Reads the value of a key. -/
def fetch (line : Line) (key : Bytes) : Except Fault (Option Bytes) × Line :=
  line.query (.onKey "GET" key) Reply.optionalBytes?

/-! ## Requests -/

/-- A remote cache and its line to the server. -/
abbrev Link := Remote × Line

def set (r : Remote) (line : Line) (key value : Bytes) (ttl : Option Duration) : Answer × Link :=
  match line.query (setCommand key value ttl) Reply.anything? with
  | (.error cause, line) => (.fault cause, r, line)
  | (.ok _, line) => (.done, r.count .set, line)

def get (r : Remote) (line : Line) (key : Bytes) : Answer × Link :=
  match fetch line key with
  | (.error cause, line) => (.fault cause, r, line)
  | (.ok found, line) => (.value found, r.count (·.read found.isSome), line)

def take (r : Remote) (line : Line) (key : Bytes) : Answer × Link :=
  match fetch line key with
  | (.error cause, line) => (.fault cause, r, line)
  | (.ok none, line) => (.value none, r.count .miss, line)
  | (.ok (some value), line) =>
      let r := r.count .hit
      match line.query (.onKey "DEL" key) Reply.signed? with
      | (.error cause, line) => (.fault cause, r, line)
      | (.ok _, line) => (.value (some value), r.count .delete, line)

def contains (r : Remote) (line : Line) (key : Bytes) : Answer × Link :=
  match line.query (.onKey "EXISTS" key) Reply.signed? with
  | (.error cause, line) => (.fault cause, r, line)
  | (.ok n, line) => (.present (decide (0 < n)), r, line)

def delete (r : Remote) (line : Line) (key : Bytes) : Answer × Link :=
  match line.query (.onKey "DEL" key) Reply.signed? with
  | (.error cause, line) => (.fault cause, r, line)
  | (.ok n, line) => (.done, if 0 < n then r.count .delete else r, line)

/-- The key under which the server holds `key` in `ns`. -/
def rawKey (r : Remote) (ns key : String) : Bytes := Text.encode (r.keys.compose ns key)

/-- Serves a request. -/
def request (link : Link) (q : Request) : Answer × Link :=
  let (r, line) := link
  match r.mode with
  | none => (.fault .closed, link)
  | some _ =>
      match q with
      | .set ns key value ttl => r.set line (r.rawKey ns key) value ttl
      | .get ns key => r.get line (r.rawKey ns key)
      | .take ns key => r.take line (r.rawKey ns key)
      | .contains ns key => r.contains line (r.rawKey ns key)
      | .delete ns key => r.delete line (r.rawKey ns key)

/-! ## Traversal -/

/-- How far a traversal has come. -/
structure Progress where
  link : Link
  /-- The logical keys met so far. -/
  met : List String
  shown : Traversal

namespace Progress

/-- The traversal so far, broken off by a fault. -/
def broken (p : Progress) (line : Line) (cause : Fault) : Progress :=
  { p with link := (p.link.1, line), shown := { p.shown with fault := some cause } }

/-- Shows an entry to a visitor. The answer says whether to go on. -/
def visit (p : Progress) (visitor : Visitor) (key : String) (value : Bytes) : Bool × Progress :=
  let n := p.shown.seen.length + 1
  let (answers, link) := answerAll request p.link (visitor.requests n key value)
  (visitor.goesOn n key value,
    { p with link := link, shown := p.shown.snoc (key, value) answers })

end Progress

/-- The logical key of a raw key, if it is a text inside the namespace of the
given root. -/
def logical? (root : String) (raw : Bytes) : Option String :=
  ((Text.decode? raw).bind fun composite => Text.after? root.toList composite.toList).map
    String.ofList

/-- Goes through a page of raw keys. The answer says whether to go on. -/
def visitPage (root : String) (visitor : Visitor) : List Bytes → Progress → Bool × Progress
  | [], p => (true, p)
  | raw :: rest, p =>
      match logical? root raw with
      | none => visitPage root visitor rest p
      | some key =>
          if key ∈ p.met then visitPage root visitor rest p
          else
            let p := { p with met := key :: p.met }
            match fetch p.link.2 raw with
            | (.error cause, line) => (false, p.broken line cause)
            | (.ok none, line) =>
                visitPage root visitor rest { p with link := (p.link.1, line) }
            | (.ok (some value), line) =>
                match Progress.visit { p with link := (p.link.1, line) } visitor key value with
                | (true, p) => visitPage root visitor rest p
                | (false, p) => (false, p)

/-- Goes through the pages from a cursor on, as many as `pages` at most. -/
def visitPages (pattern root : String) (visitor : Visitor) : Nat → Nat → Progress → Progress
  | 0, _, p => p
  | pages + 1, cursor, p =>
      match p.link.2.query (scanCommand cursor pattern) Reply.page? with
      | (.error cause, line) => p.broken line cause
      | (.ok (next, batch), line) =>
          match visitPage root visitor batch { p with link := (p.link.1, line) } with
          | (false, p) => p
          | (true, p) => if next = 0 then p else visitPages pattern root visitor pages next p

/-- Shows the entries of a namespace to a visitor. Every page takes one of the
replies that the server has left, so the pages are bounded by their number. -/
def iterate (link : Link) (ns : String) (visitor : Visitor) : Traversal × Link :=
  let (r, line) := link
  match r.mode with
  | none => (.failed .closed, link)
  | some _ =>
      let p := visitPages (r.keys.pattern ns) (r.keys.root ns) visitor
        (line.replies.length + 1) 0 ⟨link, [], {}⟩
      (p.shown, p.link)

/-! ## Closing -/

/-- Drops the connection. -/
def close (r : Remote) : Remote := { r with mode := none }

/-- The printed structure. -/
def shown (r : Remote) : String :=
  let mode := match r.mode with
    | some mode => mode.name
    | none => "closed"
  s!"RemoteCache \x7b mode: {Text.quoted mode}, keys: {r.keys.shown}, " ++
    s!"stats: {r.counters.shown} \x7d"

end Remote

end ExpiringCache
