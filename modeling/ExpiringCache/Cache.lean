import ExpiringCache.Embedded
import ExpiringCache.Memory
import ExpiringCache.Remote

/-!
# Caches

A cache of any engine, behind one interface. Whoever holds a cache sends
requests, traverses namespaces and closes it without asking which engine is
behind it; a line to the server goes along for the engine that needs one.
-/

namespace ExpiringCache

inductive Cache
  | memory (cache : Memory)
  | embedded (cache : Embedded)
  | remote (cache : Remote)

namespace Cache

def counters : Cache → Counters
  | memory m => m.counters
  | embedded e => e.counters
  | remote r => r.counters

/-- Serves a request. -/
def request (now : Instant) (link : Cache × Line) (q : Request) : Answer × Cache × Line :=
  match link with
  | (memory m, line) =>
      let (answer, m) := m.request now q
      (answer, memory m, line)
  | (embedded e, line) =>
      let (answer, e) := e.request now q
      (answer, embedded e, line)
  | (remote r, line) =>
      let (answer, r, line) := Remote.request (r, line) q
      (answer, remote r, line)

/-- Shows the entries of a namespace to a visitor. -/
def iterate (now : Instant) (link : Cache × Line) (ns : String) (visitor : Visitor) :
    Traversal × Cache × Line :=
  match link with
  | (memory m, line) =>
      let (shown, m) := m.iterate now ns visitor
      (shown, memory m, line)
  | (embedded e, line) =>
      let (shown, e) := e.iterate now ns visitor
      (shown, embedded e, line)
  | (remote r, line) =>
      let (shown, r, line) := Remote.iterate (r, line) ns visitor
      (shown, remote r, line)

/-- Drops expired entries at once and says how many they were. Servers do this
by themselves. -/
def cleanup? (now : Instant) : Cache → Option (Nat × Cache)
  | memory m => let (removed, m) := m.cleanup now; some (removed, memory m)
  | embedded e => let (removed, e) := e.cleanup now; some (removed, embedded e)
  | remote _ => none

/-- The clock moves. -/
def pass (earlier later : Instant) : Cache → Cache
  | memory m => memory (m.pass earlier later)
  | embedded e => embedded (e.pass earlier later)
  | remote r => remote r

/-- Closes a cache, which always succeeds. An open durable store is given back. -/
def close : Cache → Option Store × Cache
  | memory m => (none, memory m.close)
  | embedded e => let (store, e) := e.close; (store, embedded e)
  | remote r => (none, remote r.close)

/-- The printed structure of a cache. That of a memory cache is left open. -/
def shown? : Cache → Option String
  | memory _ => none
  | embedded e => some e.shown
  | remote r => some r.shown

/-- The number of entries held, expired ones included, where the cache knows it. -/
def size? : Cache → Option Nat
  | memory m => some m.table.size
  | embedded _ | remote _ => none

end Cache

end ExpiringCache
