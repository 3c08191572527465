import ExpiringCache.Counters
import ExpiringCache.Keys
import ExpiringCache.Memory.Table
import ExpiringCache.Request

/-!
# Memory caches

A cache that holds its entries in a table inside the process. An expired entry
is hidden from every reader; it is dropped when a read meets it, by an explicit
cleanup, or by the background sweep.

A traversal shows the entries that are live when it starts, in table order,
whatever the visitor does to the cache meanwhile. Closing a memory cache empties
it and ends its sweep; it can still be used.
-/

namespace ExpiringCache

structure Memory where
  keys : Keys
  table : Table
  counters : Counters
  /-- When the background sweep runs, if it does. -/
  schedule : Option Schedule

namespace Memory

/-- A new cache. Its background sweep runs every `sweepSeconds`, or never if
that is zero. -/
def create (keys : Keys) (sweepSeconds : Nat) (now : Instant) : Memory :=
  ⟨keys, .empty, .zero, Schedule.every? now sweepSeconds⟩

/-- Applies a change to the counters. -/
def count (m : Memory) (change : Counters → Counters) : Memory :=
  { m with counters := change m.counters }

/-! ## Requests -/

def set (now : Instant) (m : Memory) (composite : String) (value : Bytes)
    (ttl : Option Duration) : Memory :=
  { m with table := m.table.insert composite (.make value ttl now) }.count .set

/-- Reads an entry and drops it if it has expired. -/
def get (now : Instant) (m : Memory) (composite : String) : Option Bytes × Memory :=
  match m.table.find? composite with
  | none => (none, m.count .miss)
  | some e =>
      if e.expired now then
        (none, { m with table := m.table.erase composite }.count fun c => (c.expire 1).miss)
      else (some e.value, m.count .hit)

/-- Reads an entry and removes it, expired or not. -/
def take (now : Instant) (m : Memory) (composite : String) : Option Bytes × Memory :=
  match m.table.find? composite with
  | none => (none, m.count .miss)
  | some e =>
      let m := { m with table := m.table.erase composite }
      if e.expired now then (none, m.count fun c => (c.expire 1).miss)
      else (some e.value, m.count fun c => c.delete.hit)

def contains (now : Instant) (m : Memory) (composite : String) : Bool :=
  match m.table.find? composite with
  | none => false
  | some e => e.live now

/-- Removes an entry, expired or not. -/
def delete (m : Memory) (composite : String) : Memory :=
  match m.table.find? composite with
  | none => m
  | some _ => { m with table := m.table.erase composite }.count .delete

/-- Serves a request. -/
def request (now : Instant) (m : Memory) : Request → Answer × Memory
  | .set ns key value ttl => (.done, m.set now (m.keys.compose ns key) value ttl)
  | .get ns key =>
      let (found, m) := m.get now (m.keys.compose ns key)
      (.value found, m)
  | .take ns key =>
      let (found, m) := m.take now (m.keys.compose ns key)
      (.value found, m)
  | .contains ns key => (.present (m.contains now (m.keys.compose ns key)), m)
  | .delete ns key => (.done, m.delete (m.keys.compose ns key))

/-! ## Traversal -/

/-- The live entries of a namespace, under their logical keys. -/
def snapshot (now : Instant) (m : Memory) (ns : String) : List (String × Bytes) :=
  let root := (m.keys.root ns).toList
  (m.table.entries.filter fun (k, e) => Text.beginsWith root k.toList && e.live now).map
    fun (k, e) => (String.ofList (k.toList.drop root.length), e.value)

/-- Shows a list of entries to a visitor, of which `count` were shown before. -/
def visit (now : Instant) (visitor : Visitor) :
    Nat → List (String × Bytes) → Memory → Traversal × Memory
  | _, [], m => ({}, m)
  | count, (key, value) :: rest, m =>
      let n := count + 1
      let (answers, m) := answerAll (request now) m (visitor.requests n key value)
      if visitor.goesOn n key value then
        let (others, m) := visit now visitor n rest m
        (others.after (key, value) answers, m)
      else (({} : Traversal).after (key, value) answers, m)

/-- Shows the live entries of a namespace to a visitor. -/
def iterate (now : Instant) (m : Memory) (ns : String) (visitor : Visitor) :
    Traversal × Memory :=
  visit now visitor 0 (m.snapshot now ns) m

/-! ## Sweeping and closing -/

/-- Drops the expired entries and says how many they were. -/
def cleanup (now : Instant) (m : Memory) : Nat × Memory :=
  let kept := m.table.keep fun _ e => e.live now
  let removed := m.table.size - kept.size
  (removed, { m with table := kept }.count (·.expire (.ofNat removed)))

/-- The clock moves: the background sweep runs once if it has become due. -/
def pass (earlier later : Instant) (m : Memory) : Memory :=
  match m.schedule with
  | some s => if s.due earlier later then (m.cleanup later).2 else m
  | none => m

/-- Empties the cache and ends its background sweep. -/
def close (m : Memory) : Memory := { m with table := .empty, schedule := none }

end Memory

end ExpiringCache
