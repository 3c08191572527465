import ExpiringCache.Counters
import ExpiringCache.Embedded.Record
import ExpiringCache.Embedded.Store
import ExpiringCache.Keys
import ExpiringCache.Request

/-!
# Embedded caches

A cache over a durable store, which outlives it. An expired record is dropped
when a reader or a traversal meets it, by an explicit cleanup, or by the
background sweep. A record too short to carry a deadline is a fault to whoever
reads it, and is left alone by cleanups.

A traversal shows the records of a namespace in key order. It reads them when
it starts, and drops an expired one only if it still stands as it was read. The
first record that does not decode ends it.

A closed cache has given its store back: every request and traversal fails, and
nothing changes any more.
-/

namespace ExpiringCache

structure Embedded where
  keys : Keys
  /-- The store, until the cache is closed. -/
  store : Option Store
  counters : Counters
  /-- When the background sweep runs, if it does. -/
  schedule : Option Schedule

namespace Embedded

/-- A cache over a store. Its background sweep runs every `sweepSeconds`, or
never if that is zero. -/
def create (keys : Keys) (store : Store) (sweepSeconds : Nat) (now : Instant) : Embedded :=
  ⟨keys, some store, .zero, Schedule.every? now sweepSeconds⟩

/-- Applies a change to the counters. -/
def count (e : Embedded) (change : Counters → Counters) : Embedded :=
  { e with counters := change e.counters }

/-- The key under which the store holds `key` in `ns`. -/
def rawKey (e : Embedded) (ns key : String) : Bytes := Text.encode (e.keys.compose ns key)

/-- Removes a record that was read as `raw`, and counts it as expired, unless
another record has taken its place. -/
def reclaim (e : Embedded) (key raw : Bytes) : Embedded :=
  match e.store with
  | some store =>
      if store.find? key = some raw then
        { e with store := some (store.erase key) }.count (·.expire 1)
      else e
  | none => e

/-! ## Requests -/

/-- Reads the record at a key. An expired one is reclaimed and not shown. -/
def look (now : UInt64) (e : Embedded) (store : Store) (key : Bytes) :
    Except Fault (Option Record) × Embedded :=
  match store.find? key with
  | none => (.ok none, e)
  | some raw =>
      match Record.decode raw with
      | .error cause => (.error cause, e)
      | .ok record =>
          if record.expired now then (.ok none, e.reclaim key raw) else (.ok (some record), e)

def get (now : UInt64) (e : Embedded) (store : Store) (key : Bytes) : Answer × Embedded :=
  match e.look now store key with
  | (.error cause, e) => (.fault cause, e)
  | (.ok found, e) => (.value (found.map (·.value)), e.count (·.read found.isSome))

def contains (now : UInt64) (e : Embedded) (store : Store) (key : Bytes) : Answer × Embedded :=
  match e.look now store key with
  | (.error cause, e) => (.fault cause, e)
  | (.ok found, e) => (.present found.isSome, e)

/-- Removes the record at a key and then reads it: a record that does not decode
is gone as well. -/
def take (now : UInt64) (e : Embedded) (store : Store) (key : Bytes) : Answer × Embedded :=
  match store.find? key with
  | none => (.value none, e.count .miss)
  | some raw =>
      let e := { e with store := some (store.erase key) }
      match Record.decode raw with
      | .error cause => (.fault cause, e)
      | .ok record =>
          if record.expired now then (.value none, e.count fun c => (c.expire 1).miss)
          else (.value (some record.value), e.count fun c => c.delete.hit)

def set (now : UInt64) (e : Embedded) (store : Store) (key value : Bytes)
    (ttl : Option Duration) : Answer × Embedded :=
  let record := Record.make value ttl now
  (.done, { e with store := some (store.insert key record.encode) }.count .set)

def delete (e : Embedded) (store : Store) (key : Bytes) : Answer × Embedded :=
  match store.find? key with
  | none => (.done, e)
  | some _ => (.done, { e with store := some (store.erase key) }.count .delete)

/-- Serves a request. -/
def request (now : Instant) (e : Embedded) (r : Request) : Answer × Embedded :=
  match e.store with
  | none => (.fault .closed, e)
  | some store =>
      match r with
      | .set ns key value ttl => e.set now.unixMillis store (e.rawKey ns key) value ttl
      | .get ns key => e.get now.unixMillis store (e.rawKey ns key)
      | .take ns key => e.take now.unixMillis store (e.rawKey ns key)
      | .contains ns key => e.contains now.unixMillis store (e.rawKey ns key)
      | .delete ns key => e.delete store (e.rawKey ns key)

/-! ## Traversal -/

/-- Goes through records as they were read from the store, showing the live ones
to a visitor that has seen `count` entries before. -/
def visit (now : Instant) (ns : String) (visitor : Visitor) :
    Nat → List (Bytes × Bytes) → Embedded → Traversal × Embedded
  | _, [], e => ({}, e)
  | count, (key, raw) :: rest, e =>
      match Record.decode raw with
      | .error cause => (.failed cause, e)
      | .ok record =>
          if record.expired now.unixMillis then visit now ns visitor count rest (e.reclaim key raw)
          else
            let n := count + 1
            let logical := e.keys.logical (Text.decodeLossy key) ns
            let (answers, e) := answerAll (request now) e (visitor.requests n logical record.value)
            if visitor.goesOn n logical record.value then
              let (others, e) := visit now ns visitor n rest e
              (others.after (logical, record.value) answers, e)
            else (({} : Traversal).after (logical, record.value) answers, e)

/-- Shows the live records of a namespace to a visitor. -/
def iterate (now : Instant) (e : Embedded) (ns : String) (visitor : Visitor) :
    Traversal × Embedded :=
  match e.store with
  | none => (.failed .closed, e)
  | some store => visit now ns visitor 0 (store.within (Text.encode (e.keys.root ns))) e

/-! ## Sweeping and closing -/

/-- Whether a stored byte string is a record that has expired. -/
def hasExpired (now : UInt64) (raw : Bytes) : Bool :=
  match Record.decode raw with
  | .ok record => record.expired now
  | .error _ => false

/-- Drops the expired records and says how many they were. -/
def cleanup (now : Instant) (e : Embedded) : Nat × Embedded :=
  match e.store with
  | none => (0, e)
  | some store =>
      let kept := store.keep fun _ raw => !hasExpired now.unixMillis raw
      let removed := store.size - kept.size
      (removed, { e with store := some kept }.count (·.expire (.ofNat removed)))

/-- The clock moves: the background sweep runs once if it has become due. -/
def pass (earlier later : Instant) (e : Embedded) : Embedded :=
  match e.schedule with
  | some s => if s.due earlier later then (e.cleanup later).2 else e
  | none => e

/-- Gives the store back, if it is still there, and ends the background sweep. -/
def close (e : Embedded) : Option Store × Embedded :=
  (e.store, { e with store := none, schedule := none })

/-- The printed structure. -/
def shown (e : Embedded) : String :=
  s!"EmbeddedCache \x7b open: {e.store.isSome}, keys: {e.keys.shown}, " ++
    s!"stats: {e.counters.shown} \x7d"

end Embedded

end ExpiringCache
