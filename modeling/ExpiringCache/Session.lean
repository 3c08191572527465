import ExpiringCache.Cache
import ExpiringCache.Disk
import ExpiringCache.Settings

/-!
# Sessions

Several caches that live side by side: a clock, a disk, perhaps a server, and
named slots that each hold a cache. Opening a cache in a slot that is taken
replaces the cache there once the new one is open; a cache that leaves its slot
gives its store back to the disk.
-/

namespace ExpiringCache

/-- How a cache is opened. -/
structure Opening where
  settings : Settings
  /-- Whether the cache is used as its engine made it, with the delimiter taken
  as it is, instead of behind the common interface. -/
  bare : Bool := false
  /-- Whether there is anything to run a sweep in the background. -/
  background : Bool := true

/-- Every how many seconds a cache that is opened sweeps, where its settings ask for
`configured`. Zero is never. -/
def Opening.sweepSeconds (o : Opening) (configured : UInt64) : Nat :=
  if o.background then configured.toNat else 0

/-- A cache in use, and the directory of the store that it has borrowed. -/
structure Slot where
  cache : Cache
  bare : Bool
  path : Option Path

structure Session where
  now : Instant
  disk : Disk := {}
  server : Option Server := none
  slots : List (String × Slot) := []

namespace Session

/-- Opens a cache. -/
def openCache (s : Session) (o : Opening) (line : Line) :
    Except Fault (Slot × Disk) × Line :=
  let keys := if o.bare then ⟨o.settings.delimiter⟩ else o.settings.keys
  match o.settings.engine with
  | .embedded =>
      let path := Path.ofText o.settings.embedded.path
      let lent := s.disk.lend path
      (lent.map fun (store, disk) =>
        let sweep := o.sweepSeconds o.settings.embedded.sweepSeconds
        (⟨.embedded (.create keys store sweep s.now), o.bare, some path⟩, disk), line)
  | .remote =>
      let (connected, line) := Remote.connect o.settings.remote keys s.server line
      (connected.map fun r => (⟨.remote r, o.bare, none⟩, s.disk), line)
  | .memory | .unknown =>
      let sweep := o.sweepSeconds o.settings.memory.sweepSeconds
      (.ok (⟨.memory (.create keys sweep s.now), o.bare, none⟩, s.disk), line)

def find? (s : Session) (name : String) : Option Slot := Bindings.find? name s.slots

/-- Puts a cache in a slot. -/
def put (s : Session) (name : String) (slot : Slot) : Session :=
  { s with slots := (name, slot) :: s.slots.filter fun (other, _) => other != name }

/-- Puts a store that a cache gave back where it belongs. -/
def giveBack (s : Session) (slot : Slot) (store : Option Store) : Session :=
  match slot.path, store with
  | some path, some store => { s with disk := s.disk.put path (some store) }
  | _, _ => s

/-- Empties a slot. -/
def drop (s : Session) (name : String) : Session :=
  match s.find? name with
  | none => s
  | some slot =>
      let s := { s with slots := s.slots.filter fun (other, _) => other != name }
      s.giveBack slot slot.cache.close.1

/-- Opens a cache in a slot, in place of the one that was there. -/
def launch (s : Session) (name : String) (o : Opening) (line : Line) :
    Except Fault Session × Line :=
  let (opened, line) := s.openCache o line
  (opened.map fun (slot, disk) => ({ s with disk := disk }.drop name).put name slot, line)

/-- Serves a request to the cache in a slot. -/
def request (s : Session) (name : String) (slot : Slot) (q : Request) (line : Line) :
    Answer × Session × Line :=
  let (answer, cache, line) := Cache.request s.now (slot.cache, line) q
  (answer, s.put name { slot with cache := cache }, line)

/-- Shows the entries of a namespace of the cache in a slot. -/
def iterate (s : Session) (name : String) (slot : Slot) (ns : String) (visitor : Visitor)
    (line : Line) : Traversal × Session × Line :=
  let (shown, cache, line) := Cache.iterate s.now (slot.cache, line) ns visitor
  (shown, s.put name { slot with cache := cache }, line)

/-- Closes the cache in a slot. The closed cache stays there. -/
def close (s : Session) (name : String) (slot : Slot) : Session :=
  let (store, cache) := slot.cache.close
  (s.put name { slot with cache := cache }).giveBack slot store

/-- Cleans up the cache in a slot, if it is used as its engine made it. -/
def cleanup (s : Session) (name : String) (slot : Slot) : Option Nat × Session :=
  if slot.bare then
    match slot.cache.cleanup? s.now with
    | some (removed, cache) => (some removed, s.put name { slot with cache := cache })
    | none => (none, s)
  else (none, s)

/-- The clock moves on by some nanoseconds, and every cache notices. -/
def advance (s : Session) (nanos : Nat) : Session :=
  let later : Instant := ⟨s.now.nanos + nanos⟩
  { s with
    now := later
    slots := s.slots.map fun (name, slot) =>
      (name, { slot with cache := slot.cache.pass s.now later }) }

end Session

/-- The number of entries that a cache shows to whoever holds it. -/
def Slot.size? (slot : Slot) : Option Nat := if slot.bare then slot.cache.size? else none

end ExpiringCache
