/-!
# Counters

The five operation counters of a cache. They are unsigned 64-bit numbers and
wrap around.
-/

namespace ExpiringCache

structure Counters where
  /-- Reads that found a live entry. -/
  hits : UInt64 := 0
  /-- Reads that found no live entry. -/
  misses : UInt64 := 0
  /-- Expired entries that the cache dropped. -/
  expirations : UInt64 := 0
  sets : UInt64 := 0
  /-- Entries removed on request. -/
  deletes : UInt64 := 0
  deriving DecidableEq, Repr

namespace Counters

def zero : Counters := {}

instance : Inhabited Counters := ⟨zero⟩

def hit (c : Counters) : Counters := { c with hits := c.hits + 1 }

def miss (c : Counters) : Counters := { c with misses := c.misses + 1 }

/-- A read that found a live entry, or none. -/
def read (c : Counters) (found : Bool) : Counters := if found then c.hit else c.miss

def set (c : Counters) : Counters := { c with sets := c.sets + 1 }

def delete (c : Counters) : Counters := { c with deletes := c.deletes + 1 }

/-- So many expired entries were dropped. -/
def expire (c : Counters) (count : UInt64) : Counters :=
  { c with expirations := c.expirations + count }

/-- The share of reads that were hits, in percent; zero before any read. -/
def hitRate (c : Counters) : Float :=
  let reads := c.hits + c.misses
  if reads = 0 then 0.0 else c.hits.toFloat / reads.toFloat * 100.0

/-- The printed structure. -/
def shown (c : Counters) : String :=
  s!"CacheStats \x7b hits: {c.hits}, misses: {c.misses}, expirations: {c.expirations}, " ++
    s!"sets: {c.sets}, deletes: {c.deletes} \x7d"

end Counters

end ExpiringCache
