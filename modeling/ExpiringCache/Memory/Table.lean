import ExpiringCache.Bindings
import ExpiringCache.Text.Bytes
import ExpiringCache.Time

/-!
# The table of a memory cache

An entry is a value with an optional deadline. The table binds each key to at
most one entry and keeps the keys in the order in which they came in: replacing
an entry keeps its place, removing one leaves the order of the others alone.

`find?_insert`, `find?_erase` and `find?_keep` say what a look-up gives after
each change.
-/

namespace ExpiringCache

/-- A value and the reading of the clock from which on it is no longer live. -/
structure Entry where
  value : Bytes
  deadline : Option Instant
  deriving DecidableEq, Repr

namespace Entry

/-- The entry that is set at `now`. It never expires if its time to live is
absent or zero, or if its deadline is beyond the clock. -/
def make (value : Bytes) (ttl : Option Duration) (now : Instant) : Entry :=
  ⟨value, (limit? ttl).bind now.after?⟩

def expired (e : Entry) (now : Instant) : Bool :=
  match e.deadline with
  | some deadline => deadline.nanos ≤ now.nanos
  | none => false

def live (e : Entry) (now : Instant) : Bool := !e.expired now

end Entry

/-- Entries by key, in the order of their arrival. -/
structure Table where
  entries : List (String × Entry)
  nodup : (entries.map (·.1)).Nodup

namespace Table

def empty : Table := ⟨[], List.nodup_nil⟩

instance : Inhabited Table := ⟨empty⟩

def size (t : Table) : Nat := t.entries.length

/-- The entry of a key. -/
def find? (t : Table) (key : String) : Option Entry := Bindings.find? key t.entries

/-! ## Insertion -/

/-- Binds `key` in place if it is there, and at the end otherwise. -/
def insertEntry (key : String) (e : Entry) : List (String × Entry) → List (String × Entry)
  | [] => [(key, e)]
  | (k, old) :: rest => if k = key then (k, e) :: rest else (k, old) :: insertEntry key e rest

theorem insertEntry_keys (key : String) (e : Entry) (l : List (String × Entry)) :
    (insertEntry key e l).map (·.1) =
      if key ∈ l.map (·.1) then l.map (·.1) else l.map (·.1) ++ [key] := by
  induction l with
  | nil => simp [insertEntry]
  | cons head rest ih =>
      obtain ⟨k, old⟩ := head
      by_cases same : k = key
      · simp [insertEntry, same]
      · simp only [insertEntry, same, if_false, List.map_cons, ih, List.mem_cons,
          Ne.symm same, false_or]
        split <;> simp

/-- The table with `key` bound to `e`. -/
def insert (t : Table) (key : String) (e : Entry) : Table where
  entries := insertEntry key e t.entries
  nodup := by
    rw [insertEntry_keys]
    split
    next => exact t.nodup
    next absent =>
      refine List.nodup_append.2 ⟨t.nodup, by simp, ?_⟩
      intro a member b single
      simp only [List.mem_singleton] at single
      rintro rfl
      exact absent (single ▸ member)

/-! ## Removal -/

/-- The entries that a test selects, in their order. -/
def keep (t : Table) (test : String → Entry → Bool) : Table where
  entries := t.entries.filter fun (k, e) => test k e
  nodup := t.nodup.sublist (List.filter_sublist.map _)

/-- The table without `key`. -/
def erase (t : Table) (key : String) : Table := t.keep fun k _ => k != key

/-! ## Look-up -/

theorem find?_insert (t : Table) (key other : String) (e : Entry) :
    (t.insert key e).find? other = if key = other then some e else t.find? other := by
  simp only [find?, insert]
  generalize t.entries = l
  induction l with
  | nil => simp [insertEntry, Bindings.find?]
  | cons head rest ih =>
      obtain ⟨k, old⟩ := head
      by_cases same : k = key
      · subst same
        by_cases found : k = other <;> simp [insertEntry, Bindings.find?, found]
      · by_cases found : k = other
        · subst found
          simp [insertEntry, Bindings.find?, same, Ne.symm same]
        · simp [insertEntry, Bindings.find?, same, found, ih]

theorem find?_keep (t : Table) (test : String → Entry → Bool) (key : String) :
    (t.keep test).find? key = (t.find? key).filter (test key) :=
  Bindings.find?_filter test key t.nodup

theorem find?_erase (t : Table) (key other : String) :
    (t.erase key).find? other = if key = other then none else t.find? other := by
  rw [erase, find?_keep]
  by_cases same : key = other
  · cases found : t.find? other <;> simp [same, Option.filter]
  · cases found : t.find? other <;> simp [same, Ne.symm same, Option.filter]

end Table

end ExpiringCache
