import ExpiringCache.Bindings
import ExpiringCache.Text.Beginning
import ExpiringCache.Text.Bytes

/-!
# Durable stores

A store maps byte strings to byte strings and keeps its keys in the
lexicographic order of unsigned octets. `find?_insert` and `find?_keep` say what
a look-up gives after each change.
-/

namespace ExpiringCache

/-- A map from byte strings to byte strings, ordered by key. -/
structure Store where
  records : List (Bytes × Bytes)
  sorted : records.Pairwise fun a b => a.1 < b.1

namespace Store

def empty : Store := ⟨[], .nil⟩

instance : Inhabited Store := ⟨empty⟩

def size (s : Store) : Nat := s.records.length

theorem nodup (s : Store) : (s.records.map (·.1)).Nodup := by
  rw [List.Nodup, List.pairwise_map]
  refine s.sorted.imp fun {a b} below same => ?_
  rw [same] at below
  exact List.lt_irrefl _ below

/-- The value stored at a key. -/
def find? (s : Store) (key : Bytes) : Option Bytes := Bindings.find? key s.records

/-! ## Insertion -/

/-- Binds `key` at its place in the order. -/
def insertRecord (key value : Bytes) : List (Bytes × Bytes) → List (Bytes × Bytes)
  | [] => [(key, value)]
  | (k, old) :: rest =>
      if key < k then (key, value) :: (k, old) :: rest
      else if k = key then (key, value) :: rest
      else (k, old) :: insertRecord key value rest

theorem mem_insertRecord {key value : Bytes} {l : List (Bytes × Bytes)} {r : Bytes × Bytes}
    (member : r ∈ insertRecord key value l) : r = (key, value) ∨ r ∈ l := by
  induction l with
  | nil => simpa [insertRecord] using member
  | cons head rest ih =>
      obtain ⟨k, old⟩ := head
      simp only [insertRecord] at member
      split at member
      · simpa using member
      · split at member
        · simp only [List.mem_cons] at member ⊢
          rcases member with here | later
          · exact .inl here
          · exact .inr (.inr later)
        · simp only [List.mem_cons] at member ⊢
          rcases member with here | later
          · exact .inr (.inl here)
          · rcases ih later with new | old
            · exact .inl new
            · exact .inr (.inr old)

theorem sorted_insertRecord (key value : Bytes) {l : List (Bytes × Bytes)}
    (sorted : l.Pairwise fun a b => a.1 < b.1) :
    (insertRecord key value l).Pairwise fun a b => a.1 < b.1 := by
  induction l with
  | nil => simp [insertRecord]
  | cons head rest ih =>
      obtain ⟨k, old⟩ := head
      obtain ⟨above, sortedRest⟩ := List.pairwise_cons.1 sorted
      simp only [insertRecord]
      split
      next below =>
        refine List.pairwise_cons.2 ⟨fun r member => ?_, sorted⟩
        rcases List.mem_cons.1 member with rfl | later
        · exact below
        · exact List.lt_trans below (above r later)
      next notBelow =>
        split
        next same => exact List.pairwise_cons.2 ⟨same ▸ above, sortedRest⟩
        next differs =>
          refine List.pairwise_cons.2 ⟨fun r member => ?_, ih sortedRest⟩
          rcases mem_insertRecord member with rfl | old
          · exact Std.lt_of_le_of_ne (Std.not_lt.1 notBelow) differs
          · exact above r old

/-- The store with `key` bound to `value`. -/
def insert (s : Store) (key value : Bytes) : Store :=
  ⟨insertRecord key value s.records, sorted_insertRecord key value s.sorted⟩

/-! ## Removal -/

/-- The records that a test selects, in their order. -/
def keep (s : Store) (test : Bytes → Bytes → Bool) : Store :=
  ⟨s.records.filter fun (k, v) => test k v, s.sorted.filter _⟩

/-- The store without `key`. -/
def erase (s : Store) (key : Bytes) : Store := s.keep fun k _ => k != key

/-- The records whose keys begin with `start`, in order. -/
def within (s : Store) (start : Bytes) : List (Bytes × Bytes) :=
  s.records.filter fun (k, _) => Text.beginsWith start k

/-! ## Look-up -/

theorem find?_insert (s : Store) (key other value : Bytes) :
    (s.insert key value).find? other = if key = other then some value else s.find? other := by
  have sorted := s.sorted
  simp only [find?, insert]
  revert sorted
  generalize s.records = l
  intro sorted
  induction l with
  | nil => simp [insertRecord, Bindings.find?]
  | cons head rest ih =>
      obtain ⟨k, old⟩ := head
      obtain ⟨-, sortedRest⟩ := List.pairwise_cons.1 sorted
      simp only [insertRecord]
      split
      next => simp [Bindings.find?]
      next =>
        split
        next same => by_cases found : k = other <;> simp [Bindings.find?, ← same, found]
        next differs =>
          by_cases found : k = other
          · subst found
            simp [Bindings.find?, Ne.symm differs]
          · simp [Bindings.find?, found, ih sortedRest]

theorem find?_keep (s : Store) (test : Bytes → Bytes → Bool) (key : Bytes) :
    (s.keep test).find? key = (s.find? key).filter (test key) :=
  Bindings.find?_filter test key s.nodup

theorem find?_erase (s : Store) (key other : Bytes) :
    (s.erase key).find? other = if key = other then none else s.find? other := by
  rw [erase, find?_keep]
  by_cases same : key = other
  · cases found : s.find? other <;> simp [same, Option.filter]
  · cases found : s.find? other <;> simp [same, Ne.symm same, Option.filter]

end Store

end ExpiringCache
