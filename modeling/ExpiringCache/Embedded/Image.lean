import ExpiringCache.Embedded.Record
import ExpiringCache.Embedded.Store

/-!
# Images of stores

A store as one byte string, in which it outlives the process: its records in
key order, each as its key and then its value, and each of these behind its
length in eight octets. `takeMeasured?_measured` says that a byte string written
behind its length is read back, whatever follows it.
-/

namespace ExpiringCache

namespace Store

/-- How many octets a length takes. -/
def lengthSize : Nat := 8

/-- A byte string behind its length. -/
def measured (bytes : Bytes) : Bytes := octetsOf lengthSize bytes.length ++ bytes

/-- Takes a byte string behind its length off the front. -/
def takeMeasured? (bytes : Bytes) : Option (Bytes × Bytes) :=
  let size := numberOf (bytes.take lengthSize)
  let rest := bytes.drop lengthSize
  if lengthSize ≤ bytes.length ∧ size ≤ rest.length then some (rest.take size, rest.drop size)
  else none

theorem takeMeasured?_measured {bytes : Bytes} (rest : Bytes)
    (short : bytes.length < Nat.pow 256 lengthSize) :
    takeMeasured? (measured bytes ++ rest) = some (bytes, rest) := by
  have size := length_octetsOf lengthSize bytes.length
  have front : (measured bytes ++ rest).take lengthSize = octetsOf lengthSize bytes.length := by
    rw [measured, List.append_assoc, List.take_left' size]
  have back : (measured bytes ++ rest).drop lengthSize = bytes ++ rest := by
    rw [measured, List.append_assoc, List.drop_left' size]
  have number : numberOf (octetsOf lengthSize bytes.length) = bytes.length := by
    rw [numberOf_octetsOf, Nat.mod_eq_of_lt short]
  have long : lengthSize ≤ (measured bytes).length + rest.length := by
    simp only [measured, List.length_append, size]
    omega
  simp [takeMeasured?, front, back, number, long]

/-- The image of a store. -/
def image (s : Store) : Bytes := s.records.flatMap fun (k, v) => measured k ++ measured v

/-- Adds the records of an image to a store. Every record takes octets, so a fuel
of the length of the image never runs out. -/
def addImage? : Nat → Bytes → Store → Option Store
  | _, [], s => some s
  | 0, _ :: _, _ => none
  | fuel + 1, bytes@(_ :: _), s => do
      let (key, bytes) ← takeMeasured? bytes
      let (value, bytes) ← takeMeasured? bytes
      addImage? fuel bytes (s.insert key value)

/-- The store of an image. -/
def ofImage? (bytes : Bytes) : Option Store := addImage? bytes.length bytes .empty

end Store

end ExpiringCache
