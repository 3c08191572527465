import ExpiringCache.Proofs.Embedded.Damage

/-!
# How records are written

A record is written as the eight octets of its deadline, the highest one first, and then its
value (`Record.encode_octets`). Byte strings of eight octets and more are all written forms,
each of one record only, and a shorter one is none (`Record.decode_eq_ok_iff`,
`Record.range_encode`).

So nothing is lost on the disk, and to compare two records octet by octet is to compare their
deadlines and their values. That is what a cache relies on when it drops an expired record
that somebody may have replaced meanwhile (`Record.encoding_exact`).
-/

namespace ExpiringCache

/-! ## Numbers as octets -/

/-- The octet at a place says how often the power of that place is in the number. -/
theorem getElem?_octetsOf {width place : Nat} (within : place < width) (n : Nat) :
    (octetsOf width n)[place]? = some (.ofNat (n / 256 ^ (width - 1 - place))) := by
  -- The low octet is added at the end, so the induction takes it off there.
  induction width generalizing n with
  | zero => omega
  | succ width ih =>
      have size := length_octetsOf width (n / 256)
      rw [octetsOf]
      rcases Nat.lt_or_eq_of_le (Nat.le_of_lt_succ within) with higher | rfl
      · have power : 256 ^ (width + 1 - 1 - place) = 256 * 256 ^ (width - 1 - place) := by
          rw [← pow_succ']
          congr 1
          omega
        rw [List.getElem?_append_left (by omega), ih higher, power, Nat.div_div_eq_div_mul]
      · rw [List.getElem?_append_right (by omega), size]
        simp

namespace Record

variable {r : Record} {raw : Bytes}

/-! ## Written forms -/

/-- Eight octets spell the deadline, and what follows them is the value. -/
theorem encode_octets (r : Record) :
    (∀ place < 8, r.encode[place]? = some (.ofNat (r.deadline.toNat / 256 ^ (7 - place)))) ∧
      r.encode.drop 8 = r.value := by
  have size : (octetsOf headerSize r.deadline.toNat).length = 8 := length_octetsOf _ _
  constructor
  · intro place within
    rw [encode, List.getElem?_append_left (by omega)]
    exact getElem?_octetsOf within _
  · rw [encode, List.drop_left' size]

/-- A byte string reads as a record just if it is the written form of this record. -/
theorem decode_eq_ok_iff : decode raw = .ok r ↔ raw = r.encode := by
  constructor
  · intro read
    exact (encode_of_decode read).symm
  · rintro rfl
    exact decode_encode r

/-- A byte string reads as a record just if it has the octets of a deadline. -/
theorem exists_decode_iff : (∃ r, decode raw = .ok r) ↔ Whole raw := by
  constructor
  · rintro ⟨r, read⟩
    rw [decode_eq_ok_iff.1 read]
    exact whole_encode r
  · exact decode_of_whole

theorem encode_injective : Function.Injective encode := by
  intro r s same
  have read := decode_encode r
  rw [same, decode_encode s] at read
  exact (Except.ok.inj read).symm

theorem range_encode : Set.range encode = {raw | Whole raw} := by
  ext raw
  show (∃ r : Record, r.encode = raw) ↔ Whole raw
  rw [← exists_decode_iff]
  refine exists_congr fun r => ?_
  rw [decode_eq_ok_iff, eq_comm]

end Record

namespace Embedded

variable {e : Embedded} {store : Store} {key : Bytes} {held : Record}

/-- A record is reclaimed just if it is the one that was read. -/
theorem reclaim_record (opened : e.store = some store) (found : store.find? key = some held.encode)
    (read : Record) :
    e.reclaim key read.encode =
      if held.deadline = read.deadline ∧ held.value = read.value then
        { e with store := some (store.erase key) }.count (·.expire 1)
      else e := by
  have same : held.encode = read.encode ↔
      held.deadline = read.deadline ∧ held.value = read.value := by
    rw [Record.encode_injective.eq_iff, ← Record.mk.injEq]
  simp only [reclaim, opened, found, Option.some.injEq, same]

end Embedded

namespace Record

/-- How records are written and read. A written record reads back. A byte string reads as a
record just if it has eight octets or more, and then it is what this record is written as; if
it is shorter the reader is told so. Hence no two records are written alike, and the written
forms are the byte strings of eight octets or more. The first eight octets spell the deadline,
the highest one first, and the others are the value.

Where a store has a record under a key, a comparison with another one finds them equal, so that
the record is dropped and counted, just if their deadlines and their values are the same. -/
theorem encoding_exact :
    (∀ r : Record, decode r.encode = .ok r) ∧
    (∀ raw, (∃ r, decode raw = .ok r) ↔ 8 ≤ raw.length) ∧
    (∀ raw r, decode raw = .ok r → r.encode = raw) ∧
    (∀ raw, raw.length < 8 → decode raw = .error (tooShort raw)) ∧
    Function.Injective encode ∧
    Set.range encode = {raw | 8 ≤ raw.length} ∧
    (∀ r : Record,
      (∀ place < 8, r.encode[place]? = some (.ofNat (r.deadline.toNat / 256 ^ (7 - place)))) ∧
        r.encode.drop 8 = r.value) ∧
    ∀ (e : Embedded) (store : Store) (key : Bytes) (held read : Record),
      e.store = some store → store.find? key = some held.encode →
        e.reclaim key read.encode =
          if held.deadline = read.deadline ∧ held.value = read.value then
            { e with store := some (store.erase key) }.count (·.expire 1)
          else e :=
  ⟨decode_encode, fun _ => exists_decode_iff, fun _ _ => encode_of_decode,
    fun _ short => decode_of_short short, encode_injective, range_encode, encode_octets,
    fun _ _ _ _ read opened found => Embedded.reclaim_record opened found read⟩

/-- The greatest deadline and no value at all, a byte string that is one octet short, and two
records that differ in the last octet of their deadlines. -/
theorem encoding_exact_at_bounds :
    let last : Record := ⟨0xFFFFFFFFFFFFFFFF, []⟩
    let held : Record := ⟨256, [7]⟩
    let read : Record := ⟨257, [7]⟩
    let store := Store.empty.insert [1] held.encode
    let e := Embedded.create .standard store 0 ⟨0⟩
    decode (List.replicate 8 255) = .ok last ∧ last.encode = List.replicate 8 255 ∧
      decode (List.replicate 7 255) = .error (tooShort (List.replicate 7 255)) ∧
      e.reclaim [1] read.encode = e ∧
      (e.reclaim [1] held.encode).store = some (store.erase [1]) := by
  intro last held read store e
  obtain ⟨-, -, written, short, -, -, -, compared⟩ := encoding_exact
  have reads : decode (List.replicate 8 255) = .ok last := by decide +kernel
  have found : store.find? [1] = some held.encode := by
    rw [Store.find?_insert, if_pos rfl]
  refine ⟨reads, written _ _ reads, short _ (by decide), ?_, ?_⟩
  · rw [compared e store [1] held read rfl found, if_neg (by decide)]
  · rw [compared e store [1] held held rfl found, if_pos ⟨rfl, rfl⟩]
    rfl

end Record

end ExpiringCache
