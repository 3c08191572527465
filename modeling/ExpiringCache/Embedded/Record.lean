import ExpiringCache.Fault
import ExpiringCache.Text.Bytes
import ExpiringCache.Time

/-!
# Stored records

A durable store holds, for each key, a deadline and a value in one byte string:
eight octets with the deadline in Unix milliseconds, the highest octet first,
and then the value. The deadline zero means that the record never expires.

`decode_encode` says that a written record reads back, and
`encode_of_decode` that reading loses nothing: a byte string that decodes is the
encoding of what it decodes to.
-/

namespace ExpiringCache

/-! ## Numbers as octets -/

/-- The lowest `width` octets of a number, the highest of them first. -/
def octetsOf : Nat → Nat → Bytes
  | 0, _ => []
  | width + 1, n => octetsOf width (n / 256) ++ [UInt8.ofNat n]

/-- The number that a byte string spells, the highest octet first. -/
def numberOf (bytes : Bytes) : Nat := bytes.foldl (fun n b => n * 256 + b.toNat) 0

theorem length_octetsOf (width n : Nat) : (octetsOf width n).length = width := by
  induction width generalizing n with
  | zero => rfl
  | succ width ih => simp [octetsOf, ih]

theorem numberOf_snoc (bytes : Bytes) (b : UInt8) :
    numberOf (bytes ++ [b]) = numberOf bytes * 256 + b.toNat := by
  simp [numberOf]

theorem numberOf_octetsOf (width n : Nat) :
    numberOf (octetsOf width n) = n % Nat.pow 256 width := by
  induction width generalizing n with
  | zero => simp [octetsOf, numberOf, Nat.mod_one]
  | succ width ih =>
      have power : Nat.pow 256 (width + 1) = 256 * Nat.pow 256 width := Nat.mul_comm _ _
      have low : (UInt8.ofNat n).toNat = n % 256 := UInt8.toNat_ofNat'
      rw [octetsOf, numberOf_snoc, ih, power, Nat.mod_mul, low]
      omega

theorem octetsOf_numberOf (bytes : Bytes) : octetsOf bytes.length (numberOf bytes) = bytes := by
  -- Octets are added at the low end, so the induction peels them off there.
  suffices h : ∀ l : Bytes, octetsOf l.length (numberOf l.reverse) = l.reverse by
    simpa using h bytes.reverse
  intro l
  induction l with
  | nil => rfl
  | cons b l ih =>
      have low := b.toNat_lt
      have quotient : (numberOf l.reverse * 256 + b.toNat) / 256 = numberOf l.reverse := by omega
      have remainder : UInt8.ofNat (numberOf l.reverse * 256 + b.toNat) = b := by
        rw [← UInt8.toNat_inj, UInt8.toNat_ofNat']
        omega
      rw [List.reverse_cons, numberOf_snoc, List.length_cons, octetsOf, quotient, ih, remainder]

theorem numberOf_lt (bytes : Bytes) : numberOf bytes < Nat.pow 256 bytes.length := by
  have := numberOf_octetsOf bytes.length (numberOf bytes)
  rw [octetsOf_numberOf] at this
  rw [this]
  exact Nat.mod_lt _ (Nat.pow_pos (by decide))

/-! ## Records -/

/-- A value and its deadline in Unix milliseconds, zero for none. -/
structure Record where
  deadline : UInt64
  value : Bytes
  deriving DecidableEq, Repr

namespace Record

/-- How many octets precede the value. -/
def headerSize : Nat := 8

/-- The deadline of a record that is set at millisecond `now` to live for `ttl`.
A nonzero time to live counts as one millisecond at least, and the deadline
stays within 64 bits. -/
def deadlineFor (ttl : Option Duration) (now : UInt64) : UInt64 :=
  match limit? ttl with
  | none => 0
  | some d => .ofNat (min (now.toNat + max 1 d.millis) (UInt64.size - 1))

def make (value : Bytes) (ttl : Option Duration) (now : UInt64) : Record :=
  ⟨deadlineFor ttl now, value⟩

def expired (r : Record) (now : UInt64) : Bool := r.deadline ≠ 0 && r.deadline ≤ now

def encode (r : Record) : Bytes := octetsOf headerSize r.deadline.toNat ++ r.value

/-- A byte string too short to hold a deadline is no record. -/
def tooShort (raw : Bytes) : Fault :=
  .corrupted s!"record of {raw.length} bytes is shorter than its header"

def decode (raw : Bytes) : Except Fault Record :=
  if raw.length < headerSize then .error (tooShort raw)
  else .ok ⟨.ofNat (numberOf (raw.take headerSize)), raw.drop headerSize⟩

theorem decode_encode (r : Record) : decode r.encode = .ok r := by
  have size := length_octetsOf headerSize r.deadline.toNat
  have long : ¬ r.encode.length < headerSize := by simp [encode, size]
  have header : numberOf (octetsOf headerSize r.deadline.toNat) = r.deadline.toNat := by
    rw [numberOf_octetsOf]
    exact Nat.mod_eq_of_lt r.deadline.toNat_lt
  simp only [decode, long, if_false]
  rw [encode, List.take_left' size, List.drop_left' size, header, UInt64.ofNat_toNat]

theorem encode_of_decode {raw : Bytes} {r : Record} (h : decode raw = .ok r) :
    r.encode = raw := by
  simp only [decode] at h
  split at h
  next => cases h
  next long =>
    cases h
    have size : (raw.take headerSize).length = headerSize := by simp; omega
    have bound := numberOf_lt (raw.take headerSize)
    rw [size] at bound
    have exact : (UInt64.ofNat (numberOf (raw.take headerSize))).toNat =
        numberOf (raw.take headerSize) := by
      rw [UInt64.toNat_ofNat']
      exact Nat.mod_eq_of_lt bound
    have header := octetsOf_numberOf (raw.take headerSize)
    rw [size] at header
    simp only [encode, exact, header, List.take_append_drop]

end Record

end ExpiringCache
