/-!
# Binary fractions

A finite double as an exact number: a sign, a significand and a power of two.
-/

namespace ExpiringCache.Decimal

/-- The number `(-1)^negative · significand · 2^exponent`. -/
structure Binary where
  negative : Bool
  significand : Nat
  exponent : Int
  deriving DecidableEq, Repr

namespace Binary

/-- The weight of the first binary digit of a significand of full length. -/
def leadingWeight : Nat := Nat.pow 2 52

/-- The exact number that the bits of a finite double stand for. -/
def ofBits (bits : UInt64) : Binary :=
  let n := bits.toNat
  let fraction : Nat := n % leadingWeight
  let field : Nat := n / leadingWeight % 2048
  let negative := decide (UInt64.size / 2 ≤ n)
  if field = 0 then ⟨negative, fraction, -1074⟩
  else ⟨negative, fraction + leadingWeight, (field : Int) - 1075⟩

def ofFloat (x : Float) : Binary := ofBits x.toBits

/-- The absolute value as a quotient of natural numbers. -/
def quotient (b : Binary) : Nat × Nat :=
  (b.significand * Nat.pow 2 b.exponent.toNat, Nat.pow 2 (-b.exponent).toNat)

/-- Whether the double below is only half as far away as the double above. -/
def atPowerOfTwo (b : Binary) : Bool := b.significand = leadingWeight && decide (b.exponent ≠ -1074)

end Binary

end ExpiringCache.Decimal
