import ExpiringCache.Decimal.Binary

/-!
# Decimals with fixed places

A number rounded to a fixed number of decimal places. The exact value of the
double is rounded; a tie goes to the even neighbour.
-/

namespace ExpiringCache.Decimal

/-- The quotient rounded to the nearest whole number, ties to even. -/
def roundQuotient (num den : Nat) : Nat :=
  let below := num / den
  let twice := 2 * (num % den)
  if twice < den ∨ (twice = den ∧ below % 2 = 0) then below else below + 1

/-- A finite double with one decimal place. -/
def tenthsText (x : Float) : String :=
  let b := Binary.ofFloat x
  let (num, den) := b.quotient
  let tenths := roundQuotient (num * 10) den
  let body := s!"{tenths / 10}.{tenths % 10}"
  if b.negative then "-" ++ body else body

end ExpiringCache.Decimal
