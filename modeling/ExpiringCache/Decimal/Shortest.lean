import ExpiringCache.Decimal.Binary

/-!
# Shortest decimals

The decimal with the fewest digits that still reads back as a given double, and
of those the one nearest to it. On the grid of decimals with so many digits only
the two neighbours of the number have to be looked at: if any point of the grid
reads back, one of them does.
-/

namespace ExpiringCache

/-- The number `digits · 10^exponent`. -/
structure Decimal where
  digits : Nat
  exponent : Int
  deriving DecidableEq, Repr

namespace Decimal

/-- How often the quotient `num / den`, below one, has to be multiplied by ten to
reach one; `fuel` bounds the answer. -/
def leadingZeros (num den : Nat) : Nat → Nat
  | 0 => 0
  | fuel + 1 => if den ≤ num then 0 else leadingZeros (num * 10) den fuel + 1

/-- The exponent of the first decimal digit of the quotient `num / den`. -/
def firstDigitAt (num den : Nat) : Int :=
  if den ≤ num then ((Nat.toDigits 10 (num / den)).length : Int) - 1
  else -(leadingZeros num den 400 : Int)

/-- The candidates for a number between `low` and `high`, all three over `den`,
on the grid of multiples of `10^place`: the two neighbours of the number, the
nearer one first. A tie goes to the even one. -/
def neighbours (num den : Nat) (place : Int) : List Nat :=
  let top := num * Nat.pow 10 (-place).toNat
  let unit := den * Nat.pow 10 place.toNat
  let below := top / unit
  let twice := 2 * (top % unit)
  if twice < unit ∨ (twice = unit ∧ below % 2 = 0) then [below, below + 1]
  else [below + 1, below]

/-- Whether a multiple of `10^place` lies between `low` and `high`, both over
`den`; the ends count if `closed` holds. -/
def liesBetween (low high den : Nat) (closed : Bool) (place : Int) (multiple : Nat) : Bool :=
  let point := multiple * den * Nat.pow 10 place.toNat
  let low := low * Nat.pow 10 (-place).toNat
  let high := high * Nat.pow 10 (-place).toNat
  if closed then low ≤ point && point ≤ high else low < point && point < high

/-- Drops trailing zeros; `fuel` bounds their number. -/
def dropZeros (d : Decimal) : Nat → Decimal
  | 0 => d
  | fuel + 1 =>
      if d.digits ≠ 0 ∧ d.digits % 10 = 0 then dropZeros ⟨d.digits / 10, d.exponent + 1⟩ fuel
      else d

/-- The shortest decimal for the absolute value of a number other than zero. -/
def shortest (b : Binary) : Decimal :=
  -- Quarters of the last binary digit, so that both ends of the interval of
  -- numbers that read back are whole.
  let (num, den) := Binary.quotient ⟨false, 4 * b.significand, b.exponent - 2⟩
  let (step, _) := Binary.quotient ⟨false, 1, b.exponent - 2⟩
  let low := num - (if b.atPowerOfTwo then 1 else 2) * step
  let high := num + 2 * step
  let first := firstDigitAt num den
  let found := (List.range 17).findSome? fun (more : Nat) =>
    let place := first - (more : Int)
    ((neighbours num den place).find?
      (liesBetween low high den (b.significand % 2 == 0) place)).map (⟨·, place⟩)
  dropZeros (found.getD ⟨0, 0⟩) 20

/-! ## Text -/

/-- The text of a decimal: positional where the exponent of the first digit is
between -5 and 15, with at least one digit after the point, and otherwise one
digit before the point and a signed exponent. -/
def text (d : Decimal) : String :=
  let digits := Nat.toDigits 10 d.digits
  let first := d.exponent + digits.length - 1
  let zeros := fun n : Nat => List.replicate n '0'
  let chars :=
    if -5 ≤ first ∧ first ≤ 15 then
      if 0 ≤ d.exponent then digits ++ zeros d.exponent.toNat ++ ".0".toList
      else if 0 ≤ first then
        digits.take (first.toNat + 1) ++ '.' :: digits.drop (first.toNat + 1)
      else "0.".toList ++ zeros (-first - 1).toNat ++ digits
    else
      let mantissa := match digits with
        | [] => []
        | [only] => [only]
        | head :: rest => head :: '.' :: rest
      let sign := if first < 0 then '-' else '+'
      mantissa ++ 'e' :: sign :: Nat.toDigits 10 first.natAbs
  String.ofList chars

/-- The shortest text that reads back as a finite double. -/
def shortestText (x : Float) : String :=
  let b := Binary.ofFloat x
  let body := if b.significand = 0 then "0.0" else (shortest b).text
  if b.negative then "-" ++ body else body

end Decimal

end ExpiringCache
