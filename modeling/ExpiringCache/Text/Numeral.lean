/-!
# Whole numbers as text

The decimal spellings of whole numbers that options, addresses and server
replies may use: one or more ASCII digits, leading zeros allowed, with an
optional plus sign, and for signed numbers an optional minus sign. Spellings
of numbers outside the given range are refused. Hexadecimal digits are read one
by one.
-/

namespace ExpiringCache.Text

/-- The value of a hexadecimal digit. -/
def hexDigit? (c : Char) : Option Nat :=
  if '0' ≤ c ∧ c ≤ '9' then some (c.toNat - '0'.toNat)
  else if 'a' ≤ c ∧ c ≤ 'f' then some (c.toNat - 'a'.toNat + 10)
  else if 'A' ≤ c ∧ c ≤ 'F' then some (c.toNat - 'A'.toNat + 10)
  else none

/-- The value of one or more decimal digits. -/
def digits? (cs : List Char) : Option Nat :=
  if cs ≠ [] ∧ cs.all Char.isDigit then
    some (cs.foldl (fun n c => n * 10 + (c.toNat - '0'.toNat)) 0)
  else none

/-- An unsigned number below `2 ^ bits`. -/
def unsigned? (bits : Nat) (cs : List Char) : Option Nat :=
  let body := match cs with
    | '+' :: rest => rest
    | _ => cs
  (digits? body).filter (· < Nat.pow 2 bits)

/-- A signed number from `-2 ^ (bits - 1)` up to `2 ^ (bits - 1) - 1`. -/
def signed? (bits : Nat) (cs : List Char) : Option Int :=
  match cs with
  | '-' :: rest => ((digits? rest).filter (· ≤ Nat.pow 2 (bits - 1))).map fun n => -(n : Int)
  | '+' :: rest => ((digits? rest).filter (· < Nat.pow 2 (bits - 1))).map Int.ofNat
  | _ => ((digits? cs).filter (· < Nat.pow 2 (bits - 1))).map Int.ofNat

example : unsigned? 64 "+007".toList = some 7 ∧ unsigned? 64 "-0".toList = none ∧
    unsigned? 64 "+".toList = none ∧ unsigned? 64 [] = none ∧
    unsigned? 64 "18446744073709551616".toList = none := by decide +kernel

example : signed? 64 "-9223372036854775808".toList = some (-9223372036854775808) ∧
    signed? 64 "9223372036854775808".toList = none ∧
    signed? 64 "-".toList = none ∧ signed? 64 " 1".toList = none := by decide +kernel

end ExpiringCache.Text
