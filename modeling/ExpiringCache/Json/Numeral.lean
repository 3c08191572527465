import ExpiringCache.Json.Flaw

/-!
# JSON numbers

The spelling of a number, and its value. A number without fraction and exponent
is a whole number if it fits 64 bits, unsigned or signed; minus zero does not
count as whole. Every other number is a double.

A double is made from at most the leading digits that fit an unsigned 64-bit
significand, which is then scaled by powers of ten up to 308. A number that
grows beyond the doubles is malformed; one that vanishes is zero.
-/

namespace ExpiringCache.Json

/-- A number as it is spelt. -/
structure Numeral where
  negative : Bool
  whole : List Char
  fraction : Option (List Char)
  /-- Whether the exponent is negative, and its digits. -/
  exponent : Option (Bool × List Char)
  deriving DecidableEq, Repr

/-- The value of a number. -/
inductive Number
  | natural (n : UInt64)
  | negative (n : Int64)
  | real (x : Float)
  deriving Repr

namespace Numeral

/-! ## Spelling -/

/-- Reads the digits in front of a text. -/
def takeDigits (cs : List Char) : List Char × List Char :=
  (cs.takeWhile Char.isDigit, cs.dropWhile Char.isDigit)

/-- The break behind a point, an exponent mark or a sign that no digit follows. -/
def missingDigit : List Char → Break
  | [] => .insideNumber
  | _ :: _ => .atIntruder

/-- Reads one or more digits. -/
def scanDigits (cs : List Char) : Scan (List Char) :=
  match takeDigits cs with
  | ([], rest) => .broken (missingDigit rest)
  | (digits, rest) => .found digits rest

/-- Reads the digits before the point: a zero alone, or digits that do not start
with zero. -/
def scanWhole (cs : List Char) : Scan (List Char) :=
  match scanDigits cs with
  | .found ('0' :: _ :: _) _ => .broken .atIntruder
  | scan => scan

def scanFraction : List Char → Scan (Option (List Char))
  | '.' :: rest =>
      match scanDigits rest with
      | .found digits rest => .found (some digits) rest
      | .broken b => .broken b
  | rest => .found none rest

/-- Reads an optional sign; the answer says whether it is a minus. -/
def takeSign : List Char → Bool × List Char
  | '-' :: rest => (true, rest)
  | '+' :: rest => (false, rest)
  | rest => (false, rest)

def scanExponent : List Char → Scan (Option (Bool × List Char))
  | c :: rest =>
      if c = 'e' ∨ c = 'E' then
        let (negative, rest) := takeSign rest
        match scanDigits rest with
        | .found digits rest => .found (some (negative, digits)) rest
        | .broken b => .broken b
      else .found none (c :: rest)
  | [] => .found none []

/-- Reads a number. -/
def scan (cs : List Char) : Scan Numeral :=
  let (negative, cs) := match cs with
    | '-' :: rest => (true, rest)
    | _ => (false, cs)
  match scanWhole cs with
  | .broken b => .broken b
  | .found whole rest =>
      match scanFraction rest with
      | .broken b => .broken b
      | .found fraction rest =>
          match scanExponent rest with
          | .broken b => .broken b
          | .found exponent rest => .found ⟨negative, whole, fraction, exponent⟩ rest

/-! ## Value -/

/-- Appends digits to a significand as long as it fits 64 bits. The second part
of the answer is the digits left over. -/
def accumulate : Nat → List Char → Nat × List Char
  | n, [] => (n, [])
  | n, c :: rest =>
      let next := n * 10 + (c.toNat - '0'.toNat)
      if next < UInt64.size then accumulate next rest else (n, c :: rest)

/-- A power of ten as a double. -/
def powerOfTen (n : Nat) : Float := Float.ofScientific 1 false n

/-- The largest power of ten that is a double. -/
def maxPower : Nat := 308

/-- Scales a double by a power of ten, in steps of at most `10 ^ maxPower`. There
is no answer if it grows beyond the doubles. -/
def scale : Nat → Float → Int → Option Float
  | 0, x, _ => some x
  | fuel + 1, x, exponent =>
      if exponent.natAbs ≤ maxPower then
        if 0 ≤ exponent then
          let y := x * powerOfTen exponent.toNat
          if y.isInf then none else some y
        else some (x / powerOfTen exponent.natAbs)
      else if x == 0.0 then some x
      else if 0 ≤ exponent then none
      else scale fuel (x / powerOfTen maxPower) (exponent + maxPower)

/-- A double from its sign, significand and power of ten. Four steps bring every
64-bit significand to zero. -/
def real? (negative : Bool) (significand : Nat) (exponent : Int) : Option Number :=
  (scale 4 (UInt64.ofNat significand).toFloat exponent).map fun x =>
    .real (if negative then -x else x)

/-- A whole number, or the double nearest to one that does not fit. -/
def whole? (negative : Bool) (significand : Nat) : Number :=
  if !negative then .natural (.ofNat significand)
  else if significand = 0 ∨ UInt64.size / 2 < significand then
    .real (-(UInt64.ofNat significand).toFloat)
  else .negative (.ofInt (-(significand : Int)))

/-- The largest exponent that is told apart from larger ones. -/
def maxExponent : Nat := UInt32.size / 2 - 1

/-- The value of a spelling, unless it is beyond the doubles. -/
def value? (n : Numeral) : Option Number :=
  let (significand, excess) := accumulate 0 n.whole
  match n.fraction, n.exponent, excess with
  | none, none, [] => some (whole? n.negative significand)
  | fraction, exponent, excess =>
      let digits := fraction.getD []
      let (significand, left) := accumulate significand digits
      let place : Int := (excess.length : Int) - (digits.length - left.length : Nat)
      match exponent with
      | none => real? n.negative significand place
      | some (down, digits) =>
          let power := digits.foldl (fun p c => p * 10 + (c.toNat - '0'.toNat)) 0
          if power ≤ maxExponent then
            real? n.negative significand (if down then place - power else place + power)
          else if significand ≠ 0 ∧ !down then none
          else real? n.negative 0 0

end Numeral

end ExpiringCache.Json
