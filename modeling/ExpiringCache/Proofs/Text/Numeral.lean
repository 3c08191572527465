import ExpiringCache.Text.Numeral
import Mathlib

/-!
# Printed numbers read back

A natural number is printed in decimal digits without a sign, a negative one with a
minus sign in front. Both read back as themselves wherever numbers of that size are
accepted.
-/

namespace ExpiringCache.Text

theorem isDigit_of_mem_toDigits {n : Nat} {c : Char} (member : c ∈ Nat.toDigits 10 n) :
    c.isDigit = true :=
  Nat.isDigit_of_mem_toDigits (by decide) (by decide) member

theorem foldl_toDigits (n : Nat) :
    (Nat.toDigits 10 n).foldl (fun n c => n * 10 + (c.toNat - '0'.toNat)) 0 = n := by
  have read := @Nat.ofDigitChars_ten_toDigits n
  simp only [Nat.ofDigitChars_eq_foldl, Nat.mul_comm 10] at read
  exact read

theorem digits?_toDigits (n : Nat) : digits? (Nat.toDigits 10 n) = some n := by
  have some_digit : Nat.toDigits 10 n ≠ [] := Nat.toDigits_ne_nil
  have all_digits : (Nat.toDigits 10 n).all Char.isDigit = true := by
    rw [List.all_eq_true]
    exact fun c member => isDigit_of_mem_toDigits member
  rw [digits?, if_pos ⟨some_digit, all_digits⟩, foldl_toDigits]

/-- No printed number begins with a sign. -/
theorem toDigits_ne_plus (n : Nat) (rest : List Char) : Nat.toDigits 10 n ≠ '+' :: rest := by
  intro signed
  have digit : '+'.isDigit = true := isDigit_of_mem_toDigits (signed ▸ List.mem_cons_self)
  exact absurd digit (by decide)

theorem unsigned?_toString {bits n : Nat} (fits : n < 2 ^ bits) :
    unsigned? bits (toString n).toList = some n := by
  rw [Nat.toString_eq_repr, Nat.toList_repr]
  unfold unsigned?
  split
  next rest signed => exact absurd signed (toDigits_ne_plus n rest)
  next =>
    show (digits? (Nat.toDigits 10 n)).filter _ = some n
    rw [digits?_toDigits]
    exact Option.filter_some_pos (decide_eq_true fits)

theorem toDigits_ne_minus (n : Nat) (rest : List Char) : Nat.toDigits 10 n ≠ '-' :: rest := by
  intro signed
  have digit : '-'.isDigit = true := isDigit_of_mem_toDigits (signed ▸ List.mem_cons_self)
  exact absurd digit (by decide)

theorem toList_toString_ofNat (n : Nat) : (toString (n : Int)).toList = Nat.toDigits 10 n := by
  rw [← Nat.toList_repr]
  rfl

theorem toList_toString_negSucc (n : Nat) :
    (toString (Int.negSucc n)).toList = '-' :: Nat.toDigits 10 (n + 1) := by
  rw [← Nat.toList_repr]
  show ("-" ++ Nat.repr (n + 1)).toList = _
  simp

/-- A printed number is made of digits and a sign. -/
theorem isDigit_or_minus_of_mem {i : Int} {c : Char} (member : c ∈ (toString i).toList) :
    c.isDigit = true ∨ c = '-' := by
  cases i with
  | ofNat n =>
      rw [Int.ofNat_eq_natCast, toList_toString_ofNat] at member
      exact .inl (isDigit_of_mem_toDigits member)
  | negSucc n =>
      rw [toList_toString_negSucc] at member
      rcases List.mem_cons.1 member with minus | digit
      · exact .inr minus
      · exact .inl (isDigit_of_mem_toDigits digit)

theorem signed?_toString {bits : Nat} {i : Int} (low : -2 ^ (bits - 1) ≤ i)
    (high : i < 2 ^ (bits - 1)) : signed? bits (toString i).toList = some i := by
  cases i with
  | ofNat n =>
      have fits : n < Nat.pow 2 (bits - 1) := by
        have cast : ((n : Nat) : Int) < ((2 ^ (bits - 1) : Nat) : Int) := by
          push_cast
          exact high
        exact Int.ofNat_lt.1 cast
      rw [Int.ofNat_eq_natCast, toList_toString_ofNat]
      unfold signed?
      split
      next rest signed => exact absurd signed (toDigits_ne_minus n rest)
      next rest signed => exact absurd signed (toDigits_ne_plus n rest)
      next =>
        simp only [digits?_toDigits, Option.filter, decide_eq_true fits, if_true, Option.map_some]
        rfl
  | negSucc n =>
      have fits : n + 1 ≤ Nat.pow 2 (bits - 1) := by
        have cast : ((n + 1 : Nat) : Int) ≤ ((2 ^ (bits - 1) : Nat) : Int) := by
          push_cast
          omega
        exact Int.ofNat_le.1 cast
      simp only [toList_toString_negSucc, signed?, digits?_toDigits, Option.filter,
        decide_eq_true fits, if_true]
      rfl

end ExpiringCache.Text
