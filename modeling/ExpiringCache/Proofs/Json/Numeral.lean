import ExpiringCache.Json.Numeral
import ExpiringCache.Proofs.Text.Numeral

/-!
# How JSON numbers are spelt

`Numeral.Spells` is the grammar of numbers. A number is read to its end where nothing
follows that could belong to it (`Numeral.scan_of_spells`), and the decimal digits of a
whole number of 64 bits have that number as their value (`Numeral.value?_natural`,
`Numeral.value?_negative`).
-/

namespace ExpiringCache.Json

open Text (foldl_toDigits isDigit_of_mem_toDigits)

namespace Numeral

/-! ## Spellings -/

/-- One or more decimal digits. -/
structure Digits (cs : List Char) : Prop where
  some : cs ≠ []
  all : ∀ c ∈ cs, c.isDigit = true

/-- The digits before the point: none of them, unless it is alone, is a zero in front. -/
structure WholeDigits (cs : List Char) : Prop extends Digits cs where
  plain : ∀ rest, cs = '0' :: rest → rest = []

def signText (negative : Bool) : List Char := if negative then ['-'] else []

def fractionText : Option (List Char) → List Char
  | none => []
  | some digits => '.' :: digits

/-- The ways to write an exponent. -/
inductive ExponentText : Option (Bool × List Char) → List Char → Prop
  | none : ExponentText none []
  | unsigned {mark : Char} {digits : List Char} (marked : mark = 'e' ∨ mark = 'E') :
      ExponentText (some (false, digits)) (mark :: digits)
  | plus {mark : Char} {digits : List Char} (marked : mark = 'e' ∨ mark = 'E') :
      ExponentText (some (false, digits)) (mark :: '+' :: digits)
  | minus {mark : Char} {digits : List Char} (marked : mark = 'e' ∨ mark = 'E') :
      ExponentText (some (true, digits)) (mark :: '-' :: digits)

/-- The characters that spell a number. -/
inductive Spells (n : Numeral) : List Char → Prop
  | parts {exponent : List Char} (whole : WholeDigits n.whole)
      (fraction : ∀ digits, n.fraction = some digits → Digits digits)
      (power : ∀ down digits, n.exponent = some (down, digits) → Digits digits)
      (written : ExponentText n.exponent exponent) :
      Spells n (signText n.negative ++ (n.whole ++ (fractionText n.fraction ++ exponent)))

/-- Whether nothing follows that could belong to a number. -/
def Ends (rest : List Char) : Prop :=
  ∀ c, rest.head? = some c → c.isDigit = false ∧ c ≠ '.' ∧ c ≠ 'e' ∧ c ≠ 'E'

/-! ## Reading -/

theorem takeDigits_append {digits : List Char} (all : ∀ c ∈ digits, c.isDigit = true)
    {rest : List Char} (stop : ∀ c, rest.head? = some c → c.isDigit = false) :
    takeDigits (digits ++ rest) = (digits, rest) := by
  rw [takeDigits, List.takeWhile_append_of_pos all, List.dropWhile_append_of_pos all]
  cases rest with
  | nil => simp
  | cons c rest => simp [stop c rfl]

theorem scanDigits_append {digits : List Char} (valid : Digits digits) {rest : List Char}
    (stop : ∀ c, rest.head? = some c → c.isDigit = false) :
    scanDigits (digits ++ rest) = .found digits rest := by
  rw [scanDigits, takeDigits_append valid.all stop]
  split
  next heq => exact absurd (Prod.mk.inj heq).1 valid.some
  next heq =>
    obtain ⟨rfl, rfl⟩ := Prod.mk.inj heq
    rfl

theorem scanWhole_append {digits : List Char} (valid : WholeDigits digits) {rest : List Char}
    (stop : ∀ c, rest.head? = some c → c.isDigit = false) :
    scanWhole (digits ++ rest) = .found digits rest := by
  rw [scanWhole, scanDigits_append valid.toDigits stop]
  split
  next heq =>
    have zero := valid.plain _ (Scan.found.inj heq).1
    cases zero
  next => rfl

theorem takeSign_of_digits {digits : List Char} (valid : Digits digits) (rest : List Char) :
    takeSign (digits ++ rest) = (false, digits ++ rest) := by
  cases digits with
  | nil => exact absurd rfl valid.some
  | cons c digits =>
      have digit := valid.all c List.mem_cons_self
      rw [List.cons_append, takeSign]
      all_goals
        intro rest sign
        rw [(List.cons.inj sign).1] at digit
        exact absurd digit (by decide)

theorem scanFraction_append {fraction : Option (List Char)}
    (valid : ∀ digits, fraction = some digits → Digits digits) {rest : List Char}
    (stop : ∀ c, rest.head? = some c → c.isDigit = false ∧ c ≠ '.') :
    scanFraction (fractionText fraction ++ rest) = .found fraction rest := by
  cases fraction with
  | none =>
      cases rest with
      | nil => rfl
      | cons c rest =>
          have other := (stop c rfl).2
          show scanFraction (c :: rest) = _
          rw [scanFraction]
          intro rest point
          exact other (List.cons.inj point).1
  | some digits =>
      have found := scanDigits_append (valid digits rfl) fun c first => (stop c first).1
      show scanFraction ('.' :: (digits ++ rest)) = _
      simp only [scanFraction, found]

theorem scanExponent_append {exponent : Option (Bool × List Char)} {cs : List Char}
    (written : ExponentText exponent cs)
    (power : ∀ down digits, exponent = some (down, digits) → Digits digits) {rest : List Char}
    (ends : Ends rest) : scanExponent (cs ++ rest) = .found exponent rest := by
  have stop : ∀ c, rest.head? = some c → c.isDigit = false := fun c first => (ends c first).1
  cases written with
  | none =>
      cases rest with
      | nil => rfl
      | cons c rest =>
          obtain ⟨-, -, lower, upper⟩ := ends c rfl
          rw [List.nil_append, scanExponent, if_neg (not_or.2 ⟨lower, upper⟩)]
  | unsigned marked =>
      have valid := power _ _ rfl
      rw [List.cons_append, scanExponent, if_pos marked]
      simp only [takeSign_of_digits valid, scanDigits_append valid stop]
  | plus marked =>
      rw [List.cons_append, scanExponent, if_pos marked]
      simp only [List.cons_append, takeSign, scanDigits_append (power _ _ rfl) stop]
  | minus marked =>
      rw [List.cons_append, scanExponent, if_pos marked]
      simp only [List.cons_append, takeSign, scanDigits_append (power _ _ rfl) stop]

/-- No digit and no point stands in front of an exponent or of what ends a number. -/
theorem head_exponentText {exponent : Option (Bool × List Char)} {cs rest : List Char}
    (written : ExponentText exponent cs) (ends : Ends rest) :
    ∀ c, (cs ++ rest).head? = some c → c.isDigit = false ∧ c ≠ '.' := by
  have mark {c : Char} (marked : c = 'e' ∨ c = 'E') : c.isDigit = false ∧ c ≠ '.' := by
    rcases marked with rfl | rfl <;> decide
  intro c first
  cases written with
  | none => exact ⟨(ends c first).1, (ends c first).2.1⟩
  | unsigned marked | plus marked | minus marked =>
      cases first
      exact mark marked

/-- Neither does a digit in front of a fraction. -/
theorem head_fractionText {fraction : Option (List Char)} {rest : List Char}
    (stop : ∀ c, rest.head? = some c → c.isDigit = false) :
    ∀ c, (fractionText fraction ++ rest).head? = some c → c.isDigit = false := by
  intro c first
  cases fraction with
  | none => exact stop c first
  | some digits =>
      cases first
      decide

/-- A number is read to its end. -/
theorem scan_of_spells {n : Numeral} {cs : List Char} (spells : Spells n cs) {rest : List Char}
    (ends : Ends rest) : scan (cs ++ rest) = .found n rest := by
  obtain @⟨exponent, whole, fraction, power, written⟩ := spells
  have beforeExponent := head_exponentText written ends
  have beforeFraction : ∀ c, (fractionText n.fraction ++ (exponent ++ rest)).head? = some c →
      c.isDigit = false := head_fractionText fun c first => (beforeExponent c first).1
  have body : scanWhole (n.whole ++ (fractionText n.fraction ++ (exponent ++ rest))) =
      .found n.whole (fractionText n.fraction ++ (exponent ++ rest)) :=
    scanWhole_append whole beforeFraction
  simp only [List.append_assoc]
  cases negative : n.negative with
  | true =>
      show scan ('-' :: (n.whole ++ (fractionText n.fraction ++ (exponent ++ rest)))) = _
      simp only [scan, body, scanFraction_append fraction beforeExponent,
        scanExponent_append written power ends, ← negative]
  | false =>
      have unsigned (after : List Char) : n.whole ++ (fractionText n.fraction ++
          (exponent ++ rest)) ≠ '-' :: after := by
        intro sign
        cases front : n.whole with
        | nil => exact whole.some front
        | cons c digits =>
            have digit := whole.all c (by rw [front]; exact List.mem_cons_self)
            rw [front, List.cons_append] at sign
            rw [(List.cons.inj sign).1] at digit
            exact absurd digit (by decide)
      show scan (n.whole ++ (fractionText n.fraction ++ (exponent ++ rest))) = _
      revert body unsigned
      generalize n.whole ++ (fractionText n.fraction ++ (exponent ++ rest)) = cs
      intro body unsigned
      simp only [scan, body, scanFraction_append fraction beforeExponent,
        scanExponent_append written power ends, ← negative]

theorem head_of_spells {n : Numeral} {cs : List Char} (spells : Spells n cs) :
    ∃ c rest, cs = c :: rest ∧ (c = '-' ∨ c.isDigit = true) := by
  obtain @⟨exponent, whole, fraction, power, written⟩ := spells
  cases n.negative with
  | true => exact ⟨'-', _, rfl, .inl rfl⟩
  | false =>
      cases front : n.whole with
      | nil => exact absurd front whole.some
      | cons c digits =>
          exact ⟨c, _, rfl, .inr (whole.all c (by rw [front]; exact List.mem_cons_self))⟩

/-! ## Values -/

theorem le_foldl_digits (n : Nat) (cs : List Char) :
    n ≤ cs.foldl (fun n c => n * 10 + (c.toNat - '0'.toNat)) n := by
  induction cs generalizing n with
  | nil => exact le_rfl
  | cons c rest ih =>
      have later := ih (n * 10 + (c.toNat - '0'.toNat))
      rw [List.foldl_cons]
      omega

theorem accumulate_of_fits {n : Nat} {cs : List Char}
    (fits : cs.foldl (fun n c => n * 10 + (c.toNat - '0'.toNat)) n < UInt64.size) :
    accumulate n cs = (cs.foldl (fun n c => n * 10 + (c.toNat - '0'.toNat)) n, []) := by
  induction cs generalizing n with
  | nil => rfl
  | cons c rest ih =>
      rw [List.foldl_cons] at fits ⊢
      have next := Nat.lt_of_le_of_lt (le_foldl_digits _ rest) fits
      rw [accumulate, if_pos next, ih fits]

theorem value?_whole (negative : Bool) {n : Nat} (fits : n < UInt64.size) :
    value? ⟨negative, Nat.toDigits 10 n, none, none⟩ = some (whole? negative n) := by
  have value := foldl_toDigits n
  have read : accumulate 0 (Nat.toDigits 10 n) = _ := accumulate_of_fits (by rw [value]; exact fits)
  rw [value] at read
  simp only [value?, read]

theorem wholeDigits_toDigits (n : Nat) : WholeDigits (Nat.toDigits 10 n) := by
  refine ⟨⟨Nat.toDigits_ne_nil, fun c member => isDigit_of_mem_toDigits member⟩, ?_⟩
  induction n using Nat.strongRecOn with
  | ind n ih =>
      intro rest zero
      rw [Nat.toDigits_eq_if (by decide)] at zero
      split at zero
      next => exact (List.cons.inj zero).2.symm
      next large =>
        -- A number of several digits has its leading digit in common with its tenth.
        cases front : Nat.toDigits 10 (n / 10) with
        | nil => exact absurd front Nat.toDigits_ne_nil
        | cons c digits =>
            rw [front, List.cons_append] at zero
            have head := (List.cons.inj zero).1
            rw [head, ih (n / 10) (by omega) digits (head ▸ front)] at front
            have tenth := foldl_toDigits (n / 10)
            rw [front] at tenth
            simp at tenth
            omega

/-- A whole number by its digits. -/
theorem spells_whole (negative : Bool) (n : Nat) :
    Spells ⟨negative, Nat.toDigits 10 n, none, none⟩ (signText negative ++ Nat.toDigits 10 n) := by
  have parts := Spells.parts (n := ⟨negative, Nat.toDigits 10 n, none, none⟩)
    (wholeDigits_toDigits n) nofun nofun .none
  simpa [fractionText] using parts

theorem value?_natural (n : UInt64) :
    value? ⟨false, Nat.toDigits 10 n.toNat, none, none⟩ = some (.natural n) := by
  rw [value?_whole false n.toNat_lt]
  simp [whole?]

theorem value?_negative {i : Int64} (below : i < 0) :
    value? ⟨true, Nat.toDigits 10 i.toInt.natAbs, none, none⟩ = some (.negative i) := by
  have low := i.le_toInt
  have sign : i.toInt < 0 := Int64.lt_iff_toInt_lt.1 below
  have size : i.toInt.natAbs < UInt64.size := by
    show _ < 18446744073709551616
    omega
  have fits : ¬ (i.toInt.natAbs = 0 ∨ UInt64.size / 2 < i.toInt.natAbs) := by
    show ¬ (_ ∨ 9223372036854775808 < _)
    omega
  have back : -(i.toInt.natAbs : Int) = i.toInt := by omega
  rw [value?_whole true size, whole?, if_neg (by decide), if_neg fits, back]
  simp

end Numeral

end ExpiringCache.Json
