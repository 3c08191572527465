import Mathlib
import ExpiringCache.Text.Beginning
import ExpiringCache.Text.Bytes

/-!
# UTF-8 reads back

The reader of UTF-8 takes one octet at a time. `readFrom_encodeChar` says that it
reads the octets of a character as that character, and `exists_of_readFrom_none`
that it reads a character nowhere else. Together they give
`decode?_eq_some_iff`: the strict reader accepts exactly what is written.

Texts and their octets begin alike (`beginsWith_encode`), so it is all one
whether the keys of a namespace are told by characters or by octets.
-/

namespace ExpiringCache.Text

theorem readFrom_cons (state : Option Unfinished) (b : UInt8) (rest : Bytes) :
    readFrom state (b :: rest) = (octet state b).1 ++ readFrom (octet state b).2 rest := by
  cases state <;> rfl

theorem toNat_octet {n : Nat} (small : n < 256) : (UInt8.ofNat n).toNat = n := by
  rw [UInt8.toNat_ofNat', Nat.mod_eq_of_lt small]

/-! ## The first octet of a character -/

/-- The least octet that may follow the first one of a character. -/
def lowest (b : Nat) : Nat := if b = 0xE0 then 0xA0 else if b = 0xF0 then 0x90 else 0x80

/-- The greatest octet that may follow the first one of a character. -/
def highest (b : Nat) : Nat := if b = 0xED then 0x9F else if b = 0xF4 then 0x8F else 0xBF

theorem firstOctet_one {b : UInt8} (small : b.toNat < 0x80) :
    firstOctet b = ([some (Char.ofNat b.toNat)], none) := by
  simp [firstOctet, small]

theorem firstOctet_two {b : UInt8} (lead : 0xC2 ≤ b.toNat ∧ b.toNat < 0xE0) :
    firstOctet b = ([], some ⟨b.toNat - 0xC0, 1, 0x80, 0xBF⟩) := by
  simp only [firstOctet]
  rw [if_neg (by omega), if_neg (by omega), if_pos lead.2]

theorem firstOctet_three {b : UInt8} (lead : 0xE0 ≤ b.toNat ∧ b.toNat < 0xF0) :
    firstOctet b = ([], some ⟨b.toNat - 0xE0, 2, lowest b.toNat, highest b.toNat⟩) := by
  simp only [firstOctet, lowest, highest]
  grind

theorem firstOctet_four {b : UInt8} (lead : 0xF0 ≤ b.toNat ∧ b.toNat < 0xF5) :
    firstOctet b = ([], some ⟨b.toNat - 0xF0, 3, lowest b.toNat, highest b.toNat⟩) := by
  simp only [firstOctet, lowest, highest]
  grind

/-- No character begins with any other octet. -/
theorem firstOctet_none {b : UInt8} (foreign : 0x80 ≤ b.toNat ∧ b.toNat < 0xC2 ∨ 0xF5 ≤ b.toNat) :
    firstOctet b = ([none], none) := by
  simp only [firstOctet]
  grind

/-! ## The octets that follow -/

theorem readFrom_last {code low high : Nat} {b : UInt8} (rest : Bytes)
    (within : low ≤ b.toNat ∧ b.toNat ≤ high) :
    readFrom (some ⟨code, 1, low, high⟩) (b :: rest) =
      some (Char.ofNat (code * 64 + (b.toNat - 0x80))) :: readFrom none rest := by
  simp [readFrom_cons, octet, within]

theorem readFrom_owed {code owed low high : Nat} {b : UInt8} (rest : Bytes)
    (within : low ≤ b.toNat ∧ b.toNat ≤ high) :
    readFrom (some ⟨code, owed + 2, low, high⟩) (b :: rest) =
      readFrom (some ⟨code * 64 + (b.toNat - 0x80), owed + 1, 0x80, 0xBF⟩) rest := by
  simp [readFrom_cons, octet, within]

/-- An unfinished character that is read goes on with an octet of its range. -/
theorem exists_of_readFrom {code owed low high : Nat} {bytes : Bytes} {c : Char}
    {after : List (Option Char)}
    (read : readFrom (some ⟨code, owed, low, high⟩) bytes = some c :: after) :
    ∃ b rest, bytes = b :: rest ∧ low ≤ b.toNat ∧ b.toNat ≤ high := by
  cases bytes with
  | nil => simp [readFrom] at read
  | cons b rest =>
      refine ⟨b, rest, rfl, ?_⟩
      by_contra outside
      simp [readFrom_cons, octet, outside] at read

/-! ## Whole characters -/

theorem readFrom_one {a : UInt8} (rest : Bytes) (small : a.toNat < 0x80) :
    readFrom none (a :: rest) = some (Char.ofNat a.toNat) :: readFrom none rest := by
  rw [readFrom_cons, octet, firstOctet_one small]
  rfl

theorem readFrom_two {a b : UInt8} (rest : Bytes) (lead : 0xC2 ≤ a.toNat ∧ a.toNat < 0xE0)
    (second : 0x80 ≤ b.toNat ∧ b.toNat ≤ 0xBF) :
    readFrom none (a :: b :: rest) =
      some (Char.ofNat ((a.toNat - 0xC0) * 64 + (b.toNat - 0x80))) :: readFrom none rest := by
  rw [readFrom_cons, octet, firstOctet_two lead, List.nil_append, readFrom_last _ second]

theorem readFrom_three {a b c : UInt8} (rest : Bytes) (lead : 0xE0 ≤ a.toNat ∧ a.toNat < 0xF0)
    (second : lowest a.toNat ≤ b.toNat ∧ b.toNat ≤ highest a.toNat)
    (third : 0x80 ≤ c.toNat ∧ c.toNat ≤ 0xBF) :
    readFrom none (a :: b :: c :: rest) =
      some (Char.ofNat (((a.toNat - 0xE0) * 64 + (b.toNat - 0x80)) * 64 + (c.toNat - 0x80))) ::
        readFrom none rest := by
  rw [readFrom_cons, octet, firstOctet_three lead, List.nil_append, readFrom_owed _ second,
    readFrom_last _ third]

theorem readFrom_four {a b c d : UInt8} (rest : Bytes) (lead : 0xF0 ≤ a.toNat ∧ a.toNat < 0xF5)
    (second : lowest a.toNat ≤ b.toNat ∧ b.toNat ≤ highest a.toNat)
    (third : 0x80 ≤ c.toNat ∧ c.toNat ≤ 0xBF) (fourth : 0x80 ≤ d.toNat ∧ d.toNat ≤ 0xBF) :
    readFrom none (a :: b :: c :: d :: rest) =
      some (Char.ofNat ((((a.toNat - 0xF0) * 64 + (b.toNat - 0x80)) * 64 + (c.toNat - 0x80)) * 64 +
        (d.toNat - 0x80))) :: readFrom none rest := by
  rw [readFrom_cons, octet, firstOctet_four lead, List.nil_append, readFrom_owed _ second,
    readFrom_owed _ third, readFrom_last _ fourth]

theorem readFrom_encodeChar (c : Char) (rest : Bytes) :
    readFrom none (encodeChar c ++ rest) = some c :: readFrom none rest := by
  have valid : c.toNat < 0xD800 ∨ 0xDFFF < c.toNat ∧ c.toNat < 0x110000 := c.valid
  have back : Char.ofNat c.toNat = c := Char.ofNat_toNat c
  simp only [encodeChar]
  generalize c.toNat = n at valid back ⊢
  have tail (k : Nat) : (UInt8.ofNat (0x80 + k % 64)).toNat = 0x80 + k % 64 :=
    toNat_octet (by omega)
  split
  next one =>
    have lead : (UInt8.ofNat n).toNat = n := toNat_octet (by omega)
    rw [List.singleton_append, readFrom_one _ (by omega), lead, back]
  split
  next two =>
    have lead : (UInt8.ofNat (0xC0 + n / 64)).toNat = 0xC0 + n / 64 := toNat_octet (by omega)
    have code : (0xC0 + n / 64 - 0xC0) * 64 + (0x80 + n % 64 - 0x80) = n := by omega
    simp only [List.cons_append, List.nil_append]
    rw [readFrom_two _ (by omega) (by have := tail n; omega), lead, tail, code, back]
  split
  next three =>
    have lead : (UInt8.ofNat (0xE0 + n / 4096)).toNat = 0xE0 + n / 4096 := toNat_octet (by omega)
    have code : ((0xE0 + n / 4096 - 0xE0) * 64 + (0x80 + n / 64 % 64 - 0x80)) * 64 +
        (0x80 + n % 64 - 0x80) = n := by omega
    have second : lowest (0xE0 + n / 4096) ≤ 0x80 + n / 64 % 64 ∧
        0x80 + n / 64 % 64 ≤ highest (0xE0 + n / 4096) := by
      simp only [lowest, highest]
      split_ifs <;> omega
    simp only [List.cons_append, List.nil_append]
    rw [readFrom_three _ (by omega) (by rw [lead, tail]; exact second) (by have := tail n; omega),
      lead, tail, tail, code, back]
  next four =>
    have lead : (UInt8.ofNat (0xF0 + n / 262144)).toNat = 0xF0 + n / 262144 :=
      toNat_octet (by omega)
    have code : (((0xF0 + n / 262144 - 0xF0) * 64 + (0x80 + n / 4096 % 64 - 0x80)) * 64 +
        (0x80 + n / 64 % 64 - 0x80)) * 64 + (0x80 + n % 64 - 0x80) = n := by omega
    have second : lowest (0xF0 + n / 262144) ≤ 0x80 + n / 4096 % 64 ∧
        0x80 + n / 4096 % 64 ≤ highest (0xF0 + n / 262144) := by
      simp only [lowest, highest]
      split_ifs <;> omega
    simp only [List.cons_append, List.nil_append]
    rw [readFrom_four _ (by omega) (by rw [lead, tail]; exact second)
      (by have := tail (n / 64); omega) (by have := tail n; omega),
      lead, tail, tail, tail, code, back]

theorem toNat_charOfNat {n : Nat} (valid : n < 0xD800 ∨ 0xDFFF < n ∧ n < 0x110000) :
    (Char.ofNat n).toNat = n := by
  rw [Char.toNat_ofNat, if_pos valid]

theorem octet_eq {b : UInt8} {n : Nat} (same : n = b.toNat) : UInt8.ofNat n = b := by
  rw [same, UInt8.ofNat_toNat]

theorem exists_of_readFrom_two {a : UInt8} {bytes : Bytes} {c : Char} {after : List (Option Char)}
    (lead : 0xC2 ≤ a.toNat ∧ a.toNat < 0xE0) (read : readFrom none (a :: bytes) = some c :: after) :
    ∃ rest, a :: bytes = encodeChar c ++ rest ∧ readFrom none rest = after := by
  have unfinished := read
  rw [readFrom_cons, octet, firstOctet_two lead, List.nil_append] at unfinished
  obtain ⟨b, rest, rfl, second⟩ := exists_of_readFrom unfinished
  rw [readFrom_two rest lead second, List.cons.injEq, Option.some.injEq] at read
  obtain ⟨rfl, rfl⟩ := read
  refine ⟨rest, ?_, rfl⟩
  have code := toNat_charOfNat (n := (a.toNat - 0xC0) * 64 + (b.toNat - 0x80)) (by omega)
  simp only [encodeChar, code]
  rw [if_neg (by omega), if_pos (by omega), octet_eq (b := a) (by omega),
    octet_eq (b := b) (by omega)]
  rfl

theorem exists_of_readFrom_three {a : UInt8} {bytes : Bytes} {c : Char}
    {after : List (Option Char)} (lead : 0xE0 ≤ a.toNat ∧ a.toNat < 0xF0)
    (read : readFrom none (a :: bytes) = some c :: after) :
    ∃ rest, a :: bytes = encodeChar c ++ rest ∧ readFrom none rest = after := by
  have unfinished := read
  rw [readFrom_cons, octet, firstOctet_three lead, List.nil_append] at unfinished
  obtain ⟨b, bytes, rfl, second⟩ := exists_of_readFrom unfinished
  rw [readFrom_owed _ second] at unfinished
  obtain ⟨d, rest, rfl, third⟩ := exists_of_readFrom unfinished
  rw [readFrom_three rest lead second third, List.cons.injEq, Option.some.injEq] at read
  obtain ⟨rfl, rfl⟩ := read
  refine ⟨rest, ?_, rfl⟩
  -- The bounds of the second octet keep the number off the surrogates.
  simp only [lowest, highest] at second
  have code := toNat_charOfNat
    (n := ((a.toNat - 0xE0) * 64 + (b.toNat - 0x80)) * 64 + (d.toNat - 0x80))
    (by split_ifs at second <;> omega)
  have large : 0x800 ≤ ((a.toNat - 0xE0) * 64 + (b.toNat - 0x80)) * 64 + (d.toNat - 0x80) := by
    split_ifs at second <;> omega
  have above : 0x80 ≤ b.toNat ∧ b.toNat ≤ 0xBF := by split_ifs at second <;> omega
  simp only [encodeChar, code]
  rw [if_neg (by omega), if_neg (by omega), if_pos (by omega), octet_eq (b := a) (by omega),
    octet_eq (b := b) (by omega), octet_eq (b := d) (by omega)]
  rfl

theorem exists_of_readFrom_four {a : UInt8} {bytes : Bytes} {c : Char}
    {after : List (Option Char)} (lead : 0xF0 ≤ a.toNat ∧ a.toNat < 0xF5)
    (read : readFrom none (a :: bytes) = some c :: after) :
    ∃ rest, a :: bytes = encodeChar c ++ rest ∧ readFrom none rest = after := by
  have unfinished := read
  rw [readFrom_cons, octet, firstOctet_four lead, List.nil_append] at unfinished
  obtain ⟨b, bytes, rfl, second⟩ := exists_of_readFrom unfinished
  rw [readFrom_owed _ second] at unfinished
  obtain ⟨d, bytes, rfl, third⟩ := exists_of_readFrom unfinished
  rw [readFrom_owed _ third] at unfinished
  obtain ⟨e, rest, rfl, fourth⟩ := exists_of_readFrom unfinished
  rw [readFrom_four rest lead second third fourth, List.cons.injEq, Option.some.injEq] at read
  obtain ⟨rfl, rfl⟩ := read
  refine ⟨rest, ?_, rfl⟩
  simp only [lowest, highest] at second
  have code := toNat_charOfNat (n := (((a.toNat - 0xF0) * 64 + (b.toNat - 0x80)) * 64 +
    (d.toNat - 0x80)) * 64 + (e.toNat - 0x80)) (by split_ifs at second <;> omega)
  have large : 0x10000 ≤ (((a.toNat - 0xF0) * 64 + (b.toNat - 0x80)) * 64 +
      (d.toNat - 0x80)) * 64 + (e.toNat - 0x80) := by
    split_ifs at second <;> omega
  have above : 0x80 ≤ b.toNat ∧ b.toNat ≤ 0xBF := by split_ifs at second <;> omega
  simp only [encodeChar, code]
  rw [if_neg (by omega), if_neg (by omega), if_neg (by omega), octet_eq (b := a) (by omega),
    octet_eq (b := b) (by omega), octet_eq (b := d) (by omega), octet_eq (b := e) (by omega)]
  rfl

/-- A character is read only where the octets of that character are. -/
theorem exists_of_readFrom_none {bytes : Bytes} {c : Char} {after : List (Option Char)}
    (read : readFrom none bytes = some c :: after) :
    ∃ rest, bytes = encodeChar c ++ rest ∧ readFrom none rest = after := by
  cases bytes with
  | nil => simp [readFrom] at read
  | cons a bytes =>
      by_cases one : a.toNat < 0x80
      · rw [readFrom_one _ one, List.cons.injEq, Option.some.injEq] at read
        obtain ⟨rfl, rfl⟩ := read
        have code : (Char.ofNat a.toNat).toNat = a.toNat := toNat_charOfNat (by omega)
        exact ⟨bytes, by simp [encodeChar, code, one], rfl⟩
      by_cases two : 0xC2 ≤ a.toNat ∧ a.toNat < 0xE0
      · exact exists_of_readFrom_two two read
      by_cases three : 0xE0 ≤ a.toNat ∧ a.toNat < 0xF0
      · exact exists_of_readFrom_three three read
      by_cases four : 0xF0 ≤ a.toNat ∧ a.toNat < 0xF5
      · exact exists_of_readFrom_four four read
      · rw [readFrom_cons, octet, firstOctet_none (by omega)] at read
        simp at read

/-! ## Texts -/

theorem readChars_encodeChars_append (cs : List Char) (rest : Bytes) :
    readChars (encodeChars cs ++ rest) = cs.map some ++ readChars rest := by
  induction cs with
  | nil => rfl
  | cons c cs ih =>
      simp only [readChars, encodeChars, List.flatMap_cons, List.append_assoc] at ih ⊢
      rw [readFrom_encodeChar, ih]
      rfl

theorem readChars_encode (s : String) : readChars (encode s) = s.toList.map some := by
  have read := readChars_encodeChars_append s.toList []
  simpa [encode, readChars, readFrom] using read

/-- Octets never go by without a trace. -/
theorem readFrom_some_ne_nil (u : Unfinished) (bytes : Bytes) : readFrom (some u) bytes ≠ [] := by
  induction bytes generalizing u with
  | nil => simp [readFrom]
  | cons b rest ih =>
      rw [readFrom_cons]
      simp only [octet]
      split_ifs <;> simp [ih]

theorem eq_nil_of_readChars {bytes : Bytes} (read : readChars bytes = []) : bytes = [] := by
  cases bytes with
  | nil => rfl
  | cons b rest =>
      simp only [readChars, readFrom_cons, octet, firstOctet] at read
      split_ifs at read <;> simp [readFrom_some_ne_nil] at read

theorem eq_encodeChars_of_readChars {cs : List Char} {bytes : Bytes}
    (read : readChars bytes = cs.map some) : bytes = encodeChars cs := by
  induction cs generalizing bytes with
  | nil => exact eq_nil_of_readChars read
  | cons c cs ih =>
      obtain ⟨rest, rfl, after⟩ := exists_of_readFrom_none read
      rw [ih after]
      rfl

theorem mapM_id_eq_some_iff {l : List (Option Char)} {cs : List Char} :
    l.mapM id = some cs ↔ l = cs.map some := by
  induction l generalizing cs with
  | nil => cases cs <;> simp
  | cons c? l ih =>
      cases c? with
      | none => cases cs <;> simp
      | some c =>
          cases cs with
          | nil => simp [List.mapM_cons, Option.bind_eq_some_iff]
          | cons d cs =>
              simp [List.mapM_cons, Option.bind_eq_some_iff, ih, and_comm]

/-- The strict reader reads exactly what a writer writes. -/
theorem decode?_eq_some_iff {bytes : Bytes} {s : String} :
    decode? bytes = some s ↔ bytes = encode s := by
  simp only [decode?, Option.map_eq_some_iff, mapM_id_eq_some_iff]
  constructor
  · rintro ⟨cs, read, rfl⟩
    rw [encode, String.toList_ofList]
    exact eq_encodeChars_of_readChars read
  · rintro rfl
    exact ⟨s.toList, readChars_encode s, String.ofList_toList⟩

@[simp] theorem decode?_encode (s : String) : decode? (encode s) = some s :=
  decode?_eq_some_iff.2 rfl

@[simp] theorem decodeLossy_encode (s : String) : decodeLossy (encode s) = s := by
  simp [decodeLossy, readChars_encode, Function.comp_def]

theorem encode_injective : Function.Injective encode := by
  intro s t same
  have read := decode?_encode s
  rw [same, decode?_encode, Option.some.injEq] at read
  exact read.symm

/-- A text begins with another one exactly if its octets do. -/
theorem beginsWith_encode (s t : String) :
    beginsWith (encode s) (encode t) = true ↔ ∃ rest, t = s ++ rest := by
  rw [beginsWith_iff]
  constructor
  · rintro ⟨rest, octets⟩
    have read := readChars_encode t
    rw [octets, encode, readChars_encodeChars_append] at read
    obtain ⟨cs, ds, split, head, tail⟩ := List.map_eq_append_iff.1 read.symm
    refine ⟨String.ofList ds, ?_⟩
    have head : cs = s.toList := List.map_injective_iff.2 (Option.some_injective _) head
    rw [← String.toList_inj, split, head]
    simp
  · rintro ⟨rest, rfl⟩
    exact ⟨encode rest, encode_append s rest⟩

end ExpiringCache.Text
