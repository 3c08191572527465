import ExpiringCache.Json.Quote
import ExpiringCache.Proofs.Text.Quoted

/-!
# How JSON strings are spelt

A text can be spelt in many ways: a character stands for itself, or behind a backslash,
or as its UTF-16 code units in hexadecimal. `Quote.Spells` says which characters can stand
between two quotes and what pieces they make up, and `Quote.Reads` which text the pieces
have. Whatever the spelling, it is read to the closing quote (`Quote.scan_of_spells`) and
has that text (`Quote.textOf_eq_some_iff`).
-/

namespace ExpiringCache.Json

open Text (hexDigit?)

namespace Quote

/-! ## Spellings -/

/-- What may stand behind a backslash, and the character that it stands for. -/
def shortEscapes : List (Char × Char) :=
  [('"', '"'), ('\\', '\\'), ('/', '/'), ('b', '\x08'), ('f', '\x0c'), ('n', '\n'), ('r', '\r'),
   ('t', '\t')]

/-- The hexadecimal digits of a number below sixteen, in either case. -/
def hexSpellings (k : Nat) : List Char := [k.digitChar, k.digitChar.toUpper]

/-- The pieces that the characters between two quotes make up. -/
inductive Spells : List Piece → List Char → Prop
  | nil : Spells [] []
  | plain {c : Char} {ps : List Piece} {cs : List Char} (quote : c ≠ '"') (slash : c ≠ '\\')
      (printable : 0x20 ≤ c.toNat) (rest : Spells ps cs) : Spells (.plain c :: ps) (c :: cs)
  | short {letter c : Char} {ps : List Piece} {cs : List Char}
      (known : (letter, c) ∈ shortEscapes) (rest : Spells ps cs) :
      Spells (.plain c :: ps) ('\\' :: letter :: cs)
  | unit {unit : Nat} {d₃ d₂ d₁ d₀ : Char} {ps : List Piece} {cs : List Char}
      (small : unit < 0x10000) (third : d₃ ∈ hexSpellings (unit / 0x1000))
      (second : d₂ ∈ hexSpellings (unit / 0x100 % 16))
      (first : d₁ ∈ hexSpellings (unit / 0x10 % 16)) (last : d₀ ∈ hexSpellings (unit % 16))
      (rest : Spells ps cs) :
      Spells (.escapedUnit unit :: ps) ('\\' :: 'u' :: d₃ :: d₂ :: d₁ :: d₀ :: cs)

/-- The UTF-16 code units of a character. -/
def unitsOf (c : Char) : List Nat :=
  if c.toNat < 0x10000 then [c.toNat]
  else [0xD800 + (c.toNat - 0x10000) / 0x400, 0xDC00 + (c.toNat - 0x10000) % 0x400]

/-- The text that pieces have. -/
inductive Reads : List Piece → List Char → Prop
  | nil : Reads [] []
  | plain {c : Char} {ps : List Piece} {text : List Char} (rest : Reads ps text) :
      Reads (.plain c :: ps) (c :: text)
  | escaped {c : Char} {ps : List Piece} {text : List Char} (rest : Reads ps text) :
      Reads ((unitsOf c).map .escapedUnit ++ ps) (c :: text)

/-! ## Reading to the closing quote -/

theorem hexDigit?_of_mem_hexSpellings {k : Nat} (small : k < 16) {d : Char}
    (member : d ∈ hexSpellings k) : hexDigit? d = some k := by
  rcases List.mem_pair.1 member with rfl | rfl
  · exact Text.hexDigit?_digitChar small
  · decide +revert

theorem scan_plain {c : Char} (quote : c ≠ '"') (slash : c ≠ '\\') (printable : 0x20 ≤ c.toNat)
    (rest : List Char) : scan (c :: rest) = (scan rest).cons (.plain c) := by
  rw [scan]
  · exact if_neg (Nat.not_lt.2 printable)
  · exact quote
  all_goals
    intros
    contradiction

theorem scan_short {letter c : Char} (known : (letter, c) ∈ shortEscapes) (rest : List Char) :
    scan ('\\' :: letter :: rest) = (scan rest).cons (.plain c) := by
  simp only [shortEscapes, List.mem_cons, Prod.mk.injEq, List.not_mem_nil, or_false] at known
  rcases known with ⟨rfl, rfl⟩ | ⟨rfl, rfl⟩ | ⟨rfl, rfl⟩ | ⟨rfl, rfl⟩ | ⟨rfl, rfl⟩ | ⟨rfl, rfl⟩ |
    ⟨rfl, rfl⟩ | ⟨rfl, rfl⟩ <;> rfl

theorem scan_of_spells {ps : List Piece} {cs : List Char} (spells : Spells ps cs)
    (rest : List Char) : scan (cs ++ '"' :: rest) = ⟨ps, none, rest⟩ := by
  induction spells with
  | nil => rfl
  | plain quote slash printable _ ih =>
      rw [List.cons_append, scan_plain quote slash printable, ih]
      rfl
  | short known _ ih =>
      rw [List.cons_append, List.cons_append, scan_short known, ih]
      rfl
  | @unit unit d₃ d₂ d₁ d₀ _ _ small third second first last _ ih =>
      have value : unit? d₃ d₂ d₁ d₀ = some unit := by
        rw [unit?, hexDigit?_of_mem_hexSpellings (by omega) third,
          hexDigit?_of_mem_hexSpellings (by omega) second,
          hexDigit?_of_mem_hexSpellings (by omega) first,
          hexDigit?_of_mem_hexSpellings (by omega) last]
        show some _ = some unit
        congr 1
        omega
      simp only [List.cons_append]
      rw [scan, value]
      simp only [ih]
      rfl

/-! ## Texts -/

/-- A code unit that is not a surrogate is one of a character. -/
theorem unitsOf_ofNat {unit : Nat} (high : isHighSurrogate unit = false)
    (low : isLowSurrogate unit = false) (small : unit < 0x10000) :
    unitsOf (Char.ofNat unit) = [unit] := by
  have valid : unit.isValidChar := by
    simp only [isHighSurrogate, isLowSurrogate, Bool.and_eq_false_iff, decide_eq_false_iff_not,
      Nat.not_le, Nat.not_lt] at high low
    unfold Nat.isValidChar
    omega
  have same : (Char.ofNat unit).toNat = unit := by
    rw [Char.ofNat, dif_pos valid]
    rfl
  rw [unitsOf, same, if_pos small]

theorem unitsOf_pairChar {high low : Nat} (first : isHighSurrogate high = true)
    (second : isLowSurrogate low = true) : unitsOf (pairChar high low) = [high, low] := by
  simp only [isHighSurrogate, isLowSurrogate, Bool.and_eq_true, decide_eq_true_eq] at first second
  have valid : (0x10000 + (high - 0xD800) * 0x400 + (low - 0xDC00)).isValidChar := by
    unfold Nat.isValidChar
    omega
  have same : (pairChar high low).toNat =
      0x10000 + (high - 0xD800) * 0x400 + (low - 0xDC00) := by
    rw [pairChar, Char.ofNat, dif_pos valid]
    rfl
  have large : ¬ 0x10000 + (high - 0xD800) * 0x400 + (low - 0xDC00) < 0x10000 := by omega
  rw [unitsOf, same, if_neg large]
  have top : 0xD800 + (0x10000 + (high - 0xD800) * 0x400 + (low - 0xDC00) - 0x10000) / 0x400 =
      high := by omega
  have bottom : 0xDC00 + (0x10000 + (high - 0xD800) * 0x400 + (low - 0xDC00) - 0x10000) % 0x400 =
      low := by omega
  rw [top, bottom]

/-- A code unit that is not a surrogate is read by itself. -/
theorem textOf_unit {unit : Nat} (high : isHighSurrogate unit = false)
    (low : isLowSurrogate unit = false) (ps : List Piece) :
    textOf (.escapedUnit unit :: ps) = (textOf ps).map (Char.ofNat unit :: ·) := by
  cases ps with
  | nil => simp [textOf, high, low]
  | cons p rest =>
      cases p with
      | plain c => simp [textOf, high, low]
      | escapedUnit next =>
          rw [textOf]
          simp [high, low]

/-- A character comes first in the text of its code units. -/
theorem textOf_units (c : Char) (ps : List Piece) :
    textOf ((unitsOf c).map .escapedUnit ++ ps) = (textOf ps).map (c :: ·) := by
  have valid : c.toNat.isValidChar := c.valid
  unfold Nat.isValidChar at valid
  by_cases small : c.toNat < 0x10000
  · have high : isHighSurrogate c.toNat = false := by
      simp only [isHighSurrogate, Bool.and_eq_false_iff, decide_eq_false_iff_not]
      omega
    have low : isLowSurrogate c.toNat = false := by
      simp only [isLowSurrogate, Bool.and_eq_false_iff, decide_eq_false_iff_not]
      omega
    rw [unitsOf, if_pos small, List.map_singleton, List.singleton_append, textOf_unit high low,
      Char.ofNat_toNat]
  · have first : isHighSurrogate (0xD800 + (c.toNat - 0x10000) / 0x400) = true := by
      simp only [isHighSurrogate, Bool.and_eq_true, decide_eq_true_eq]
      omega
    have second : isLowSurrogate (0xDC00 + (c.toNat - 0x10000) % 0x400) = true := by
      simp only [isLowSurrogate, Bool.and_eq_true, decide_eq_true_eq]
      omega
    have number : 0x10000 + (0xD800 + (c.toNat - 0x10000) / 0x400 - 0xD800) * 0x400 +
        (0xDC00 + (c.toNat - 0x10000) % 0x400 - 0xDC00) = c.toNat := by omega
    have pair : pairChar (0xD800 + (c.toNat - 0x10000) / 0x400)
        (0xDC00 + (c.toNat - 0x10000) % 0x400) = c := by
      rw [pairChar, number, Char.ofNat_toNat]
    rw [unitsOf, if_neg small]
    simp only [List.map_cons, List.map_nil, List.cons_append, List.nil_append, textOf, first,
      second, pair, if_true]

theorem textOf_of_reads {ps : List Piece} {text : List Char} (reads : Reads ps text) :
    textOf ps = some text := by
  induction reads with
  | nil => rfl
  | plain _ ih => rw [textOf, ih, Option.map_some]
  | escaped _ ih => rw [textOf_units, ih, Option.map_some]

/-- Every code unit is one of sixteen bits. -/
def Small (ps : List Piece) : Prop := ∀ unit, .escapedUnit unit ∈ ps → unit < 0x10000

theorem small_of_spells {ps : List Piece} {cs : List Char} (spells : Spells ps cs) : Small ps := by
  induction spells with
  | nil => simp [Small]
  | plain _ _ _ _ ih =>
      intro unit member
      simpa using ih unit (by simpa using member)
  | short _ _ ih =>
      intro unit member
      simpa using ih unit (by simpa using member)
  | unit small _ _ _ _ _ ih =>
      intro other member
      rcases List.mem_cons.1 member with same | later
      · cases same
        exact small
      · exact ih other later

theorem reads_of_textOf {ps : List Piece} {text : List Char} (small : Small ps)
    (read : textOf ps = some text) : Reads ps text := by
  have later {p : Piece} {rest : List Piece} (small : Small (p :: rest)) : Small rest :=
    fun unit member => small unit (.tail _ member)
  -- A code unit that is no surrogate is a character, and so is a pair of surrogates.
  have alone {unit : Nat} {rest : List Piece} (ih : ∀ {text}, Small rest →
      textOf rest = some text → Reads rest text) (small : Small (.escapedUnit unit :: rest))
      (high : isHighSurrogate unit = false) (low : isLowSurrogate unit = false) {text : List Char}
      (read : textOf (.escapedUnit unit :: rest) = some text) :
      Reads (.escapedUnit unit :: rest) text := by
    rw [textOf_unit high low] at read
    obtain ⟨others, found, rfl⟩ := Option.map_eq_some_iff.1 read
    have reads := Reads.escaped (c := Char.ofNat unit) (ih (later small) found)
    rwa [unitsOf_ofNat high low (small unit List.mem_cons_self)] at reads
  induction ps using textOf.induct generalizing text with
  | case1 =>
      cases read
      exact .nil
  | case2 c rest ih =>
      rw [textOf] at read
      obtain ⟨others, found, rfl⟩ := Option.map_eq_some_iff.1 read
      exact .plain (ih (later small) found)
  | case3 high low rest first second ih =>
      rw [textOf, if_pos first, if_pos second] at read
      obtain ⟨others, found, rfl⟩ := Option.map_eq_some_iff.1 read
      have reads := Reads.escaped (c := pairChar high low) (ih (later (later small)) found)
      rwa [unitsOf_pairChar first second] at reads
  | case4 high low rest first second =>
      rw [textOf, if_pos first, if_neg second] at read
      cases read
  | case5 high low rest first second =>
      rw [textOf, if_neg first, if_pos second] at read
      cases read
  | case6 high low rest first second ih =>
      exact alone ih small (Bool.eq_false_iff.2 first) (Bool.eq_false_iff.2 second) read
  | case7 unit rest last surrogate =>
      rw [textOf, if_pos surrogate] at read
      · cases read
      · exact last
  | case8 unit rest last surrogate ih =>
      obtain ⟨high, low⟩ := Bool.or_eq_false_iff.1 (Bool.eq_false_iff.2 surrogate)
      exact alone ih small high low read

theorem textOf_eq_some_iff {ps : List Piece} {cs : List Char} (spells : Spells ps cs)
    (text : List Char) : textOf ps = some text ↔ Reads ps text :=
  ⟨reads_of_textOf (small_of_spells spells), textOf_of_reads⟩

/-- Whether a character can stand for itself. -/
def isPlain (c : Char) : Bool := c != '"' && c != '\\' && 0x20 ≤ c.toNat

theorem spells_plain {cs : List Char} (plain : cs.all isPlain = true) :
    Spells (cs.map .plain) cs ∧ Reads (cs.map .plain) cs := by
  induction cs with
  | nil => exact ⟨.nil, .nil⟩
  | cons c rest ih =>
      simp only [List.all_cons, isPlain, Bool.and_eq_true, bne_iff_ne, decide_eq_true_eq] at plain
      obtain ⟨⟨⟨quote, slash⟩, printable⟩, others⟩ := plain
      obtain ⟨spells, reads⟩ := ih others
      exact ⟨.plain quote slash printable spells, .plain reads⟩

end Quote

end ExpiringCache.Json
