import ExpiringCache.Keys
import ExpiringCache.Proofs.Text.Utf8

/-!
# Glob patterns

What a server takes a glob pattern to mean, octet by octet: a star is any run of
octets, a question mark any one of them, brackets hold a class, a backslash takes
the next octet literally, and anything else is itself.

A pattern means the keys that can be cut into parts, one for each of its pieces
(`Means`), and matching by trial and error finds out whether a key can (`fits_iff`). The
pattern of a namespace means just the keys that begin with its root
(`pattern_means_root`), whatever characters the namespace and the delimiter are made of.
-/

namespace ExpiringCache.Glob

open Text

/-- What a piece of a pattern stands for. -/
inductive Piece
  /-- Any number of octets. -/
  | run
  | any
  | octet (b : UInt8)
  /-- An octet in one of some ranges, or in none of them. -/
  | oneOf (negated : Bool) (ranges : List (UInt8 × UInt8))

/-- A class that is still open. -/
structure OpenClass where
  negated : Bool
  ranges : List (UInt8 × UInt8) := []

namespace OpenClass

/-- Adds a range, whose ends may come in either order. -/
def add (c : OpenClass) (first last : UInt8) : OpenClass :=
  { c with ranges := (first, last) :: c.ranges }

def piece (c : OpenClass) : Piece := .oneOf c.negated c.ranges

end OpenClass

/-- The pieces of a pattern, begun inside a class if one is open. A class that is
never closed goes on to the end, and a backslash at the end is itself. -/
def pieces : Option OpenClass → Bytes → List Piece
  | none, [] => []
  | some c, [] => [c.piece]
  | none, b :: rest =>
      if b = .ofNat '*'.toNat then .run :: pieces none rest
      else if b = .ofNat '?'.toNat then .any :: pieces none rest
      else if b = .ofNat '['.toNat then
        match rest with
        | [] => [.oneOf false []]
        | d :: others =>
            if d = .ofNat '^'.toNat then pieces (some ⟨true, []⟩) others
            else pieces (some ⟨false, []⟩) (d :: others)
      else if b = .ofNat '\\'.toNat then
        match rest with
        | [] => [.octet b]
        | d :: others => .octet d :: pieces none others
      else .octet b :: pieces none rest
  | some c, b :: rest =>
      if b = .ofNat '\\'.toNat then
        match rest with
        | [] => [(c.add b b).piece]
        | d :: others => pieces (some (c.add d d)) others
      else if b = .ofNat ']'.toNat then c.piece :: pieces none rest
      else
        match rest with
        | hyphen :: last :: others =>
            if hyphen = .ofNat '-'.toNat then pieces (some (c.add b last)) others
            else pieces (some (c.add b b)) (hyphen :: last :: others)
        | others => pieces (some (c.add b b)) others

/-- Whether one octet is what a piece stands for. -/
def Piece.takes : Piece → UInt8 → Bool
  | .run, _ | .any, _ => true
  | .octet a, b => a = b
  | .oneOf negated ranges, b =>
      ranges.any (fun (first, last) => min first last ≤ b && b ≤ max first last) != negated

/-- Whether a key is what some pieces stand for. -/
def fits : List Piece → Bytes → Bool
  | [], key => key.isEmpty
  | .run :: rest, key => key.tails.any (fits rest)
  | _ :: _, [] => false
  | p :: rest, b :: key => p.takes b && fits rest key

/-- Whether a pattern means a key. -/
def accepts (pattern key : Bytes) : Bool := fits (pieces none pattern) key

example : accepts (encode "h[^b-d]?\\*l*") (encode "hex*lo") = true ∧
    accepts (encode "h[^b-d]?\\*l*") (encode "hcx*lo") = false ∧
    accepts (encode "*[]") (encode "a]") = false ∧ accepts (encode "[d-b") (encode "c") = true := by
  decide +kernel

/-! ## Literal octets -/

/-- An octet that stands for itself. -/
structure Plain (b : UInt8) : Prop where
  star : b ≠ .ofNat '*'.toNat
  question : b ≠ .ofNat '?'.toNat
  bracket : b ≠ .ofNat '['.toNat
  backslash : b ≠ .ofNat '\\'.toNat

theorem pieces_plain {b : UInt8} (plain : Plain b) (rest : Bytes) :
    pieces none (b :: rest) = .octet b :: pieces none rest := by
  rw [pieces.eq_def]
  simp only [plain.star, plain.question, plain.bracket, plain.backslash, if_false]

theorem pieces_append_plain {bytes : Bytes} (plain : ∀ b ∈ bytes, Plain b) (rest : Bytes) :
    pieces none (bytes ++ rest) = bytes.map .octet ++ pieces none rest := by
  induction bytes with
  | nil => rfl
  | cons b others ih =>
      have first := plain b List.mem_cons_self
      have further : ∀ d ∈ others, Plain d := fun d member => plain d (.tail _ member)
      rw [List.cons_append, pieces_plain first, ih further]
      rfl

/-- An octet beyond ASCII stands for itself. -/
theorem plain_of_le {b : UInt8} (high : 0x80 ≤ b.toNat) : Plain b := by
  constructor <;>
    · rintro rfl
      exact absurd high (by decide)

theorem ofNat_ne {c d : Char} (small : c.toNat < 0x80) (ascii : d.toNat < 0x80) (differ : c ≠ d) :
    UInt8.ofNat c.toNat ≠ .ofNat d.toNat := by
  intro same
  have numbers := congrArg UInt8.toNat same
  rw [toNat_octet (by omega), toNat_octet (by omega)] at numbers
  exact differ (Char.toNat_inj.1 numbers)

theorem le_toNat_octet {n : Nat} (low : 0x80 ≤ n) (small : n < 256) :
    0x80 ≤ (UInt8.ofNat n).toNat := by
  rw [toNat_octet small]
  exact low

theorem plain_encodeChar {c : Char} (ordinary : Keys.isGlobSpecial c = false) :
    ∀ b ∈ encodeChar c, Plain b := by
  have valid : c.toNat < 0xD800 ∨ 0xDFFF < c.toNat ∧ c.toNat < 0x110000 := c.valid
  intro b member
  unfold encodeChar at member
  by_cases ascii : c.toNat < 0x80
  · simp only [Keys.isGlobSpecial, Bool.or_eq_false_iff, beq_eq_false_iff_ne] at ordinary
    obtain ⟨⟨⟨⟨star, question⟩, bracket⟩, -⟩, backslash⟩ := ordinary
    simp only [ascii, if_true, List.mem_singleton] at member
    rw [member]
    exact ⟨ofNat_ne ascii (by decide) star, ofNat_ne ascii (by decide) question,
      ofNat_ne ascii (by decide) bracket, ofNat_ne ascii (by decide) backslash⟩
  · -- Every octet of a longer encoding is beyond ASCII.
    apply plain_of_le
    simp only [ascii, if_false] at member
    split at member
    next =>
      simp only [List.mem_cons, List.not_mem_nil, or_false] at member
      rcases member with rfl | rfl <;> exact le_toNat_octet (by omega) (by omega)
    next =>
      split at member
      next =>
        simp only [List.mem_cons, List.not_mem_nil, or_false] at member
        rcases member with rfl | rfl | rfl <;> exact le_toNat_octet (by omega) (by omega)
      next =>
        simp only [List.mem_cons, List.not_mem_nil, or_false] at member
        rcases member with rfl | rfl | rfl | rfl <;> exact le_toNat_octet (by omega) (by omega)

/-- What has a meaning of its own in a pattern is one octet long. -/
theorem encodeChar_of_special {c : Char} (special : Keys.isGlobSpecial c = true) :
    encodeChar c = [.ofNat c.toNat] := by
  have ascii : c.toNat < 0x80 := by
    simp only [Keys.isGlobSpecial, Bool.or_eq_true, beq_iff_eq] at special
    rcases special with (((rfl | rfl) | rfl) | rfl) | rfl <;> decide
  rw [encodeChar]
  exact if_pos ascii

/-- A literal character is read as its octets. -/
theorem pieces_globLiteral (c : Char) (rest : Bytes) :
    pieces none (encodeChars (Keys.globLiteral c) ++ rest) =
      (encodeChar c).map .octet ++ pieces none rest := by
  rw [Keys.globLiteral]
  cases special : Keys.isGlobSpecial c with
  | true =>
      -- A backslash and one octet, which is taken literally whatever it is.
      rw [if_pos rfl, encodeChar_of_special special]
      have backslash : encodeChar '\\' = [.ofNat '\\'.toNat] := by decide
      simp only [encodeChars, List.flatMap_cons, List.flatMap_nil, backslash,
        encodeChar_of_special special, List.append_nil, List.cons_append, List.nil_append]
      rw [pieces.eq_def]
      rfl
  | false =>
      -- Octets that stand for themselves.
      rw [if_neg Bool.false_ne_true]
      simp only [encodeChars, List.flatMap_cons, List.flatMap_nil, List.append_nil]
      exact pieces_append_plain (plain_encodeChar special) rest

/-! ## The pattern of a namespace -/

theorem pieces_literal (cs : List Char) (rest : Bytes) :
    pieces none (encodeChars (cs.flatMap Keys.globLiteral) ++ rest) =
      (encodeChars cs).map .octet ++ pieces none rest := by
  induction cs with
  | nil => rfl
  | cons c others ih =>
      have literal : encodeChars ((c :: others).flatMap Keys.globLiteral) =
          encodeChars (Keys.globLiteral c) ++ encodeChars (others.flatMap Keys.globLiteral) := by
        rw [List.flatMap_cons, encodeChars_append]
      rw [literal, List.append_assoc, pieces_globLiteral, ih, ← List.append_assoc,
        ← List.map_append]
      rfl

theorem pieces_pattern (keys : Keys) (ns : String) :
    pieces none (encode (keys.pattern ns)) =
      (encode (keys.root ns)).map .octet ++ [.run] := by
  have star : encodeChars ['*'] = [.ofNat '*'.toNat] := by decide
  rw [encode, Keys.pattern, String.toList_ofList, encodeChars_append, pieces_literal, star]
  rfl

theorem fits_octets {bytes key : Bytes} {rest : List Piece} :
    fits (bytes.map .octet ++ rest) key = true ↔
      ∃ tail, key = bytes ++ tail ∧ fits rest tail = true := by
  induction bytes generalizing key with
  | nil => simp
  | cons b others ih =>
      cases key with
      | nil => simp [fits]
      | cons d key =>
          simp only [List.map_cons, List.cons_append, fits, Piece.takes, Bool.and_eq_true,
            decide_eq_true_eq, ih, List.cons.injEq]
          constructor
          · rintro ⟨rfl, tail, split, fit⟩
            exact ⟨tail, ⟨rfl, split⟩, fit⟩
          · rintro ⟨tail, ⟨rfl, split⟩, fit⟩
            exact ⟨rfl, tail, split, fit⟩

/-- A run of octets at the end of a pattern takes what is left. -/
theorem fits_run (key : Bytes) : fits [.run] key = true := by
  rw [fits, List.any_eq_true]
  exact ⟨[], (List.mem_tails _ _).2 key.nil_suffix, rfl⟩

/-- The pattern of a namespace means the keys that begin with its root. -/
theorem accepts_pattern {keys : Keys} {ns : String} {key : Bytes} :
    accepts (encode (keys.pattern ns)) key = true ↔
      ∃ rest, key = encode (keys.root ns) ++ rest := by
  rw [accepts, pieces_pattern, fits_octets]
  constructor
  · rintro ⟨rest, split, -⟩
    exact ⟨rest, split⟩
  · rintro ⟨rest, split⟩
    exact ⟨rest, split, fits_run rest⟩

/-! ## What a pattern means -/

/-- The runs of octets that a piece stands for. -/
def Piece.Covers : Piece → Bytes → Prop
  | .run, _ => True
  | .any, part => ∃ b, part = [b]
  | .octet a, part => part = [a]
  | .oneOf negated ranges, part =>
      ∃ b, part = [b] ∧
        ((∃ range ∈ ranges, min range.1 range.2 ≤ b ∧ b ≤ max range.1 range.2) ↔ negated = false)

/-- A pattern means the keys that can be cut into parts, one for each piece in its place. -/
def Means (pattern key : Bytes) : Prop :=
  ∃ parts, List.Forall₂ Piece.Covers (pieces none pattern) parts ∧ key = parts.flatten

/-- Other pieces than runs stand for one octet at a time. -/
theorem Piece.covers_iff {p : Piece} {part : Bytes} (single : p ≠ .run) :
    p.Covers part ↔ ∃ b, part = [b] ∧ p.takes b = true := by
  cases p with
  | run => exact absurd rfl single
  | any => simp [Covers, takes]
  | octet a => simp [Covers, takes]
  | oneOf negated ranges => cases negated <;> simp [Covers, takes]

theorem fits_cons {p : Piece} (single : p ≠ .run) (rest : List Piece) (key : Bytes) :
    fits (p :: rest) key = true ↔
      ∃ b later, key = b :: later ∧ p.takes b = true ∧ fits rest later = true := by
  cases key with
  | nil => cases p <;> simp_all [fits]
  | cons b later => cases p <;> simp_all [fits]

/-- Matching by trial and error finds every way to cut a key. -/
theorem fits_iff {ps : List Piece} {key : Bytes} :
    fits ps key = true ↔ ∃ parts, List.Forall₂ Piece.Covers ps parts ∧ key = parts.flatten := by
  induction ps generalizing key with
  | nil => simp [fits]
  | cons p rest ih =>
      simp only [List.forall₂_cons_left_iff]
      by_cases run : p = .run
      case pos =>
        subst run
        simp only [fits, List.any_eq_true, List.mem_tails, ih]
        constructor
        · rintro ⟨_, ⟨taken, rfl⟩, parts, covers, rfl⟩
          exact ⟨taken :: parts, ⟨taken, parts, trivial, covers, rfl⟩, rfl⟩
        · rintro ⟨_, ⟨taken, parts, -, covers, rfl⟩, rfl⟩
          exact ⟨parts.flatten, ⟨taken, rfl⟩, parts, covers, rfl⟩
      case neg =>
        simp only [fits_cons run, Piece.covers_iff run, ih]
        constructor
        · rintro ⟨b, _, rfl, takes, parts, covers, rfl⟩
          exact ⟨[b] :: parts, ⟨[b], parts, ⟨b, rfl, takes⟩, covers, rfl⟩, rfl⟩
        · rintro ⟨_, ⟨_, parts, ⟨b, rfl, takes⟩, covers, rfl⟩, rfl⟩
          exact ⟨b, parts.flatten, rfl, takes, parts, covers, rfl⟩

/-- The pattern of a namespace means the keys that begin with the octets of its root, and
just these are accepted, whatever the namespace and the delimiter are made of. -/
theorem pattern_means_root (keys : Keys) (ns : String) (key : Bytes) :
    (Means (encode (keys.pattern ns)) key ↔ encode (keys.root ns) <+: key) ∧
      accepts (encode (keys.pattern ns)) key = (encode (keys.root ns)).isPrefixOf key := by
  have accepted :
      accepts (encode (keys.pattern ns)) key = true ↔ encode (keys.root ns) <+: key := by
    rw [accepts_pattern]
    exact ⟨fun ⟨rest, split⟩ => ⟨rest, split.symm⟩, fun ⟨rest, split⟩ => ⟨rest, split.symm⟩⟩
  constructor
  · rw [← accepted]
    exact fits_iff.symm
  · rw [Bool.eq_iff_iff, accepted, List.isPrefixOf_iff_prefix]

example : accepts (encode (Keys.pattern ⟨"*]"⟩ "[a\\")) (encode "[a\\*]é") = true ∧
    accepts (encode (Keys.pattern ⟨"*]"⟩ "[a\\")) (encode "a*]é") = false := by
  decide +kernel

end ExpiringCache.Glob
