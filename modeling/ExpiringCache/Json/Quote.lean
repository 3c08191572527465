import ExpiringCache.Json.Flaw
import ExpiringCache.Text.Bytes
import ExpiringCache.Text.Numeral

/-!
# JSON strings

The spelling of a string is a sequence of characters and escaped UTF-16 code
units up to the closing quote. Its text puts the units together; a surrogate
without its partner has no text. Whoever skips a string does not look at its
units.
-/

namespace ExpiringCache.Json

open Text (hexDigit?)

/-- A piece of a string as it is spelt. -/
inductive Piece
  | plain (c : Char)
  | escapedUnit (unit : Nat)
  deriving DecidableEq, Repr

/-- What stands between two quotes, or between a quote and the point where the
text breaks off. -/
structure Quote where
  pieces : List Piece
  /-- The flaw in place of the closing quote. -/
  flaw : Option Flaw
  rest : List Char
  deriving Repr

namespace Quote

def cons (p : Piece) (q : Quote) : Quote := { q with pieces := p :: q.pieces }

/-- The character that a short escape stands for. -/
def shortEscape? : Char → Option Char
  | '"' => some '"'
  | '\\' => some '\\'
  | '/' => some '/'
  | 'b' => some '\x08'
  | 'f' => some '\x0c'
  | 'n' => some '\n'
  | 'r' => some '\r'
  | 't' => some '\t'
  | _ => none

/-- The code unit of four hexadecimal digits. -/
def unit? (a b c d : Char) : Option Nat := do
  let a ← hexDigit? a
  let b ← hexDigit? b
  let c ← hexDigit? c
  let d ← hexDigit? d
  pure (((a * 16 + b) * 16 + c) * 16 + d)

/-- The flaw where fewer than four hexadecimal digits follow. A rest of less than
four octets is cut off, a longer one is malformed. -/
def missingUnit (rest : List Char) : Flaw :=
  if (Text.encodeChars rest).length < 4 then .cut else .malformed

/-- Reads up to the closing quote. -/
def scan : List Char → Quote
  | [] => ⟨[], some .cut, []⟩
  | '"' :: rest => ⟨[], none, rest⟩
  | '\\' :: 'u' :: a :: b :: c :: d :: rest =>
      match unit? a b c d with
      | some unit => (scan rest).cons (.escapedUnit unit)
      | none => ⟨[], some .malformed, rest⟩
  | '\\' :: 'u' :: rest => ⟨[], some (missingUnit rest), []⟩
  | '\\' :: c :: rest =>
      match shortEscape? c with
      | some plain => (scan rest).cons (.plain plain)
      | none => ⟨[], some .malformed, rest⟩
  | '\\' :: [] => ⟨[], some .cut, []⟩
  | c :: rest =>
      if c.toNat < 0x20 then ⟨[], some .malformed, rest⟩ else (scan rest).cons (.plain c)

/-! ## Text -/

def isHighSurrogate (unit : Nat) : Bool := 0xD800 ≤ unit && unit < 0xDC00

def isLowSurrogate (unit : Nat) : Bool := 0xDC00 ≤ unit && unit < 0xE000

/-- The character of a pair of surrogates. -/
def pairChar (high low : Nat) : Char :=
  Char.ofNat (0x10000 + (high - 0xD800) * 0x400 + (low - 0xDC00))

/-- The text of a sequence of pieces, if every surrogate has its partner. -/
def textOf : List Piece → Option (List Char)
  | [] => some []
  | .plain c :: rest => (textOf rest).map (c :: ·)
  | .escapedUnit high :: .escapedUnit low :: rest =>
      if isHighSurrogate high then
        if isLowSurrogate low then (textOf rest).map (pairChar high low :: ·) else none
      else if isLowSurrogate high then none
      else (textOf (.escapedUnit low :: rest)).map (Char.ofNat high :: ·)
  | .escapedUnit unit :: rest =>
      if isHighSurrogate unit || isLowSurrogate unit then none
      else (textOf rest).map (Char.ofNat unit :: ·)

/-- The pieces without a high surrogate at the very end, whose partner may have
been cut off. -/
def withoutOpenEnd (pieces : List Piece) : List Piece :=
  match pieces.getLast? with
  | some (.escapedUnit unit) => if isHighSurrogate unit then pieces.dropLast else pieces
  | _ => pieces

/-- The text of a closed string. -/
def text (q : Quote) : Except Flaw String :=
  match textOf q.pieces with
  | some cs => .ok (String.ofList cs)
  | none => .error .malformed

/-- The break of a string that is not closed. Its reader finds an unpaired
surrogate before the end of the text. -/
def breakFor (q : Quote) (flaw : Flaw) : Break :=
  match textOf (withoutOpenEnd q.pieces) with
  | some _ => ⟨flaw, flaw⟩
  | none => ⟨.malformed, flaw⟩

end Quote

end ExpiringCache.Json
