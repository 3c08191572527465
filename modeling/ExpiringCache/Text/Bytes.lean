/-!
# Byte strings and UTF-8

Byte strings are lists of octets. A text is written as bytes in UTF-8, and
bytes are read back one octet at a time: the reader yields the characters in
order and, for each longest stretch that cannot be part of a character, one
gap. Reading is strict when it refuses every gap, and lenient when it puts the
replacement character U+FFFD in its place.
-/

namespace ExpiringCache

/-- A byte string. -/
abbrev Bytes := List UInt8

namespace Text

/-! ## Writing -/

/-- The one to four octets of a character. -/
def encodeChar (c : Char) : Bytes :=
  let n := c.toNat
  if n < 0x80 then [.ofNat n]
  else if n < 0x800 then [.ofNat (0xC0 + n / 64), .ofNat (0x80 + n % 64)]
  else if n < 0x10000 then
    [.ofNat (0xE0 + n / 4096), .ofNat (0x80 + n / 64 % 64), .ofNat (0x80 + n % 64)]
  else
    [.ofNat (0xF0 + n / 262144), .ofNat (0x80 + n / 4096 % 64),
     .ofNat (0x80 + n / 64 % 64), .ofNat (0x80 + n % 64)]

def encodeChars (cs : List Char) : Bytes := cs.flatMap encodeChar

/-- The UTF-8 octets of a text. -/
def encode (s : String) : Bytes := encodeChars s.toList

theorem encodeChars_append (cs ds : List Char) :
    encodeChars (cs ++ ds) = encodeChars cs ++ encodeChars ds := by
  simp [encodeChars]

theorem encode_append (s t : String) : encode (s ++ t) = encode s ++ encode t := by
  simp [encode, encodeChars_append]

/-! ## Reading -/

/-- A character of which some octets are still owed. The next of them has to
lie between `low` and `high`. -/
structure Unfinished where
  code : Nat
  owed : Nat
  low : Nat
  high : Nat
  deriving DecidableEq, Repr

/-- What one octet does at the start of a character. A gap is `none`. -/
def firstOctet (b : UInt8) : List (Option Char) × Option Unfinished :=
  let n := b.toNat
  if n < 0x80 then ([some (Char.ofNat n)], none)
  else if n < 0xC2 then ([none], none)
  else if n < 0xE0 then ([], some ⟨n - 0xC0, 1, 0x80, 0xBF⟩)
  else if n = 0xE0 then ([], some ⟨0, 2, 0xA0, 0xBF⟩)
  else if n = 0xED then ([], some ⟨13, 2, 0x80, 0x9F⟩)
  else if n < 0xF0 then ([], some ⟨n - 0xE0, 2, 0x80, 0xBF⟩)
  else if n = 0xF0 then ([], some ⟨0, 3, 0x90, 0xBF⟩)
  else if n < 0xF4 then ([], some ⟨n - 0xF0, 3, 0x80, 0xBF⟩)
  else if n = 0xF4 then ([], some ⟨4, 3, 0x80, 0x8F⟩)
  else ([none], none)

/-- One octet: what is complete after it, and what is left unfinished. An octet
that does not continue the unfinished character closes it as a gap and starts
anew. -/
def octet : Option Unfinished → UInt8 → List (Option Char) × Option Unfinished
  | none, b => firstOctet b
  | some u, b =>
      if u.low ≤ b.toNat ∧ b.toNat ≤ u.high then
        let code := u.code * 64 + (b.toNat - 0x80)
        if u.owed ≤ 1 then ([some (Char.ofNat code)], none)
        else ([], some ⟨code, u.owed - 1, 0x80, 0xBF⟩)
      else
        let (done, open?) := firstOctet b
        (none :: done, open?)

/-- The characters and gaps of a byte string, begun in the midst of a character
if one is unfinished. -/
def readFrom : Option Unfinished → Bytes → List (Option Char)
  | none, [] => []
  | some _, [] => [none]
  | state, b :: rest => (octet state b).1 ++ readFrom (octet state b).2 rest

/-- The characters and gaps of a byte string. -/
def readChars (bytes : Bytes) : List (Option Char) := readFrom none bytes

/-- The text that the bytes encode, if they encode one. -/
def decode? (bytes : Bytes) : Option String :=
  ((readChars bytes).mapM id).map String.ofList

/-- The character that stands for a stretch of octets that encodes none. -/
def replacement : Char := '\uFFFD'

/-- The text that the bytes encode, with every gap replaced. -/
def decodeLossy (bytes : Bytes) : String :=
  String.ofList ((readChars bytes).map (·.getD replacement))

end Text

end ExpiringCache
