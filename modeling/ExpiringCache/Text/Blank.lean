/-!
# Blank characters

White space in the sense of the Unicode property `White_Space`, and trimming a
text at both ends.
-/

namespace ExpiringCache.Text

/-- The characters with the Unicode property `White_Space`, as inclusive
ranges of code points in increasing order. -/
def blankRanges : List (Nat × Nat) :=
  [(0x09, 0x0D), (0x20, 0x20), (0x85, 0x85), (0xA0, 0xA0), (0x1680, 0x1680),
   (0x2000, 0x200A), (0x2028, 0x2029), (0x202F, 0x202F), (0x205F, 0x205F),
   (0x3000, 0x3000)]

def isBlank (c : Char) : Bool :=
  blankRanges.any fun (low, high) => low ≤ c.toNat && c.toNat ≤ high

example : (blankRanges.map fun (low, high) => high + 1 - low).sum = 25 := by decide

/-- Drops the blanks at the start of a text. -/
def trimLeft (cs : List Char) : List Char := cs.dropWhile isBlank

/-- Drops the blanks at the end of a text. -/
def trimRight (cs : List Char) : List Char := (trimLeft cs.reverse).reverse

/-- Drops the blanks at both ends of a text. -/
def trimChars (cs : List Char) : List Char := trimRight (trimLeft cs)

/-- A text without the blanks at its two ends. -/
def trim (s : String) : String := String.ofList (trimChars s.toList)

end ExpiringCache.Text
