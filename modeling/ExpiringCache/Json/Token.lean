import ExpiringCache.Json.Numeral
import ExpiringCache.Json.Quote

/-!
# JSON tokens

A text as a sequence of tokens. The sequence ends with the text, or with the
first token that the text breaks off in.
-/

namespace ExpiringCache.Json

inductive Token
  | leftBrace
  | rightBrace
  | leftBracket
  | rightBracket
  | comma
  | colon
  | null
  | bool (b : Bool)
  /-- A number; its value is missing if it is beyond the doubles. -/
  | number (value : Except Flaw Number)
  /-- A closed string; its text is missing if a surrogate has no partner. -/
  | string (text : Except Flaw String)
  /-- A string that is not closed. -/
  | brokenString (b : Break)
  /-- Anything else that is no token. -/
  | broken (b : Break)

namespace Token

/-- The blanks between tokens. -/
def isSpace (c : Char) : Bool := c == ' ' || c == '\n' || c == '\t' || c == '\r'

/-- Reads the rest of a literal word. -/
def scanWord : List Char → List Char → Scan Unit
  | [], rest => .found () rest
  | _ :: _, [] => .broken .atEnd
  | w :: word, c :: rest => if w = c then scanWord word rest else .broken .atIntruder

/-- The tokens of a text. Every token takes at least one character, so a fuel of
the length of the text never runs out. -/
def ofCharsWith : Nat → List Char → List Token
  | 0, _ => []
  | _ + 1, [] => []
  | fuel + 1, c :: rest =>
      let next := ofCharsWith fuel
      let word := fun (tail : String) (t : Token) =>
        match scanWord tail.toList rest with
        | .found _ rest => t :: next rest
        | .broken b => [broken b]
      match c with
      | '\x7b' => leftBrace :: next rest
      | '\x7d' => rightBrace :: next rest
      | '[' => leftBracket :: next rest
      | ']' => rightBracket :: next rest
      | ',' => comma :: next rest
      | ':' => colon :: next rest
      | 'n' => word "ull" null
      | 't' => word "rue" (bool true)
      | 'f' => word "alse" (bool false)
      | '"' =>
          let q := Quote.scan rest
          match q.flaw with
          | none => string q.text :: next q.rest
          | some flaw => [brokenString (q.breakFor flaw)]
      | _ =>
          if isSpace c then next rest
          else if c = '-' ∨ c.isDigit then
            match Numeral.scan (c :: rest) with
            | .found n rest => number (n.value?.elim (.error .malformed) .ok) :: next rest
            | .broken b => [broken b]
          else [broken .atIntruder]

def ofChars (cs : List Char) : List Token := ofCharsWith cs.length cs

end Token

end ExpiringCache.Json
