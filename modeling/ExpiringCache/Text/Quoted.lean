import ExpiringCache.Text.Shown

/-!
# Quoted text

A text as it appears inside a message or a printed structure: between double
quotes, with a backslash before a quote or a backslash, the short escapes for
tab, line feed, carriage return and the null character, and the code point in
braces for every other character that cannot be shown as itself.
-/

namespace ExpiringCache.Text

/-- The hexadecimal digits of a code point, in lower case and without leading
zeros. -/
def hexDigits (n : Nat) : String := String.ofList (Nat.toDigits 16 n)

/-- One character inside a quoted text. -/
def quoteChar (c : Char) : String :=
  match c with
  | '"' => "\\\""
  | '\\' => "\\\\"
  | '\n' => "\\n"
  | '\r' => "\\r"
  | '\t' => "\\t"
  | '\x00' => "\\0"
  | c => if isShown c then c.toString else "\\u\x7b" ++ hexDigits c.toNat ++ "\x7d"

/-- A text between double quotes. -/
def quoted (s : String) : String :=
  "\"" ++ String.join (s.toList.map quoteChar) ++ "\""

/-- A text that may be absent. -/
def quotedOption : Option String → String
  | none => "None"
  | some s => "Some(" ++ quoted s ++ ")"

example : quoted "a\"b\\c\n\x7fé" = "\"a\\\"b\\\\c\\n\\u\x7b7f\x7dé\"" := by decide +kernel

end ExpiringCache.Text
