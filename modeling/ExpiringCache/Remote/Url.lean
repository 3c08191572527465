import ExpiringCache.Text.Bytes
import ExpiringCache.Text.Numeral

/-!
# URLs

A URL taken apart. After the scheme and two slashes stands an authority: user
information up to its last `@`, a host, and a port after a colon. Then follow a
path, a query and a fragment. `Url.parse?` finds the parts; `host?` and
`port?` say which hosts and ports are well formed, and `resolvePath` follows the
dot segments of a path.
-/

namespace ExpiringCache

open Text

/-! ## Percent encoding -/

/-- The octets of a text in which `%` and two hexadecimal digits stand for one
octet. A `%` before anything else stands for itself. -/
def percentDecode : List Char → Bytes
  | '%' :: a :: b :: rest =>
      match hexDigit? a, hexDigit? b with
      | some high, some low => UInt8.ofNat (high * 16 + low) :: percentDecode rest
      | _, _ => encodeChar '%' ++ percentDecode (a :: b :: rest)
  | c :: rest => encodeChar c ++ percentDecode rest
  | [] => []

/-! ## Separators -/

/-- Splits a list at the first member of a class, which goes to the second part. -/
def splitBefore (stop : Char → Bool) (cs : List Char) : List Char × List Char :=
  (cs.takeWhile fun c => !stop c, cs.dropWhile fun c => !stop c)

/-- Splits a text around the first `c`. The second part is absent if there is none. -/
def splitAround (c : Char) (cs : List Char) : List Char × Option (List Char) :=
  match splitBefore (· == c) cs with
  | (before, _ :: after) => (before, some after)
  | (before, []) => (before, none)

/-- Splits a text around the last `c`. The first part is absent if there is none. -/
def splitAroundLast (c : Char) (cs : List Char) : Option (List Char) × List Char :=
  match splitAround c cs.reverse with
  | (after, some before) => (some before.reverse, after.reverse)
  | (after, none) => (none, after.reverse)

/-! ## Parts of a URL -/

/-- What stands between the two slashes and the path of a URL. -/
structure Authority where
  /-- What stands before the last `@`, if there is one. -/
  userInfo : Option (List Char)
  host : List Char
  /-- What stands after the colon that ends the host, if there is one. -/
  port : Option (List Char)
  deriving DecidableEq, Repr

/-- A URL in its parts. -/
structure Url where
  scheme : String
  /-- The authority, if the two slashes are there. -/
  authority : Option Authority
  path : List Char
  query : List Char
  deriving DecidableEq, Repr

/-- The characters of a URL text: without controls and spaces at its ends, and
without tabs and line breaks anywhere. -/
def urlChars (s : String) : List Char :=
  let edge := fun c : Char => decide (c.toNat ≤ 0x20)
  let cut := ((s.toList.dropWhile edge).reverse.dropWhile edge).reverse
  cut.filter fun c => c != '\t' && c != '\n' && c != '\r'

/-- Splits the host of an authority from the text after its colon. Colons inside
square brackets belong to the host. -/
def splitHost : Bool → List Char → List Char × Option (List Char)
  | _, [] => ([], none)
  | bracketed, c :: rest =>
      if c = ':' ∧ !bracketed then ([], some rest)
      else
        let inside := if c = '[' then true else if c = ']' then false else bracketed
        let (host, port) := splitHost inside rest
        (c :: host, port)

/-- Takes the text between the two slashes and the path apart. A backslash ends a
port; what follows belongs to the path, and is the second part of the answer. -/
def Authority.split (cs : List Char) : Authority × List Char :=
  let (userInfo, place) := splitAroundLast '@' cs
  let (host, port) := splitHost false place
  match port.map (splitBefore (· == '\\')) with
  | none => (⟨userInfo, host, none⟩, [])
  | some (digits, []) => (⟨userInfo, host, some digits⟩, [])
  | some (digits, spill) => (⟨userInfo, host, some digits⟩, '/' :: spill)

def isSchemeChar (c : Char) : Bool :=
  c.isAlpha || c.isDigit || c == '+' || c == '-' || c == '.'

/-- Takes a URL apart. It has to start with a scheme. -/
def Url.parse? (s : String) : Option Url := do
  let (scheme, rest) := splitAround ':' (urlChars s)
  let rest ← rest
  let first ← scheme.head?
  guard (first.isAlpha ∧ scheme.all isSchemeChar)
  let (rest, _) := splitBefore (· == '#') rest
  let (front, query) := splitAround '?' rest
  let (authority, path) := match front with
    | '/' :: '/' :: front =>
        let (text, path) := splitBefore (· == '/') front
        let (authority, spill) := Authority.split text
        (some authority, spill ++ path)
    | front => (none, front)
  pure ⟨String.ofList (scheme.map Char.toLower), authority, path, query.getD []⟩

/-! ## Queries -/

/-- The parameters of a query, in order. -/
def queryPairs (query : List Char) : List (String × String) :=
  let plain := fun cs : List Char =>
    decodeLossy (percentDecode (cs.map fun c => if c = '+' then ' ' else c))
  ((query.splitOn '&').filter (· ≠ [])).map fun piece =>
    let (name, value) := splitAround '=' piece
    (plain name, plain (value.getD []))

/-- The value of a query parameter; the last one counts. -/
def Url.parameter? (url : Url) (name : String) : Option String :=
  (queryPairs url.query).reverse.lookup name

/-! ## Paths -/

/-- Whether a path segment starts like the name of a drive: a letter, and then a
colon or a bar that ends the segment or stands before a backslash. -/
def namesDrive : List Char → Bool
  | [letter, mark] => letter.isAlpha && (mark == ':' || mark == '|')
  | letter :: mark :: next :: _ => letter.isAlpha && (mark == ':' || mark == '|') && next == '\\'
  | _ => false

/-- The segments that remain when the last one is left. A drive is not left. -/
def leaveSegment : List (List Char) → List (List Char)
  | [] => []
  | last :: kept => if namesDrive last then last :: kept else kept

/-- A path after its dot segments are resolved: `.` stays where it is, and `..`
leaves the last segment. -/
def resolvePath (path : List Char) : List Char :=
  let dots := fun cs : List Char => decodeLossy (percentDecode cs)
  let step := fun (kept : List (List Char)) (segment : List Char) =>
    if dots segment = "." then kept
    else if dots segment = ".." then leaveSegment kept
    else segment :: kept
  List.intercalate ['/'] ((path.splitOn '/').foldl step []).reverse

/-- Drops the slashes at both ends. -/
def trimSlashes (cs : List Char) : List Char :=
  ((cs.dropWhile (· == '/')).reverse.dropWhile (· == '/')).reverse

/-! ## Hosts and ports -/

/-- Whether a text is a group of an IPv6 address. -/
def isHexGroup (cs : List Char) : Bool :=
  cs ≠ [] && cs.length ≤ 4 && cs.all fun c => (hexDigit? c).isSome

/-- Whether a text is an IPv4 address in dotted form. -/
def isDotted (cs : List Char) : Bool :=
  let parts := cs.splitOn '.'
  parts.length == 4 && parts.all fun part =>
    (part.length == 1 || part.head? != some '0') && ((digits? part).any (· ≤ 255))

/-- How many groups of an IPv6 address a text between colons spells. Where
`dotted` holds, the last two may be written as an IPv4 address. -/
def groups? (dotted : Bool) (cs : List Char) : Option Nat :=
  if cs = [] then some 0
  else
    let parts := cs.splitOn ':'
    let last := parts.getLastD []
    if parts.all isHexGroup then some parts.length
    else if dotted && parts.dropLast.all isHexGroup && isDotted last then some (parts.length + 1)
    else none

/-- Splits a text around the first two colons in a row. -/
def splitGap : List Char → List Char × Option (List Char)
  | ':' :: ':' :: rest => ([], some rest)
  | c :: rest => let (before, after) := splitGap rest; (c :: before, after)
  | [] => ([], none)

/-- Whether a text is an IPv6 address: eight groups, or fewer around one gap. -/
def isIpv6 (cs : List Char) : Bool :=
  match splitGap cs with
  | (all, none) => groups? true all == some 8
  | (before, some after) =>
      match groups? false before, groups? true after with
      | some m, some n => m + n ≤ 7
      | _, _ => false

/-- The characters that no host name has. -/
def isForbiddenInHost (c : Char) : Bool :=
  "\x00\t\n\r #/:<>?@[\\]^|".toList.contains c

/-- A host name, or the address inside square brackets. -/
def host? (cs : List Char) : Option String :=
  match cs with
  | '[' :: rest =>
      if rest.getLast? = some ']' ∧ isIpv6 rest.dropLast then some (String.ofList rest.dropLast)
      else none
  | _ => if cs.any isForbiddenInHost then none else some (String.ofList cs)

/-- A port number; `standard` where none is given or the text is empty. -/
def port? (standard : Nat) : Option (List Char) → Option Nat
  | none | some [] => some standard
  | some cs => (digits? cs).filter (· < 65536)

example : Url.parse? " redis://u:p@h:1/2?a=b#c" = some ⟨"redis",
    some ⟨some ['u', ':', 'p'], ['h'], some ['1']⟩, ['/', '2'], ['a', '=', 'b']⟩ := by
  decide +kernel

example : (Url.parse? "s://h:1\\x/../5").map (fun url => resolvePath url.path) = some ['/', '5'] ∧
    resolvePath "/a/../b".toList = "/b".toList ∧
    resolvePath "/c:/../b".toList = "/c:/b".toList := by
  decide +kernel

end ExpiringCache
