import ExpiringCache.Json.Token

/-!
# JSON documents

The tree of a JSON text, as far as the text goes: where it breaks off, the tree
says so and has nothing further. Whoever walks the tree from left to right meets
the contents and the break in the order in which the text has them.
-/

namespace ExpiringCache.Json

mutual

/-- A value. -/
inductive Document
  | null
  | bool (b : Bool)
  | number (value : Except Flaw Number)
  | string (text : Except Flaw String)
  | array (items : Items)
  | object (members : Members)
  | broken (b : Break)

/-- The items of an array. -/
inductive Items
  | done
  | broken (b : Break)
  | cons (item : Document) (rest : Items)

/-- The members of an object. -/
inductive Members
  | done
  | broken (b : Break)
  | cons (key : Except Flaw String) (value : Document) (rest : Members)

end

namespace Document

/-! ## Reading tokens -/

mutual

/-- Reads a value. Every nested call has consumed a token, so a fuel above the
number of tokens never runs out. -/
def value : Nat → List Token → Document × List Token
  | 0, _ => (.broken .atEnd, [])
  | _ + 1, [] => (.broken .atEnd, [])
  | fuel + 1, token :: rest =>
      match token with
      | .null => (.null, rest)
      | .bool b => (.bool b, rest)
      | .number n => (.number n, rest)
      | .string s => (.string s, rest)
      | .leftBracket =>
          match rest with
          | .rightBracket :: rest => (.array .done, rest)
          | _ =>
              let (items, rest) := items fuel rest
              (.array items, rest)
      | .leftBrace =>
          match rest with
          | .rightBrace :: rest => (.object .done, rest)
          | _ =>
              let (members, rest) := members fuel rest
              (.object members, rest)
      | .broken b | .brokenString b => (.broken b, [])
      | .rightBrace | .rightBracket | .comma | .colon => (.broken .atIntruder, [])

/-- Reads one or more items and the closing bracket. -/
def items : Nat → List Token → Items × List Token
  | 0, _ => (.broken .atEnd, [])
  | fuel + 1, tokens =>
      let (item, rest) := value fuel tokens
      match rest with
      | .comma :: rest =>
          let (others, rest) := items fuel rest
          (.cons item others, rest)
      | .rightBracket :: rest => (.cons item .done, rest)
      | rest => (.cons item (.broken (.before rest)), [])

/-- Reads one or more members and the closing brace. -/
def members : Nat → List Token → Members × List Token
  | 0, _ => (.broken .atEnd, [])
  | fuel + 1, .string key :: .colon :: tokens =>
      let (value, rest) := value fuel tokens
      match rest with
      | .comma :: rest =>
          let (others, rest) := members fuel rest
          (.cons key value others, rest)
      | .rightBrace :: rest => (.cons key value .done, rest)
      | rest => (.cons key value (.broken (.before rest)), [])
  | _ + 1, .string key :: rest =>
      (.cons key (.broken (.before rest)) (.broken (.before rest)), [])
  | _ + 1, .brokenString b :: _ => (.broken b, [])
  | _ + 1, rest => (.broken (.before rest), [])

end

/-- The tree of a text, and the tokens behind it. -/
def ofChars (cs : List Char) : Document × List Token :=
  let tokens := Token.ofChars cs
  value (2 * tokens.length + 1) tokens

/-! ## Skipping -/

mutual

/-- The first flaw of a value that is skipped. -/
def skip? : Document → Option Flaw
  | .null | .bool _ | .number _ | .string _ => none
  | .array items => skipItems? items
  | .object members => skipMembers? members
  | .broken b => some b.skip

def skipItems? : Items → Option Flaw
  | .done => none
  | .broken b => some b.skip
  | .cons item rest => (skip? item).or (skipItems? rest)

def skipMembers? : Members → Option Flaw
  | .done => none
  | .broken b => some b.skip
  | .cons _ value rest => (skip? value).or (skipMembers? rest)

end

end Document

end ExpiringCache.Json
