import ExpiringCache.Decimal.Shortest
import ExpiringCache.Json.Document
import ExpiringCache.Text.Quoted

/-!
# Reading JSON values

Values of a known type are read from a document. What the text holds instead of
the expected type is named in the error. A structure is read from an object with
its fields in any order, each under its name or an alias, or from an array with
its fields in their order; missing fields keep what they had. Fields of other
names are skipped. The first error in the order of the text is the answer.
-/

namespace ExpiringCache.Json

/-- What a text holds where something else was expected. -/
inductive Found
  | null
  | bool (b : Bool)
  | number (n : Number)
  | string (s : String)
  | sequence
  | map
  deriving Repr

def Number.shown : Number → String
  | .natural n => "integer \u0060" ++ toString n ++ "\u0060"
  | .negative n => "integer \u0060" ++ toString n.toInt ++ "\u0060"
  | .real x => "floating point \u0060" ++ Decimal.shortestText x ++ "\u0060"

def Found.shown : Found → String
  | .null => "null"
  | .bool b => "boolean \u0060" ++ toString b ++ "\u0060"
  | .number n => n.shown
  | .string s => "string " ++ Text.quoted s
  | .sequence => "sequence"
  | .map => "map"

inductive ReadError
  /-- The text is not JSON. -/
  | flaw (f : Flaw)
  | wrongType (found : Found) (expected : String)
  /-- A whole number beyond the expected range. -/
  | wrongValue (found : Number) (expected : String)
  | duplicate (field : String)
  deriving Repr

/-- The message of an error in the contents of a text. -/
def ReadError.message? : ReadError → Option String
  | flaw _ => none
  | wrongType found expected => some s!"invalid type: {found.shown}, expected {expected}"
  | wrongValue found expected => some s!"invalid value: {found.shown}, expected {expected}"
  | duplicate field => some ("duplicate field \u0060" ++ field ++ "\u0060")

namespace Document

/-! ## Simple values -/

/-- The error of a value that is not of the expected type. A value that breaks
off or has no meaning is a flaw before it is anything else. -/
def mismatch (expected : String) : Document → ReadError
  | .null => .wrongType .null expected
  | .bool b => .wrongType (.bool b) expected
  | .number (.ok n) => .wrongType (.number n) expected
  | .string (.ok s) => .wrongType (.string s) expected
  | .number (.error f) | .string (.error f) => .flaw f
  | .array _ => .wrongType .sequence expected
  | .object _ => .wrongType .map expected
  | .broken b => .flaw b.read

/-- Reads a text; `expected` names it in errors. -/
def textAs (expected : String) : Document → Except ReadError String
  | .string (.ok s) => .ok s
  | d => .error (d.mismatch expected)

def text (d : Document) : Except ReadError String := d.textAs "a string"

/-- Reads a text or null. -/
def optionalText : Document → Except ReadError (Option String)
  | .null => .ok none
  | d => d.text.map some

def boolean : Document → Except ReadError Bool
  | .bool b => .ok b
  | d => .error (d.mismatch "a boolean")

/-- Reads an unsigned 64-bit number. -/
def unsigned : Document → Except ReadError UInt64
  | .number (.ok (.natural n)) => .ok n
  | .number (.ok (.negative n)) => .error (.wrongValue (.negative n) "u64")
  | d => .error (d.mismatch "u64")

/-- Reads a signed 64-bit number. -/
def signed : Document → Except ReadError Int64
  | .number (.ok (.natural n)) =>
      if n.toNat < UInt64.size / 2 then .ok (.ofNat n.toNat)
      else .error (.wrongValue (.natural n) "i64")
  | .number (.ok (.negative n)) => .ok n
  | d => .error (d.mismatch "i64")

/-! ## Structures -/

/-- A field of a structure: its names, and how a value for it is taken in. -/
structure FieldReader (σ : Type) where
  name : String
  aliases : List String
  read : Document → σ → Except ReadError σ

/-- Whether a field goes by a name. -/
def FieldReader.isNamed {σ : Type} (f : FieldReader σ) (name : String) : Bool :=
  f.name == name || f.aliases.contains name

/-- Reads members into a structure; `seen` are the fields that have been read. -/
def readMembers {σ : Type} (fields : List (FieldReader σ)) :
    Members → List String → σ → Except ReadError σ
  | .done, _, state => .ok state
  | .broken b, _, _ => .error (.flaw b.read)
  | .cons (.error f) _ _, _, _ => .error (.flaw f)
  | .cons (.ok key) value rest, seen, state =>
      match fields.find? (·.isNamed key) with
      | some field =>
          if seen.contains field.name then .error (.duplicate field.name)
          else
            match field.read value state with
            | .ok state => readMembers fields rest (field.name :: seen) state
            | .error e => .error e
      | none =>
          match skip? value with
          | some f => .error (.flaw f)
          | none => readMembers fields rest seen state

/-- Reads items into the fields of a structure, one by one. -/
def readItems {σ : Type} : List (FieldReader σ) → Items → σ → Except ReadError σ
  | _, .done, state => .ok state
  | _, .broken b, _ => .error (.flaw b.read)
  | [], .cons _ _, _ => .error (.flaw .malformed)
  | field :: fields, .cons item rest, state =>
      match field.read item state with
      | .ok state => readItems fields rest state
      | .error e => .error e

/-- Reads a structure, starting from what its fields have where they are left
out. -/
def readStructure {σ : Type} (name : String) (fields : List (FieldReader σ)) (default : σ) :
    Document → Except ReadError σ
  | .object members => readMembers fields members [] default
  | .array items => readItems fields items default
  | d => .error (d.mismatch ("struct " ++ name))

/-- Reads a whole text. Nothing but blanks may follow the value. -/
def readText {α : Type} (read : Document → Except ReadError α) (s : String) :
    Except ReadError α :=
  match ofChars s.toList with
  | (d, rest) =>
      match read d with
      | .ok a => if rest.isEmpty then .ok a else .error (.flaw .malformed)
      | .error e => .error e

end Document

end ExpiringCache.Json
