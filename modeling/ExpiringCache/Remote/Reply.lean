import ExpiringCache.Fault
import ExpiringCache.Text.Bytes
import ExpiringCache.Text.Numeral

/-!
# Server replies

What a server may answer to a command, and how a reply is read as a value of
the type that the command asks for. A reply that holds an error anywhere is that
error, whatever is asked for; a reply of another shape is a fault of its own.
-/

namespace ExpiringCache

/-- A server's reply. -/
inductive Reply
  | null
  | bulk (bytes : Bytes)
  | integer (n : Int)
  | array (items : List Reply)
  | simple (text : String)
  | error (text : String)
  deriving Repr, Inhabited

namespace RemoteFault

/-- The server's own error words, and the kind of fault that each stands for. -/
def kinds : List (String × String) :=
  [("ERR", "ResponseError"), ("EXECABORT", "ExecAbortError"), ("LOADING", "BusyLoadingError"),
   ("NOSCRIPT", "NoScriptError"), ("MOVED", "Moved"), ("ASK", "Ask"), ("TRYAGAIN", "TryAgain"),
   ("CLUSTERDOWN", "ClusterDown"), ("CROSSSLOT", "CrossSlot"), ("MASTERDOWN", "MasterDown"),
   ("READONLY", "ReadOnly"), ("NOTBUSY", "NotBusy")]

/-- The fault that an error reply stands for. Its first word is the code; a word
that is not among the server's own makes it an extension's error. -/
def ofErrorText (text : String) : RemoteFault :=
  let word := String.ofList (text.toList.takeWhile (· != ' '))
  if word = "NOSUB" then ⟨"NoSub", none⟩
  else ⟨(kinds.lookup word).getD "ExtensionError", some word⟩

/-- A reply of the wrong shape. -/
def wrongType : RemoteFault := ⟨"TypeError", none⟩

end RemoteFault

namespace Reply

/-! ## Errors inside a reply -/

mutual

/-- The first error text in a reply. -/
def error? : Reply → Option String
  | .error text => some text
  | .array items => firstError? items
  | _ => none

/-- The first error text in a list of replies. -/
def firstError? : List Reply → Option String
  | [] => none
  | item :: rest =>
      match item.error? with
      | some text => some text
      | none => firstError? rest

end

/-- Reads a reply with `read?`, after looking for an error in it. -/
def interpret {α : Type} (read? : Reply → Option α) (reply : Reply) : Except Fault α :=
  match reply.error? with
  | some text => .error (.remote (.ofErrorText text))
  | none =>
      match read? reply with
      | some value => .ok value
      | none => .error (.remote .wrongType)

/-! ## Shapes -/

/-- The text of a bulk or simple string. -/
def text? : Reply → Option String
  | bulk bytes => Text.decode? bytes
  | simple text => some text
  | _ => none

/-- A signed 64-bit number, or its text. -/
def signed? : Reply → Option Int
  | integer n => some n
  | reply => reply.text?.bind fun s => Text.signed? 64 s.toList

/-- An unsigned number of so many bits, or its text. An integer reply is taken
modulo `2 ^ bits`. -/
def unsigned? (bits : Nat) : Reply → Option Nat
  | integer n => some (n % (Nat.pow 2 bits : Nat)).toNat
  | reply => reply.text?.bind fun s => Text.unsigned? bits s.toList

/-- A byte string: a bulk string, or an array of octets. A null counts as empty. -/
def bytes? : Reply → Option Bytes
  | bulk bytes => some bytes
  | array items => (items.mapM (unsigned? 8)).map (·.map UInt8.ofNat)
  | null => some []
  | _ => none

/-- A byte string, or none for a null. -/
def optionalBytes? : Reply → Option (Option Bytes)
  | null => some none
  | reply => reply.bytes?.map some

/-- A list of byte strings. A single bulk string counts as a list of one, and a
null as an empty list. -/
def byteStrings? : Reply → Option (List Bytes)
  | bulk bytes => some [bytes]
  | array items => items.mapM bytes?
  | null => some []
  | _ => none

/-- One page of a scan: the cursor of the next one and a batch of keys. -/
def page? : Reply → Option (Nat × List Bytes)
  | array [cursor, batch] => do
      let next ← cursor.unsigned? 64
      let keys ← batch.byteStrings?
      pure (next, keys)
  | _ => none

/-- Any reply at all. -/
def anything? (_ : Reply) : Option Unit := some ()

end Reply

end ExpiringCache
