import ExpiringCache.Proofs.Ledger
import ExpiringCache.Proofs.Remote.Glob
import ExpiringCache.Proofs.Text.Numeral
import ExpiringCache.Remote.Line

/-!
# Ideal servers

A host does what a server promises and leaves open what a server leaves open. It
keeps a ledger by raw key with deadlines in milliseconds, and what it answers to a
command is settled but for scans. A scan goes in cycles, from the cursor zero back
to the cursor zero. In which batches keys are reported, with which cursors, how
often and in the company of which other keys is up to the host, as long as every
key is what the pattern means, and every such key that was held all the time is
reported before the cycle ends.

A host answers whatever it is asked (`exists_answers`): a command that it does not
know is refused, and a cursor that it has not handed out begins a cycle in which
no key is owed.
-/

namespace ExpiringCache

/-- What a host is asked. -/
inductive Call
  | set (key value : Bytes) (expiry : Option Nat)
  | get (key : Bytes)
  | delete (key : Bytes)
  | contains (key : Bytes)
  | scan (cursor : Nat) (pattern : Bytes)

namespace Call

/-- A number in decimal digits. -/
def number? (bytes : Bytes) : Option Nat :=
  (Text.decode? bytes).bind fun s => Text.unsigned? 64 s.toList

/-- What a command asks. -/
def ofCommand? : ServerCommand → Option Call
  | [name, key] =>
      if name = Text.encode "GET" then some (.get key)
      else if name = Text.encode "DEL" then some (.delete key)
      else if name = Text.encode "EXISTS" then some (.contains key)
      else none
  | [name, key, value] => if name = Text.encode "SET" then some (.set key value none) else none
  | [name, key, value, option, millis] =>
      if name = Text.encode "SET" ∧ option = Text.encode "PX" then
        (number? millis).map fun n => .set key value (some n)
      else none
  | [name, cursor, option, pattern, option', batch] =>
      if name = Text.encode "SCAN" ∧ option = Text.encode "MATCH" ∧
          option' = Text.encode "COUNT" then
        (number? batch).bind fun size =>
          if 0 < size then (number? cursor).map (.scan · pattern) else none
      else none
  | _ => none

end Call

/-! ## Hosts -/

/-- A scan on its way. -/
structure Cycle where
  /-- Where it goes on. -/
  cursor : Nat
  pattern : Bytes
  /-- The keys reported so far. -/
  reported : Set Bytes
  /-- The keys held ever since the cycle began. -/
  steady : Set Bytes

/-- A page of a scan. -/
structure Cycle.Page (c : Cycle) (next : Nat) (batch : List Bytes) : Prop where
  small : next < 2 ^ 64
  meant : ∀ key ∈ batch, Glob.accepts c.pattern key = true
  /-- At the end of the cycle no key is owed any more. -/
  complete : next = 0 → ∀ key ∈ c.steady, Glob.accepts c.pattern key = true →
    key ∈ c.reported ∨ key ∈ batch

structure Host where
  entries : Ledger Bytes
  cycle : Option Cycle := none

namespace Host

variable {now : Nat} {h h' : Host}

/-- The keys that are held at a millisecond: a key is gone once its deadline has come. -/
def held (h : Host) (now : Nat) : Set Bytes := {key | (h.entries.live now key).isSome}

/-- The keys that are no longer held are not steady any more. -/
def observe (h : Host) (now : Nat) : Host :=
  { h with cycle := h.cycle.map fun c => { c with steady := c.steady ∩ h.held now } }

/-- The host with other entries. -/
def become (h : Host) (now : Nat) (entries : Ledger Bytes) : Host :=
  { h.observe now with entries := entries }.observe now

/-- The first date that does not fit a signed clock of 64 bits. -/
def endOfTime : Nat := 2 ^ 63

/-- The answer to a command that is no scan, and what the host is afterwards. -/
def serve (h : Host) (now : Nat) : Call → Reply × Host
  | .set key value none => (.simple "OK", h.become now (h.entries.put key ⟨value, none⟩))
  | .set key value (some expiry) =>
      if 0 < expiry ∧ now + expiry < endOfTime then
        (.simple "OK", h.become now (h.entries.put key ⟨value, some (now + expiry)⟩))
      else (.error "ERR invalid expire time in 'set' command", h)
  | .get key =>
      match h.entries.live now key with
      | some value => (.bulk value, h)
      | none => (.null, h)
  | .delete key =>
      (.integer (if (h.entries.live now key).isSome then 1 else 0),
        h.become now (h.entries.drop key))
  | .contains key => (.integer (if (h.entries.live now key).isSome then 1 else 0), h)
  | .scan .. => (.error "ERR", h)

/-- The cycle that a scan belongs to. -/
def resume (h : Host) (now cursor : Nat) (pattern : Bytes) : Cycle :=
  if cursor = 0 then ⟨0, pattern, ∅, h.held now⟩
  else
    match h.cycle with
    | some c =>
        if c.cursor = cursor ∧ c.pattern = pattern then { c with steady := c.steady ∩ h.held now }
        else ⟨cursor, pattern, ∅, ∅⟩
    | none => ⟨cursor, pattern, ∅, ∅⟩

/-- A page as a reply. -/
def pageReply (next : Nat) (batch : List Bytes) : Reply :=
  .array [.bulk (Text.encode (toString next)), .array (batch.map .bulk)]

/-- The host after a page. -/
def turn (h : Host) (c : Cycle) (next : Nat) (batch : List Bytes) : Host :=
  { h with
    cycle :=
      if next = 0 then none
      else some { c with cursor := next, reported := {key | key ∈ c.reported ∨ key ∈ batch} } }

/-- A host may answer a command so, and be so afterwards. -/
def Answers (now : Nat) (h : Host) (command : ServerCommand) (reply : Reply) (h' : Host) : Prop :=
  match Call.ofCommand? command with
  | none => (∃ text, reply = .error text) ∧ h' = h
  | some (.scan cursor pattern) =>
      ∃ next batch, (h.resume now cursor pattern).Page next batch ∧
        reply = pageReply next batch ∧ h' = h.turn (h.resume now cursor pattern) next batch
  | some call => (reply, h') = h.serve now call

theorem answers_serve {command : ServerCommand} {call : Call} {reply : Reply}
    (asked : Call.ofCommand? command = some call)
    (settled : ∀ cursor pattern, call ≠ .scan cursor pattern)
    (outcome : (reply, h') = h.serve now call) : Answers now h command reply h' := by
  unfold Answers
  rw [asked]
  cases call with
  | scan cursor pattern => exact absurd rfl (settled cursor pattern)
  | set | get | delete | contains => exact outcome

theorem answers_scan {command : ServerCommand} {cursor next : Nat} {pattern : Bytes}
    {batch : List Bytes} (asked : Call.ofCommand? command = some (.scan cursor pattern))
    (page : (h.resume now cursor pattern).Page next batch) :
    Answers now h command (pageReply next batch)
      (h.turn (h.resume now cursor pattern) next batch) := by
  unfold Answers
  rw [asked]
  exact ⟨next, batch, page, rfl, rfl⟩

theorem exists_answers (now : Nat) (h : Host) (command : ServerCommand) :
    ∃ reply h', Answers now h command reply h' := by
  unfold Answers
  split
  next => exact ⟨.error "ERR unknown command", h, ⟨_, rfl⟩, rfl⟩
  next cursor pattern _ =>
    have page : (h.resume now cursor pattern).Page 1 [] :=
      ⟨by decide, fun _ impossible => absurd impossible List.not_mem_nil, nofun⟩
    exact ⟨_, _, 1, [], page, rfl, rfl⟩
  next call _ _ => exact ⟨_, _, rfl⟩

/-- A conversation at one millisecond. -/
def Converses (now : Nat) : Host → List Exchange → Host → Prop
  | h, [], h' => h' = h
  | h, x :: rest, h' =>
      ∃ between, Answers now h x.command x.reply between ∧ Converses now between rest h'

end Host

end ExpiringCache
