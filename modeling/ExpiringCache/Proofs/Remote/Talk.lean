import ExpiringCache.Proofs.Remote.Host
import ExpiringCache.Remote

/-!
# Talking to a host

What a cache and a host say to each other, each read by the other side: the
commands of a cache are what a host takes them for, and the replies of a host are
what a cache takes them for. A line only ever grows, so that what was said on it
can be followed exchange by exchange (`Talk.first`).
-/

namespace ExpiringCache

open Remote

/-! ## Commands -/

namespace Call

theorem ofCommand?_get (key : Bytes) : ofCommand? (.onKey "GET" key) = some (.get key) := rfl

theorem ofCommand?_delete (key : Bytes) : ofCommand? (.onKey "DEL" key) = some (.delete key) := by
  have other : Text.encode "DEL" ≠ Text.encode "GET" := Text.encode_injective.ne (by decide)
  simp [ofCommand?, ServerCommand.onKey, other]

theorem ofCommand?_contains (key : Bytes) :
    ofCommand? (.onKey "EXISTS" key) = some (.contains key) := by
  have other : Text.encode "EXISTS" ≠ Text.encode "GET" := Text.encode_injective.ne (by decide)
  have other' : Text.encode "EXISTS" ≠ Text.encode "DEL" := Text.encode_injective.ne (by decide)
  simp [ofCommand?, ServerCommand.onKey, other, other']

theorem number?_toString {n : Nat} (small : n < 2 ^ 64) :
    number? (Text.encode (toString n)) = some n := by
  rw [number?, Text.decode?_encode, Option.bind_some, Text.unsigned?_toString small]

theorem expiry_small {ttl : Option Duration} {millis : Nat} (limited : expiry? ttl = some millis) :
    0 < millis ∧ millis < 2 ^ 62 := by
  obtain ⟨d, -, rfl⟩ := Option.map_eq_some_iff.1 limited
  simp only [maxExpiry, UInt64.size]
  omega

theorem ofCommand?_set (key value : Bytes) (ttl : Option Duration) :
    ofCommand? (setCommand key value ttl) = some (.set key value (expiry? ttl)) := by
  unfold setCommand
  cases limited : expiry? ttl with
  | none => simp [ofCommand?, ServerCommand.ofTexts]
  | some millis =>
      have small := (expiry_small limited).2
      have read := number?_toString (Nat.lt_trans small (by decide))
      simp only [ofCommand?, ServerCommand.ofTexts, List.map_cons, List.map_nil, List.cons_append,
        List.nil_append, and_self, if_true, read, Option.map_some]

theorem ofCommand?_scan {cursor : Nat} (small : cursor < 2 ^ 64) (pattern : String) :
    ofCommand? (scanCommand cursor pattern) = some (.scan cursor (Text.encode pattern)) := by
  have batch : number? (Text.encode (toString scanBatch)) = some scanBatch :=
    number?_toString (by decide)
  have positive : 0 < scanBatch := by decide
  simp only [ofCommand?, scanCommand, ServerCommand.ofTexts, List.map_cons, List.map_nil, and_self,
    if_true, batch, Option.bind_some, positive, number?_toString small, Option.map_some]

end Call

/-! ## Replies -/

namespace Reply

theorem firstError?_bulks (batch : List Bytes) : firstError? (batch.map .bulk) = none := by
  induction batch with
  | nil => simp [firstError?]
  | cons bytes rest ih => simp [firstError?, error?, ih]

theorem byteStrings?_bulks (batch : List Bytes) :
    (array (batch.map .bulk)).byteStrings? = some batch := by
  show (batch.map Reply.bulk).mapM bytes? = some batch
  induction batch with
  | nil => rfl
  | cons bytes rest ih =>
      rw [List.map_cons, List.mapM_cons, ih]
      rfl

theorem interpret_page {next : Nat} (small : next < 2 ^ 64) (batch : List Bytes) :
    (Host.pageReply next batch).interpret page? = .ok (next, batch) := by
  have number : (bulk (Text.encode (toString next))).unsigned? 64 = some next := by
    simp only [unsigned?, text?, Text.decode?_encode, Option.bind_some,
      Text.unsigned?_toString small]
  have page : (Host.pageReply next batch).page? = some (next, batch) := by
    simp only [Host.pageReply, page?, number, byteStrings?_bulks]
    rfl
  have clean : (Host.pageReply next batch).error? = none := by
    simp [Host.pageReply, error?, firstError?, firstError?_bulks]
  rw [interpret, clean, page]

theorem interpret_integer (n : Int) : (integer n).interpret signed? = .ok n := by
  simp [interpret, error?, signed?]

theorem interpret_done (text : String) : (simple text).interpret anything? = .ok () := by
  simp [interpret, error?, anything?]

end Reply

/-! ## Lines -/

namespace Line

/-- What happens on a line: exchanges are added, and replies used up. -/
structure Grows (line line' : Line) : Prop where
  log : ∃ fresh, line'.log = line.log ++ fresh
  replies : line'.replies.length ≤ line.replies.length

theorem Grows.refl (line : Line) : Grows line line := ⟨⟨[], by simp⟩, le_rfl⟩

theorem Grows.trans {a b c : Line} (first : Grows a b) (second : Grows b c) : Grows a c := by
  obtain ⟨fresh, grown⟩ := first.log
  obtain ⟨fresh', grown'⟩ := second.log
  exact ⟨⟨fresh ++ fresh', by rw [grown', grown, List.append_assoc]⟩,
    second.replies.trans first.replies⟩

theorem log_ask (line : Line) (command : ServerCommand) :
    (line.ask command).2.log = line.log ++ [⟨command, (line.ask command).1⟩] := by
  unfold ask
  split
  next => rfl
  next => rfl

theorem sent_ask (line : Line) (command : ServerCommand) :
    (line.ask command).2.sent = line.sent ++ [command] := by
  simp [sent, log_ask]

theorem grows_ask (line : Line) (command : ServerCommand) : Grows line (line.ask command).2 := by
  refine ⟨⟨_, line.log_ask command⟩, ?_⟩
  unfold ask
  split
  next => exact le_rfl
  next reply rest left => rw [left]; exact Nat.le_succ _

/-- A reply that is not the last one of a line is used up. -/
theorem length_ask {line : Line} {command : ServerCommand}
    (other : (line.ask command).1 ≠ lastReply command) :
    (line.ask command).2.replies.length < line.replies.length := by
  unfold ask at other ⊢
  split
  next none_left =>
    rw [none_left] at other
    exact absurd rfl other
  next reply rest left => rw [left]; exact Nat.lt_succ_self _

end Line

/-! ## Conversations -/

/-- What is said between two states of a line is a conversation with a host. -/
def Talk (now : Nat) (h : Host) (line : Line) (h' : Host) (line' : Line) : Prop :=
  ∃ fresh, line'.log = line.log ++ fresh ∧ h.Converses now fresh h'

namespace Talk

variable {now : Nat} {h h' : Host} {line line' : Line}

/-- Where nothing is said, nothing changes. -/
theorem silent (talk : Talk now h line h' line) : h' = h := by
  obtain ⟨fresh, grown, said⟩ := talk
  have none_said : fresh = [] := by
    have lengths := congrArg List.length grown
    rw [List.length_append] at lengths
    exact List.eq_nil_of_length_eq_zero (by omega)
  rw [none_said] at said
  exact said

/-- The first exchange of a conversation. -/
theorem first {command : ServerCommand} (talk : Talk now h line h' line')
    (grows : Line.Grows (line.ask command).2 line') :
    ∃ between, h.Answers now command (line.ask command).1 between ∧
      Talk now between (line.ask command).2 h' line' := by
  -- What was said is what the command adds and then what is added later.
  obtain ⟨fresh, grown, said⟩ := talk
  obtain ⟨later, grown'⟩ := grows.log
  have split : fresh = ⟨command, (line.ask command).1⟩ :: later := by
    rw [line.log_ask, grown, List.append_assoc] at grown'
    exact List.append_cancel_left grown'
  rw [split] at said
  obtain ⟨between, answer, rest⟩ := said
  exact ⟨between, answer, later, grown', rest⟩

/-- The first exchange of a conversation, if it is no scan. -/
theorem served {command : ServerCommand} {call : Call}
    (asked : Call.ofCommand? command = some call)
    (settled : ∀ cursor pattern, call ≠ .scan cursor pattern)
    (talk : Talk now h line h' line') (grows : Line.Grows (line.ask command).2 line') :
    (line.ask command).1 = (h.serve now call).1 ∧
      Talk now (h.serve now call).2 (line.ask command).2 h' line' := by
  obtain ⟨between, answer, rest⟩ := talk.first grows
  unfold Host.Answers at answer
  rw [asked] at answer
  cases call with
  | scan cursor pattern => exact absurd rfl (settled cursor pattern)
  | set | get | delete | contains =>
      have outcome : ((line.ask command).1, between) = h.serve now _ := answer
      rw [← outcome]
      exact ⟨rfl, rest⟩

end Talk

end ExpiringCache
