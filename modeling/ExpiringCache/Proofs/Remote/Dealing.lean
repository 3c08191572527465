import ExpiringCache.Proofs.Remote.Contract

/-!
# Dealings with a server

A dealing is what becomes of one request: what is said on the line, what is answered
and what is counted. There are only so many ways that a dealing can go (`Goes`),
whatever the server replies, and they say how takes go (`Took`), what is counted
(`Counted`) and what a fault leaves behind.
-/

namespace ExpiringCache

/-! ## Exchanges -/

/-- What is said and replied when a command is sent on a line. -/
def Line.exchange (line : Line) (command : ServerCommand) : Exchange :=
  ⟨command, (line.ask command).1⟩

namespace Exchange

/-- Whether the command has the given name. -/
def called (x : Exchange) (name : String) : Bool := x.command.head? == some (Text.encode name)

/-- The reply, read as a value that may be there. -/
def value? (x : Exchange) : Except Fault (Option Bytes) := x.reply.interpret Reply.optionalBytes?

/-- The reply, read as a number. -/
def number? (x : Exchange) : Except Fault Int := x.reply.interpret Reply.signed?

/-- A `SET` that is answered without an error. -/
def stored (x : Exchange) : Bool := x.called "SET" && x.reply.error?.isNone

/-- A `GET` whose reply is a value. -/
def hit (x : Exchange) : Bool :=
  x.called "GET" && match x.value? with
    | .ok found => found.isSome
    | .error _ => false

/-- A `GET` whose reply is no value. -/
def miss (x : Exchange) : Bool :=
  x.called "GET" && match x.value? with
    | .ok found => found.isNone
    | .error _ => false

/-- A `DEL` that removed something. -/
def removed (x : Exchange) : Bool :=
  x.called "DEL" && match x.number? with
    | .ok n => decide (0 < n)
    | .error _ => false

variable {x : Exchange}

/-- A command is called by the name that it starts with. -/
theorem called_of_head {name : String} (sent : x.command.head? = some (Text.encode name))
    (other : String) : x.called other = decide (name = other) := by
  rw [called, sent, Bool.eq_iff_iff, beq_iff_eq, decide_eq_true_eq, Option.some.injEq,
    Text.encode_injective.eq_iff]

theorem called_of_onKey {name : String} {key : Bytes} (sent : x.command = .onKey name key)
    (other : String) : x.called other = decide (name = other) :=
  called_of_head (congrArg List.head? sent) other

theorem called_of_set {key value : Bytes} {ttl : Option Duration}
    (sent : x.command = Remote.setCommand key value ttl) (other : String) :
    x.called other = decide ("SET" = other) :=
  called_of_head (congrArg List.head? sent) other

/-! What an exchange counts for goes by its command. -/

theorem tally_of_set {key value : Bytes} {ttl : Option Duration}
    (sent : x.command = Remote.setCommand key value ttl) :
    x.stored = x.reply.error?.isNone ∧ x.hit = false ∧ x.miss = false := by
  simp [stored, hit, miss, called_of_set sent]

theorem tally_of_get {key : Bytes} (sent : x.command = .onKey "GET" key) :
    x.stored = false ∧
      (∀ found, x.value? = .ok found → x.hit = found.isSome ∧ x.miss = found.isNone) ∧
      ∀ cause, x.value? = .error cause → x.hit = false ∧ x.miss = false := by
  refine ⟨?_, ?_, ?_⟩
  · simp [stored, called_of_onKey sent]
  · intro found read
    simp [hit, miss, called_of_onKey sent, read]
  · intro cause failed
    simp [hit, miss, called_of_onKey sent, failed]

/-- Neither an `EXISTS` nor a `DEL` stores or reads. -/
theorem tally_of_other {name : String} {key : Bytes} (sent : x.command = .onKey name key)
    (other : name ≠ "SET" ∧ name ≠ "GET") :
    x.stored = false ∧ x.hit = false ∧ x.miss = false := by
  simp [stored, hit, miss, called_of_onKey sent, other]

theorem removed_of_del {key : Bytes} (sent : x.command = .onKey "DEL" key) :
    (∀ n, x.number? = .ok n → x.removed = decide (0 < n)) ∧
      ∀ cause, x.number? = .error cause → x.removed = false := by
  constructor
  · intro n read
    simp [removed, called_of_onKey sent, read]
  · intro cause failed
    simp [removed, called_of_onKey sent, failed]

end Exchange

namespace Remote

/-! ## Dealings -/

/-- What becomes of a request. -/
structure Dealing where
  request : Request
  answer : Answer
  /-- What is said on the line meanwhile. -/
  said : List Exchange
  before : Counters
  after : Counters

/-- What becomes of a request that is sent to a cache. -/
def deal (link : Link) (q : Request) : Dealing where
  request := q
  answer := (Remote.request link q).1
  said := (Remote.request link q).2.2.log.drop link.2.log.length
  before := link.1.counters
  after := (Remote.request link q).2.1.counters

/-- The ways that a dealing can go while the cache is connected. -/
inductive Goes (keys : Keys) : Dealing → Prop
  | stored {ns key value ttl x} (c : Counters)
      (sent : x.command = setCommand (Text.encode (keys.compose ns key)) value ttl)
      (clean : x.reply.error? = none) : Goes keys ⟨.set ns key value ttl, .done, [x], c, c.set⟩
  | unstored {ns key value ttl x text} (c : Counters)
      (sent : x.command = setCommand (Text.encode (keys.compose ns key)) value ttl)
      (failed : x.reply.error? = some text) :
      Goes keys ⟨.set ns key value ttl, .fault (.remote (.ofErrorText text)), [x], c, c⟩
  | read {ns key x found} (c : Counters)
      (sent : x.command = .onKey "GET" (Text.encode (keys.compose ns key)))
      (read : x.value? = .ok found) :
      Goes keys ⟨.get ns key, .value found, [x], c, c.read found.isSome⟩
  | unread {ns key x cause} (c : Counters)
      (sent : x.command = .onKey "GET" (Text.encode (keys.compose ns key)))
      (failed : x.value? = .error cause) : Goes keys ⟨.get ns key, .fault cause, [x], c, c⟩
  | absent {ns key x} (c : Counters)
      (sent : x.command = .onKey "GET" (Text.encode (keys.compose ns key)))
      (read : x.value? = .ok none) : Goes keys ⟨.take ns key, .value none, [x], c, c.miss⟩
  | taken {ns key x y value n} (c : Counters)
      (sent : x.command = .onKey "GET" (Text.encode (keys.compose ns key)))
      (read : x.value? = .ok (some value))
      (sent' : y.command = .onKey "DEL" (Text.encode (keys.compose ns key)))
      (removed : y.number? = .ok n) :
      Goes keys ⟨.take ns key, .value (some value), [x, y], c, c.hit.delete⟩
  | withheld {ns key x y value cause} (c : Counters)
      (sent : x.command = .onKey "GET" (Text.encode (keys.compose ns key)))
      (read : x.value? = .ok (some value))
      (sent' : y.command = .onKey "DEL" (Text.encode (keys.compose ns key)))
      (failed : y.number? = .error cause) :
      Goes keys ⟨.take ns key, .fault cause, [x, y], c, c.hit⟩
  | untaken {ns key x cause} (c : Counters)
      (sent : x.command = .onKey "GET" (Text.encode (keys.compose ns key)))
      (failed : x.value? = .error cause) : Goes keys ⟨.take ns key, .fault cause, [x], c, c⟩
  | asked {ns key x n} (c : Counters)
      (sent : x.command = .onKey "EXISTS" (Text.encode (keys.compose ns key)))
      (read : x.number? = .ok n) :
      Goes keys ⟨.contains ns key, .present (decide (0 < n)), [x], c, c⟩
  | unasked {ns key x cause} (c : Counters)
      (sent : x.command = .onKey "EXISTS" (Text.encode (keys.compose ns key)))
      (failed : x.number? = .error cause) : Goes keys ⟨.contains ns key, .fault cause, [x], c, c⟩
  | deleted {ns key x n} (c : Counters)
      (sent : x.command = .onKey "DEL" (Text.encode (keys.compose ns key)))
      (read : x.number? = .ok n) :
      Goes keys ⟨.delete ns key, .done, [x], c, if 0 < n then c.delete else c⟩
  | undeleted {ns key x cause} (c : Counters)
      (sent : x.command = .onKey "DEL" (Text.encode (keys.compose ns key)))
      (failed : x.number? = .error cause) : Goes keys ⟨.delete ns key, .fault cause, [x], c, c⟩

variable {r : Remote} {line : Line} {mode : Mode}

theorem log_exchange (line : Line) (command : ServerCommand) :
    (line.ask command).2.log = line.log ++ [line.exchange command] := line.log_ask command

theorem interpret_anything (reply : Reply) :
    reply.interpret Reply.anything? = match reply.error? with
      | some text => .error (.remote (.ofErrorText text))
      | none => .ok () := by
  unfold Reply.interpret
  cases reply.error? <;> rfl

theorem fetch_eq (line : Line) (key : Bytes) :
    fetch line key =
      ((line.exchange (.onKey "GET" key)).value?, (line.ask (.onKey "GET" key)).2) := rfl

theorem query_number (line : Line) (command : ServerCommand) :
    line.query command Reply.signed? =
      ((line.exchange command).number?, (line.ask command).2) := rfl

/-- A dealing is told by what is served and what is logged. -/
theorem deal_eq {q : Request} {answer : Answer} {r' : Remote} {line' : Line} {said : List Exchange}
    (served : request (r, line) q = (answer, r', line')) (logged : line'.log = line.log ++ said) :
    deal (r, line) q = ⟨q, answer, said, r.counters, r'.counters⟩ := by
  simp only [deal, served, logged, List.drop_left]

theorem goes_set (connected : r.mode = some mode) (ns key : String) (value : Bytes)
    (ttl : Option Duration) : Goes r.keys (deal (r, line) (.set ns key value ttl)) := by
  let command := setCommand (r.rawKey ns key) value ttl
  have logged := log_exchange line command
  have queried : line.query command Reply.anything? =
      (match (line.exchange command).reply.error? with
        | some text => .error (.remote (.ofErrorText text))
        | none => .ok (), (line.ask command).2) := by
    rw [← interpret_anything]
    rfl
  cases clean : (line.exchange command).reply.error? with
  | none =>
      have served : request (r, line) (.set ns key value ttl) =
          (.done, r.count .set, (line.ask command).2) := by
        simp only [request, connected, set, command, queried, clean]
      rw [deal_eq served logged]
      exact .stored _ rfl clean
  | some text =>
      have served : request (r, line) (.set ns key value ttl) =
          (.fault (.remote (.ofErrorText text)), r, (line.ask command).2) := by
        simp only [request, connected, set, command, queried, clean]
      rw [deal_eq served logged]
      exact .unstored _ rfl clean

theorem goes_get (connected : r.mode = some mode) (ns key : String) :
    Goes r.keys (deal (r, line) (.get ns key)) := by
  let raw := r.rawKey ns key
  have logged := log_exchange line (.onKey "GET" raw)
  cases read : (line.exchange (.onKey "GET" raw)).value? with
  | error cause =>
      have served : request (r, line) (.get ns key) =
          (.fault cause, r, (line.ask (.onKey "GET" raw)).2) := by
        simp only [request, connected, get, fetch_eq, raw, read]
      rw [deal_eq served logged]
      exact .unread _ rfl read
  | ok found =>
      have served : request (r, line) (.get ns key) =
          (.value found, r.count (·.read found.isSome), (line.ask (.onKey "GET" raw)).2) := by
        simp only [request, connected, get, fetch_eq, raw, read]
      rw [deal_eq served logged]
      exact .read _ rfl read

theorem goes_take (connected : r.mode = some mode) (ns key : String) :
    Goes r.keys (deal (r, line) (.take ns key)) := by
  let raw := r.rawKey ns key
  let next := (line.ask (.onKey "GET" raw)).2
  have logged : next.log = line.log ++ [line.exchange (.onKey "GET" raw)] := log_exchange line _
  cases read : (line.exchange (.onKey "GET" raw)).value? with
  | error cause =>
      have served : request (r, line) (.take ns key) = (.fault cause, r, next) := by
        simp only [request, connected, take, fetch_eq, raw, read, next]
      rw [deal_eq served logged]
      exact .untaken _ rfl read
  | ok found =>
      cases found with
      | none =>
          have served : request (r, line) (.take ns key) = (.value none, r.count .miss, next) := by
            simp only [request, connected, take, fetch_eq, raw, read, next]
          rw [deal_eq served logged]
          exact .absent _ rfl read
      | some value =>
          -- The removal is the second exchange.
          have logged' : (next.ask (.onKey "DEL" raw)).2.log =
              line.log ++ [line.exchange (.onKey "GET" raw), next.exchange (.onKey "DEL" raw)] := by
            rw [log_exchange next, logged, List.append_assoc]
            rfl
          cases removed : (next.exchange (.onKey "DEL" raw)).number? with
          | error cause =>
              have served : request (r, line) (.take ns key) =
                  (.fault cause, r.count .hit, (next.ask (.onKey "DEL" raw)).2) := by
                simp only [request, connected, take, fetch_eq, raw, read, query_number, next,
                  removed]
              rw [deal_eq served logged']
              exact .withheld _ rfl read rfl removed
          | ok n =>
              have served : request (r, line) (.take ns key) =
                  (.value (some value), (r.count .hit).count .delete,
                    (next.ask (.onKey "DEL" raw)).2) := by
                simp only [request, connected, take, fetch_eq, raw, read, query_number, next,
                  removed]
              rw [deal_eq served logged']
              exact .taken _ rfl read rfl removed

theorem goes_contains (connected : r.mode = some mode) (ns key : String) :
    Goes r.keys (deal (r, line) (.contains ns key)) := by
  let raw := r.rawKey ns key
  have logged := log_exchange line (.onKey "EXISTS" raw)
  cases read : (line.exchange (.onKey "EXISTS" raw)).number? with
  | error cause =>
      have served : request (r, line) (.contains ns key) =
          (.fault cause, r, (line.ask (.onKey "EXISTS" raw)).2) := by
        simp only [request, connected, contains, query_number, raw, read]
      rw [deal_eq served logged]
      exact .unasked _ rfl read
  | ok n =>
      have served : request (r, line) (.contains ns key) =
          (.present (decide (0 < n)), r, (line.ask (.onKey "EXISTS" raw)).2) := by
        simp only [request, connected, contains, query_number, raw, read]
      rw [deal_eq served logged]
      exact .asked _ rfl read

theorem goes_delete (connected : r.mode = some mode) (ns key : String) :
    Goes r.keys (deal (r, line) (.delete ns key)) := by
  let raw := r.rawKey ns key
  have logged := log_exchange line (.onKey "DEL" raw)
  cases read : (line.exchange (.onKey "DEL" raw)).number? with
  | error cause =>
      have served : request (r, line) (.delete ns key) =
          (.fault cause, r, (line.ask (.onKey "DEL" raw)).2) := by
        simp only [request, connected, delete, query_number, raw, read]
      rw [deal_eq served logged]
      exact .undeleted _ rfl read
  | ok n =>
      have served : request (r, line) (.delete ns key) =
          (.done, if 0 < n then r.count .delete else r, (line.ask (.onKey "DEL" raw)).2) := by
        simp only [request, connected, delete, query_number, raw, read]
      have counted : (if 0 < n then r.count .delete else r).counters =
          if 0 < n then r.counters.delete else r.counters := by
        split <;> rfl
      rw [deal_eq served logged, counted]
      exact .deleted _ rfl read

theorem goes (connected : r.mode = some mode) (q : Request) : Goes r.keys (deal (r, line) q) := by
  cases q with
  | set ns key value ttl => exact goes_set connected ns key value ttl
  | get ns key => exact goes_get connected ns key
  | take ns key => exact goes_take connected ns key
  | contains ns key => exact goes_contains connected ns key
  | delete ns key => exact goes_delete connected ns key

/-- A closed cache refuses every request, and nothing is said. -/
theorem deal_of_closed (closed : r.mode = none) (q : Request) :
    deal (r, line) q = ⟨q, .fault .closed, [], r.counters, r.counters⟩ := by
  simp [deal, request, closed]

/-! ## Takes -/

/-- How a take of a key goes. -/
structure Took (key : Bytes) (said : List Exchange) (answer : Answer) : Prop where
  /-- The key is read, and it is removed if and only if there was a value. -/
  sent : ∃ x rest, said = x :: rest ∧ x.command = .onKey "GET" key ∧
    ((∃ value, x.value? = .ok (some value)) ∧ rest.map (·.command) = [.onKey "DEL" key] ∨
      (∀ value, x.value? ≠ .ok (some value)) ∧ rest = [])
  /-- The value is handed out just if a number comes back for the removal. -/
  handed : ∀ value, answer = .value (some value) ↔
    ∃ x y n, said = [x, y] ∧ x.value? = .ok (some value) ∧ y.number? = .ok n
  /-- A removal that fails is the answer. -/
  failed : ∀ x y cause, said = [x, y] → y.number? = .error cause → answer = .fault cause

theorem Goes.took {keys : Keys} {d : Dealing} (goes : Goes keys d) {ns key : String}
    (asked : d.request = .take ns key) :
    Took (Text.encode (keys.compose ns key)) d.said d.answer := by
  cases goes with
  | absent c sent read =>
      cases asked
      refine ⟨⟨_, [], rfl, sent, .inr ⟨?_, rfl⟩⟩, ?_, ?_⟩
      · simp [read]
      · simp
      · simp
  | untaken c sent failed =>
      cases asked
      refine ⟨⟨_, [], rfl, sent, .inr ⟨?_, rfl⟩⟩, ?_, ?_⟩
      · simp [failed]
      · simp
      · simp
  | taken c sent read sent' removed =>
      cases asked
      refine ⟨⟨_, [_], rfl, sent, .inl ⟨⟨_, read⟩, congrArg (· :: []) sent'⟩⟩, ?_, ?_⟩
      · simp [read, removed]
      · rintro x y cause pair failed
        cases pair
        simp [removed] at failed
  | withheld c sent read sent' failed =>
      cases asked
      refine ⟨⟨_, [_], rfl, sent, .inl ⟨⟨_, read⟩, congrArg (· :: []) sent'⟩⟩, ?_, ?_⟩
      · simp [failed]
      · rintro x y cause pair failed'
        cases pair
        exact congrArg Answer.fault (Except.error.inj (failed.symm.trans failed'))
  | stored | unstored | read | unread | asked | unasked | deleted | undeleted => cases asked

/-- Nothing but reads and takes sends a `GET`. -/
theorem Goes.reads {keys : Keys} {d : Dealing} (goes : Goes keys d) {x : Exchange}
    (said : x ∈ d.said) (get : x.called "GET" = true) :
    ∃ ns key, d.request = .get ns key ∨ d.request = .take ns key := by
  cases goes with
  | read | unread => exact ⟨_, _, .inl rfl⟩
  | absent | taken | withheld | untaken => exact ⟨_, _, .inr rfl⟩
  | stored c sent | unstored c sent =>
      rw [List.mem_singleton.1 said, Exchange.called_of_set sent] at get
      simp at get
  | asked c sent | unasked c sent | deleted c sent | undeleted c sent =>
      rw [List.mem_singleton.1 said, Exchange.called_of_onKey sent] at get
      simp at get

/-! ## Counting -/

/-- Whether a take handed out a value. -/
def Dealing.tookValue (d : Dealing) : Bool :=
  match d.request, d.answer with
  | .take .., .value found => found.isSome
  | _, _ => false

/-- Whether a request to delete removed something. -/
def Dealing.deletedKey (d : Dealing) : Bool :=
  match d.request with
  | .delete .. => d.said.any Exchange.removed
  | _ => false

/-- What was said in some dealings. -/
def saidIn (dealings : List Dealing) : List Exchange := dealings.flatMap (·.said)

/-- How some dealings change the counters. -/
structure Counted (before after : Counters) (dealings : List Dealing) : Prop where
  sets : after.sets = before.sets + .ofNat ((saidIn dealings).countP Exchange.stored)
  hits : after.hits = before.hits + .ofNat ((saidIn dealings).countP Exchange.hit)
  misses : after.misses = before.misses + .ofNat ((saidIn dealings).countP Exchange.miss)
  deletes : after.deletes = before.deletes +
    .ofNat (dealings.countP Dealing.tookValue + dealings.countP Dealing.deletedKey)
  expirations : after.expirations = before.expirations

namespace Counted

theorem nothing (c : Counters) : Counted c c [] :=
  ⟨(UInt64.add_zero _).symm, (UInt64.add_zero _).symm, (UInt64.add_zero _).symm,
    (UInt64.add_zero _).symm, rfl⟩

/-- A request that is refused counts for nothing. -/
theorem refused (q : Request) (c : Counters) : Counted c c [⟨q, .fault .closed, [], c, c⟩] := by
  cases q <;>
    exact ⟨(UInt64.add_zero _).symm, (UInt64.add_zero _).symm, (UInt64.add_zero _).symm,
      (UInt64.add_zero _).symm, rfl⟩

theorem cons {before between after : Counters} {d : Dealing} {rest : List Dealing}
    (first : Counted before between [d]) (others : Counted between after rest) :
    Counted before after (d :: rest) := by
  have split : d :: rest = [d] ++ rest := rfl
  have said : saidIn ([d] ++ rest) = saidIn [d] ++ saidIn rest := List.flatMap_append
  have adds {α : Type} (test : α → Bool) (l l' : List α) :
      UInt64.ofNat ((l ++ l').countP test) = .ofNat (l.countP test) + .ofNat (l'.countP test) := by
    rw [List.countP_append, UInt64.ofNat_add]
  rw [split]
  constructor
  · rw [others.sets, first.sets, said, adds, UInt64.add_assoc]
  · rw [others.hits, first.hits, said, adds, UInt64.add_assoc]
  · rw [others.misses, first.misses, said, adds, UInt64.add_assoc]
  · rw [others.deletes, first.deletes]
    simp only [UInt64.ofNat_add, adds]
    grind
  · rw [others.expirations, first.expirations]

end Counted

/-- What a dealing changes, it counts. -/
theorem Goes.counted {keys : Keys} {d : Dealing} (goes : Goes keys d) :
    Counted d.before d.after [d] := by
  cases goes with
  | stored c sent clean =>
      have tally := Exchange.tally_of_set sent
      constructor <;>
        simp [saidIn, tally, clean, Counters.set, Dealing.tookValue, Dealing.deletedKey]
  | unstored c sent failed =>
      have tally := Exchange.tally_of_set sent
      constructor <;> simp [saidIn, tally, failed, Dealing.tookValue, Dealing.deletedKey]
  | @read ns key x found c sent read =>
      obtain ⟨unstored, tally, -⟩ := Exchange.tally_of_get sent
      cases found <;> constructor <;>
        simp [saidIn, unstored, tally _ read, Counters.read, Counters.hit, Counters.miss,
          Dealing.tookValue, Dealing.deletedKey]
  | absent c sent read =>
      obtain ⟨unstored, tally, -⟩ := Exchange.tally_of_get sent
      constructor <;>
        simp [saidIn, unstored, tally _ read, Counters.miss, Dealing.tookValue, Dealing.deletedKey]
  | taken c sent read sent' removed =>
      obtain ⟨unstored, tally, -⟩ := Exchange.tally_of_get sent
      have nothing := Exchange.tally_of_other sent' (by decide)
      constructor <;>
        simp [saidIn, unstored, tally _ read, nothing, Counters.hit, Counters.delete,
          Dealing.tookValue, Dealing.deletedKey]
  | withheld c sent read sent' failed =>
      obtain ⟨unstored, tally, -⟩ := Exchange.tally_of_get sent
      have nothing := Exchange.tally_of_other sent' (by decide)
      constructor <;>
        simp [saidIn, unstored, tally _ read, nothing, Counters.hit, Dealing.tookValue,
          Dealing.deletedKey]
  | unread c sent failed | untaken c sent failed =>
      obtain ⟨unstored, -, tally⟩ := Exchange.tally_of_get sent
      constructor <;>
        simp [saidIn, unstored, tally _ failed, Dealing.tookValue, Dealing.deletedKey]
  | asked c sent | unasked c sent =>
      have nothing := Exchange.tally_of_other sent (by decide)
      constructor <;> simp [saidIn, nothing, Dealing.tookValue, Dealing.deletedKey]
  | @deleted ns key x n c sent read =>
      have nothing := Exchange.tally_of_other sent (by decide)
      have gone := (Exchange.removed_of_del sent).1 n read
      constructor <;> by_cases some_gone : 0 < n <;>
        simp [saidIn, nothing, gone, some_gone, Counters.delete, Dealing.tookValue,
          Dealing.deletedKey]
  | undeleted c sent failed =>
      have nothing := Exchange.tally_of_other sent (by decide)
      have stayed := (Exchange.removed_of_del sent).2 _ failed
      constructor <;> simp [saidIn, nothing, stayed, Dealing.tookValue, Dealing.deletedKey]

/-! ## Faults -/

/-- A take whose removal failed with a given fault. The value that was read is counted
as a hit and not handed out. -/
def Dealing.Withheld (d : Dealing) (cause : Fault) : Prop :=
  ∃ ns key x y value, d.request = .take ns key ∧ d.said = [x, y] ∧
    x.value? = .ok (some value) ∧ y.number? = .error cause ∧ d.after = d.before.hit

/-- A fault leaves the counters alone, unless a removal failed. -/
theorem Goes.faulty {keys : Keys} {d : Dealing} (goes : Goes keys d) {cause : Fault}
    (fault : d.answer = .fault cause) : d.after = d.before ∨ d.Withheld cause := by
  cases goes with
  | unstored | unread | untaken | asked | unasked | undeleted => exact .inl rfl
  | withheld c sent read sent' failed =>
      cases fault
      exact .inr ⟨_, _, _, _, _, rfl, rfl, read, failed, rfl⟩
  | stored | read | absent | taken | deleted => cases fault

end Remote

end ExpiringCache
