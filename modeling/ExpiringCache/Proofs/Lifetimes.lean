import ExpiringCache.Proofs.Embedded.Lifetime
import ExpiringCache.Proofs.Memory.Contract
import ExpiringCache.Proofs.Remote.Contract

/-!
# Longer times to live

A time to live may be longer than a clock goes. A memory cache then sets no deadline at all, an
embedded cache sets the last one that there is, and a remote cache asks for the longest expiry
that no server refuses.

None of this makes an entry with the longer time to live go first, whichever side of these
bounds the two times are on, and without a time to live an entry stays in all three
(`Duration.longer_outlives`).
-/

namespace ExpiringCache

/-! ## Memory caches -/

namespace Entry

variable {d d' : Duration} {t u : Instant} {value : Bytes}

/-- A deadline beyond the clock never comes. -/
theorem expired_make_iff (nonzero : d.nanos ≠ 0) :
    (make value (some d) t).expired u = true ↔
      t.nanos + d.nanos < UInt64.size / 2 * nanosPerSecond ∧ t.nanos + d.nanos ≤ u.nanos := by
  rw [make, limit?_of_nonzero nonzero, Option.bind_some, Instant.after?]
  split
  next fits => simp [expired, fits]
  next beyond => simp [expired, beyond]

theorem expired_make_mono (nonzero : d.nanos ≠ 0) (order : d.nanos ≤ d'.nanos)
    (past : (make value (some d') t).expired u = true) :
    (make value (some d) t).expired u = true := by
  rw [expired_make_iff (by omega)] at past ⊢
  omega

theorem not_expired_make {ttl : Option Duration} (unlimited : ∀ d, ttl = some d → d.nanos = 0) :
    (make value ttl t).expired u = false := by
  rw [make, limit?_eq_none unlimited]
  rfl

end Entry

namespace Memory

theorem tells_set (m : Memory) (t u : Instant) (ns key : String) (value : Bytes)
    (ttl : Option Duration) :
    service.Tells u (m.request t (.set ns key value ttl)).2 ns key
      (if (Entry.make value ttl t).expired u then none else some value) := by
  have found : (m.table.insert (m.keys.compose ns key) (.make value ttl t)).find?
      (m.keys.compose ns key) = some (.make value ttl t) := by
    rw [Table.find?_insert, if_pos rfl]
  have same : (Entry.make value ttl t).value = value := rfl
  constructor
  all_goals
    cases past : (Entry.make value ttl t).expired u <;>
      simp [service, request, set, count, get, take, contains, found, past, Entry.live, same]

theorem gone_set_iff (m : Memory) (t u : Instant) (ns key : String) (value : Bytes)
    (ttl : Option Duration) :
    service.Tells u (m.request t (.set ns key value ttl)).2 ns key none ↔
      (Entry.make value ttl t).expired u = true := by
  have told := m.tells_set t u ns key value ttl
  constructor
  · intro gone
    have same := told.unique gone
    simpa using same
  · intro past
    rwa [if_pos past] at told

end Memory

/-! ## Embedded caches -/

theorem Record.expired_make_mono {d d' : Duration} (nonzero : d.nanos ≠ 0)
    (order : d.nanos ≤ d'.nanos) {value : Bytes} {now later : UInt64}
    (past : (make value (some d') now).expired later = true) :
    (make value (some d) now).expired later = true := by
  have millis : d.millis ≤ d'.millis := Nat.div_le_div_right order
  rw [expired_make_iff (by omega)] at past ⊢
  omega

namespace Embedded

theorem tells_set {e : Embedded} (opened : e.store.isSome = true) (t u : Instant)
    (ns key : String) (value : Bytes) (ttl : Option Duration) :
    service.Tells u (e.request t (.set ns key value ttl)).2 ns key
      (if (Record.make value ttl t.unixMillis).expired u.unixMillis then none else some value) := by
  obtain ⟨store, opened⟩ := Option.isSome_iff_exists.1 opened
  have keys : (e.request t (.set ns key value ttl)).2.keys = e.keys :=
    e.keys_act t (.serve (.set ns key value ttl))
  apply tells_of_found (store_set opened ns key value ttl t)
  simp only [rawKey, keys, Store.find?_insert, if_true]

/-- A cache that has been closed tells nothing, not even that an entry is gone. -/
theorem isSome_of_tells {e : Embedded} {now : Instant} {ns key : String} {found : Option Bytes}
    (tells : service.Tells now e ns key found) : e.store.isSome = true := by
  have told := tells.get
  cases opened : e.store with
  | some store => rfl
  | none => simp [service, request, opened] at told

theorem gone_set_iff (e : Embedded) (t u : Instant) (ns key : String) (value : Bytes)
    (ttl : Option Duration) :
    service.Tells u (e.request t (.set ns key value ttl)).2 ns key none ↔
      e.store.isSome = true ∧
        (Record.make value ttl t.unixMillis).expired u.unixMillis = true := by
  constructor
  · intro gone
    have opened : e.store.isSome = true := by
      have open_ := isSome_of_tells gone
      cases before : e.store with
      | some store => rfl
      | none => simp [request, before] at open_
    have same := (tells_set opened t u ns key value ttl).unique gone
    exact ⟨opened, by simpa using same⟩
  · rintro ⟨opened, past⟩
    have told := tells_set opened t u ns key value ttl
    rwa [if_pos past] at told

end Embedded

/-! ## Remote caches -/

namespace Remote

variable {d d' : Duration} {ttl : Option Duration}

theorem expiry?_of_nonzero (nonzero : d.nanos ≠ 0) :
    expiry? (some d) = some (min (max 1 d.millis) maxExpiry) := by
  rw [expiry?, limit?_of_nonzero nonzero, Option.map_some]

theorem expiry?_of_unlimited (unlimited : ∀ d, ttl = some d → d.nanos = 0) :
    expiry? ttl = none := by
  rw [expiry?, limit?_eq_none unlimited, Option.map_none]

/-- A request to set an entry is one command. -/
theorem sent_set {r : Remote} (connected : r.mode.isSome = true) (line : Line) (ns key : String)
    (value : Bytes) (ttl : Option Duration) :
    (request (r, line) (.set ns key value ttl)).2.2.sent =
      line.sent ++ [setCommand (r.rawKey ns key) value ttl] := by
  obtain ⟨mode, connected⟩ := Option.isSome_iff_exists.1 connected
  simp only [request, connected, line_set, Line.sent_ask]

/-- A host does what it is asked to, as long as an expiry does not come to the end of time. -/
theorem answers_set {h h' : Host} {now : Nat} (small : expiry? ttl = none ∨ now ≤ clockEnd)
    {key value : Bytes} {reply : Reply}
    (answers : h.Answers now (setCommand key value ttl) reply h') :
    reply = .simple "OK" ∧ ∀ u, h'.entries.live u key = (hostTerm now value ttl).live u := by
  have served : h.serve now (.set key value (expiry? ttl)) =
      (.simple "OK", h.become now (h.entries.put key (hostTerm now value ttl))) := by
    rcases small with never | small
    · rw [hostTerm, never]
      rfl
    · exact serve_set h small key value ttl
  unfold Host.Answers at answers
  rw [Call.ofCommand?_set] at answers
  have outcome : (reply, h') = h.serve now (.set key value (expiry? ttl)) := answers
  rw [served, Prod.mk.injEq] at outcome
  obtain ⟨acknowledged, rfl⟩ := outcome
  refine ⟨acknowledged, fun u => ?_⟩
  show (h.entries.put key _).live u key = _
  rw [Ledger.live_put, if_pos rfl]

/-- The entry with the shorter expiry goes first. -/
theorem live_hostTerm_mono (nonzero : d.nanos ≠ 0) (order : d.nanos ≤ d'.nanos) {now u : Nat}
    {value : Bytes} (gone : (hostTerm now value (some d')).live u = none) :
    (hostTerm now value (some d)).live u = none := by
  have millis : d.millis ≤ d'.millis := Nat.div_le_div_right order
  rw [hostTerm, expiry?_of_nonzero (by omega)] at gone ⊢
  simp only [Option.map_some, Term.live, ite_eq_right_iff, reduceCtorEq, imp_false] at gone ⊢
  omega

end Remote

/-! ## The order of times to live -/

/-- No engine lets an entry go before one with a shorter time to live: in whichever state and
at whichever readings two entries are set and read, if the one with the longer time to live
is gone, so is the other.

The expiries that a server is asked for are in order too. They are between one millisecond and
`2 ^ 62 - 1`, and whole milliseconds are asked for as they are within these bounds. Up to the
reading `2 ^ 62` they end before a signed number of 64 bits does, and no server refuses them.

Without a time to live, or with one of zero, no expiry is asked for, and the entry can be read
at any time. -/
theorem Duration.longer_outlives (ns key : String) (value : Bytes) :
    (∀ d d' : Duration, d.nanos ≠ 0 → d.nanos ≤ d'.nanos →
      (∀ (m : Memory) (t u : Instant),
        Memory.service.Tells u (m.request t (.set ns key value (some d'))).2 ns key none →
          Memory.service.Tells u (m.request t (.set ns key value (some d))).2 ns key none) ∧
      (∀ (e : Embedded) (t u : Instant),
        Embedded.service.Tells u (e.request t (.set ns key value (some d'))).2 ns key none →
          Embedded.service.Tells u (e.request t (.set ns key value (some d))).2 ns key none) ∧
      (∃ n n', Remote.expiry? (some d) = some n ∧ Remote.expiry? (some d') = some n' ∧ n ≤ n') ∧
      ∀ (h h₁ h₂ : Host) (raw : Bytes) (reply reply' : Reply), ∀ now ≤ 2 ^ 62,
        h.Answers now (Remote.setCommand raw value (some d)) reply h₁ →
        h.Answers now (Remote.setCommand raw value (some d')) reply' h₂ →
        ∀ u, h₂.entries.live u raw = none → h₁.entries.live u raw = none) ∧
    (∀ d : Duration, d.nanos ≠ 0 →
      ∃ n, Remote.expiry? (some d) = some n ∧ 1 ≤ n ∧ n ≤ 2 ^ 62 - 1 ∧
        (1 ≤ d.millis → d.millis ≤ 2 ^ 62 - 1 → n = d.millis) ∧
        ∀ now ≤ 2 ^ 62, now + n ≤ 2 ^ 63 - 1 ∧
          ∀ (h h' : Host) (raw : Bytes) (reply : Reply),
            h.Answers now (Remote.setCommand raw value (some d)) reply h' →
            reply = .simple "OK") ∧
    ∀ ttl : Option Duration, (∀ d, ttl = some d → d.nanos = 0) →
      (∀ (m : Memory) (t u : Instant),
        Memory.service.Tells u (m.request t (.set ns key value ttl)).2 ns key (some value)) ∧
      (∀ (e : Embedded) (t u : Instant), e.store.isSome = true →
        Embedded.service.Tells u (e.request t (.set ns key value ttl)).2 ns key (some value)) ∧
      (∀ (r : Remote) (line : Line), r.mode.isSome = true →
        (Remote.request (r, line) (.set ns key value ttl)).2.2.sent =
          line.sent ++ [[Text.encode "SET", r.rawKey ns key, value]]) ∧
      ∀ (h h' : Host) (now : Nat) (raw : Bytes) (reply : Reply),
        h.Answers now (Remote.setCommand raw value ttl) reply h' →
        reply = .simple "OK" ∧ ∀ u, h'.entries.live u raw = some value := by
  refine ⟨fun d d' nonzero order => ⟨?memory, ?embedded, ?expiries, ?hosts⟩,
    fun d nonzero => ?bounds,
    fun ttl unlimited => ⟨?memoryStays, ?embeddedStays, ?sent, ?hostStays⟩⟩
  case memory =>
    intro m t u gone
    rw [Memory.gone_set_iff] at gone ⊢
    exact Entry.expired_make_mono nonzero order gone
  case embedded =>
    intro e t u gone
    rw [Embedded.gone_set_iff] at gone ⊢
    exact ⟨gone.1, Record.expired_make_mono nonzero order gone.2⟩
  case expiries =>
    refine ⟨_, _, Remote.expiry?_of_nonzero nonzero, Remote.expiry?_of_nonzero (by omega), ?_⟩
    have millis : d.millis ≤ d'.millis := Nat.div_le_div_right order
    omega
  case hosts =>
    intro h h₁ h₂ raw reply reply' now small answers answers' u gone
    rw [(Remote.answers_set (.inr small) answers').2] at gone
    rw [(Remote.answers_set (.inr small) answers).2]
    exact Remote.live_hostTerm_mono nonzero order gone
  case bounds =>
    have longest : Remote.maxExpiry = 2 ^ 62 - 1 := rfl
    refine ⟨_, Remote.expiry?_of_nonzero nonzero, by omega, by omega, by omega, ?_⟩
    intro now small
    refine ⟨by omega, fun h h' raw reply answers => ?_⟩
    exact (Remote.answers_set (.inr small) answers).1
  case memoryStays =>
    intro m t u
    have told := m.tells_set t u ns key value ttl
    rwa [Entry.not_expired_make unlimited, if_neg Bool.false_ne_true] at told
  case embeddedStays =>
    intro e t u opened
    have told := e.tells_set opened t u ns key value ttl
    rwa [Record.not_expired_make unlimited, if_neg Bool.false_ne_true] at told
  case sent =>
    intro r line connected
    rw [Remote.sent_set connected, Remote.setCommand, Remote.expiry?_of_unlimited unlimited]
    rfl
  case hostStays =>
    intro h h' now raw reply answers
    have never := Remote.expiry?_of_unlimited unlimited
    obtain ⟨acknowledged, live⟩ := Remote.answers_set (.inl never) answers
    refine ⟨acknowledged, fun u => ?_⟩
    rw [live, Remote.hostTerm, never]
    rfl

/-- Three seconds after they are set, an entry of two seconds is gone, and therefore one of a
second; the longest expiry that is asked for can be set at the reading `2 ^ 62`, and a time to
live of zero has none. -/
theorem Duration.longer_outlives_seconds :
    let m : Memory := .create .standard 0 ⟨0⟩
    let e : Embedded := .create .standard .empty 0 ⟨0⟩
    let set (d : Duration) : Request := .set "n" "a" [1] (some d)
    let longest : Duration := ⟨UInt64.size * nanosPerSecond - 1, by decide⟩
    Memory.service.Tells ⟨3000000000⟩ (m.request ⟨0⟩ (set (.ofMillis 2000))).2 "n" "a" none ∧
      Memory.service.Tells ⟨3000000000⟩ (m.request ⟨0⟩ (set (.ofMillis 1000))).2 "n" "a" none ∧
      Embedded.service.Tells ⟨3000000000⟩ (e.request ⟨0⟩ (set (.ofMillis 2000))).2 "n" "a" none ∧
      Embedded.service.Tells ⟨3000000000⟩ (e.request ⟨0⟩ (set (.ofMillis 1000))).2 "n" "a" none ∧
      (∃ n, Remote.expiry? (some longest) = some n ∧ 2 ^ 62 + n ≤ 2 ^ 63 - 1) ∧
      Embedded.service.Tells ⟨3000000000⟩ (e.request ⟨0⟩ (set (.ofMillis 0))).2 "n" "a"
        (some [1]) := by
  intro m e set longest
  obtain ⟨longer, bounds, unlimited⟩ := longer_outlives "n" "a" [1]
  obtain ⟨memory, embedded, -, -⟩ :=
    longer (.ofMillis 1000) (.ofMillis 2000) (by decide) (by decide)
  obtain ⟨n, asked, -, -, -, accepted⟩ := bounds longest (by decide)
  obtain ⟨-, stays, -, -⟩ := unlimited (some (.ofMillis 0)) (by decide)
  have goneMemory := (m.gone_set_iff ⟨0⟩ ⟨3000000000⟩ "n" "a" [1] (some (.ofMillis 2000))).2
    (by decide)
  have goneEmbedded := (e.gone_set_iff ⟨0⟩ ⟨3000000000⟩ "n" "a" [1] (some (.ofMillis 2000))).2
    ⟨rfl, by decide⟩
  exact ⟨goneMemory, memory m _ _ goneMemory, goneEmbedded, embedded e _ _ goneEmbedded,
    ⟨n, asked, (accepted _ le_rfl).1⟩, stays e _ _ rfl⟩

end ExpiringCache
