import ExpiringCache.Proofs.Remote.Talk

/-!
# Remote caches answer as the host's ledger says

What a host holds under texts is a ledger of composite keys. A request to a remote
cache is one or two exchanges with the host; its answer is read off that ledger,
and it leaves the ledger as it should be.
-/

namespace ExpiringCache

namespace Host

/-- The ledger of the entries that a host holds under texts. -/
def ledger (h : Host) : Ledger String := fun key => h.entries (Text.encode key)

theorem live_ledger (h : Host) (now : Nat) (key : String) :
    h.ledger.live now key = h.entries.live now (Text.encode key) := rfl

theorem ledger_put (h : Host) (now : Nat) (key : String) (t : Term) :
    (h.become now (h.entries.put (Text.encode key) t)).ledger = h.ledger.put key t := by
  funext other
  show h.entries.put (Text.encode key) t (Text.encode other) = h.ledger.put key t other
  by_cases same : other = key
  · simp [Ledger.put, same]
  · simp [Ledger.put, same, Text.encode_injective.ne same, ledger]

theorem ledger_drop (h : Host) (now : Nat) (key : String) :
    (h.become now (h.entries.drop (Text.encode key))).ledger = h.ledger.drop key := by
  funext other
  show h.entries.drop (Text.encode key) (Text.encode other) = h.ledger.drop key other
  by_cases same : other = key
  · simp [Ledger.drop, same]
  · simp [Ledger.drop, same, Text.encode_injective.ne same, ledger]

end Host

/-- The millisecond of a reading, on the host's clock. -/
def Instant.hostMillis (t : Instant) : Nat := t.nanos / nanosPerMilli

namespace Remote

/-- Deadlines are milliseconds of the host's clock. A nonzero time to live counts
as one millisecond at least. -/
def regime (keys : Keys) : Regime where
  keys := keys
  reading := Instant.hostMillis
  deadline? now d := some (now.hostMillis + max 1 d.millis)
  Precedes := (· ≠ ·)

/-- The times up to which an expiry that is cut short makes no difference. -/
def clockEnd : Nat := 2 ^ 62

/-- The entry that a host is asked to set. -/
def hostTerm (now : Nat) (value : Bytes) (ttl : Option Duration) : Term :=
  ⟨value, (expiry? ttl).map (now + ·)⟩

/-- An expiry that is cut short ends later than any clock goes. -/
theorem live_hostTerm (keys : Keys) {now : Instant} (started : 0 < now.hostMillis)
    (value : Bytes) (ttl : Option Duration) {t : Nat} (small : t < clockEnd) :
    (hostTerm now.hostMillis value ttl).live t =
      ((regime keys).term now value ttl).live t := by
  rw [Regime.term_eq, hostTerm, expiry?]
  cases limit? ttl with
  | none => rfl
  | some d =>
      -- The clock has been started, so the longest expiry ends when the clock does.
      have same : t < now.hostMillis + min (max 1 d.millis) maxExpiry ↔
          t < now.hostMillis + max 1 d.millis := by
        have longest : maxExpiry = clockEnd - 1 := by decide
        omega
      show (if t < now.hostMillis + min (max 1 d.millis) maxExpiry then some value
        else none) = if t < now.hostMillis + max 1 d.millis then some value else none
      simp only [same]

/-! ## What is sent -/

theorem line_get (r : Remote) (line : Line) (key : Bytes) :
    (r.get line key).2.2 = (line.ask (.onKey "GET" key)).2 := by
  unfold get fetch
  split
  next same => exact (congrArg Prod.snd same).symm
  next same => exact (congrArg Prod.snd same).symm

theorem line_set (r : Remote) (line : Line) (key value : Bytes) (ttl : Option Duration) :
    (r.set line key value ttl).2.2 = (line.ask (setCommand key value ttl)).2 := by
  unfold set
  split
  next same => exact (congrArg Prod.snd same).symm
  next same => exact (congrArg Prod.snd same).symm

theorem line_contains (r : Remote) (line : Line) (key : Bytes) :
    (r.contains line key).2.2 = (line.ask (.onKey "EXISTS" key)).2 := by
  unfold contains
  split
  next same => exact (congrArg Prod.snd same).symm
  next same => exact (congrArg Prod.snd same).symm

theorem line_delete (r : Remote) (line : Line) (key : Bytes) :
    (r.delete line key).2.2 = (line.ask (.onKey "DEL" key)).2 := by
  unfold delete
  split
  next same => exact (congrArg Prod.snd same).symm
  next same => exact (congrArg Prod.snd same).symm

/-- A removal follows if there was something to read. -/
theorem line_take (r : Remote) (line : Line) (key : Bytes) :
    (r.take line key).2.2 =
      match fetch line key with
      | (.ok (some _), line) => (line.ask (.onKey "DEL" key)).2
      | (_, line) => line := by
  unfold take
  split
  next fetched => rw [fetched]
  next fetched => rw [fetched]
  next fetched =>
    rw [fetched]
    dsimp only
    split
    next same => exact (congrArg Prod.snd same).symm
    next same => exact (congrArg Prod.snd same).symm

theorem grows_take (r : Remote) (line : Line) (key : Bytes) :
    Line.Grows (line.ask (.onKey "GET" key)).2 (r.take line key).2.2 := by
  have sent : (line.ask (.onKey "GET" key)).2 = (fetch line key).2 := rfl
  rw [line_take, sent]
  split
  next fetched =>
    rw [fetched]
    exact Line.grows_ask _ _
  next fetched =>
    rw [fetched]
    exact .refl _

/-! ## Requests -/

/-- A cache that has not been closed. -/
structure Connected (keys : Keys) (r : Remote) : Prop where
  keys : r.keys = keys
  open_ : ∃ mode, r.mode = some mode

theorem Connected.count {keys : Keys} {r : Remote} (connected : Connected keys r)
    (change : Counters → Counters) : Connected keys (r.count change) :=
  ⟨connected.keys, connected.open_⟩

variable {keys : Keys} {r : Remote} {now : Nat} {h h' : Host} {line line' : Line}

theorem fetch_in_touch {key : Bytes} (talk : Talk now h line h' line')
    (grows : Line.Grows (line.ask (.onKey "GET" key)).2 line') :
    fetch line key = (.ok (h.entries.live now key), (line.ask (.onKey "GET" key)).2) ∧
      Talk now h (line.ask (.onKey "GET" key)).2 h' line' := by
  obtain ⟨reply, rest⟩ := talk.served (Call.ofCommand?_get key) nofun grows
  unfold fetch Line.query
  cases live : h.entries.live now key with
  | none =>
      simp only [Host.serve, live] at reply rest
      exact ⟨by simp [reply, Reply.interpret, Reply.error?, Reply.optionalBytes?], rest⟩
  | some value =>
      simp only [Host.serve, live] at reply rest
      exact ⟨by simp [reply, Reply.interpret, Reply.error?, Reply.optionalBytes?, Reply.bytes?],
        rest⟩

theorem get_in_touch (connected : Connected keys r) {key : Bytes}
    (talk : Talk now h line h' (r.get line key).2.2) :
    (r.get line key).1 = .value (h.entries.live now key) ∧
      Connected keys (r.get line key).2.1 ∧ h' = h := by
  rw [line_get] at talk
  obtain ⟨fetched, rest⟩ := fetch_in_touch talk (.refl _)
  simp only [get, fetched]
  exact ⟨trivial, connected.count _, rest.silent⟩

/-- No expiry that a cache asks for is refused. -/
theorem serve_set (h : Host) (small : now ≤ clockEnd) (key value : Bytes)
    (ttl : Option Duration) :
    h.serve now (.set key value (expiry? ttl)) =
      (.simple "OK", h.become now (h.entries.put key (hostTerm now value ttl))) := by
  unfold hostTerm
  cases limited : expiry? ttl with
  | none => rfl
  | some millis =>
      obtain ⟨positive, short⟩ := Call.expiry_small limited
      have fits : now + millis < Host.endOfTime := by
        have ends : Host.endOfTime = 2 * clockEnd := by decide
        have cut : clockEnd = 2 ^ 62 := rfl
        omega
      simp only [Host.serve, positive, fits, and_self, if_true, Option.map_some]

theorem set_in_touch (connected : Connected keys r) {key value : Bytes} {ttl : Option Duration}
    (small : now < clockEnd) (talk : Talk now h line h' (r.set line key value ttl).2.2) :
    (r.set line key value ttl).1 = .done ∧ Connected keys (r.set line key value ttl).2.1 ∧
      h' = h.become now (h.entries.put key (hostTerm now value ttl)) := by
  rw [line_set] at talk
  obtain ⟨reply, rest⟩ := talk.served (Call.ofCommand?_set key value ttl) nofun (.refl _)
  rw [serve_set h (Nat.le_of_lt small)] at reply rest
  have read : (line.ask (setCommand key value ttl)).1.interpret Reply.anything? = .ok () := by
    rw [reply]
    exact Reply.interpret_done "OK"
  simp only [set, Line.query, read]
  exact ⟨trivial, connected.count _, rest.silent⟩

theorem contains_in_touch (connected : Connected keys r) {key : Bytes}
    (talk : Talk now h line h' (r.contains line key).2.2) :
    (r.contains line key).1 = .present (h.entries.live now key).isSome ∧
      Connected keys (r.contains line key).2.1 ∧ h' = h := by
  rw [line_contains] at talk
  obtain ⟨reply, rest⟩ := talk.served (Call.ofCommand?_contains key) nofun (.refl _)
  have read : (line.ask (.onKey "EXISTS" key)).1.interpret Reply.signed? =
      .ok (if (h.entries.live now key).isSome then 1 else 0) := by
    rw [reply]
    exact Reply.interpret_integer _
  simp only [contains, Line.query, read]
  refine ⟨?_, connected, rest.silent⟩
  cases h.entries.live now key with
  | none => rfl
  | some value => rfl

/-- The reply to a removal, and what is left. -/
theorem removed {key : Bytes} (talk : Talk now h line h' (line.ask (.onKey "DEL" key)).2) :
    (line.ask (.onKey "DEL" key)).1.interpret Reply.signed? =
        .ok (if (h.entries.live now key).isSome then 1 else 0) ∧
      h' = h.become now (h.entries.drop key) := by
  obtain ⟨reply, rest⟩ := talk.served (Call.ofCommand?_delete key) nofun (.refl _)
  rw [reply]
  exact ⟨Reply.interpret_integer _, rest.silent⟩

theorem delete_in_touch (connected : Connected keys r) {key : Bytes}
    (talk : Talk now h line h' (r.delete line key).2.2) :
    (r.delete line key).1 = .done ∧ Connected keys (r.delete line key).2.1 ∧
      h' = h.become now (h.entries.drop key) := by
  rw [line_delete] at talk
  obtain ⟨read, gone⟩ := removed talk
  simp only [delete, Line.query, read]
  refine ⟨trivial, ?_, gone⟩
  split
  next => exact connected.count _
  next => exact connected

/-- A value that is taken was live, and its key is gone. -/
theorem take_in_touch (connected : Connected keys r) {key : Bytes}
    (talk : Talk now h line h' (r.take line key).2.2) :
    (r.take line key).1 = .value (h.entries.live now key) ∧
      Connected keys (r.take line key).2.1 ∧
      h' = if (h.entries.live now key).isSome then h.become now (h.entries.drop key) else h := by
  obtain ⟨fetched, rest⟩ := fetch_in_touch talk (grows_take r line key)
  cases live : h.entries.live now key with
  | none =>
      simp only [take, fetched, live] at rest ⊢
      exact ⟨trivial, connected.count _, rest.silent⟩
  | some value =>
      -- The value is handed out only once the host has acknowledged the removal.
      simp only [line_take, fetched, live] at rest
      obtain ⟨read, gone⟩ := removed rest
      simp only [take, fetched, live, Line.query, read]
      exact ⟨trivial, (connected.count _).count _, gone⟩

/-- A request and the host's ledger. From now on the ledger shows what it should. -/
theorem request_in_touch (connected : Connected keys r) {now : Instant} (q : Request)
    (started : 0 < now.hostMillis) (small : now.hostMillis < clockEnd)
    (talk : Talk now.hostMillis h line h' (request (r, line) q).2.2) :
    (request (r, line) q).1 = h.ledger.answer (regime keys) now q ∧
      Connected keys (request (r, line) q).2.1 ∧
      Set.EqOn h'.ledger.live (h.ledger.serve (regime keys) now q).live
        (Set.Ico now.hostMillis clockEnd) := by
  obtain ⟨mode, opened⟩ := connected.open_
  simp only [request, opened, rawKey, connected.keys] at talk ⊢
  cases q with
  | set ns key value ttl =>
      obtain ⟨answer, kept, rfl⟩ := set_in_touch connected small talk
      refine ⟨answer, kept, ?_⟩
      intro t member
      funext other
      rw [Host.ledger_put, Ledger.serve, Ledger.live_put, Ledger.live_put,
        live_hostTerm keys started value ttl member.2]
      rfl
  | get ns key =>
      obtain ⟨answer, kept, rfl⟩ := get_in_touch connected talk
      exact ⟨answer, kept, Set.eqOn_refl _ _⟩
  | take ns key =>
      obtain ⟨answer, kept, rfl⟩ := take_in_touch connected talk
      refine ⟨answer, kept, ?_⟩
      split
      next =>
        rw [Host.ledger_drop]
        exact Set.eqOn_refl _ _
      next absent =>
        -- Nothing was removed, as nothing was live.
        have dead : h.ledger.live now.hostMillis (keys.compose ns key) = none :=
          Option.not_isSome_iff_eq_none.1 absent
        exact ((Ledger.eqOn_drop dead).mono Set.Ico_subset_Ici_self).symm
  | contains ns key =>
      obtain ⟨answer, kept, rfl⟩ := contains_in_touch connected talk
      exact ⟨answer, kept, Set.eqOn_refl _ _⟩
  | delete ns key =>
      obtain ⟨answer, kept, rfl⟩ := delete_in_touch connected talk
      refine ⟨answer, kept, ?_⟩
      rw [Host.ledger_drop]
      exact Set.eqOn_refl _ _

end Remote

end ExpiringCache
