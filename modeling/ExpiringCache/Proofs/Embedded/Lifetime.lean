import ExpiringCache.Proofs.Embedded.Deadlines
import ExpiringCache.Proofs.Embedded.Walk

/-!
# How long a record can be read

Deadlines are milliseconds, and so is the clock that they are compared with: both the reading
at which a record is set and its time to live are cut down. What is lost is less than two
milliseconds, and never so much that a record is gone in the millisecond in which it is set.

A run may do to the cache what it likes, as long as it leaves the entry alone: the record
stays until its deadline and can be read until then, and not afterwards
(`Embedded.lifetime_window`).
-/

namespace ExpiringCache

/-! ## Times to live -/

theorem limit?_of_nonzero {d : Duration} (nonzero : d.nanos ≠ 0) : limit? (some d) = some d := by
  simp [limit?, Option.filter, nonzero]

theorem limit?_eq_none {ttl : Option Duration} (unlimited : ∀ d, ttl = some d → d.nanos = 0) :
    limit? ttl = none := by
  cases ttl with
  | none => rfl
  | some d => simp [limit?, Option.filter, unlimited d rfl]

namespace Record

variable {ttl : Option Duration} {d : Duration} {now later : UInt64}

theorem toNat_deadlineFor (nonzero : d.nanos ≠ 0) (now : UInt64) :
    (deadlineFor (some d) now).toNat =
      min (now.toNat + max 1 d.millis) (UInt64.size - 1) := by
  have size : UInt64.size = 18446744073709551616 := rfl
  rw [deadlineFor, limit?_of_nonzero nonzero, UInt64.toNat_ofNat_of_lt' (by omega)]

theorem deadlineFor_ne_zero (nonzero : d.nanos ≠ 0) (now : UInt64) :
    deadlineFor (some d) now ≠ 0 := by
  have size : UInt64.size = 18446744073709551616 := rfl
  have deadline := toNat_deadlineFor nonzero now
  intro zero
  rw [zero, UInt64.toNat_zero] at deadline
  omega

theorem deadlineFor_of_unlimited (unlimited : ∀ d, ttl = some d → d.nanos = 0) (now : UInt64) :
    deadlineFor ttl now = 0 := by
  rw [deadlineFor, limit?_eq_none unlimited]

theorem expired_make_iff (nonzero : d.nanos ≠ 0) (value : Bytes) (now later : UInt64) :
    (make value (some d) now).expired later = true ↔
      min (now.toNat + max 1 d.millis) (UInt64.size - 1) ≤ later.toNat := by
  rw [← toNat_deadlineFor nonzero, ← UInt64.le_iff_toNat_le, expired]
  simp only [make, ne_eq, deadlineFor_ne_zero nonzero, not_false_eq_true, decide_true,
    Bool.true_and]
  exact decide_eq_true_iff

/-- Before the last millisecond a record is past its deadline just if as many milliseconds
have gone by as the time to live has, and at least one. -/
theorem expired_make_iff_of_early (nonzero : d.nanos ≠ 0) (value : Bytes) {t u : Instant}
    (soon : t.Early) (early : u.Early) :
    (make value (some d) t.unixMillis).expired u.unixMillis = true ↔
      t.nanos / nanosPerMilli + max 1 (d.nanos / nanosPerMilli) ≤ u.nanos / nanosPerMilli := by
  rw [expired_make_iff nonzero, soon.toNat_unixMillis, early.toNat_unixMillis, Duration.millis]
  simp only [Instant.Early] at early
  omega

theorem not_expired_make (unlimited : ∀ d, ttl = some d → d.nanos = 0) (value : Bytes)
    (now later : UInt64) : (make value ttl now).expired later = false := by
  simp [expired, make, deadlineFor_of_unlimited unlimited]

end Record

/-! ## What becomes of a record -/

/-- An event that neither closes a cache nor binds or unbinds a key. -/
def Event.Spares (keys : Keys) (key : Bytes) : Event → Prop
  | .request q => (Move.serve q).target? keys ≠ some key
  | .traverse _ visitor =>
      ∀ n logical value, ∀ q ∈ visitor.requests n logical value,
        (Move.serve q).target? keys ≠ some key
  | .close => False
  | .cleanup | .sweep | .advance _ => True

namespace Store

variable {s : Store} {keys : Keys} {now : UInt64} {m : Move} {key raw : Bytes}

/-- A record stands, or it has expired and is gone. -/
def Stands (s : Store) (now : UInt64) (key raw : Bytes) : Prop :=
  s.find? key = some raw ∨ s.find? key = none ∧ Embedded.hasExpired now raw = true

theorem Stands.later {late : UInt64} (stands : s.Stands now key raw) (order : now ≤ late) :
    s.Stands late key raw :=
  stands.imp_right fun gone => ⟨gone.1, Embedded.hasExpired_mono order gone.2⟩

/-- Moves that leave a key alone let its record stand until it has expired. -/
theorem Stands.moved (stands : s.Stands now key raw) (tame : m.Gentle now ∨ m = .cleanup)
    (apart : m.target? keys ≠ some key) : (s.moved keys now m).Stands now key raw := by
  have unwritten (r : Bytes) : m.written? keys now ≠ some (key, r) := by
    intro written
    unfold Move.written? at written
    split at written
    next =>
      cases written
      exact apart rfl
    next => cases written
  cases after : (s.moved keys now m).find? key with
  | some r =>
      -- What is there now was there before.
      have before := (origin_moved after).resolve_right (unwritten r)
      rcases stands with there | ⟨gone, -⟩
      · exact .inl (after.trans (before.symm.trans there))
      · rw [gone] at before
        cases before
  | none =>
      refine .inr ⟨after, ?_⟩
      rcases stands with there | ⟨-, past⟩
      · by_contra unexpired
        have fresh : Embedded.hasExpired now raw = false := Bool.eq_false_iff.2 unexpired
        have still : (s.moved keys now m).find? key = some raw := by
          rcases tame with gentle | rfl
          · exact find?_moved gentle apart there fresh
          · simp [Store.moved, find?_keep, there, Option.filter, fresh]
        rw [after] at still
        cases still
      · exact past

end Store

namespace Embedded

variable {e : Embedded} {store : Store} {keys : Keys} {ns key : String} {composite raw : Bytes}
  {now : Instant} {visitor : Visitor} {event : Event} {m : Move}

/-- A traversal serves no requests but those of its visitor. -/
theorem sent_of_walk {n : Nat} {rows : List (Bytes × Bytes)} {q : Request}
    (made : .serve q ∈ walk keys now ns visitor n rows) :
    ∃ n logical value, q ∈ visitor.requests n logical value := by
  induction rows generalizing n with
  | nil => cases made
  | cons row rows ih =>
      cases reads keys now ns row with
      | short broken =>
          rw [walk_short broken] at made
          cases made
      | expired past hidden =>
          rw [walk_expired past] at made
          exact ih ((List.mem_cons.1 made).resolve_left nofun)
      | live logical value shown =>
          rw [walk_live shown] at made
          rcases List.mem_append.1 made with served | later
          · obtain ⟨q, sent, same⟩ := List.mem_map.1 served
            cases same
            exact ⟨_, _, _, sent⟩
          · split at later
            next => exact ih later
            next => cases later

/-- The moves of an event that spares a key do so, and reclaim nothing but expired records. -/
theorem tame_of_spares (spares : event.Spares e.keys composite) (made : m ∈ moves (e, now) event) :
    (m.Gentle (event.later now).unixMillis ∨ m = .cleanup) ∧
      m.target? e.keys ≠ some composite := by
  have untargeted : none ≠ some composite := (Option.some_ne_none composite).symm
  cases event with
  | request q =>
      obtain rfl := List.mem_singleton.1 made
      exact ⟨.inl trivial, spares⟩
  | traverse ns visitor =>
      simp only [moves] at made
      split at made
      next => cases made
      next =>
        have gentle := gentle_of_walk made
        refine ⟨.inl gentle, ?_⟩
        cases m with
        | serve q =>
            obtain ⟨n, logical, value, sent⟩ := sent_of_walk made
            exact spares n logical value q sent
        | reclaim => exact untargeted
        | cleanup | close => cases gentle
  | cleanup =>
      obtain rfl := List.mem_singleton.1 made
      exact ⟨.inr rfl, untargeted⟩
  | sweep | advance =>
      simp only [moves] at made
      split at made
      next =>
        obtain rfl := List.mem_singleton.1 made
        exact ⟨.inr rfl, untargeted⟩
      next => cases made
  | close => exact spares.elim

/-- An open cache, with the given keys, in which a record stands until it has expired. -/
structure Lasting (keys : Keys) (composite raw : Bytes) (s : Embedded × Instant) : Prop where
  keys : s.1.keys = keys
  stands : ∃ store, s.1.store = some store ∧ store.Stands s.2.unixMillis composite raw

variable {s : Embedded × Instant}

theorem Lasting.step (lasting : Lasting keys composite raw s) (spares : event.Spares keys composite)
    (forward : s.2.unixMillis ≤ (event.later s.2).unixMillis) :
    Lasting keys composite raw (service.step s event).2 := by
  obtain ⟨e, now⟩ := s
  obtain ⟨rfl, store, opened, stands⟩ := lasting
  -- Along the moves of the event, at the reading that it leaves.
  have kept : (service.step (e, now) event).2.1.keys = e.keys ∧
      ∃ store, (service.step (e, now) event).2.1.store = some store ∧
        store.Stands (event.later now).unixMillis composite raw := by
    refine breakdown.keeps (fun e' => e'.keys = e.keys ∧ ∃ store, e'.store = some store ∧
      store.Stands (event.later now).unixMillis composite raw) (s := (e, now))
      ⟨rfl, store, opened, stands.later forward⟩ ?_
    rintro e' ⟨same, store', opened', stands'⟩ move made
    obtain ⟨tame, apart⟩ := tame_of_spares spares made
    have open_ : move ≠ .close := by
      rcases tame with gentle | rfl
      · exact gentle.open_
      · nofun
    refine ⟨(e'.keys_act _ move).trans same, _, store_act opened' _ open_, ?_⟩
    rw [same]
    exact stands'.moved tame apart
  rw [← service.step_clock (e, now) event] at kept
  exact ⟨kept.1, kept.2⟩

theorem Lasting.run {events : List Event} (lasting : Lasting keys composite raw s)
    (spared : ∀ event ∈ events, event.Spares keys composite)
    (early : (trace service.step s events).2.2.Early) :
    Lasting keys composite raw (trace service.step s events).2 := by
  induction events generalizing s with
  | nil => exact lasting
  | cons event rest ih =>
      have order := nanos_le_trace service (service.step s event).2 rest
      rw [service.step_clock] at order
      have soon : (event.later s.2).Early := Instant.Early.of_le order early
      have forward : s.2.unixMillis ≤ (event.later s.2).unixMillis :=
        UInt64.le_iff_toNat_le.2
          (Instant.unixMillis_mono (event.nanos_le_later s.2) (Nat.lt_of_lt_pred soon))
      have first := lasting.step (spared event List.mem_cons_self) forward
      exact ih first (fun other member => spared other (.tail _ member)) early

/-! ## What is told of it -/

theorem tells_of_found {r : Record} (opened : e.store = some store)
    (found : store.find? (e.rawKey ns key) = some r.encode) (now : Instant) :
    service.Tells now e ns key (if r.expired now.unixMillis then none else some r.value) := by
  have read := Record.decode_encode r
  constructor
  all_goals
    cases past : r.expired now.unixMillis <;>
      simp [service, request, opened, get, take, contains, look, found, read, past]

theorem tells_of_absent (opened : e.store = some store)
    (absent : store.find? (e.rawKey ns key) = none) (now : Instant) :
    service.Tells now e ns key none := by
  constructor <;> simp [service, request, opened, get, take, contains, look, absent]

theorem Lasting.tells {r : Record}
    (lasting : Lasting keys (Text.encode (keys.compose ns key)) r.encode s) :
    service.Tells s.2 s.1 ns key (if r.expired s.2.unixMillis then none else some r.value) := by
  obtain ⟨e, now⟩ := s
  obtain ⟨rfl, store, opened, found | ⟨absent, past⟩⟩ := lasting
  · exact tells_of_found opened found now
  · rw [hasExpired_iff (Record.decode_encode r)] at past
    rw [past, if_pos rfl]
    exact tells_of_absent opened absent now

/-! ## From the setting of a record on -/

theorem store_set (opened : e.store = some store) (ns key : String) (value : Bytes)
    (ttl : Option Duration) (t : Instant) :
    (e.request t (.set ns key value ttl)).2.store =
      some (store.insert (e.rawKey ns key) (Record.make value ttl t.unixMillis).encode) := by
  simp only [request, opened, set]
  rfl

/-- A record that is set stands in the store. -/
theorem lasting_set (opened : e.store = some store) (ns key : String) (value : Bytes)
    (ttl : Option Duration) (t : Instant) :
    Lasting e.keys (e.rawKey ns key) (Record.make value ttl t.unixMillis).encode
      ((e.request t (.set ns key value ttl)).2, t) := by
  refine ⟨e.keys_act t (.serve (.set ns key value ttl)), _, store_set opened ns key value ttl t,
    .inl ?_⟩
  rw [Store.find?_insert, if_pos rfl]

/-- Take a record that is set at `t`, and any run of the cache from then on that leaves the
entry alone: it comes to the reading `u` before the last of all milliseconds.

With a nonzero time to live the deadline is a later millisecond than that of `t`, and the
record can be read at `t`. It cannot be read any more once the time to live has gone by, or a
millisecond if that is longer. It can be read up to two milliseconds before the time to live
has gone by, and at every reading if the whole milliseconds of `t` and of the time to live come
to the last millisecond.

Without a time to live, or with one of zero, there is no deadline, and the record can be
read at any time. -/
theorem lifetime_window (opened : e.store = some store) (ns key : String) (value : Bytes)
    (ttl : Option Duration) (t : Instant) {events : List Event}
    (spared : ∀ event ∈ events, event.Spares e.keys (e.rawKey ns key)) {later : Embedded}
    {u : Instant} (early : u.Early)
    (run : (trace service.step ((e.request t (.set ns key value ttl)).2, t) events).2 =
      (later, u)) :
    let deadline := Record.deadlineFor ttl t.unixMillis
    (e.request t (.set ns key value ttl)).2.store =
        some (store.insert (e.rawKey ns key) (Record.encode ⟨deadline, value⟩)) ∧
    (∀ d, ttl = some d → d.nanos ≠ 0 →
      deadline ≠ 0 ∧ t.nanos / nanosPerMilli < deadline.toNat ∧
      service.Tells t (e.request t (.set ns key value ttl)).2 ns key (some value) ∧
      (t.nanos + max d.nanos nanosPerMilli ≤ u.nanos → service.Tells u later ns key none) ∧
      (u.nanos + 2 * nanosPerMilli ≤ t.nanos + d.nanos →
        service.Tells u later ns key (some value)) ∧
      (UInt64.size - 1 ≤ t.nanos / nanosPerMilli + d.nanos / nanosPerMilli →
        service.Tells u later ns key (some value))) ∧
    ((∀ d, ttl = some d → d.nanos = 0) →
      deadline = 0 ∧ service.Tells u later ns key (some value)) := by
  intro deadline
  have set := lasting_set opened ns key value ttl t
  have order : t.nanos ≤ u.nanos := by
    have forward := nanos_le_trace service ((e.request t (.set ns key value ttl)).2, t) events
    rwa [run] at forward
  have soon : t.Early := .of_le order early
  have last := set.run spared (by rw [run]; exact early)
  rw [run] at last
  have told := last.tells
  have toldNow := set.tells
  refine ⟨store_set opened ns key value ttl t, ?limited, ?unlimited⟩
  case limited =>
    rintro d rfl nonzero
    have past (v : Instant) (fits : v.Early) :=
      Record.expired_make_iff_of_early nonzero value soon fits
    have live (fresh : ¬ t.nanos / nanosPerMilli + max 1 (d.nanos / nanosPerMilli) ≤
        u.nanos / nanosPerMilli) : service.Tells u later ns key (some value) := by
      rw [← past u early] at fresh
      rwa [if_neg fresh] at told
    have milli : nanosPerMilli = 1000000 := rfl
    simp only [milli] at past live ⊢
    have deadlined : t.unixMillis < deadline :=
      Record.lt_deadlineFor (by rw [soon.toNat_unixMillis]; exact soon)
        (Record.deadlineFor_ne_zero nonzero _)
    rw [UInt64.lt_iff_toNat_lt, soon.toNat_unixMillis, milli] at deadlined
    refine ⟨Record.deadlineFor_ne_zero nonzero _, deadlined, ?_, ?_, ?_, ?_⟩
    · rwa [if_neg (by rw [past t soon]; omega)] at toldNow
    · intro gone
      rwa [if_pos ((past u early).2 (by omega))] at told
    · intro ahead
      exact live (by omega)
    · intro saturated
      have range : u.nanos / 1000000 < UInt64.size - 1 := early
      exact live (by omega)
  case unlimited =>
    intro unlimited
    rw [Record.not_expired_make unlimited, if_neg Bool.false_ne_true] at told
    exact ⟨Record.deadlineFor_of_unlimited unlimited _, told⟩

/-- Three and a half milliseconds, from the last nanosecond of a millisecond on: two of them
before the end the record is read, and after the cache has been swept it is gone. -/
theorem lifetime_window_swept :
    let e : Embedded := .create .standard .empty 1 ⟨0⟩
    let set := (e.request ⟨1999999⟩ (.set "n" "a" [1] (some (.ofNanos 3500000)))).2
    let before : List Event :=
      [.traverse "n" .observer, .request (.set "n" "b" [2] none), .advance 1500000]
    let swept : List Event := before ++ [.cleanup, .advance 2000000000]
    let run (events : List Event) := (trace service.step (set, ⟨1999999⟩) events).2
    service.Tells ⟨1999999⟩ set "n" "a" (some [1]) ∧
      (∀ event ∈ swept, event.Spares e.keys (e.rawKey "n" "a")) ∧
      service.Tells (run before).2 (run before).1 "n" "a" (some [1]) ∧
      service.Tells (run swept).2 (run swept).1 "n" "a" none := by
  intro e set before swept run
  have spared : ∀ event ∈ swept, event.Spares e.keys (e.rawKey "n" "a") := by
    have other : (Move.serve (.set "n" "b" [2] none)).target? e.keys ≠ some (e.rawKey "n" "a") := by
      decide +kernel
    simp [swept, before, Event.Spares, other, Visitor.observer, Visitor.quiet]
  have clock (events : List Event) :
      (run events).2 = events.foldl (fun now event => event.later now) ⟨1999999⟩ :=
    clock_trace service (set, ⟨1999999⟩) events
  have now : (run before).2 = ⟨3499999⟩ := clock before
  have late : (run swept).2 = ⟨2003499999⟩ := clock swept
  have ran (events : List Event) : (trace service.step (set, ⟨1999999⟩) events).2 =
      ((run events).1, (run events).2) := rfl
  have window {events : List Event} (spared : ∀ event ∈ events, event.Spares e.keys
      (e.rawKey "n" "a")) (early : (run events).2.Early) :=
    lifetime_window (e := e) rfl "n" "a" [1] (some (.ofNanos 3500000)) ⟨1999999⟩ spared early
      (ran events)
  obtain ⟨-, -, told, -, fresh, -⟩ :=
    (window (fun event member => spared event (List.mem_append_left _ member))
      (by rw [now, Instant.Early]; decide)).2.1 _ rfl (by decide)
  obtain ⟨-, -, -, gone, -⟩ :=
    (window spared (by rw [late, Instant.Early]; decide)).2.1 _ rfl (by decide)
  exact ⟨told, spared, fresh (by rw [now]; decide), gone (by rw [late]; decide)⟩

end Embedded

end ExpiringCache
