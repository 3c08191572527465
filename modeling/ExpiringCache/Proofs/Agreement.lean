import ExpiringCache.Proofs.Embedded.Tally
import ExpiringCache.Proofs.Memory.Run

/-!
# Memory caches and embedded caches agree

The two engines keep deadlines on different clocks: one on instants, with no
deadline where an instant is out of range, the other on milliseconds of 64 bits,
with the last one where a deadline is out of range. Where the clock and the times
to live are whole milliseconds nobody can tell (`Twins.agree_throughout`).
-/

namespace ExpiringCache

/-! ## Whole milliseconds -/

theorem nanosPerMilli_pos : 0 < nanosPerMilli := by decide

/-- A clock reading that is a whole number of milliseconds of 63 bits. -/
def Instant.WholeMillis (t : Instant) : Prop := ∃ ms < 2 ^ 63, t.nanos = ms * nanosPerMilli

namespace Instant

theorem toNat_of_whole {t : Instant} {ms : Nat} (bound : ms < 2 ^ 63)
    (whole : t.nanos = ms * nanosPerMilli) : t.unixMillis.toNat = ms := by
  have quotient : t.nanos / nanosPerMilli = ms := by
    rw [whole]
    exact Nat.mul_div_cancel ms nanosPerMilli_pos
  have fits : ms < UInt64.size := Nat.lt_trans bound (by decide)
  rw [toNat_unixMillis (by rw [quotient]; exact fits), quotient]

namespace WholeMillis

theorem nanos_eq {t : Instant} (whole : t.WholeMillis) :
    t.nanos = t.unixMillis.toNat * nanosPerMilli := by
  obtain ⟨ms, bound, whole⟩ := whole
  rw [toNat_of_whole bound whole, whole]

theorem toNat_lt {t : Instant} (whole : t.WholeMillis) : t.unixMillis.toNat < 2 ^ 63 := by
  obtain ⟨ms, bound, whole⟩ := whole
  rw [toNat_of_whole bound whole]
  exact bound

/-- Whole milliseconds are in the order of the readings. -/
theorem mono {t u : Instant} (first : t.WholeMillis) (second : u.WholeMillis)
    (order : t.nanos ≤ u.nanos) : t.unixMillis.toNat ≤ u.unixMillis.toNat := by
  rw [first.nanos_eq, second.nanos_eq] at order
  exact Nat.le_of_mul_le_mul_right order nanosPerMilli_pos

end WholeMillis

end Instant

/-- An entry that is set at a whole millisecond to live for whole milliseconds
lives equally long in both engines. -/
theorem live_term_congr (keys : Keys) {now : Instant} (whole : now.WholeMillis) (value : Bytes)
    {ttl : Option Duration} (wholeTtl : ∀ d, ttl = some d → nanosPerMilli ∣ d.nanos) {ms : Nat}
    (bound : ms < 2 ^ 63) :
    ((Memory.regime keys).term now value ttl).live (ms * nanosPerMilli) =
      ((Embedded.regime keys).term now value ttl).live ms := by
  obtain ⟨start, startBound, startWhole⟩ := whole
  have reading := Instant.toNat_of_whole startBound startWhole
  rw [Regime.term_eq, Regime.term_eq]
  cases limited : limit? ttl with
  | none => rfl
  | some d =>
      obtain ⟨rfl, nonzero⟩ := Option.filter_eq_some_iff.1 limited
      obtain ⟨span, spanWhole⟩ := wholeTtl d rfl
      have positive : 0 < span := by
        rcases Nat.eq_zero_or_pos span with zero | positive
        · simp [spanWhole, zero] at nonzero
        · exact positive
      have millis : d.millis = span := by
        rw [Duration.millis, spanWhole]
        exact Nat.mul_div_cancel_left span nanosPerMilli_pos
      have sum : now.nanos + d.nanos = (start + span) * nanosPerMilli := by
        rw [startWhole, spanWhole, Nat.add_mul, Nat.mul_comm span]
      have range : UInt64.size / 2 * nanosPerSecond = 2 ^ 63 * 1000 * nanosPerMilli := by decide
      have embedded : ms < min (start + max 1 span) (UInt64.size - 1) ↔ ms < start + span := by
        have size : UInt64.size = 2 ^ 64 := rfl
        omega
      simp only [Memory.regime, Embedded.regime, Option.bind_some, reading, millis, sum, range,
        Nat.mul_lt_mul_right nanosPerMilli_pos]
      split
      next => simp only [Term.live, embedded, Nat.mul_lt_mul_right nanosPerMilli_pos]
      next beyond =>
        -- Beyond the range of instants is beyond all milliseconds of 63 bits.
        have early : ms < start + span := by omega
        simp only [Term.live, embedded, early, if_true]

/-! ## Twins -/

/-- What a run of both engines has to keep to: nobody calls back or breaks a
traversal off, no cache is closed, and all times are whole milliseconds. -/
structure Event.InMillis (now : Instant) (e : Event) : Prop where
  quiet : e.Quiet
  tireless : e.Tireless
  open_ : e ≠ .close
  lives : ∀ ns key value d, e = .request (.set ns key value (some d)) → nanosPerMilli ∣ d.nanos
  clock : (e.later now).WholeMillis

/-- A memory cache and an embedded cache that are used in the same way. -/
structure Twins where
  memory : Memory
  embedded : Embedded
  now : Instant

/-- The same event in both, with both outcomes. -/
def Twins.step (t : Twins) (e : Event) : (Outcome × Outcome) × Twins :=
  let (outcome, memory, now) := Memory.service.step (t.memory, t.now) e
  let (outcome', embedded, _) := Embedded.service.step (t.embedded, t.now) e
  ((outcome, outcome'), ⟨memory, embedded, now⟩)

/-- Outcomes that are the same but for the order in which entries are shown, which
is up to the memory cache and follows the octets of the keys in the embedded one,
and for the number of entries that a cleanup finds. -/
def Outcome.Matches (keys : Keys) : Event → Outcome → Outcome → Prop
  | .traverse ns _, .shown t, .shown t' =>
      t.seen.Perm t'.seen ∧
        (t'.seen.Pairwise fun a b =>
          Text.encode (keys.compose ns a.1) < Text.encode (keys.compose ns b.1)) ∧
        t.nested = t'.nested ∧ t.fault = none ∧ t'.fault = none
  | .cleanup, .removed _, .removed _ => True
  | _, o, o' => o = o'

/-- An event in which the two agree. -/
structure Twins.Agree (keys : Keys) (t : Twins) (e : Event) : Prop where
  outcomes : Outcome.Matches keys e (t.step e).1.1 (t.step e).1.2
  counters : SameReads (t.step e).2.memory.counters (t.step e).2.embedded.counters

namespace Twins

/-- From now on, as long as milliseconds have 63 bits, the two show the same live
entries, and they have counted the same. -/
structure Alike (keys : Keys) (t : Twins) : Prop where
  memory : t.memory.keys = keys
  embedded : Embedded.Open keys t.embedded
  clock : t.now.WholeMillis
  live : Set.EqOn (t.memory.ledger.live ∘ (· * nanosPerMilli)) t.embedded.ledger.live
    (Set.Ico t.now.unixMillis.toNat (2 ^ 63))
  counters : SameReads t.memory.counters t.embedded.counters

/-- What the two ledgers allow is the same. -/
theorem matches_of_allows {keys : Keys} {l l' : Ledger String} {now : Instant}
    (same : l.live now.nanos = l'.live now.unixMillis.toNat) {e : Event} (fair : e.InMillis now)
    {o o' : Outcome} (allowed : l.Allows (Memory.regime keys) now e o)
    (allowed' : l'.Allows (Embedded.regime keys) now e o') : Outcome.Matches keys e o o' := by
  cases e with
  | request q =>
      have sameKeys : (Memory.regime keys).keys = (Embedded.regime keys).keys := rfl
      rw [allowed, allowed', Ledger.answer_congr sameKeys same q]
      rfl
  | traverse ns visitor =>
      obtain ⟨listing, lists, rfl⟩ := allowed
      obtain ⟨listing', lists', rfl⟩ := allowed'
      rw [Visitor.upTo_of_tireless fair.tireless, Visitor.upTo_of_tireless fair.tireless]
      -- Neither listing has an entry twice, and they have the same entries.
      have distinct : listing.Nodup := lists.ordered.imp fun differ equal => differ (by rw [equal])
      have distinct' : listing'.Nodup := by
        apply lists'.ordered.imp
        intro a b below equal
        rw [equal] at below
        exact List.lt_irrefl _ below
      have members : ∀ entry, entry ∈ listing ↔ entry ∈ listing' := by
        rintro ⟨key, value⟩
        rw [lists.complete, lists'.complete]
        exact iff_of_eq (congrArg (fun found => found (keys.compose ns key) = some value) same)
      have perm := (List.perm_ext_iff_of_nodup distinct distinct').2 members
      exact ⟨perm, lists'.ordered, rfl, rfl, rfl⟩
  | cleanup =>
      obtain ⟨_, rfl⟩ := allowed
      obtain ⟨_, rfl⟩ := allowed'
      trivial
  | sweep | advance _ => exact allowed.trans allowed'.symm
  | close => exact absurd rfl fair.open_

theorem isHit_of_matches {keys : Keys} {e : Event} {o o' : Outcome}
    (same : Outcome.Matches keys e o o') : o.isHit = o'.isHit := by
  unfold Outcome.Matches at same
  split at same
  next => rfl
  next => rfl
  next => rw [same]

theorem isMiss_of_matches {keys : Keys} {e : Event} {o o' : Outcome}
    (same : Outcome.Matches keys e o o') : o.isMiss = o'.isMiss := by
  unfold Outcome.Matches at same
  split at same
  next => rfl
  next => rfl
  next => rw [same]

/-- Outcomes that match count alike. -/
theorem sameReads_of_matches {keys : Keys} {e : Event} {o o' : Outcome} {a a' b b' : Counters}
    (before : SameReads a b) (first : Tallied a a' e o) (second : Tallied b b' e o')
    (same : Outcome.Matches keys e o o') : SameReads a' b' where
  hits := by rw [first.hits, second.hits, before.hits, isHit_of_matches same]
  misses := by rw [first.misses, second.misses, before.misses, isMiss_of_matches same]
  sets := by rw [first.sets, second.sets, before.sets]

/-- Ledgers that are alike stay so, event by event. -/
theorem after_alike (keys : Keys) {l l' : Ledger String} {now : Instant} {times : Set Nat}
    (whole : now.WholeMillis) (small : ∀ ms ∈ times, ms < 2 ^ 63)
    (alike : Set.EqOn (l.live ∘ (· * nanosPerMilli)) l'.live times) {e : Event}
    (fair : e.InMillis now) :
    Set.EqOn ((l.after (Memory.regime keys) now e).live ∘ (· * nanosPerMilli))
      (l'.after (Embedded.regime keys) now e).live times := by
  cases e with
  | request q =>
      have sameKeys : (Memory.regime keys).keys = (Embedded.regime keys).keys := rfl
      apply Ledger.eqOn_serve _ sameKeys alike q
      intro ns key value ttl isSet ms member
      apply live_term_congr keys whole value ?_ (small ms member)
      intro d present
      exact fair.lives ns key value d (by rw [isSet, present])
  | close => exact absurd rfl fair.open_
  | traverse | cleanup | sweep | advance => exact alike

/-- One event. -/
theorem step_alike {keys : Keys} {t : Twins} (alike : t.Alike keys) {e : Event}
    (fair : e.InMillis t.now) : t.Agree keys e ∧ (t.step e).2.Alike keys := by
  have whole := alike.clock
  have forward := whole.mono fair.clock (e.nanos_le_later t.now)
  obtain ⟨allowed, sound, follows⟩ := (Memory.refines keys).step_held (t.memory, t.now) e
    alike.memory ⟨fair.quiet, fun _ => trivial, e.nanos_le_later t.now⟩
  obtain ⟨allowed', sound', follows'⟩ := (Embedded.refines keys).step_held (t.embedded, t.now) e
    alike.embedded ⟨fair.quiet, fair.open_, forward⟩
  -- Now is one of the times at which the two are alike.
  have present : t.memory.ledger.live t.now.nanos =
      t.embedded.ledger.live t.now.unixMillis.toNat := by
    rw [whole.nanos_eq]
    exact alike.live ⟨le_rfl, whole.toNat_lt⟩
  have outcomes := matches_of_allows present fair allowed allowed'
  have counters := sameReads_of_matches alike.counters
    (Memory.step_tallied (t.memory, t.now) e fair.quiet)
    (Embedded.step_tallied (t.embedded, t.now) e alike.embedded fair.quiet) outcomes
  have clock : (t.step e).2.now = e.later t.now := Memory.service.step_clock (t.memory, t.now) e
  refine ⟨⟨outcomes, counters⟩, sound, sound', clock ▸ fair.clock, ?_, counters⟩
  rw [clock]
  intro ms member
  have due : (e.later t.now).nanos ≤ ms * nanosPerMilli := by
    rw [fair.clock.nanos_eq]
    exact Nat.mul_le_mul_right _ member.1
  have kept := after_alike keys whole (fun _ member => member.2) alike.live fair
  calc (t.step e).2.memory.ledger.live (ms * nanosPerMilli)
    _ = (t.memory.ledger.after (Memory.regime keys) t.now e).live (ms * nanosPerMilli) :=
        follows due
    _ = (t.embedded.ledger.after (Embedded.regime keys) t.now e).live ms :=
        kept ⟨forward.trans member.1, member.2⟩
    _ = (t.step e).2.embedded.ledger.live ms := (follows' member.1).symm

theorem throughout {keys : Keys} {t : Twins} (alike : t.Alike keys) {events : List Event}
    (fair : Throughout Event.later Event.InMillis t.now events) :
    Throughout (fun t e => (t.step e).2) (Agree keys) t events := by
  induction events generalizing t with
  | nil => trivial
  | cons e rest ih =>
      obtain ⟨agree, after⟩ := step_alike alike fair.1
      have clock : (t.step e).2.now = e.later t.now :=
        Memory.service.step_clock (t.memory, t.now) e
      exact ⟨agree, ih after (by rw [clock]; exact fair.2)⟩

/-- A memory cache that starts empty and an embedded cache on an empty store, each
with a sweep setting of its own, agree in every event of every run, and have
counted the same after each. -/
theorem agree_throughout (keys : Keys) (sweepSeconds sweepSeconds' : Nat) {now : Instant}
    (whole : now.WholeMillis) (events : List Event)
    (fair : Throughout Event.later Event.InMillis now events) :
    Throughout (fun t e => (t.step e).2) (Agree keys)
      ⟨.create keys sweepSeconds now, .create keys .empty sweepSeconds' now, now⟩ events := by
  have empty : (Memory.create keys sweepSeconds now).ledger = .empty := rfl
  have empty' : (Embedded.create keys .empty sweepSeconds' now).ledger = .empty := rfl
  have start : Alike keys
      ⟨.create keys sweepSeconds now, .create keys .empty sweepSeconds' now, now⟩ := by
    refine ⟨rfl, ⟨rfl, .empty, rfl, Store.sound_empty⟩, whole, ?_, .refl _⟩
    intro ms _
    rw [empty, empty', Function.comp_apply, Ledger.live_empty, Ledger.live_empty]
  exact throughout start fair

/-- An entry whose deadline no clock can show, one that expires, and one that does
not, with the sweeps of the two engines at different times. -/
theorem agree_throughout_sweeping :
    let events : List Event :=
      [.request (.set "ns" "long" [1] (some (.ofMillis (2 ^ 64 * 1000 - 1)))),
       .request (.set "ns" "short" [2] (some (.ofMillis 1500))),
       .request (.set "ns" "kept" [3] (some (.ofMillis 0))),
       .traverse "ns" .observer, .advance 2000000000, .request (.get "ns" "short"), .cleanup,
       .traverse "ns" .observer, .request (.take "ns" "kept"), .request (.contains "ns" "long")]
    Instant.WholeMillis ⟨1000000000⟩ ∧
      Throughout Event.later Event.InMillis ⟨1000000000⟩ events ∧
      Throughout (fun t e => (t.step e).2) (Agree .standard)
        ⟨.create .standard 1 ⟨1000000000⟩, .create .standard .empty 0 ⟨1000000000⟩,
          ⟨1000000000⟩⟩ events := by
  intro events
  have start : Instant.WholeMillis ⟨1000000000⟩ := ⟨1000, by decide, rfl⟩
  have later : Instant.WholeMillis ⟨3000000000⟩ := ⟨3000, by decide, rfl⟩
  have quiet : Visitor.observer.Quiet := fun _ _ _ => rfl
  have tireless : Visitor.observer.Tireless := fun _ _ _ => rfl
  have fair : Throughout Event.later Event.InMillis ⟨1000000000⟩ events := by
    refine ⟨⟨trivial, trivial, nofun, ?long, start⟩, ⟨trivial, trivial, nofun, ?short, start⟩,
      ⟨trivial, trivial, nofun, ?kept, start⟩, ⟨quiet, tireless, nofun, nofun, start⟩,
      ⟨trivial, trivial, nofun, nofun, later⟩, ⟨trivial, trivial, nofun, nofun, later⟩,
      ⟨trivial, trivial, nofun, nofun, later⟩, ⟨quiet, tireless, nofun, nofun, later⟩,
      ⟨trivial, trivial, nofun, nofun, later⟩, ⟨trivial, trivial, nofun, nofun, later⟩, trivial⟩
    case long | short | kept =>
      intro ns key value d same
      simp only [Event.request.injEq, Request.set.injEq, Option.some.injEq] at same
      rw [← same.2.2.2]
      decide +kernel
  exact ⟨start, fair, agree_throughout .standard 1 0 start events fair⟩

end Twins

end ExpiringCache
