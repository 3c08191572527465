import ExpiringCache.Keys
import ExpiringCache.Proofs.Run

/-!
# Ledgers

What a cache promises, said without any engine: a ledger binds composite keys to
values with deadlines. Setting an entry binds its key, deleting and taking it
unbind the key, and nothing else changes a ledger: an entry whose deadline has
come stays on it and is merely no longer live. Every answer is read off the live
entries.

The engines differ in the clock that deadlines are kept on, in the deadline that
a time to live comes to, and in the order of traversals. A `Regime` is such a
choice, and `Regime.contract` is the contract of an expiring map under it.

Ledgers that show the same live entries from now on cannot be told apart
(`allows_congr`, `eqOn_serve`). That is what relates an engine, which drops
expired entries at times of its own, to the ledger that drops none, and
`Refines.in_touch` carries it through every event.
-/

namespace ExpiringCache

/-- A value and the reading of a clock from which on it is no longer live. -/
structure Term where
  value : Bytes
  deadline : Option Nat

/-- The value, as long as it is live. -/
def Term.live (t : Term) (reading : Nat) : Option Bytes :=
  match t.deadline with
  | some deadline => if reading < deadline then some t.value else none
  | none => some t.value

theorem Term.live_none_of_le {t : Term} {early late : Nat} (order : early ≤ late)
    (dead : t.live early = none) : t.live late = none := by
  unfold live at dead ⊢
  cases limit : t.deadline with
  | none => simp [limit] at dead
  | some deadline =>
      simp only [limit, ite_eq_right_iff, reduceCtorEq, imp_false] at dead ⊢
      omega

/-- Terms by key. Caches have composite keys. -/
def Ledger (κ : Type) := κ → Option Term

/-- How the entries of an engine expire and are listed. -/
structure Regime where
  keys : Keys
  /-- The clock that deadlines are kept on. -/
  reading : Instant → Nat
  /-- The deadline of an entry that is set to live for a nonzero time. -/
  deadline? : Instant → Duration → Option Nat
  /-- How the composite keys of two entries are related if one is shown before
  the other. -/
  Precedes : String → String → Prop

/-- The term of an entry that is set. An absent or zero time to live means that
it never expires. -/
def Regime.term (g : Regime) (now : Instant) (value : Bytes) (ttl : Option Duration) : Term :=
  ⟨value, ttl.bind fun d => if d.nanos = 0 then none else g.deadline? now d⟩

theorem Regime.term_eq (g : Regime) (now : Instant) (value : Bytes) (ttl : Option Duration) :
    g.term now value ttl = ⟨value, (limit? ttl).bind (g.deadline? now)⟩ := by
  cases ttl with
  | none => rfl
  | some d => by_cases zero : d.nanos = 0 <;> simp [term, limit?, Option.filter, zero]

/-- The entries that a visitor sees, of those listed: all up to the first one at
which it asks to stop. `count` were shown before. -/
def Visitor.upTo (v : Visitor) : Nat → List (String × Bytes) → List (String × Bytes)
  | _, [] => []
  | count, (key, value) :: rest =>
      (key, value) :: if v.goesOn (count + 1) key value then v.upTo (count + 1) rest else []

theorem Visitor.upTo_of_tireless {v : Visitor} (tireless : v.Tireless) (count : Nat)
    (listing : List (String × Bytes)) : v.upTo count listing = listing := by
  induction listing generalizing count with
  | nil => rfl
  | cons head rest ih =>
      have goesOn := tireless (count + 1) head.1 head.2
      simp [upTo, goesOn, ih]

namespace Ledger

section Bindings

variable {κ : Type}

def empty : Ledger κ := fun _ => none

/-- The values that are live at a reading of the clock, by key. -/
def live (l : Ledger κ) (reading : Nat) (key : κ) : Option Bytes := (l key).bind (·.live reading)

@[simp] theorem live_empty (reading : Nat) : (empty : Ledger κ).live reading = fun _ => none := rfl

/-- An entry that is no longer live stays so. -/
theorem live_none_of_le {l : Ledger κ} {key : κ} {early late : Nat} (order : early ≤ late)
    (dead : l.live early key = none) : l.live late key = none := by
  cases found : l key with
  | none => simp [live, found]
  | some t =>
      simp only [live, found, Option.bind_some] at dead ⊢
      exact t.live_none_of_le order dead

variable [DecidableEq κ]

/-- Binds a key. -/
def put (l : Ledger κ) (key : κ) (t : Term) : Ledger κ :=
  fun other => if other = key then some t else l other

/-- Unbinds a key. -/
def drop (l : Ledger κ) (key : κ) : Ledger κ := fun other => if other = key then none else l other

@[simp] theorem live_put (l : Ledger κ) (key : κ) (t : Term) (reading : Nat) (other : κ) :
    (l.put key t).live reading other =
      if other = key then t.live reading else l.live reading other := by
  by_cases same : other = key <;> simp [live, put, same]

@[simp] theorem live_drop (l : Ledger κ) (key : κ) (reading : Nat) (other : κ) :
    (l.drop key).live reading other = if other = key then none else l.live reading other := by
  by_cases same : other = key <;> simp [live, drop, same]

/-- To drop an entry that is no longer live makes no difference from then on. -/
theorem eqOn_drop {l : Ledger κ} {key : κ} {reading : Nat} (dead : l.live reading key = none) :
    Set.EqOn (l.drop key).live l.live (Set.Ici reading) := by
  -- Only the key that is dropped could tell, and there nothing will be live again.
  intro t later
  funext other
  rw [live_drop]
  split
  next same => rw [same, live_none_of_le later dead]
  next => rfl

end Bindings

variable {g : Regime} {l l' : Ledger String}

/-! ## What is promised -/

/-- The answer to a request. -/
def answer (g : Regime) (now : Instant) (l : Ledger String) : Request → Answer
  | .get ns key | .take ns key => .value (l.live (g.reading now) (g.keys.compose ns key))
  | .contains ns key => .present (l.live (g.reading now) (g.keys.compose ns key)).isSome
  | .set .. | .delete .. => .done

/-- The ledger after a request. -/
def serve (g : Regime) (now : Instant) (l : Ledger String) : Request → Ledger String
  | .set ns key value ttl => l.put (g.keys.compose ns key) (g.term now value ttl)
  | .take ns key | .delete ns key => l.drop (g.keys.compose ns key)
  | .get .. | .contains .. => l

/-- The ledger after an event. A closed cache is empty. -/
def after (g : Regime) (now : Instant) (l : Ledger String) : Event → Ledger String
  | .request q => l.serve g now q
  | .close => empty
  | .traverse .. | .cleanup | .sweep | .advance _ => l

/-- A listing of the live entries of a namespace: each once, in order. -/
structure Lists (g : Regime) (now : Instant) (l : Ledger String) (ns : String)
    (listing : List (String × Bytes)) : Prop where
  complete : ∀ key value,
    (key, value) ∈ listing ↔ l.live (g.reading now) (g.keys.compose ns key) = some value
  ordered : listing.Pairwise fun a b =>
    g.Precedes (g.keys.compose ns a.1) (g.keys.compose ns b.1)

/-- The outcomes that an event may have. How many entries a cleanup finds depends
on what has been dropped before. -/
def Allows (g : Regime) (now : Instant) (l : Ledger String) : Event → Outcome → Prop
  | .request q, o => o = .answer (l.answer g now q)
  | .traverse ns visitor, o =>
      ∃ listing, l.Lists g now ns listing ∧ o = .shown { seen := visitor.upTo 0 listing }
  | .cleanup, o => ∃ count, o = .removed count
  | .sweep, o | .advance _, o => o = .silent
  | .close, o => o = .answer .done

end Ledger

/-- The contract of an expiring map. What is on record is a ledger and the clock. -/
def Regime.contract (g : Regime) : Contract (Ledger String × Instant) Event Outcome where
  Allows r e o := r.1.Allows g r.2 e o
  next r e := (r.1.after g r.2 e, e.later r.2)

/-! ## Ledgers that look alike -/

namespace Ledger

variable {g g' : Regime} {l l' : Ledger String} {now : Instant}

/-- The same request under two regimes. -/
theorem answer_congr (keys : g.keys = g'.keys)
    (alike : l.live (g.reading now) = l'.live (g'.reading now)) (q : Request) :
    l.answer g now q = l'.answer g' now q := by
  cases q <;> simp [answer, keys, alike]

theorem allows_congr (alike : l.live (g.reading now) = l'.live (g.reading now)) {e : Event}
    {o : Outcome} (allowed : l.Allows g now e o) : l'.Allows g now e o := by
  cases e with
  | request q => exact allowed.trans (by rw [answer_congr rfl alike])
  | traverse ns visitor =>
      obtain ⟨listing, lists, shown⟩ := allowed
      exact ⟨listing, ⟨by rw [← alike]; exact lists.complete, lists.ordered⟩, shown⟩
  | cleanup | sweep | advance _ | close => exact allowed

/-- The same request under two regimes. Their clocks may differ by a scale. -/
theorem eqOn_serve {times : Set Nat} (scale : Nat → Nat) (keys : g.keys = g'.keys)
    (alike : Set.EqOn (l.live ∘ scale) l'.live times) (q : Request)
    (terms : ∀ ns key value ttl, q = .set ns key value ttl → ∀ t ∈ times,
      (g.term now value ttl).live (scale t) = (g'.term now value ttl).live t) :
    Set.EqOn ((l.serve g now q).live ∘ scale) (l'.serve g' now q).live times := by
  intro t member
  have same : l.live (scale t) = l'.live t := alike member
  cases q with
  | set ns key value ttl =>
      funext other
      simp [serve, same, keys, terms ns key value ttl rfl t member]
  | take | delete =>
      funext other
      simp [serve, same, keys]
  | get | contains => exact same

theorem eqOn_after {times : Set Nat} (alike : Set.EqOn l.live l'.live times) (e : Event) :
    Set.EqOn (l.after g now e).live (l'.after g now e).live times := by
  cases e with
  | request q => exact eqOn_serve id rfl alike q fun _ _ _ _ _ _ _ => rfl
  | close => exact fun _ _ => rfl
  | traverse | cleanup | sweep | advance => exact alike

end Ledger

/-! ## Engines that keep the contract -/

/-- A service whose states hold ledgers, and behave like these from now on.
`closes` says whether it is any good after a close. -/
structure Service.Refines {σ : Type} (service : Service σ) (g : Regime) (held : σ → Ledger String)
    (Sound : σ → Prop) (closes : Prop) : Prop where
  request : ∀ now s q, Sound s →
    (service.request now s q).1 = (held s).answer g now q ∧
      Sound (service.request now s q).2 ∧
      Set.EqOn (held (service.request now s q).2).live ((held s).serve g now q).live
        (Set.Ici (g.reading now))
  iterate : ∀ now s ns visitor, Sound s → visitor.Quiet →
    (∃ listing, (held s).Lists g now ns listing ∧
      (service.iterate now s ns visitor).1 = { seen := visitor.upTo 0 listing }) ∧
      Sound (service.iterate now s ns visitor).2 ∧
      Set.EqOn (held (service.iterate now s ns visitor).2).live (held s).live
        (Set.Ici (g.reading now))
  cleanup : ∀ now s, Sound s → Sound (service.cleanup now s).2 ∧
    Set.EqOn (held (service.cleanup now s).2).live (held s).live (Set.Ici (g.reading now))
  sweep : ∀ now s, Sound s → Sound (service.sweep now s) ∧
    Set.EqOn (held (service.sweep now s)).live (held s).live (Set.Ici (g.reading now))
  pass : ∀ earlier later s, Sound s → Sound (service.pass earlier later s) ∧
    Set.EqOn (held (service.pass earlier later s)).live (held s).live
      (Set.Ici (g.reading later))
  close : closes → ∀ s, Sound s → Sound (service.close s) ∧ held (service.close s) = .empty

/-- What a run has to keep to: nobody calls back, a cache that is of no use after
a close is not closed, and the clock does not go back. -/
structure Event.Fair (g : Regime) (closes : Prop) (now : Instant) (e : Event) : Prop where
  quiet : e.Quiet
  open_ : e = .close → closes
  forward : g.reading now ≤ g.reading (e.later now)

namespace Service.Refines

variable {σ : Type} {service : Service σ} {g : Regime} {held : σ → Ledger String} {Sound : σ → Prop}
  {closes : Prop}

/-- What relates a state to the ledger on record: the clock is the same, and from
now on they show the same live entries. -/
structure InTouch (g : Regime) (held : σ → Ledger String) (Sound : σ → Prop) (s : σ × Instant)
    (r : Ledger String × Instant) : Prop where
  sound : Sound s.1
  clock : s.2 = r.2
  alike : Set.EqOn (held s.1).live r.1.live (Set.Ici (g.reading r.2))

/-- One event, against the ledger that the state itself holds. -/
theorem step_held (refines : service.Refines g held Sound closes) (s : σ × Instant) (e : Event)
    (sound : Sound s.1) (fair : e.Fair g closes s.2) :
    (held s.1).Allows g s.2 e (service.step s e).1 ∧ Sound (service.step s e).2.1 ∧
      Set.EqOn (held (service.step s e).2.1).live ((held s.1).after g s.2 e).live
        (Set.Ici (g.reading (e.later s.2))) := by
  obtain ⟨s, now⟩ := s
  cases e with
  | request q =>
      obtain ⟨answer, kept, alike⟩ := refines.request now s q sound
      exact ⟨congrArg Outcome.answer answer, kept, alike⟩
  | traverse ns visitor =>
      obtain ⟨⟨listing, lists, shown⟩, kept, alike⟩ :=
        refines.iterate now s ns visitor sound fair.quiet
      exact ⟨⟨listing, lists, congrArg Outcome.shown shown⟩, kept, alike⟩
  | cleanup => exact ⟨⟨_, rfl⟩, refines.cleanup now s sound⟩
  | sweep => exact ⟨rfl, refines.sweep now s sound⟩
  | advance nanos => exact ⟨rfl, refines.pass now _ s sound⟩
  | close =>
      obtain ⟨kept, empty⟩ := refines.close (fair.open_ rfl) s sound
      exact ⟨rfl, kept, by simp only [step, empty]; exact fun _ _ => rfl⟩

/-- One event, against a ledger on record. -/
theorem in_touch (refines : service.Refines g held Sound closes) (s : σ × Instant)
    (r : Ledger String × Instant) (e : Event) (touch : InTouch g held Sound s r)
    (fair : e.Fair g closes r.2) :
    g.contract.Allows r e (service.step s e).1 ∧
      InTouch g held Sound (service.step s e).2 (g.contract.next r e) := by
  obtain ⟨s, now⟩ := s
  obtain ⟨l, t⟩ := r
  obtain ⟨sound, rfl, alike⟩ := touch
  obtain ⟨allowed, kept, follows⟩ := refines.step_held (s, now) e sound fair
  -- What was alike at all later times is so at those after the event.
  have forward : Set.Ici (g.reading (e.later now)) ⊆ Set.Ici (g.reading now) :=
    Set.Ici_subset_Ici.2 fair.forward
  refine ⟨Ledger.allows_congr (alike Set.self_mem_Ici) allowed, kept,
    service.step_clock (s, now) e, ?_⟩
  exact follows.trans ((Ledger.eqOn_after alike e).mono forward)

/-- Every run of an engine keeps the contract. -/
theorem kept (refines : service.Refines g held Sound closes) {s : σ × Instant}
    {r : Ledger String × Instant} (start : InTouch g held Sound s r) {events : List Event}
    (fair : Throughout Event.later (Event.Fair g closes) r.2 events) :
    g.contract.Kept r events (trace service.step s events).1 :=
  (g.contract.kept_trace refines.in_touch start (fair.lift fun _ _ => rfl)).1

end Service.Refines

end ExpiringCache
