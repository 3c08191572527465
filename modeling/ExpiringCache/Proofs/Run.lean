import ExpiringCache.Counters
import ExpiringCache.Request
import Mathlib

/-!
# Runs

A cache is used by one event after the other: requests, traversals, cleanups,
background sweeps, the passing of time, and at last a close. `Service` collects
what an engine does at each of them, `trace` carries out a list of events, and a
`Contract` says which outcomes are right, in view of what it keeps on record.

`Contract.kept_trace` is the induction that every statement about whole runs
rests on: if each step of a service is right and keeps it in touch with the
record, then so is every run.
-/

namespace ExpiringCache

/-! ## Events -/

/-- What happens to a cache. -/
inductive Event
  | request (q : Request)
  | traverse (ns : String) (visitor : Visitor)
  /-- Expired entries are dropped on demand. -/
  | cleanup
  /-- The background sweep runs, if there is one, be it due or not. -/
  | sweep
  /-- The clock moves on by some nanoseconds. -/
  | advance (nanos : Nat)
  | close

/-- What comes back from an event. -/
inductive Outcome
  | answer (a : Answer)
  | shown (t : Traversal)
  | removed (count : Nat)
  | silent

/-- A visitor that sends no requests to the cache. -/
def Visitor.Quiet (v : Visitor) : Prop := ∀ n key value, v.requests n key value = []

/-- A visitor that never asks to stop. -/
def Visitor.Tireless (v : Visitor) : Prop := ∀ n key value, v.goesOn n key value = true

namespace Event

/-- The clock after an event. -/
def later (now : Instant) : Event → Instant
  | advance nanos => ⟨now.nanos + nanos⟩
  | _ => now

/-- Nobody calls back into the cache. -/
def Quiet : Event → Prop
  | traverse _ visitor => visitor.Quiet
  | _ => True

/-- Nobody breaks a traversal off. -/
def Tireless : Event → Prop
  | traverse _ visitor => visitor.Tireless
  | _ => True

/-- Whether an event sets an entry. -/
def isSet : Event → Bool
  | request (.set ..) => true
  | _ => false

theorem nanos_le_later (now : Instant) (e : Event) : now.nanos ≤ (e.later now).nanos := by
  cases e <;> simp [later]

end Event

namespace Outcome

/-- Whether a read found a live entry. -/
def isHit : Outcome → Bool
  | answer (.value found) => found.isSome
  | _ => false

/-- Whether a read found no live entry. -/
def isMiss : Outcome → Bool
  | answer (.value found) => found.isNone
  | _ => false

end Outcome

/-! ## Services -/

/-- What an engine does with a state of type `σ`. -/
structure Service (σ : Type) where
  request : Instant → σ → Request → Answer × σ
  iterate : Instant → σ → String → Visitor → Traversal × σ
  cleanup : Instant → σ → Nat × σ
  sweep : Instant → σ → σ
  pass : Instant → Instant → σ → σ
  close : σ → σ

/-- One event in the life of a cache. The clock goes along with the cache. -/
def Service.step {σ : Type} (service : Service σ) (s : σ × Instant) :
    Event → Outcome × σ × Instant
  | .request q =>
      let (answer, state) := service.request s.2 s.1 q
      (.answer answer, state, s.2)
  | .traverse ns visitor =>
      let (shown, state) := service.iterate s.2 s.1 ns visitor
      (.shown shown, state, s.2)
  | .cleanup =>
      let (removed, state) := service.cleanup s.2 s.1
      (.removed removed, state, s.2)
  | .sweep => (.silent, service.sweep s.2 s.1, s.2)
  | .advance nanos =>
      let later := (Event.advance nanos).later s.2
      (.silent, service.pass s.2 later s.1, later)
  | .close => (.answer .done, service.close s.1, s.2)

theorem Service.step_clock {σ : Type} (service : Service σ) (s : σ × Instant) (e : Event) :
    (service.step s e).2.2 = e.later s.2 := by
  cases e <;> rfl

/-- What the requests that read an entry are told of it. -/
structure Service.Tells {σ : Type} (service : Service σ) (now : Instant) (s : σ) (ns key : String)
    (found : Option Bytes) : Prop where
  get : (service.request now s (.get ns key)).1 = .value found
  take : (service.request now s (.take ns key)).1 = .value found
  contains : (service.request now s (.contains ns key)).1 = .present found.isSome

theorem Service.Tells.unique {σ : Type} {service : Service σ} {now : Instant} {s : σ}
    {ns key : String} {found found' : Option Bytes} (tells : service.Tells now s ns key found)
    (tells' : service.Tells now s ns key found') : found = found' :=
  Answer.value.inj (tells.get.symm.trans tells'.get)

/-! ## Traces -/

variable {σ ρ ε ω : Type}

/-- Carries out events one after the other. -/
def trace (step : σ → ε → ω × σ) : σ → List ε → List ω × σ
  | s, [] => ([], s)
  | s, e :: rest =>
      let (outcome, s) := step s e
      let (outcomes, s) := trace step s rest
      (outcome :: outcomes, s)

/-- Every event of a run meets a condition on what is on record when it comes. -/
def Throughout (next : ρ → ε → ρ) (Meets : ρ → ε → Prop) : ρ → List ε → Prop
  | _, [] => True
  | r, e :: rest => Meets r e ∧ Throughout next Meets (next r e) rest

theorem Throughout.of_forall {next : ρ → ε → ρ} {Meets : ρ → ε → Prop} {events : List ε}
    (meets : ∀ e ∈ events, ∀ r, Meets r e) (r : ρ) : Throughout next Meets r events := by
  induction events generalizing r with
  | nil => trivial
  | cons e rest ih =>
      exact ⟨meets e List.mem_cons_self r, ih (fun d later => meets d (.tail _ later)) _⟩

/-- A condition on a part of the record, which follows its own course. -/
theorem Throughout.lift {ρ' : Type} {next : ρ → ε → ρ} {next' : ρ' → ε → ρ'} {part : ρ → ρ'}
    {Meets : ρ' → ε → Prop} (course : ∀ r e, part (next r e) = next' (part r) e)
    {events : List ε} {r : ρ} (met : Throughout next' Meets (part r) events) :
    Throughout next (fun r e => Meets (part r) e) r events := by
  induction events generalizing r with
  | nil => trivial
  | cons e rest ih => exact ⟨met.1, ih (by rw [course]; exact met.2)⟩

/-! ## Contracts -/

/-- What is right. -/
structure Contract (ρ ε ω : Type) where
  /-- The outcomes that are right for an event, in view of the record. -/
  Allows : ρ → ε → ω → Prop
  /-- The record after an event. -/
  next : ρ → ε → ρ

namespace Contract

/-- Every event of a run has an outcome, and a right one. -/
def Kept (c : Contract ρ ε ω) : ρ → List ε → List ω → Prop
  | _, [], [] => True
  | r, e :: events, o :: outcomes => c.Allows r e o ∧ c.Kept (c.next r e) events outcomes
  | _, _, _ => False

/-- A service that is right at each step, and stays in touch with the record, is
right in every run. -/
theorem kept_trace (c : Contract ρ ε ω) {step : σ → ε → ω × σ} {InTouch : σ → ρ → Prop}
    {Meets : ρ → ε → Prop}
    (right : ∀ s r e, InTouch s r → Meets r e →
      c.Allows r e (step s e).1 ∧ InTouch (step s e).2 (c.next r e))
    {events : List ε} {s : σ} {r : ρ} (start : InTouch s r)
    (met : Throughout c.next Meets r events) :
    c.Kept r events (trace step s events).1 ∧
      InTouch (trace step s events).2 (events.foldl c.next r) := by
  -- Along the events, with the record as the state of the specification.
  induction events generalizing s r with
  | nil => exact ⟨trivial, start⟩
  | cons e rest ih =>
      obtain ⟨allowed, touch⟩ := right s r e start met.1
      obtain ⟨kept, final⟩ := ih touch met.2
      exact ⟨⟨allowed, kept⟩, final⟩

end Contract

end ExpiringCache
