import ExpiringCache.Proofs.Run

/-!
# Counting reads and insertions

Three of the counters can be read off the outcomes of a run: each read that finds
an entry is a hit, each one that finds none a miss, and each insertion a set. An
engine for which this is so at every step counts right over every run
(`Tallied.trace`). The counters wrap around, and so does the number that they are
compared with.
-/

namespace ExpiringCache

/-- How one event changes the counters of reads and insertions. -/
structure Tallied (before after : Counters) (e : Event) (o : Outcome) : Prop where
  hits : after.hits = before.hits + if o.isHit then 1 else 0
  misses : after.misses = before.misses + if o.isMiss then 1 else 0
  sets : after.sets = before.sets + if e.isSet then 1 else 0

/-- Counters that agree on reads and insertions. -/
structure SameReads (before after : Counters) : Prop where
  hits : after.hits = before.hits
  misses : after.misses = before.misses
  sets : after.sets = before.sets

namespace SameReads

theorem refl (c : Counters) : SameReads c c := ⟨rfl, rfl, rfl⟩

theorem trans {a b c : Counters} (first : SameReads a b) (second : SameReads b c) :
    SameReads a c :=
  ⟨second.hits.trans first.hits, second.misses.trans first.misses,
    second.sets.trans first.sets⟩

theorem expire (c : Counters) (n : UInt64) : SameReads c (c.expire n) := ⟨rfl, rfl, rfl⟩

theorem delete (c : Counters) : SameReads c c.delete := ⟨rfl, rfl, rfl⟩

end SameReads

namespace Tallied

variable {before after : Counters} {e : Event}

theorem hit (same : SameReads before after) (value : Bytes) (other : e.isSet = false) :
    Tallied before after.hit e (.answer (.value (some value))) where
  hits := by simp [Counters.hit, Outcome.isHit, same.hits]
  misses := by simp [Counters.hit, Outcome.isMiss, same.misses]
  sets := by simp [Counters.hit, other, same.sets]

theorem miss (same : SameReads before after) (other : e.isSet = false) :
    Tallied before after.miss e (.answer (.value none)) where
  hits := by simp [Counters.miss, Outcome.isHit, same.hits]
  misses := by simp [Counters.miss, Outcome.isMiss, same.misses]
  sets := by simp [Counters.miss, other, same.sets]

theorem set (c : Counters) (ns key : String) (value : Bytes) (ttl : Option Duration) :
    Tallied c c.set (.request (.set ns key value ttl)) (.answer .done) where
  hits := by simp [Counters.set, Outcome.isHit]
  misses := by simp [Counters.set, Outcome.isMiss]
  sets := by simp [Counters.set, Event.isSet]

/-- A read, given by what it finds. -/
theorem read (same : SameReads before after) {found : Option Bytes} {yes : Bool}
    (agrees : found.isSome = yes) (other : e.isSet = false) :
    Tallied before (after.read yes) e (.answer (.value found)) := by
  subst agrees
  cases found with
  | none => exact .miss same other
  | some value => exact .hit same value other

/-- An event that is no read and no insertion. -/
theorem neither {o : Outcome} (same : SameReads before after) (other : e.isSet = false)
    (hit : o.isHit = false) (miss : o.isMiss = false) : Tallied before after e o where
  hits := by simp [hit, same.hits]
  misses := by simp [miss, same.misses]
  sets := by simp [other, same.sets]

end Tallied

/-- How a run changes the counters of reads and insertions. -/
structure TalliedRun (before after : Counters) (events : List Event) (outcomes : List Outcome) :
    Prop where
  hits : after.hits = before.hits + .ofNat (outcomes.countP Outcome.isHit)
  misses : after.misses = before.misses + .ofNat (outcomes.countP Outcome.isMiss)
  sets : after.sets = before.sets + .ofNat (events.countP Event.isSet)

/-- One more event that counts or does not. -/
theorem count_cons {α : Type} (test : α → Bool) (a : α) (rest : List α) (before between : UInt64)
    (first : between = before + if test a then 1 else 0) :
    between + .ofNat (rest.countP test) = before + .ofNat ((a :: rest).countP test) := by
  rw [first, List.countP_cons, UInt64.ofNat_add]
  cases test a <;> simp [add_assoc, add_comm]

theorem TalliedRun.nil (c : Counters) : TalliedRun c c [] [] :=
  ⟨(add_zero _).symm, (add_zero _).symm, (add_zero _).symm⟩

theorem TalliedRun.cons {before between after : Counters} {e : Event} {o : Outcome}
    {events : List Event} {outcomes : List Outcome} (first : Tallied before between e o)
    (rest : TalliedRun between after events outcomes) :
    TalliedRun before after (e :: events) (o :: outcomes) where
  hits := rest.hits.trans (count_cons _ _ _ _ _ first.hits)
  misses := rest.misses.trans (count_cons _ _ _ _ _ first.misses)
  sets := rest.sets.trans (count_cons _ _ _ _ _ first.sets)

variable {σ : Type}

theorem Tallied.trace {step : σ → Event → Outcome × σ} (counters : σ → Counters)
    (Sound : σ → Prop) {Meets : Event → Prop}
    (each : ∀ s e, Sound s → Meets e → Sound (step s e).2 ∧
      Tallied (counters s) (counters (step s e).2) e (step s e).1)
    {events : List Event} (meets : ∀ e ∈ events, Meets e) {s : σ} (sound : Sound s) :
    TalliedRun (counters s) (counters (ExpiringCache.trace step s events).2) events
      (ExpiringCache.trace step s events).1 := by
  induction events generalizing s with
  | nil => exact .nil _
  | cons e rest ih =>
      obtain ⟨kept, first⟩ := each s e sound (meets e List.mem_cons_self)
      exact .cons first (ih (fun d later => meets d (.tail _ later)) kept)

end ExpiringCache
