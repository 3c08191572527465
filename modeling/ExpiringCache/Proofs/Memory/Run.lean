import ExpiringCache.Proofs.Memory.Contract
import ExpiringCache.Proofs.Tally

/-!
# Runs of memory caches

A memory cache serves every run like a ledger that forgets nothing, wherever in
the run its sweeps fall, and counts its reads and insertions right
(`run_kept_and_tallied`).
-/

namespace ExpiringCache

namespace Memory

/-! ## Counting -/

theorem request_tallied (now : Instant) (m : Memory) (q : Request) :
    Tallied m.counters (m.request now q).2.counters (.request q)
      (.answer (m.request now q).1) := by
  cases q with
  | set ns key value ttl => exact .set ..
  | get ns key =>
      simp only [request, get]
      split
      next => exact .miss (.refl _) rfl
      next e _ =>
        split
        next => exact .miss (.expire _ _) rfl
        next => exact .hit (.refl _) e.value rfl
  | take ns key =>
      simp only [request, take]
      split
      next => exact .miss (.refl _) rfl
      next e _ =>
        split
        next => exact .miss (.expire _ _) rfl
        next => exact .hit (.delete _) e.value rfl
  | contains ns key => exact .neither (.refl _) rfl rfl rfl
  | delete ns key =>
      simp only [request, delete]
      split
      next => exact .neither (.refl _) rfl rfl rfl
      next => exact .neither (.delete _) rfl rfl rfl

theorem sameReads_cleanup (now : Instant) (m : Memory) :
    SameReads m.counters (m.cleanup now).2.counters := .expire _ _

theorem step_tallied (s : Memory × Instant) (e : Event) (quiet : e.Quiet) :
    Tallied s.1.counters (service.step s e).2.1.counters e (service.step s e).1 := by
  obtain ⟨m, now⟩ := s
  cases e with
  | request q => exact m.request_tallied now q
  | traverse ns visitor =>
      have unchanged : service.iterate now m ns visitor = _ := visit_quiet now quiet 0 _ m
      simp only [Service.step, unchanged]
      exact .neither (.refl _) rfl rfl rfl
  | cleanup => exact .neither (m.sameReads_cleanup now) rfl rfl rfl
  | sweep =>
      simp only [Service.step, service]
      split
      next => exact .neither (m.sameReads_cleanup now) rfl rfl rfl
      next => exact .neither (.refl _) rfl rfl rfl
  | advance nanos =>
      simp only [Service.step, service, pass]
      split
      next =>
        split
        next => exact .neither (m.sameReads_cleanup _) rfl rfl rfl
        next => exact .neither (.refl _) rfl rfl rfl
      next => exact .neither (.refl _) rfl rfl rfl
  | close => exact .neither (.refl _) rfl rfl rfl

/-! ## Whole runs -/

/-- A new cache is in touch with an empty ledger. -/
theorem create_in_touch (keys : Keys) (sweepSeconds : Nat) (now : Instant) :
    Service.Refines.InTouch (regime keys) ledger (·.keys = keys)
      (create keys sweepSeconds now, now) (.empty, now) where
  sound := rfl
  clock := rfl
  alike := Set.eqOn_refl _ _

/-- Every run of a memory cache, with any delimiter and any sweep setting, has the
outcomes that an expiring map has, and its counters of reads and insertions are
the numbers of reads that found an entry, of reads that found none, and of
insertions. As a beginning of a run is a run, this holds after every event. -/
theorem run_kept_and_tallied (keys : Keys) (sweepSeconds : Nat) (now : Instant)
    (events : List Event) (quiet : ∀ e ∈ events, e.Quiet) :
    let run := trace service.step (create keys sweepSeconds now, now) events
    (regime keys).contract.Kept (.empty, now) events run.1 ∧
      run.2.1.counters.hits = .ofNat (run.1.countP Outcome.isHit) ∧
      run.2.1.counters.misses = .ofNat (run.1.countP Outcome.isMiss) ∧
      run.2.1.counters.sets = .ofNat (events.countP Event.isSet) := by
  intro run
  have fair : Throughout Event.later (Event.Fair (regime keys) True) now events :=
    .of_forall (fun e member now => ⟨quiet e member, fun _ => trivial, e.nanos_le_later now⟩) now
  have tally : TalliedRun .zero run.2.1.counters events run.1 :=
    Tallied.trace (s := (create keys sweepSeconds now, now)) (fun s => s.1.counters)
      (fun _ => True) (fun s e _ quiet => ⟨trivial, step_tallied s e quiet⟩) quiet trivial
  refine ⟨(refines keys).kept (create_in_touch keys sweepSeconds now) fair, ?_, ?_, ?_⟩
  · exact tally.hits.trans (zero_add _)
  · exact tally.misses.trans (zero_add _)
  · exact tally.sets.trans (zero_add _)

/-- An entry that a sweep drops, and one that outlives the sweep and is taken. -/
theorem run_kept_and_tallied_sweep :
    let events : List Event :=
      [.request (.set "ns" "short" [1] (some (.ofMillis 5))),
       .request (.set "ns" "long" [2] (some (.ofMillis 5000))),
       .advance 1000000000, .request (.get "ns" "short"), .traverse "ns" .observer, .sweep,
       .request (.take "ns" "long"), .close]
    (∀ e ∈ events, e.Quiet) ∧
      let run := trace service.step (create .standard 1 ⟨0⟩, ⟨0⟩) events
      (regime .standard).contract.Kept (.empty, ⟨0⟩) events run.1 ∧
        run.2.1.counters.hits = .ofNat (run.1.countP Outcome.isHit) ∧
        run.2.1.counters.misses = .ofNat (run.1.countP Outcome.isMiss) ∧
        run.2.1.counters.sets = .ofNat (events.countP Event.isSet) := by
  intro events
  have quiet : ∀ e ∈ events, e.Quiet := by
    simp [events, Event.Quiet, Visitor.Quiet, Visitor.observer, Visitor.quiet]
  exact ⟨quiet, run_kept_and_tallied .standard 1 ⟨0⟩ events quiet⟩

end Memory

end ExpiringCache
