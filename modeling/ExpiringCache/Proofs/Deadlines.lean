import ExpiringCache.Proofs.Moves

/-!
# Deadlines and sweeps

A service with a background sweep holds entries that expire at given readings of the
clock. What is set expires later than it is set, and a sweep leaves nothing behind that
has expired (`Ageing`). So whatever a run does between two ticks, nothing is held that
had expired at the last tick (`Ageing.Swept.runs`), and nothing goes for a whole period
after its deadline (`Schedule.lt_of_outlives`). A service without a schedule is left
alone by time (`Ageing.idle`).
-/

namespace ExpiringCache

/-- An entry that outlives every tick there has been is held for less than a period
after its deadline, if it expires after the start, or once there has been a tick. -/
theorem Schedule.lt_of_outlives (schedule : Schedule) {now : Instant} {deadline : Nat}
    (outlives : ∀ n, 1 ≤ n → (schedule.tick n).nanos ≤ now.nanos →
      (schedule.tick n).nanos < deadline)
    (fresh : schedule.start.nanos ≤ deadline ∨ (schedule.tick 1).nanos ≤ now.nanos) :
    now.nanos < deadline + schedule.period * nanosPerSecond := by
  have pos := schedule.step_pos
  simp only [tick] at outlives fresh
  generalize schedule.period * nanosPerSecond = step at pos outlives fresh ⊢
  by_cases before : now.nanos < schedule.start.nanos + step
  · omega
  · -- The last tick there has been is less than a period ago.
    have last := Nat.div_add_mod (now.nanos - schedule.start.nanos) step
    have remainder := Nat.mod_lt (now.nanos - schedule.start.nanos) pos
    have ticked : 1 ≤ (now.nanos - schedule.start.nanos) / step :=
      (Nat.le_div_iff_mul_le pos).2 (by omega)
    rw [Nat.mul_comm] at last
    have outlived := outlives _ ticked (by omega)
    omega

theorem clock_trace {σ : Type} (service : Service σ) (s : σ × Instant) (events : List Event) :
    (trace service.step s events).2.2 = events.foldl (fun now e => e.later now) s.2 := by
  induction events generalizing s with
  | nil => rfl
  | cons e rest ih =>
      rw [List.foldl_cons, ← service.step_clock]
      exact ih _

/-- The clock does not go back in a run. -/
theorem nanos_le_trace {σ : Type} (service : Service σ) (s : σ × Instant) (events : List Event) :
    s.2.nanos ≤ (trace service.step s events).2.2.nanos := by
  induction events generalizing s with
  | nil => exact le_rfl
  | cons e rest ih =>
      have first := e.nanos_le_later s.2
      rw [← service.step_clock] at first
      exact first.trans (ih _)

/-- Time goes by, or the background sweep has its turn. -/
def Event.IsTime (e : Event) : Prop := e = .sweep ∨ ∃ nanos, e = .advance nanos

namespace Service.Breakdown

variable {σ : Type} {service : Service σ} {s final : σ × Instant}
  {Comes : σ × Instant → Event → List Move → σ × Instant → Prop} {log : List (Event × List Move)}

theorem nanos_le_runs (parts : service.Breakdown) (lawful : parts.Lawful Comes)
    (runs : Runs Comes s log final) : s.2.nanos ≤ final.2.nanos := by
  induction runs with
  | done => exact le_rfl
  | @next s _ _ e made rest first later ih =>
      obtain rfl := lawful.carries first
      exact (e.nanos_le_later s.2).trans ih

/-- How the entries of a service expire, as long as the clock fits. -/
structure Ageing (parts : service.Breakdown) (Fits : Instant → Prop) where
  /-- When the entries held expire, in nanoseconds. -/
  deadlines : σ → Set Nat
  schedule : σ → Option Schedule
  /-- What comes in with a move expires later. -/
  sets : ∀ now s move, Fits now → move ≠ .close →
    ∀ d ∈ deadlines (parts.act now s move), d ∈ deadlines s ∨ now.nanos < d
  /-- What a cleanup leaves expires later. -/
  sweeps : ∀ now s, Fits now → ∀ d ∈ deadlines (parts.act now s .cleanup), now.nanos < d
  schedule_act : ∀ now s move, move ≠ .close → schedule (parts.act now s move) = schedule s
  schedule_close : ∀ now s, schedule (parts.act now s .close) = none
  open_moves : ∀ s e, e ≠ .close → ∀ move ∈ parts.moves s e, move ≠ .close
  close_moves : ∀ s, parts.moves s .close = [.close]
  cleanup_moves : ∀ s, parts.moves s .cleanup = [.cleanup]
  /-- Nothing but a sweep happens with time. -/
  time_moves : ∀ s e, e.IsTime →
    parts.moves s e = if e.sweeps (schedule s.1) s.2 then [.cleanup] else []

namespace Ageing

variable {parts : service.Breakdown} {Fits : Instant → Prop} (ageing : parts.Ageing Fits)

/-! ## With a schedule -/

theorem deadlines_foldl {now : Instant} (fits : Fits now) {made : List Move}
    (open_ : ∀ move ∈ made, move ≠ .close) (s : σ) :
    ∀ d ∈ ageing.deadlines (made.foldl (parts.act now) s),
      d ∈ ageing.deadlines s ∨ now.nanos < d := by
  induction made generalizing s with
  | nil => exact fun d held => .inl held
  | cons move rest ih =>
      intro d held
      rcases ih (fun m member => open_ m (.tail _ member)) _ d held with early | later
      · exact ageing.sets now s move fits (open_ move List.mem_cons_self) d early
      · exact .inr later

theorem schedule_foldl {now : Instant} {made : List Move} (open_ : ∀ move ∈ made, move ≠ .close)
    (s : σ) : ageing.schedule (made.foldl (parts.act now) s) = ageing.schedule s := by
  induction made generalizing s with
  | nil => rfl
  | cons move rest ih =>
      rw [List.foldl_cons, ih fun m member => open_ m (.tail _ member),
        ageing.schedule_act now s move (open_ move List.mem_cons_self)]

/-- The sweep goes by a schedule, and all that is held outlives the ticks so far. -/
structure Swept (schedule : Schedule) (s : σ × Instant) : Prop where
  scheduled : ageing.schedule s.1 = some schedule
  started : schedule.start.nanos ≤ s.2.nanos
  outlives : ∀ d ∈ ageing.deadlines s.1, ∀ n, 1 ≤ n →
    (schedule.tick n).nanos ≤ s.2.nanos → (schedule.tick n).nanos < d

variable {ageing} {schedule : Schedule}

/-- A tick that an event brings about makes the sweep run, at that event. -/
theorem moves_of_ticked (scheduled : ageing.schedule s.1 = some schedule)
    (started : schedule.start.nanos ≤ s.2.nanos) {e : Event} {n : Nat}
    (ahead : s.2.nanos < (schedule.tick n).nanos)
    (reached : (schedule.tick n).nanos ≤ (e.later s.2).nanos) : parts.moves s e = [.cleanup] := by
  cases e with
  | advance nanos =>
      have due : schedule.due s.2 ((Event.advance nanos).later s.2) = true :=
        (schedule.due_iff _ _ started).2 ⟨n, ahead, reached⟩
      have sweeping : (Event.advance nanos).sweeps (ageing.schedule s.1) s.2 = true := by
        rw [scheduled, Event.sweeps, Option.any_some]
        exact due
      rw [ageing.time_moves s _ (.inr ⟨nanos, rfl⟩), sweeping, if_pos rfl]
  | request | traverse | cleanup | sweep | close =>
      have still : (schedule.tick n).nanos ≤ s.2.nanos := reached
      omega

theorem Swept.step (swept : ageing.Swept schedule s) {e : Event} (open_ : e ≠ .close)
    (fits : Fits (e.later s.2)) : ageing.Swept schedule (service.step s e).2 := by
  obtain ⟨scheduled, started, outlives⟩ := swept
  have others := ageing.open_moves s e open_
  refine ⟨?_, ?_, ?_⟩
  · rw [parts.step_eq, ageing.schedule_foldl others]
    exact scheduled
  · rw [service.step_clock]
    exact started.trans (e.nanos_le_later s.2)
  · intro d held n counted reached
    rw [service.step_clock] at reached
    rw [parts.step_eq] at held
    by_cases ahead : s.2.nanos < (schedule.tick n).nanos
    · -- The tick comes with this event, so all that is held has outlived the sweep.
      rw [moves_of_ticked scheduled started ahead reached] at held
      have outlived := ageing.sweeps _ s.1 fits d held
      omega
    · rcases ageing.deadlines_foldl fits others s.1 d held with early | late
      · exact outlives d early n counted (Nat.le_of_not_lt ahead)
      · have order := e.nanos_le_later s.2
        omega

/-- A traversal sets nothing that has expired already. -/
theorem Swept.traversed (swept : ageing.Swept schedule s) {made : List Move}
    (open_ : ∀ move ∈ made, move ≠ .close) (fits : Fits s.2) :
    ageing.Swept schedule (made.foldl (parts.act s.2) s.1, s.2) where
  scheduled := (ageing.schedule_foldl open_ s.1).trans swept.scheduled
  started := swept.started
  outlives d held n counted reached := by
    rcases ageing.deadlines_foldl fits open_ s.1 d held with early | late
    · exact swept.outlives d early n counted reached
    · exact Nat.lt_of_le_of_lt reached late

/-- After any run that closes nothing, all that is held outlives the ticks so far. -/
theorem Swept.runs (swept : ageing.Swept schedule s) (lawful : parts.Lawful Comes)
    (earlier : ∀ t u : Instant, t.nanos ≤ u.nanos → Fits u → Fits t) (runs : Runs Comes s log final)
    (open_ : .close ∉ log.map Prod.fst) (fits : Fits final.2) : ageing.Swept schedule final := by
  induction runs with
  | done => exact swept
  | @next s _ _ e made rest first later ih =>
      obtain ⟨here, others⟩ := not_or.1 (mt List.mem_cons.2 open_)
      -- The clock does not go back, so it fits at each event if it does at the end.
      have order := parts.nanos_le_runs lawful later
      obtain rfl := lawful.carries first
      have soon : Fits (e.later s.2) := earlier _ _ order fits
      refine ih ?_ others fits
      rcases lawful.choice first with rfl | ⟨⟨ns, visitor, rfl⟩, unclosed⟩
      · rw [← parts.step_after]
        exact swept.step (Ne.symm here) soon
      · exact swept.traversed unclosed soon

/-- Without a schedule time does nothing. -/
theorem idle (unscheduled : ageing.schedule s.1 = none) {e : Event} (time : e.IsTime) :
    (service.step s e).2.1 = s.1 := by
  have nothing : e.sweeps (ageing.schedule s.1) s.2 = false := by
    rw [unscheduled]
    rcases time with rfl | ⟨nanos, rfl⟩
    · rfl
    · rw [Event.sweeps, Option.any_none]
  rw [parts.step_eq, ageing.time_moves s e time, nothing, if_neg Bool.false_ne_true]
  rfl

end Ageing

end Service.Breakdown

end ExpiringCache
