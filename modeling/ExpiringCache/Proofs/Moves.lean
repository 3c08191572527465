import ExpiringCache.Proofs.Run

/-!
# Moves

An event can do several things to a cache: the visitor of a traversal sends
requests of its own, and the traversal itself drops records that have expired. A
`Breakdown` of a service says to which moves each event comes down. They are done
one after the other, at the reading of the clock that the event leaves.

What every move keeps is kept by every event (`Breakdown.keeps`), what balances in every
move balances over every run (`Breakdown.balance`), and what fits the notes that are taken of
every move fits those of every run (`Breakdown.noted_run`).

Where an event may come to several things, `Runs` are the runs in which each event comes
with the moves that were made at it. The one that a service makes itself is among them
(`Breakdown.runs_trace`).
-/

namespace ExpiringCache

/-- What is done to a cache. -/
inductive Move
  | serve (q : Request)
  /-- An expired record is dropped, if it still stands as it was read. -/
  | reclaim (key raw : Bytes)
  | cleanup
  | close

/-- Whether an event makes the background sweep run. -/
def Event.sweeps (schedule : Option Schedule) (now : Instant) : Event → Bool
  | sweep => schedule.isSome
  | advance nanos => schedule.any (·.due now ((advance nanos).later now))
  | _ => false

variable {σ : Type}

theorem answerAll_state (answer : σ → Request → Answer × σ) (s : σ) (requests : List Request) :
    (answerAll answer s requests).2 = requests.foldl (fun s q => (answer s q).2) s := by
  induction requests generalizing s with
  | nil => rfl
  | cons q rest ih => exact ih (answer s q).2

theorem answerAll_append {σ : Type} (answer : σ → Request → Answer × σ) (s : σ)
    (first later : List Request) :
    answerAll answer s (first ++ later) =
      ((answerAll answer s first).1 ++ (answerAll answer (answerAll answer s first).2 later).1,
        (answerAll answer (answerAll answer s first).2 later).2) := by
  induction first generalizing s with
  | nil => rfl
  | cons q rest ih => simp only [List.cons_append, answerAll, ih]

/-- A move that is made or not. -/
theorem foldl_optional (act : σ → Move → σ) (s : σ) (m : Move) (made : Bool) :
    (if made then [m] else []).foldl act s = if made then act s m else s := by
  cases made <;> rfl

/-- A run in which each event comes with the moves that were made at it. `Comes` says
which moves an event may come to, and what they leave. -/
inductive Runs (Comes : σ × Instant → Event → List Move → σ × Instant → Prop) :
    σ × Instant → List (Event × List Move) → σ × Instant → Prop
  | done (s : σ × Instant) : Runs Comes s [] s
  | next {s s' final : σ × Instant} {e : Event} {made : List Move}
      {rest : List (Event × List Move)} (first : Comes s e made s')
      (later : Runs Comes s' rest final) : Runs Comes s ((e, made) :: rest) final

/-! ## Breaking events down -/

/-- How the events of a service come down to moves. -/
structure Service.Breakdown (service : Service σ) where
  act : Instant → σ → Move → σ
  moves : σ × Instant → Event → List Move
  step_eq : ∀ s e, (service.step s e).2.1 = (moves s e).foldl (act (e.later s.2)) s.1

namespace Service.Breakdown

variable {service : Service σ}

theorem keeps (parts : service.Breakdown) (Kept : σ → Prop) {s : σ × Instant} {e : Event}
    (start : Kept s.1)
    (each : ∀ s', Kept s' → ∀ m ∈ parts.moves s e, Kept (parts.act (e.later s.2) s' m)) :
    Kept (service.step s e).2.1 := by
  rw [parts.step_eq]
  exact List.foldlRecOn _ _ start each

/-! ## Runs with their moves -/

/-- What some moves leave at an event. -/
def after (parts : service.Breakdown) (s : σ × Instant) (e : Event) (made : List Move) :
    σ × Instant :=
  (made.foldl (parts.act (e.later s.2)) s.1, e.later s.2)

theorem step_after (parts : service.Breakdown) (s : σ × Instant) (e : Event) :
    (service.step s e).2 = parts.after s e (parts.moves s e) :=
  Prod.ext (parts.step_eq s e) (service.step_clock s e)

/-- What an event comes to in the service itself. -/
inductive Own (parts : service.Breakdown) :
    σ × Instant → Event → List Move → σ × Instant → Prop
  | step (s : σ × Instant) (e : Event) : Own parts s e (parts.moves s e) (service.step s e).2

/-- What events may come to, where traversals leave a choice. The moves that are made are
all that changes anything, and no traversal closes a cache. -/
structure Lawful (parts : service.Breakdown)
    (Comes : σ × Instant → Event → List Move → σ × Instant → Prop) : Prop where
  carries : ∀ {s e made s'}, Comes s e made s' → s' = parts.after s e made
  choice : ∀ {s e made s'}, Comes s e made s' → made = parts.moves s e ∨
    (∃ ns visitor, e = .traverse ns visitor) ∧ ∀ move ∈ made, move ≠ .close

theorem lawful_own (parts : service.Breakdown) : parts.Lawful parts.Own where
  carries := by
    rintro s e _ _ ⟨⟩
    exact parts.step_after s e
  choice := by
    rintro s e _ _ ⟨⟩
    exact .inl rfl

/-- The events of a run, each with the moves that it comes down to. -/
def log (parts : service.Breakdown) : σ × Instant → List Event → List (Event × List Move)
  | _, [] => []
  | s, e :: rest => (e, parts.moves s e) :: parts.log (service.step s e).2 rest

theorem runs_trace (parts : service.Breakdown)
    {Comes : σ × Instant → Event → List Move → σ × Instant → Prop}
    (own : ∀ s e, Comes s e (parts.moves s e) (service.step s e).2) (s : σ × Instant)
    (events : List Event) :
    Runs Comes s (parts.log s events) (trace service.step s events).2 := by
  induction events generalizing s with
  | nil => exact .done s
  | cons e rest ih => exact .next (own s e) (ih _)

/-! ## Adding up -/

/-- What some moves count for together, each in the state that it meets. -/
def along (parts : service.Breakdown) (now : Instant) (count : σ → Move → Nat) :
    σ → List Move → Nat
  | _, [] => 0
  | s, m :: rest => count s m + parts.along now count (parts.act now s m) rest

/-- What the moves of a run count for together. -/
def total (parts : service.Breakdown) (count : Instant → σ → Move → Nat) :
    σ × Instant → List Event → Nat
  | _, [] => 0
  | s, e :: rest =>
      parts.along (e.later s.2) (count (e.later s.2)) s.1 (parts.moves s e) +
        parts.total count (service.step s e).2 rest

/-- What the moves of a run count for together, whichever moves were made. -/
def tally (parts : service.Breakdown) (count : Instant → σ → Move → Nat) :
    σ × Instant → List (Event × List Move) → Nat
  | _, [] => 0
  | s, (e, made) :: rest =>
      parts.along (e.later s.2) (count (e.later s.2)) s.1 made +
        parts.tally count (parts.after s e made) rest

theorem total_eq_tally (parts : service.Breakdown) (count : Instant → σ → Move → Nat)
    (s : σ × Instant) (events : List Event) :
    parts.total count s events = parts.tally count s (parts.log s events) := by
  induction events generalizing s with
  | nil => rfl
  | cons e rest ih => rw [total, log, tally, ih, parts.step_after]

variable (parts : service.Breakdown) {Sound : σ → Prop} (worth : σ → UInt64)

theorem balance_along {now : Instant} {gain loss : σ → Move → Nat}
    (each : ∀ s m, Sound s → Sound (parts.act now s m) ∧
      worth (parts.act now s m) + .ofNat (loss s m) = worth s + .ofNat (gain s m))
    {s : σ} (sound : Sound s) (moves : List Move) :
    Sound (moves.foldl (parts.act now) s) ∧
      worth (moves.foldl (parts.act now) s) + .ofNat (parts.along now loss s moves) =
        worth s + .ofNat (parts.along now gain s moves) := by
  induction moves generalizing s with
  | nil => exact ⟨sound, rfl⟩
  | cons m rest ih =>
      obtain ⟨kept, first⟩ := each s m sound
      obtain ⟨final, others⟩ := ih kept
      refine ⟨final, ?_⟩
      simp only [List.foldl_cons, along, UInt64.ofNat_add]
      grind

/-- Where each move changes the worth of a state by what it gains less what it
loses, so does a whole run. -/
theorem balance {Comes : σ × Instant → Event → List Move → σ × Instant → Prop}
    (lawful : parts.Lawful Comes) (gain loss : Instant → σ → Move → Nat)
    (each : ∀ now s m, Sound s → Sound (parts.act now s m) ∧
      worth (parts.act now s m) + .ofNat (loss now s m) = worth s + .ofNat (gain now s m))
    {s final : σ × Instant} {log : List (Event × List Move)} (runs : Runs Comes s log final)
    (sound : Sound s.1) :
    worth final.1 + .ofNat (parts.tally loss s log) =
      worth s.1 + .ofNat (parts.tally gain s log) := by
  induction runs with
  | done => rfl
  | @next s _ _ e made rest first later ih =>
      obtain rfl := lawful.carries first
      obtain ⟨kept, here⟩ := parts.balance_along worth (each (e.later s.2)) sound made
      have others := ih kept
      simp only [tally, after, UInt64.ofNat_add] at others ⊢
      grind

/-! ## Noting down -/

variable {α : Type} {Noted : σ → List α → Prop}

/-- What is noted down at some moves, each in the state that it meets. -/
def notesAlong (note : σ → Move → List α) (now : Instant) : σ → List Move → List α
  | _, [] => []
  | s, m :: rest => note s m ++ notesAlong note now (parts.act now s m) rest

/-- What is noted down at the moves of a run. -/
def notes (note : σ → Move → List α) : σ × Instant → List Event → List α
  | _, [] => []
  | s, e :: rest =>
      parts.notesAlong note (e.later s.2) s.1 (parts.moves s e) ++
        notes note (service.step s e).2 rest

theorem noted_along {note : σ → Move → List α}
    (each : ∀ now s noted m, Noted s noted → Noted (parts.act now s m) (noted ++ note s m))
    (now : Instant) {s : σ} {noted : List α} (start : Noted s noted) (moves : List Move) :
    Noted (moves.foldl (parts.act now) s) (noted ++ parts.notesAlong note now s moves) := by
  induction moves generalizing s noted with
  | nil =>
      rw [notesAlong, List.append_nil]
      exact start
  | cons m rest ih =>
      rw [notesAlong, ← List.append_assoc]
      exact ih (each now s noted m start)

/-- What holds of the notes after every single move holds of those of a whole run. -/
theorem noted_run {note : σ → Move → List α}
    (each : ∀ now s noted m, Noted s noted → Noted (parts.act now s m) (noted ++ note s m))
    {s : σ × Instant} {noted : List α} (start : Noted s.1 noted) (events : List Event) :
    Noted (trace service.step s events).2.1 (noted ++ parts.notes note s events) := by
  induction events generalizing s noted with
  | nil =>
      rw [notes, List.append_nil]
      exact start
  | cons e rest ih =>
      have first := parts.noted_along each (e.later s.2) start (parts.moves s e)
      rw [← parts.step_eq] at first
      rw [notes, ← List.append_assoc]
      exact ih first

end Service.Breakdown

end ExpiringCache
