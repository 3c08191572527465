import ExpiringCache.Proofs.Memory.Contract
import ExpiringCache.Proofs.Moves

/-!
# Moves of memory caches

A traversal of a memory cache does nothing but serve the requests of its visitor, as
it shows what it has seen at the start. What each move does to the table is said once
(`table_act`): it binds a key, or keeps the entries that pass a test. The test never
asks what else is in the table.
-/

namespace ExpiringCache

/-- The requests that a visitor sends while it is shown a listing, of which `count`
entries were shown before. -/
def Visitor.sends (v : Visitor) : Nat → List (String × Bytes) → List Request
  | _, [] => []
  | count, (key, value) :: rest =>
      v.requests (count + 1) key value ++
        if v.goesOn (count + 1) key value then v.sends (count + 1) rest else []

theorem Visitor.sends_of_quiet {v : Visitor} (quiet : v.Quiet) (count : Nat)
    (listing : List (String × Bytes)) : v.sends count listing = [] := by
  induction listing generalizing count with
  | nil => rfl
  | cons head rest ih =>
      have silent := quiet (count + 1) head.1 head.2
      simp [sends, silent, ih]

/-! ## Tables -/

namespace Table

theorem ext {t u : Table} (same : t.entries = u.entries) : t = u := by
  cases t
  cases u
  cases same
  rfl

/-- Only the entries that are there are put to the test. -/
theorem keep_congr {t : Table} {test test' : String → Entry → Bool}
    (same : ∀ k e, t.find? k = some e → test k e = test' k e) : t.keep test = t.keep test' := by
  apply ext
  apply List.filter_congr
  rintro ⟨k, e⟩ member
  exact same k e ((Bindings.find?_eq_some t.nodup).2 member)

/-- A test that every entry passes keeps them all. -/
theorem keep_eq_self {t : Table} {test : String → Entry → Bool}
    (passed : ∀ k e, t.find? k = some e → test k e = true) : t.keep test = t := by
  rw [keep_congr passed]
  exact ext (List.filter_eq_self.2 fun _ _ => rfl)

/-- Two tests that differ at one key keep the same, if they agree on its entry. -/
theorem keep_congr_at {t : Table} {test test' : String → Entry → Bool} {key : String} {e : Entry}
    (found : t.find? key = some e) (here : test key e = test' key e)
    (elsewhere : ∀ k e, (k != key) = true → test k e = test' k e) : t.keep test = t.keep test' := by
  apply keep_congr
  intro k other stored
  by_cases same : k = key
  · subst same
    obtain rfl := Option.some.inj (stored.symm.trans found)
    exact here
  · exact elsewhere k other (bne_iff_ne.2 same)

theorem keep_eq_self_at {t : Table} {test : String → Entry → Bool} {key : String} {e : Entry}
    (found : t.find? key = some e) (here : test key e = true)
    (elsewhere : ∀ k e, (k != key) = true → test k e = true) : t.keep test = t :=
  (keep_congr_at found here elsewhere).trans (keep_eq_self fun _ _ _ => rfl)

theorem erase_of_absent {t : Table} {key : String} (absent : t.find? key = none) :
    t.erase key = t := by
  apply keep_eq_self
  intro k e found
  rw [bne_iff_ne]
  rintro rfl
  simp [absent] at found

/-- The table after a move. -/
def moved (keys : Keys) (now : Instant) (t : Table) : Move → Table
  | .serve (.set ns key value ttl) => t.insert (keys.compose ns key) (.make value ttl now)
  | .serve (.get ns key) => t.keep fun k e => k != keys.compose ns key || e.live now
  | .serve (.take ns key) | .serve (.delete ns key) => t.erase (keys.compose ns key)
  | .serve (.contains ..) | .reclaim .. => t
  | .cleanup => t.keep fun _ e => e.live now
  | .close => .empty

end Table

namespace Memory

/-! ## What a move does -/

/-- Carries out a move. -/
def act (now : Instant) (m : Memory) : Move → Memory
  | .serve q => (m.request now q).2
  | .reclaim .. => m
  | .cleanup => (m.cleanup now).2
  | .close => m.close

theorem table_get (now : Instant) (m : Memory) (key : String) :
    (m.get now key).2.table = m.table.keep fun k e => k != key || e.live now := by
  unfold get
  split
  next absent =>
    show m.table = _
    refine (Table.keep_eq_self ?_).symm
    intro k e stored
    have other : k ≠ key := by
      rintro rfl
      simp [absent] at stored
    simp [other]
  next e found =>
    split
    next past =>
      -- The one entry under the key has expired, so it fails the test as well.
      show m.table.erase key = _
      apply Table.keep_congr_at found
      · simp [Entry.live, past]
      · intro k other differs
        rw [differs, Bool.true_or]
    next live =>
      show m.table = _
      refine (Table.keep_eq_self_at found ?_ ?_).symm
      · simp [Entry.live, live]
      · intro k other differs
        rw [differs, Bool.true_or]

theorem table_take (now : Instant) (m : Memory) (key : String) :
    (m.take now key).2.table = m.table.erase key := by
  unfold take
  split
  next absent => exact (Table.erase_of_absent absent).symm
  next => dsimp only; split <;> rfl

theorem table_delete (m : Memory) (key : String) :
    (m.delete key).table = m.table.erase key := by
  unfold delete
  split
  next absent => exact (Table.erase_of_absent absent).symm
  next => rfl

theorem table_act (now : Instant) (m : Memory) (move : Move) :
    (m.act now move).table = m.table.moved m.keys now move := by
  cases move with
  | serve q =>
      cases q with
      | set | contains => rfl
      | get ns key => exact m.table_get now _
      | take ns key => exact m.table_take now _
      | delete ns key => exact m.table_delete _
  | reclaim | cleanup | close => rfl

/-- A request changes the table and the counters, and nothing else. -/
theorem request_eq (now : Instant) (m : Memory) (q : Request) :
    (m.request now q).2 =
      { m with
        table := (m.request now q).2.table
        counters := (m.request now q).2.counters } := by
  cases q with
  | set | contains => rfl
  | get ns key =>
      simp only [request, get]
      split
      next => rfl
      next => split <;> rfl
  | take ns key =>
      simp only [request, take]
      split
      next => rfl
      next => split <;> rfl
  | delete ns key =>
      simp only [request, delete]
      split <;> rfl

theorem keys_act (now : Instant) (m : Memory) (move : Move) : (m.act now move).keys = m.keys := by
  cases move with
  | serve q =>
      show (m.request now q).2.keys = m.keys
      rw [m.request_eq now q]
  | reclaim | cleanup | close => rfl

theorem schedule_act (now : Instant) (m : Memory) {move : Move} (open_ : move ≠ .close) :
    (m.act now move).schedule = m.schedule := by
  cases move with
  | serve q =>
      show (m.request now q).2.schedule = m.schedule
      rw [m.request_eq now q]
  | reclaim | cleanup => rfl
  | close => exact absurd rfl open_

/-! ## Events as moves -/

theorem visit_state (now : Instant) (visitor : Visitor) (count : Nat)
    (listing : List (String × Bytes)) (m : Memory) :
    (visit now visitor count listing m).2 =
      ((visitor.sends count listing).map Move.serve).foldl (act now) m := by
  induction listing generalizing count m with
  | nil => rfl
  | cons head rest ih =>
      obtain ⟨key, value⟩ := head
      have served : (answerAll (request now) m (visitor.requests (count + 1) key value)).2 =
          ((visitor.requests (count + 1) key value).map Move.serve).foldl (act now) m := by
        rw [answerAll_state, List.foldl_map]
        rfl
      cases goesOn : visitor.goesOn (count + 1) key value with
      | true =>
          simp only [visit, goesOn, if_true, Visitor.sends, List.map_append, List.foldl_append]
          rw [ih, served]
      | false =>
          simp only [visit, goesOn, Bool.false_eq_true, if_false, Visitor.sends,
            List.append_nil]
          exact served

/-- The moves that an event comes down to. -/
def moves (s : Memory × Instant) : Event → List Move
  | .request q => [.serve q]
  | .traverse ns visitor => (visitor.sends 0 (s.1.snapshot s.2 ns)).map .serve
  | .cleanup => [.cleanup]
  | .close => [.close]
  | e => if e.sweeps s.1.schedule s.2 then [.cleanup] else []

/-- Only a close closes a cache. -/
theorem open_moves (s : Memory × Instant) {event : Event} (open_ : event ≠ .close) {move : Move}
    (made : move ∈ moves s event) : move ≠ .close := by
  cases event with
  | request | cleanup =>
      rw [List.mem_singleton.1 made]
      nofun
  | traverse ns visitor =>
      obtain ⟨q, -, rfl⟩ := List.mem_map.1 made
      nofun
  | sweep | advance =>
      simp only [moves] at made
      split at made
      next =>
        rw [List.mem_singleton.1 made]
        nofun
      next => cases made
  | close => exact absurd rfl open_

/-- The clock moves, and the sweep runs or does not. -/
theorem pass_eq (earlier later : Instant) (m : Memory) :
    m.pass earlier later =
      if m.schedule.any (·.due earlier later) then (m.cleanup later).2 else m := by
  unfold pass
  cases m.schedule with
  | none => rw [Option.any_none, if_neg Bool.false_ne_true]
  | some schedule => rw [Option.any_some]

theorem step_eq (s : Memory × Instant) (e : Event) :
    (service.step s e).2.1 = (moves s e).foldl (act (e.later s.2)) s.1 := by
  obtain ⟨m, now⟩ := s
  cases e with
  | request | cleanup | close => rfl
  | traverse ns visitor => exact visit_state now visitor 0 _ m
  | sweep => exact (foldl_optional (act now) m .cleanup _).symm
  | advance nanos => exact (m.pass_eq now _).trans (foldl_optional (act _) m .cleanup _).symm

/-- How the events of a memory cache come down to moves. -/
def breakdown : service.Breakdown := ⟨act, moves, step_eq⟩

end Memory

end ExpiringCache
