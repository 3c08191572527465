import ExpiringCache.Proofs.Embedded.Contract
import ExpiringCache.Proofs.Moves

/-!
# Moves of embedded caches

A traversal of an embedded cache goes through the records that it has read at the
start. Some of them it reclaims, and between these moves it serves the requests of
its visitor. Which moves these are depends on what was read, and not on what has
become of the cache since.

What each move does to the store is said once (`store_act`): it binds a key, or keeps
the records that pass a test. The test never asks what else is in the store.
-/

namespace ExpiringCache

/-! ## Stores -/

namespace Store

theorem ext {s t : Store} (same : s.records = t.records) : s = t := by
  cases s
  cases t
  cases same
  rfl

/-- Only the records that are there are put to the test. -/
theorem keep_congr {s : Store} {test test' : Bytes → Bytes → Bool}
    (same : ∀ k raw, s.find? k = some raw → test k raw = test' k raw) :
    s.keep test = s.keep test' := by
  apply ext
  apply List.filter_congr
  rintro ⟨k, raw⟩ member
  exact same k raw ((Bindings.find?_eq_some s.nodup).2 member)

/-- A test that every record passes keeps them all. -/
theorem keep_eq_self {s : Store} {test : Bytes → Bytes → Bool}
    (passed : ∀ k raw, s.find? k = some raw → test k raw = true) : s.keep test = s := by
  rw [keep_congr passed]
  exact ext (List.filter_eq_self.2 fun _ _ => rfl)

/-- Two tests that differ at one key keep the same, if they agree on its record. -/
theorem keep_congr_at {s : Store} {test test' : Bytes → Bytes → Bool} {key raw : Bytes}
    (found : s.find? key = some raw) (here : test key raw = test' key raw)
    (elsewhere : ∀ k r, (k != key) = true → test k r = test' k r) : s.keep test = s.keep test' := by
  apply keep_congr
  intro k r stored
  by_cases same : k = key
  · subst same
    obtain rfl := Option.some.inj (stored.symm.trans found)
    exact here
  · exact elsewhere k r (bne_iff_ne.2 same)

theorem keep_eq_self_at {s : Store} {test : Bytes → Bytes → Bool} {key raw : Bytes}
    (found : s.find? key = some raw) (here : test key raw = true)
    (elsewhere : ∀ k r, (k != key) = true → test k r = true) : s.keep test = s :=
  (keep_congr_at found here elsewhere).trans (keep_eq_self fun _ _ _ => rfl)

theorem erase_of_absent {s : Store} {key : Bytes} (absent : s.find? key = none) :
    s.erase key = s := by
  apply keep_eq_self
  intro k raw found
  rw [bne_iff_ne]
  rintro rfl
  simp [absent] at found

/-- The store after a move. A cache that is closed leaves its records where they are. -/
def moved (keys : Keys) (now : UInt64) (s : Store) : Move → Store
  | .serve (.set ns key value ttl) =>
      s.insert (Text.encode (keys.compose ns key)) (Record.make value ttl now).encode
  | .serve (.get ns key) | .serve (.contains ns key) =>
      s.keep fun k raw =>
        k != Text.encode (keys.compose ns key) || !Embedded.hasExpired now raw
  | .serve (.take ns key) | .serve (.delete ns key) =>
      s.erase (Text.encode (keys.compose ns key))
  | .reclaim key raw => s.keep fun k r => k != key || r != raw
  | .cleanup => s.keep fun _ raw => !Embedded.hasExpired now raw
  | .close => s

end Store

namespace Embedded

variable {e : Embedded} {store : Store}

/-! ## What a move does -/

/-- Carries out a move. -/
def act (now : Instant) (e : Embedded) : Move → Embedded
  | .serve q => (e.request now q).2
  | .reclaim key raw => e.reclaim key raw
  | .cleanup => (e.cleanup now).2
  | .close => e.close.2

/-- What only a close changes. -/
def settings (e : Embedded) : Keys × Option Schedule := (e.keys, e.schedule)

theorem settings_reclaim (e : Embedded) (key raw : Bytes) :
    (e.reclaim key raw).settings = e.settings := by
  unfold reclaim
  split
  next => split <;> rfl
  next => rfl

theorem store_reclaim (opened : e.store = some store) (key raw : Bytes) :
    (e.reclaim key raw).store = some (store.keep fun k r => k != key || r != raw) := by
  simp only [reclaim, opened]
  split
  next found =>
    -- Only the one record under the key fails either test.
    refine congrArg some (Store.keep_congr_at found ?_ ?_)
    · simp
    · intro k r differs
      rw [differs, Bool.true_or]
  next other =>
    rw [opened, Store.keep_eq_self]
    intro k r stored
    by_cases same : k = key
    · subst same
      have differs : r ≠ raw := by
        rintro rfl
        exact other stored
      simp [differs]
    · simp [same]

/-- To drop what has expired under a key makes a difference only if something has. -/
theorem keep_unexpired {now : UInt64} {key raw : Bytes} (found : store.find? key = some raw) :
    (store.keep fun k r => k != key || !hasExpired now r) =
      if hasExpired now raw then store.keep fun k r => k != key || r != raw else store := by
  split
  next past =>
    apply Store.keep_congr_at found
    · simp [past]
    · intro k r differs
      rw [differs, Bool.true_or, Bool.true_or]
  next fresh =>
    apply Store.keep_eq_self_at found
    · simp [fresh]
    · intro k r differs
      rw [differs, Bool.true_or]

theorem store_look (opened : e.store = some store) (now : UInt64) (key : Bytes) :
    (e.look now store key).2.store =
      some (store.keep fun k raw => k != key || !hasExpired now raw) := by
  unfold look
  split
  next absent =>
    rw [opened, Store.keep_eq_self]
    intro k raw stored
    have other : k ≠ key := by
      rintro rfl
      simp [absent] at stored
    simp [other]
  next raw found =>
    rw [keep_unexpired found]
    split
    next cause broken => simp [hasExpired, broken, opened]
    next record read =>
      rw [hasExpired_iff read]
      split
      next => exact store_reclaim opened key raw
      next => exact opened

theorem settings_look (now : UInt64) (e : Embedded) (store : Store) (key : Bytes) :
    (e.look now store key).2.settings = e.settings := by
  unfold look
  split
  next => rfl
  next raw _ =>
    split
    next => rfl
    next =>
      split
      next => exact e.settings_reclaim key raw
      next => rfl

/-- A read leaves what its look leaves, and counts. -/
theorem get_state (now : UInt64) (e : Embedded) (store : Store) (key : Bytes) :
    ∃ change : Counters → Counters, (change = id ∨ ∃ found, change = (·.read found)) ∧
      (e.get now store key).2 = (e.look now store key).2.count change := by
  unfold get
  split
  next looked => exact ⟨id, .inl rfl, by rw [looked]; rfl⟩
  next found _ looked => exact ⟨(·.read found.isSome), .inr ⟨_, rfl⟩, by rw [looked]⟩

theorem contains_state (now : UInt64) (e : Embedded) (store : Store) (key : Bytes) :
    (e.contains now store key).2 = (e.look now store key).2 := by
  unfold contains
  split
  next looked => rw [looked]
  next looked => rw [looked]

theorem store_take (now : UInt64) (e : Embedded) (opened : e.store = some store) (key : Bytes) :
    (e.take now store key).2.store = some (store.erase key) := by
  unfold take
  split
  next absent =>
    show e.store = _
    rw [opened, Store.erase_of_absent absent]
  next =>
    dsimp only
    split
    next => rfl
    next => split <;> rfl

theorem store_delete (opened : e.store = some store) (key : Bytes) :
    (e.delete store key).2.store = some (store.erase key) := by
  unfold delete
  split
  next absent => rw [opened, Store.erase_of_absent absent]
  next => rfl

theorem store_request (opened : e.store = some store) (now : Instant) (q : Request) :
    (e.request now q).2.store = some (store.moved e.keys now.unixMillis (.serve q)) := by
  simp only [request, opened]
  cases q with
  | set => rfl
  | get ns key =>
      obtain ⟨change, -, state⟩ := e.get_state now.unixMillis store (e.rawKey ns key)
      rw [state]
      exact store_look opened now.unixMillis _
  | contains ns key =>
      rw [contains_state]
      exact store_look opened now.unixMillis _
  | take ns key => exact e.store_take _ opened _
  | delete ns key => exact store_delete opened _

theorem settings_request (now : Instant) (e : Embedded) (q : Request) :
    (e.request now q).2.settings = e.settings := by
  unfold request
  split
  next => rfl
  next store _ =>
    cases q with
    | set => rfl
    | get ns key =>
        obtain ⟨change, -, state⟩ := e.get_state now.unixMillis store (e.rawKey ns key)
        rw [state]
        exact e.settings_look now.unixMillis store _
    | contains ns key =>
        rw [contains_state]
        exact e.settings_look now.unixMillis store _
    | take ns key =>
        simp only [take]
        split
        next => rfl
        next =>
          split
          next => rfl
          next => split <;> rfl
    | delete ns key =>
        simp only [delete]
        split <;> rfl

theorem settings_cleanup (now : Instant) (e : Embedded) :
    (e.cleanup now).2.settings = e.settings := by
  unfold cleanup
  split <;> rfl

theorem settings_act (now : Instant) (e : Embedded) {move : Move} (open_ : move ≠ .close) :
    (e.act now move).settings = e.settings := by
  cases move with
  | serve q => exact e.settings_request now q
  | reclaim key raw => exact e.settings_reclaim key raw
  | cleanup => exact e.settings_cleanup now
  | close => exact absurd rfl open_

theorem keys_act (now : Instant) (e : Embedded) (move : Move) : (e.act now move).keys = e.keys := by
  by_cases closing : move = .close
  · subst closing
    rfl
  · exact congrArg Prod.fst (e.settings_act now closing)

theorem schedule_act (now : Instant) (e : Embedded) {move : Move} (open_ : move ≠ .close) :
    (e.act now move).schedule = e.schedule :=
  congrArg Prod.snd (e.settings_act now open_)

/-- The store that an open cache has after a move. -/
theorem store_act (opened : e.store = some store) (now : Instant) {move : Move}
    (open_ : move ≠ .close) :
    (e.act now move).store = some (store.moved e.keys now.unixMillis move) := by
  cases move with
  | serve q => exact store_request opened now q
  | reclaim key raw => exact store_reclaim opened key raw
  | cleanup =>
      simp only [act, cleanup, opened]
      rfl
  | close => exact absurd rfl open_

/-- A cache that has been closed stays as it is. -/
theorem act_of_closed (closed : e.store = none) (now : Instant) {move : Move}
    (open_ : move ≠ .close) : e.act now move = e := by
  cases move with
  | serve q => simp only [act, request, closed]
  | reclaim key raw => simp only [act, reclaim, closed]
  | cleanup => simp only [act, cleanup, closed]
  | close => exact absurd rfl open_

theorem store_act_of_closed (closed : e.store = none) (now : Instant) (move : Move) :
    (e.act now move).store = none := by
  by_cases closing : move = .close
  · subst closing
    rfl
  · rw [act_of_closed closed now closing]
    exact closed

/-! ## Events as moves -/

/-- The moves of a traversal through records that were read at the start, of which
`count` were shown before. A record that does not decode ends it. -/
def walk (keys : Keys) (now : Instant) (ns : String) (visitor : Visitor) :
    Nat → List (Bytes × Bytes) → List Move
  | _, [] => []
  | count, (key, raw) :: rest =>
      match Record.decode raw with
      | .error _ => []
      | .ok record =>
          if record.expired now.unixMillis then
            .reclaim key raw :: walk keys now ns visitor count rest
          else
            let logical := keys.logical (Text.decodeLossy key) ns
            (visitor.requests (count + 1) logical record.value).map .serve ++
              if visitor.goesOn (count + 1) logical record.value then
                walk keys now ns visitor (count + 1) rest
              else []

theorem keys_answerAll (now : Instant) (e : Embedded) (requests : List Request) :
    (answerAll (request now) e requests).2.keys = e.keys := by
  rw [answerAll_state]
  refine List.foldlRecOn (motive := fun e' : Embedded => e'.keys = e.keys) requests _ rfl ?_
  intro e' same q _
  exact (e'.keys_act now (.serve q)).trans same

theorem visit_state (now : Instant) (ns : String) (visitor : Visitor) (count : Nat)
    (rows : List (Bytes × Bytes)) (e : Embedded) :
    (visit now ns visitor count rows e).2 =
      (walk e.keys now ns visitor count rows).foldl (act now) e := by
  induction rows generalizing count e with
  | nil => rfl
  | cons row rest ih =>
      obtain ⟨key, raw⟩ := row
      -- Requests of the visitor leave the keys alone, so the walk goes on as planned.
      have served (requests : List Request) : (answerAll (request now) e requests).2 =
          (requests.map Move.serve).foldl (act now) e := by
        rw [answerAll_state, List.foldl_map]
        rfl
      cases read : Record.decode raw with
      | error cause => simp only [visit, walk, read, List.foldl_nil]
      | ok record =>
          cases past : record.expired now.unixMillis with
          | true =>
              simp only [visit, walk, read, past, if_true, List.foldl_cons]
              rw [ih, ← e.keys_act now (.reclaim key raw)]
              rfl
          | false =>
              simp only [visit, walk, read, past, Bool.false_eq_true, if_false,
                List.foldl_append, ← served]
              split
              next => rw [ih, e.keys_answerAll now]
              next => rfl

/-- The moves that an event comes down to. -/
def moves (s : Embedded × Instant) : Event → List Move
  | .request q => [.serve q]
  | .traverse ns visitor =>
      match s.1.store with
      | none => []
      | some store =>
          walk s.1.keys s.2 ns visitor 0 (store.within (Text.encode (s.1.keys.root ns)))
  | .cleanup => [.cleanup]
  | .close => [.close]
  | e => if e.sweeps s.1.schedule s.2 then [.cleanup] else []

/-- A traversal closes nothing. -/
theorem open_walk {keys : Keys} {now : Instant} {ns : String} {visitor : Visitor} {count : Nat}
    {rows : List (Bytes × Bytes)} {move : Move}
    (made : move ∈ walk keys now ns visitor count rows) :
    move ≠ .close := by
  rintro rfl
  induction rows generalizing count with
  | nil => cases made
  | cons row rest ih =>
      simp only [walk] at made
      split at made
      next => cases made
      next =>
        split at made
        next =>
          rcases List.mem_cons.1 made with reclaimed | later
          · cases reclaimed
          · exact ih later
        next =>
          rcases List.mem_append.1 made with served | later
          · obtain ⟨q, -, request⟩ := List.mem_map.1 served
            cases request
          · split at later
            next => exact ih later
            next => cases later

/-- Only a close closes a cache. -/
theorem open_moves (s : Embedded × Instant) {event : Event} (open_ : event ≠ .close) {move : Move}
    (made : move ∈ moves s event) : move ≠ .close := by
  cases event with
  | request | cleanup =>
      rw [List.mem_singleton.1 made]
      nofun
  | traverse ns visitor =>
      simp only [moves] at made
      split at made
      next => cases made
      next => exact open_walk made
  | sweep | advance =>
      simp only [moves] at made
      split at made
      next =>
        rw [List.mem_singleton.1 made]
        nofun
      next => cases made
  | close => exact absurd rfl open_

/-- The clock moves, and the sweep runs or does not. -/
theorem pass_eq (earlier later : Instant) (e : Embedded) :
    e.pass earlier later =
      if e.schedule.any (·.due earlier later) then (e.cleanup later).2 else e := by
  unfold pass
  cases e.schedule with
  | none => rw [Option.any_none, if_neg Bool.false_ne_true]
  | some schedule => rw [Option.any_some]

theorem step_eq (s : Embedded × Instant) (e : Event) :
    (service.step s e).2.1 = (moves s e).foldl (act (e.later s.2)) s.1 := by
  obtain ⟨cache, now⟩ := s
  cases e with
  | request | cleanup | close => rfl
  | traverse ns visitor =>
      show (cache.iterate now ns visitor).2 = _
      cases opened : cache.store with
      | none => simp only [iterate, moves, opened, List.foldl_nil]
      | some store =>
          simp only [iterate, moves, opened]
          exact visit_state now ns visitor 0 _ cache
  | sweep => exact (foldl_optional (act now) cache .cleanup _).symm
  | advance nanos =>
      exact (cache.pass_eq now _).trans (foldl_optional (act _) cache .cleanup _).symm

/-- How the events of an embedded cache come down to moves. -/
def breakdown : service.Breakdown := ⟨act, moves, step_eq⟩

end Embedded

end ExpiringCache
