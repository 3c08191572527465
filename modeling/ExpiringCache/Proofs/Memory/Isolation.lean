import ExpiringCache.Proofs.Erasure
import ExpiringCache.Proofs.Memory.Moves

/-!
# Namespaces apart in memory caches

Whoever works in one namespace of a memory cache sees the entries under its root, in
their order, and when the next sweep is due. Every move does to these entries what it
would do if there were no others, and the events of a namespace apart do nothing to
them (`screens`).
-/

namespace ExpiringCache

namespace Table

theorem keep_keep (t : Table) (test test' : String → Entry → Bool) :
    (t.keep test).keep test' = t.keep fun k e => test' k e && test k e := by
  apply ext
  exact List.filter_filter

theorem keep_comm (t : Table) (test test' : String → Entry → Bool) :
    (t.keep test).keep test' = (t.keep test').keep test := by
  rw [keep_keep, keep_keep]
  simp only [Bool.and_comm]

/-- A new binding, seen through a test on keys. -/
theorem keep_insert (t : Table) (test : String → Bool) (key : String) (e : Entry) :
    (t.insert key e).keep (fun k _ => test k) =
      if test key then (t.keep fun k _ => test k).insert key e else t.keep fun k _ => test k := by
  suffices rows : (insertEntry key e t.entries).filter (fun row => test row.1) =
      if test key then insertEntry key e (t.entries.filter fun row => test row.1)
      else t.entries.filter fun row => test row.1 by
    apply ext
    show (insertEntry key e t.entries).filter _ = _
    rw [rows]
    split <;> rfl
  generalize t.entries = l
  induction l with
  | nil => cases selected : test key <;> simp [insertEntry, selected]
  | cons head rest ih =>
      obtain ⟨k, old⟩ := head
      by_cases same : k = key
      · subst same
        cases selected : test k <;> simp [insertEntry, selected]
      · cases selected : test k <;> cases selected' : test key <;>
          simp_all [insertEntry]

/-- Entries that look alike under a test on keys do so after each move. -/
theorem moved_congr {t u : Table} {test : String → Bool}
    (alike : t.keep (fun k _ => test k) = u.keep fun k _ => test k) (keys : Keys) (now : Instant)
    (move : Move) :
    (t.moved keys now move).keep (fun k _ => test k) =
      (u.moved keys now move).keep fun k _ => test k := by
  have kept (selects : String → Entry → Bool) : (t.keep selects).keep (fun k _ => test k) =
      (u.keep selects).keep fun k _ => test k := by
    rw [keep_comm, alike, keep_comm]
  cases move with
  | serve q =>
      cases q with
      | set ns key value ttl =>
          simp only [moved]
          rw [keep_insert, keep_insert, alike]
      | get | take | delete => exact kept _
      | contains => exact alike
  | reclaim => exact alike
  | cleanup => exact kept _
  | close => rfl

/-- A request about a key outside the test changes nothing inside. -/
theorem moved_outside {t : Table} {test : String → Bool} {keys : Keys} (now : Instant)
    {q : Request} (outside : ∀ key, test (keys.compose q.ns key) = false) :
    (t.moved keys now (.serve q)).keep (fun k _ => test k) = t.keep fun k _ => test k := by
  have kept {selects : String → Entry → Bool} (key : String)
      (others : ∀ k e, (k != keys.compose q.ns key) = true → selects k e = true) :
      (t.keep selects).keep (fun k _ => test k) = t.keep fun k _ => test k := by
    rw [keep_keep]
    apply keep_congr
    intro k e _
    cases inside : test k with
    | false => rfl
    | true =>
        rw [Bool.true_and]
        apply others
        rw [bne_iff_ne]
        rintro rfl
        simp [outside key] at inside
  cases q with
  | set ns key value ttl =>
      simp only [moved]
      rw [keep_insert]
      exact if_neg (Bool.eq_false_iff.1 (outside key))
  | get ns key =>
      apply kept key
      intro k e other
      rw [show (k != keys.compose ns key) = true from other, Bool.true_or]
  | take ns key | delete ns key => exact kept key fun _ _ other => other
  | contains => rfl

end Table

namespace Memory

/-! ## What can be seen of a namespace -/

/-- Whether a composite key begins with a root. -/
def under (root composite : String) : Bool := Text.beginsWith root.toList composite.toList

/-- What is seen of a cache from inside a namespace with the given root. -/
def view (root : String) (_ : Instant) (m : Memory) : Option Schedule × Table :=
  (m.schedule, m.table.keep fun k _ => under root k)

variable {keys : Keys} {ns ns' : String}

theorem under_compose (keys : Keys) (ns key : String) :
    under (keys.root ns) (keys.compose ns key) = true :=
  Text.beginsWith_iff.2 ⟨key.toList, by simp [Keys.compose_eq_root_append]⟩

theorem not_under_apart (apart : keys.Apart ns ns') (key : String) :
    under (keys.root ns') (keys.compose ns key) = false := by
  rw [Bool.eq_false_iff]
  intro inside
  obtain ⟨rest, split⟩ := Text.beginsWith_iff.1 inside
  obtain ⟨rest', split'⟩ := Text.beginsWith_iff.1 (under_compose keys ns key)
  exact apart.not_both ⟨rest', split'.symm⟩ ⟨rest, split.symm⟩

theorem table_congr {m m' : Memory} {root : String} {now : Instant}
    (alike : m.view root now = m'.view root now) :
    m.table.keep (fun k _ => under root k) = m'.table.keep fun k _ => under root k :=
  congrArg Prod.snd alike

/-- Alike caches find the same under the keys of the namespace. -/
theorem find?_congr {m m' : Memory} {root : String} {now : Instant}
    (alike : m.view root now = m'.view root now) {key : String} (inside : under root key = true) :
    m.table.find? key = m'.table.find? key := by
  have found (t : Table) : (t.keep fun k _ => under root k).find? key = t.find? key := by
    rw [Table.find?_keep, inside]
    cases t.find? key <;> rfl
  rw [← found m.table, ← found m'.table, table_congr alike]

theorem answer_congr {m m' : Memory} (same : m.keys = m'.keys) {now : Instant} {q : Request}
    (alike : m.view (m.keys.root q.ns) now = m'.view (m.keys.root q.ns) now) :
    (m.request now q).1 = (m'.request now q).1 := by
  have live (key : String) : m.ledger.live now.nanos (m.keys.compose q.ns key) =
      m'.ledger.live now.nanos (m'.keys.compose q.ns key) := by
    rw [live_ledger, live_ledger, ← same, find?_congr alike (under_compose m.keys q.ns key)]
  rw [(m.request_in_touch now q).1, (m'.request_in_touch now q).1]
  cases q with
  | set | delete => rfl
  | get ns key => exact congrArg Answer.value (live key)
  | take ns key => exact congrArg Answer.value (live key)
  | contains ns key => exact congrArg (Answer.present ·.isSome) (live key)

theorem snapshot_congr {m m' : Memory} (same : m.keys = m'.keys) {now : Instant} {ns : String}
    (alike : m.view (m.keys.root ns) now = m'.view (m.keys.root ns) now) :
    m.snapshot now ns = m'.snapshot now ns := by
  -- The live entries of the namespace are those of the view that are live.
  have chosen (t : Table) : (t.entries.filter fun row =>
      Text.beginsWith (m.keys.root ns).toList row.1.toList && row.2.live now) =
        (t.keep fun k _ => under (m.keys.root ns) k).entries.filter fun row => row.2.live now := by
    show _ = List.filter _ (List.filter _ _)
    rw [List.filter_filter]
    simp only [under, Bool.and_comm]
  unfold snapshot
  rw [← same]
  apply congrArg (List.map _)
  calc
    _ = _ := chosen m.table
    _ = _ := by rw [table_congr alike]
    _ = _ := (chosen m'.table).symm

/-! ## Events -/

theorem view_act {m m' : Memory} (same : m.keys = m'.keys) {root : String} {now : Instant}
    (alike : m.view root now = m'.view root now) (move : Move) :
    (m.act now move).view root now = (m'.act now move).view root now := by
  have tables := Table.moved_congr (table_congr alike) m.keys now move
  have schedules : (m.act now move).schedule = (m'.act now move).schedule := by
    by_cases closing : move = .close
    · subst closing
      rfl
    · rw [m.schedule_act now closing, m'.schedule_act now closing]
      exact congrArg Prod.fst alike
  simp only [view, table_act, schedules, ← same, tables]

theorem view_foldl {m m' : Memory} (same : m.keys = m'.keys) {root : String} {now : Instant}
    (alike : m.view root now = m'.view root now) (made : List Move) :
    (made.foldl (act now) m).view root now = (made.foldl (act now) m').view root now := by
  induction made generalizing m m' with
  | nil => exact alike
  | cons move rest ih =>
      apply ih
      · rw [keys_act, keys_act, same]
      · exact view_act same alike move

/-- Where nobody calls back, the moves of an event depend on the sweep at most. -/
theorem moves_congr {m m' : Memory} {now : Instant} {e : Event} (quiet : e.Quiet)
    (same : m.schedule = m'.schedule) : moves (m, now) e = moves (m', now) e := by
  cases e with
  | request | cleanup | close => rfl
  | traverse ns visitor => simp only [moves, Visitor.sends_of_quiet quiet]
  | sweep | advance => simp only [moves, same]

theorem keys_step (now : Instant) (m : Memory) (e : Event) :
    (service.step (m, now) e).2.1.keys = m.keys :=
  breakdown.keeps (fun m' => m'.keys = m.keys) (s := (m, now)) rfl
    fun m' same move _ => (m'.keys_act _ move).trans same

theorem view_step {m m' : Memory} (same : m.keys = m'.keys) {root : String} {now : Instant}
    {e : Event} (quiet : e.Quiet) (alike : m.view root now = m'.view root now) :
    (service.step (m, now) e).2.1.view root (e.later now) =
      (service.step (m', now) e).2.1.view root (e.later now) := by
  have later : m.view root (e.later now) = m'.view root (e.later now) := alike
  rw [step_eq, step_eq, moves_congr quiet (congrArg Prod.fst alike)]
  exact view_foldl same later _

/-- An event about a namespace leaves what is seen from a namespace apart alone. -/
theorem view_hidden {m : Memory} (apart : m.keys.Apart ns ns') {now : Instant} {e : Event}
    (quiet : e.Quiet) (about : e.concerns ns = true) :
    (service.step (m, now) e).2.1.view (m.keys.root ns') now = m.view (m.keys.root ns') now := by
  cases e with
  | request q =>
      obtain rfl : q.ns = ns := of_decide_eq_true about
      have table := Table.moved_outside (t := m.table) now (not_under_apart apart)
      have schedule : (m.act now (.serve q)).schedule = m.schedule := m.schedule_act now nofun
      show (m.act now (.serve q)).view _ now = _
      simp only [view, table_act, schedule, table]
  | traverse ns visitor =>
      have unchanged : service.iterate now m ns visitor = _ := visit_quiet now quiet 0 _ m
      show (service.iterate now m ns visitor).2.view _ now = _
      rw [unchanged]
  | cleanup | sweep | advance | close => simp [Event.concerns] at about

/-- The outcome of an event about a namespace depends on what is seen from there. -/
theorem outcome_congr {m m' : Memory} (same : m.keys = m'.keys) {now : Instant} {e : Event}
    (quiet : e.Quiet) (about : e.concerns ns = true)
    (alike : m.view (m.keys.root ns) now = m'.view (m.keys.root ns) now) :
    (service.step (m, now) e).1 = (service.step (m', now) e).1 := by
  cases e with
  | request q =>
      obtain rfl : q.ns = ns := of_decide_eq_true about
      exact congrArg Outcome.answer (answer_congr same alike)
  | traverse other visitor =>
      obtain rfl : other = ns := of_decide_eq_true about
      have shown (m : Memory) : (service.iterate now m other visitor).1 =
          { seen := visitor.upTo 0 (m.snapshot now other) } := by
        have unchanged : service.iterate now m other visitor = _ := visit_quiet now quiet 0 _ m
        rw [unchanged]
      show Outcome.shown (service.iterate now m other visitor).1 =
        .shown (service.iterate now m' other visitor).1
      rw [shown, shown, snapshot_congr same alike]
  | cleanup | sweep | advance | close => simp [Event.concerns] at about

/-- The events of a namespace apart are screened off. -/
theorem screens (apart : keys.Apart ns ns') :
    service.Screens (·.keys = keys) (view (keys.root ns')) (fun _ e => e.Quiet)
      (Event.concerns ns) (Event.concerns ns') where
  keeps now m e sound := (keys_step now m e).trans sound
  hides now m e sound quiet about := by
    subst sound
    exact ⟨e.later_of_concerns about now, view_hidden apart quiet about⟩
  follows now m m' e sound sound' quiet alike := view_step (sound.trans sound'.symm) quiet alike
  shows now m m' e sound sound' quiet about alike := by
    subst sound
    exact outcome_congr sound'.symm quiet about alike
  apart e about := by
    rw [Bool.eq_false_iff]
    intro about'
    exact apart.ne (e.eq_of_concerns about about')

end Memory

end ExpiringCache
