import ExpiringCache.Memory
import ExpiringCache.Proofs.Ledger

/-!
# Memory caches keep the contract

A memory cache drops expired entries when it likes and hides the others, so that
its table is a ledger short of some entries that are no longer live.
-/

namespace ExpiringCache

/-! ## Entries -/

/-- An entry, as it stands on a ledger. -/
def Entry.term (e : Entry) : Term := ⟨e.value, e.deadline.map (·.nanos)⟩

theorem Entry.live_term (e : Entry) (now : Instant) :
    e.term.live now.nanos = if e.expired now then none else some e.value := by
  unfold term Term.live expired
  cases e.deadline with
  | none => rfl
  | some deadline =>
      by_cases past : deadline.nanos ≤ now.nanos
      · simp [past, Nat.not_lt.2 past]
      · simp [past, Nat.not_le.1 past]

namespace Memory

/-- Deadlines are instants, to the nanosecond. One whose seconds do not fit a
signed 64-bit number is beyond the clock and means never. -/
def regime (keys : Keys) : Regime where
  keys := keys
  reading := Instant.nanos
  deadline? now d :=
    if now.nanos + d.nanos < UInt64.size / 2 * nanosPerSecond then some (now.nanos + d.nanos)
    else none
  Precedes := (· ≠ ·)

theorem term_make (keys : Keys) (value : Bytes) (ttl : Option Duration) (now : Instant) :
    (Entry.make value ttl now).term = (regime keys).term now value ttl := by
  rw [Regime.term_eq]
  unfold Entry.make Entry.term
  cases limit? ttl with
  | none => rfl
  | some d =>
      by_cases fits : now.nanos + d.nanos < UInt64.size / 2 * nanosPerSecond <;>
        simp [Instant.after?, regime, fits]

def service : Service Memory where
  request := request
  iterate := iterate
  cleanup := cleanup
  sweep now m := if m.schedule.isSome then (m.cleanup now).2 else m
  pass := pass
  close := close

/-- The ledger that a cache holds. -/
def ledger (m : Memory) : Ledger String := fun key => (m.table.find? key).map Entry.term

theorem live_ledger (m : Memory) (now : Instant) (key : String) :
    m.ledger.live now.nanos key =
      (m.table.find? key).bind fun e => if e.expired now then none else some e.value := by
  simp only [ledger, Ledger.live, Option.bind_map, Function.comp_def, Entry.live_term]

theorem ledger_insert (m : Memory) (key : String) (e : Entry) :
    ledger { m with table := m.table.insert key e } = m.ledger.put key e.term := by
  funext other
  by_cases same : other = key
  · simp [ledger, Ledger.put, Table.find?_insert, same]
  · simp [ledger, Ledger.put, Table.find?_insert, same, Ne.symm same]

theorem ledger_erase (m : Memory) (key : String) :
    ledger { m with table := m.table.erase key } = m.ledger.drop key := by
  funext other
  by_cases same : other = key
  · simp [ledger, Ledger.drop, Table.find?_erase, same]
  · simp [ledger, Ledger.drop, Table.find?_erase, same, Ne.symm same]

@[simp] theorem ledger_count (m : Memory) (change : Counters → Counters) :
    (m.count change).ledger = m.ledger := rfl

@[simp] theorem keys_count (m : Memory) (change : Counters → Counters) :
    (m.count change).keys = m.keys := rfl

/-! ## Requests -/

theorem drop_of_absent {m : Memory} {key : String} (absent : m.table.find? key = none) :
    m.ledger.drop key = m.ledger := by
  funext other
  by_cases same : other = key
  · simp [ledger, Ledger.drop, same, absent]
  · simp [ledger, Ledger.drop, same]

theorem get_in_touch (now : Instant) (m : Memory) (key : String) :
    (m.get now key).1 = m.ledger.live now.nanos key ∧ (m.get now key).2.keys = m.keys ∧
      Set.EqOn (m.get now key).2.ledger.live m.ledger.live (Set.Ici now.nanos) := by
  have live := m.live_ledger now key
  cases found : m.table.find? key with
  | none => simp [get, found, live, Set.eqOn_refl]
  | some e =>
      cases past : e.expired now with
      | false => simp [get, found, past, live, Set.eqOn_refl]
      | true =>
          have dead : m.ledger.live now.nanos key = none := by simp [live, found, past]
          simp only [get, found, past, if_true, ledger_count, keys_count, ledger_erase, dead,
            true_and]
          exact Ledger.eqOn_drop dead

theorem take_in_touch (now : Instant) (m : Memory) (key : String) :
    (m.take now key).1 = m.ledger.live now.nanos key ∧ (m.take now key).2.keys = m.keys ∧
      (m.take now key).2.ledger = m.ledger.drop key := by
  have live := m.live_ledger now key
  cases found : m.table.find? key with
  | none => simp [take, found, live, drop_of_absent found]
  | some e => cases past : e.expired now <;> simp [take, found, past, live, ledger_erase]

theorem contains_eq (now : Instant) (m : Memory) (key : String) :
    m.contains now key = (m.ledger.live now.nanos key).isSome := by
  rw [live_ledger]
  cases found : m.table.find? key with
  | none => simp [contains, found]
  | some e => cases past : e.expired now <;> simp [contains, found, Entry.live, past]

theorem delete_in_touch (m : Memory) (key : String) :
    (m.delete key).keys = m.keys ∧ (m.delete key).ledger = m.ledger.drop key := by
  cases found : m.table.find? key with
  | none => simp [delete, found, drop_of_absent found]
  | some e => simp [delete, found, ledger_erase]

theorem set_in_touch (now : Instant) (m : Memory) (key : String) (value : Bytes)
    (ttl : Option Duration) :
    (m.set now key value ttl).keys = m.keys ∧
      (m.set now key value ttl).ledger =
        m.ledger.put key ((regime m.keys).term now value ttl) := by
  simp [set, ledger_insert, term_make m.keys]

theorem request_in_touch (now : Instant) (m : Memory) (q : Request) :
    (m.request now q).1 = m.ledger.answer (regime m.keys) now q ∧
      (m.request now q).2.keys = m.keys ∧
      Set.EqOn (m.request now q).2.ledger.live (m.ledger.serve (regime m.keys) now q).live
        (Set.Ici now.nanos) := by
  cases q with
  | set ns key value ttl =>
      obtain ⟨keys, ledger⟩ := m.set_in_touch now (m.keys.compose ns key) value ttl
      refine ⟨rfl, keys, ?_⟩
      simp only [request, Ledger.serve, ledger]
      exact Set.eqOn_refl _ _
  | get ns key =>
      obtain ⟨found, keys, alike⟩ := m.get_in_touch now (m.keys.compose ns key)
      exact ⟨congrArg Answer.value found, keys, alike⟩
  | take ns key =>
      obtain ⟨found, keys, ledger⟩ := m.take_in_touch now (m.keys.compose ns key)
      refine ⟨congrArg Answer.value found, keys, ?_⟩
      simp only [request, Ledger.serve, ledger]
      exact Set.eqOn_refl _ _
  | contains ns key =>
      exact ⟨congrArg Answer.present (m.contains_eq now _), rfl, Set.eqOn_refl _ _⟩
  | delete ns key =>
      obtain ⟨keys, ledger⟩ := m.delete_in_touch (m.keys.compose ns key)
      refine ⟨rfl, keys, ?_⟩
      simp only [request, Ledger.serve, ledger]
      exact Set.eqOn_refl _ _

/-! ## Traversals -/

/-- An entry in the snapshot of a namespace stands in the table under its
composite key. -/
theorem compose_of_beginsWith (keys : Keys) {ns composite : String}
    (inside : Text.beginsWith (keys.root ns).toList composite.toList = true) :
    keys.compose ns (String.ofList (composite.toList.drop (keys.root ns).toList.length)) =
      composite := by
  obtain ⟨rest, split⟩ := Text.beginsWith_iff.1 inside
  rw [Keys.compose_eq_root_append, ← String.toList_inj, split]
  simp

theorem mem_snapshot {now : Instant} {m : Memory} {ns key : String} {value : Bytes} :
    (key, value) ∈ m.snapshot now ns ↔
      m.ledger.live now.nanos (m.keys.compose ns key) = some value := by
  simp only [snapshot, List.mem_map, List.mem_filter, Bool.and_eq_true, Prod.mk.injEq,
    live_ledger, Option.bind_eq_some_iff, Table.find?, Bindings.find?_eq_some m.table.nodup]
  constructor
  -- The logical key is what is left of the composite one, so it composes back.
  · rintro ⟨⟨composite, e⟩, ⟨member, inside, live⟩, rfl, rfl⟩
    rw [compose_of_beginsWith m.keys inside]
    exact ⟨e, member, by simpa [Entry.live] using live⟩
  · rintro ⟨e, member, live⟩
    have inside : Text.beginsWith (m.keys.root ns).toList (m.keys.compose ns key).toList = true :=
      Text.beginsWith_iff.2 ⟨key.toList, by simp [Keys.compose_eq_root_append]⟩
    refine ⟨(m.keys.compose ns key, e), ⟨member, inside, ?_⟩, ?_, ?_⟩
    · cases past : e.expired now <;> simp [Entry.live, past] at live ⊢
    · simp [Keys.compose_eq_root_append]
    · cases past : e.expired now <;> simp [past] at live ⊢
      exact live

/-- The snapshot of a namespace lists its live entries. -/
theorem lists_snapshot (now : Instant) (m : Memory) (ns : String) :
    m.ledger.Lists (regime m.keys) now ns (m.snapshot now ns) where
  complete _ _ := mem_snapshot
  ordered := by
    rw [snapshot, List.pairwise_map]
    have distinct := (List.pairwise_map.1 m.table.nodup).filter
      fun row => Text.beginsWith (m.keys.root ns).toList row.1.toList && row.2.live now
    apply distinct.imp_of_mem
    intro a b first second differ
    simp only [List.mem_filter, Bool.and_eq_true] at first second
    simp only [regime, compose_of_beginsWith m.keys first.2.1,
      compose_of_beginsWith m.keys second.2.1]
    exact differ

theorem visit_quiet (now : Instant) {visitor : Visitor} (quiet : visitor.Quiet) (count : Nat)
    (listing : List (String × Bytes)) (m : Memory) :
    visit now visitor count listing m = ({ seen := visitor.upTo count listing }, m) := by
  induction listing generalizing count with
  | nil => rfl
  | cons head rest ih =>
      obtain ⟨key, value⟩ := head
      have silent : visitor.requests (count + 1) key value = [] := quiet _ _ _
      cases goesOn : visitor.goesOn (count + 1) key value <;>
        simp [visit, silent, answerAll, goesOn, ih, Visitor.upTo, Traversal.after]

/-! ## Sweeping -/

theorem ledger_cleanup (now : Instant) (m : Memory) (key : String) :
    (m.cleanup now).2.ledger key =
      ((m.table.find? key).filter fun e => e.live now).map Entry.term :=
  congrArg (Option.map Entry.term) (m.table.find?_keep _ key)

theorem cleanup_in_touch (now : Instant) (m : Memory) :
    (m.cleanup now).2.keys = m.keys ∧
      Set.EqOn (m.cleanup now).2.ledger.live m.ledger.live (Set.Ici now.nanos) := by
  refine ⟨rfl, ?_⟩
  intro t later
  funext key
  simp only [Ledger.live, ledger_cleanup]
  cases found : m.table.find? key with
  | none => simp [ledger, found]
  | some e =>
      cases past : e.expired now with
      | false => simp [ledger, found, Entry.live, past, Option.filter]
      | true =>
          -- What the sweep drops is not live at any later time either.
          have dead := Term.live_none_of_le later (by rw [e.live_term, past]; rfl)
          simp [ledger, found, Entry.live, past, Option.filter, dead]

/-! ## Runs -/

theorem refines (keys : Keys) :
    service.Refines (regime keys) ledger (·.keys = keys) True where
  request now m q sound := by
    subst sound
    exact m.request_in_touch now q
  iterate now m ns visitor sound quiet := by
    subst sound
    have unchanged : service.iterate now m ns visitor = _ := visit_quiet now quiet 0 _ m
    rw [unchanged]
    exact ⟨⟨_, m.lists_snapshot now ns, rfl⟩, rfl, Set.eqOn_refl _ _⟩
  cleanup now m sound := by
    obtain ⟨same, alike⟩ := m.cleanup_in_touch now
    exact ⟨same.trans sound, alike⟩
  sweep now m sound := by
    simp only [service]
    split
    next =>
      obtain ⟨same, alike⟩ := m.cleanup_in_touch now
      exact ⟨same.trans sound, alike⟩
    next => exact ⟨sound, Set.eqOn_refl _ _⟩
  pass earlier later m sound := by
    obtain ⟨same, alike⟩ := m.cleanup_in_touch later
    simp only [service, pass]
    split
    next s =>
      split
      next => exact ⟨same.trans sound, alike⟩
      next => exact ⟨sound, Set.eqOn_refl _ _⟩
    next => exact ⟨sound, Set.eqOn_refl _ _⟩
  close _ m sound := ⟨sound, rfl⟩

end Memory

end ExpiringCache
