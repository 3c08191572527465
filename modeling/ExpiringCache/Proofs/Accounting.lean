import ExpiringCache.Proofs.Embedded.Callbacks
import ExpiringCache.Proofs.Embedded.Inventory
import ExpiringCache.Proofs.Memory.Inventory

/-!
# Removals are accounted for

In a cache of either kind the counters of deletions and expirations together say
exactly how many entries have left it, whatever made them leave
(`Counters.removals_exact`).
-/

namespace ExpiringCache

/-- In every run of a cache whose records are all whole, from counters at zero, the records
and the removals make up what was there and what has come in, as a close leaves all records
on the disk. -/
theorem Loan.counted_runs {start : Loan × Instant} {log : List (Event × List Move)} {l : Loan}
    {now : Instant} (runs : Runs Comes start log (l, now)) (whole : start.1.content.Whole)
    (fresh : start.1.cache.counters = .zero) :
    .ofNat l.content.size + l.cache.counters.deletes + l.cache.counters.expirations =
        .ofNat start.1.content.size + .ofNat (breakdown.tally inventory.arrivals start log) ∧
      l.cache.counters.deletes + l.cache.counters.expirations =
        .ofNat (breakdown.tally inventory.departures start log) := by
  obtain ⟨books, left⟩ := exact_inventory.runs lawful_comes runs whole fresh
  refine ⟨?_, left⟩
  rw [breakdown.tally_eq_zero dropped_eq_zero] at books
  rw [← Store.card_held, ← Store.card_held]
  exact (UInt64.add_zero _).symm.trans books

namespace Counters

/-- In every run of a new memory cache, and of a cache that is opened on a directory
where every record is whole, the entries held, the deletions and the expirations make
up the entries that were there at the start and those that have come in since, but for
what a memory cache drops when it is closed. The deletions and expirations are all that
have left in any other way. Visitors may call back, and an embedded cache may come to any
records then that an iterator can hand out. As a beginning of a run is a run, this holds
after every event. -/
theorem removals_exact (keys : Keys) (sweepSeconds : Nat) (now : Instant) (events : List Event) :
    (let start := (Memory.create keys sweepSeconds now, now)
     let m := (trace Memory.service.step start events).2.1
     .ofNat m.table.size + m.counters.deletes + m.counters.expirations +
          .ofNat (Memory.breakdown.total Memory.inventory.dropped start events) =
        .ofNat (Memory.breakdown.total Memory.inventory.arrivals start events) ∧
      m.counters.deletes + m.counters.expirations =
        .ofNat (Memory.breakdown.total Memory.inventory.departures start events)) ∧
    ∀ {disk : Disk} {path : Path} {store : Store}, store.Whole →
      let start : Loan × Instant := (⟨disk, path, .create keys store sweepSeconds now⟩, now)
      (let l := (trace Loan.service.step start events).2.1
       .ofNat l.content.size + l.cache.counters.deletes + l.cache.counters.expirations =
          .ofNat store.size + .ofNat (Loan.breakdown.total Loan.inventory.arrivals start events) ∧
        l.cache.counters.deletes + l.cache.counters.expirations =
          .ofNat (Loan.breakdown.total Loan.inventory.departures start events)) ∧
      ∀ (log : List (Event × List Move)) (l : Loan) (now' : Instant),
        Runs Loan.Comes start log (l, now') →
          .ofNat l.content.size + l.cache.counters.deletes + l.cache.counters.expirations =
              .ofNat store.size +
                .ofNat (Loan.breakdown.tally Loan.inventory.arrivals start log) ∧
            l.cache.counters.deletes + l.cache.counters.expirations =
              .ofNat (Loan.breakdown.tally Loan.inventory.departures start log) := by
  constructor
  · intro start m
    obtain ⟨books, left⟩ := Memory.exact_inventory.run (s := start) trivial rfl events
    refine ⟨?_, left⟩
    rw [← Table.card_held]
    exact books.trans (UInt64.zero_add _)
  · intro disk path store whole start
    have borrowed : start.1.content = store := Loan.content_of_open rfl
    have sound : start.1.content.Whole := by rw [borrowed]; exact whole
    rw [← borrowed]
    constructor
    · have counted := Loan.counted_runs (Loan.runs_trace start events) sound rfl
      rw [← Loan.breakdown.total_eq_tally, ← Loan.breakdown.total_eq_tally] at counted
      exact counted
    · intro log l now' runs
      exact Loan.counted_runs runs sound rfl

/-- A visitor that sets one entry and takes another one, in a store with a record that
has expired. Another visitor does so only once, and then is shown what it has set, as the
iterator looks at the store whenever it is asked. -/
theorem removals_exact_called_back :
    let store := (Store.empty.insert (Text.encode "ns:a") (Record.encode ⟨5, [1]⟩)).insert
      (Text.encode "ns:b") (Record.encode ⟨0, [2]⟩)
    let visitor : Visitor :=
      ⟨fun _ key _ => [.set "ns" (key ++ key) [3] (some (.ofMillis 10)), .take "ns" key],
        fun _ _ _ => true⟩
    let events : List Event :=
      [.request (.set "ns" "c" [4] none), .traverse "ns" visitor, .advance 1000000000, .close]
    let start : Loan × Instant :=
      (⟨{}, ⟨["cache"]⟩, .create .standard store 1 ⟨2000000000⟩⟩, ⟨2000000000⟩)
    let once : Visitor :=
      ⟨fun n key value => if n = 1 then visitor.requests n key value else [], visitor.goesOn⟩
    let before := (Loan.service.step start (.request (.set "ns" "c" [4] none))).2
    let rows := [(Text.encode "ns:a", Record.encode ⟨5, [1]⟩),
      (Text.encode "ns:b", Record.encode ⟨0, [2]⟩),
      (Text.encode "ns:bb", Record.encode ⟨2010, [3]⟩),
      (Text.encode "ns:c", Record.encode ⟨0, [4]⟩)]
    let visited := Embedded.visit before.2 "ns" once 0 rows before.1.cache
    let log : List (Event × List Move) :=
      [(.request (.set "ns" "c" [4] none), [.serve (.set "ns" "c" [4] none)]),
       (.traverse "ns" once, Embedded.walk .standard before.2 "ns" once 0 rows)]
    store.Whole ∧
      (let l := (trace Loan.service.step start events).2.1
       .ofNat l.content.size + l.cache.counters.deletes + l.cache.counters.expirations =
            .ofNat store.size +
              .ofNat (Loan.breakdown.total Loan.inventory.arrivals start events) ∧
          l.cache.counters.deletes + l.cache.counters.expirations =
            .ofNat (Loan.breakdown.total Loan.inventory.departures start events)) ∧
      visited.1.seen = [("b", [2]), ("bb", [3]), ("c", [4])] ∧
      (let l : Loan := { before.1 with cache := visited.2 }
       Runs Loan.Comes start log (l, before.2) ∧
        .ofNat l.content.size + l.cache.counters.deletes + l.cache.counters.expirations =
            .ofNat store.size + .ofNat (Loan.breakdown.tally Loan.inventory.arrivals start log) ∧
          l.cache.counters.deletes + l.cache.counters.expirations =
            .ofNat (Loan.breakdown.tally Loan.inventory.departures start log)) ∧
      Loan.breakdown.tally Loan.inventory.arrivals start log = 2 ∧
      Loan.breakdown.tally Loan.inventory.departures start log = 2 := by
  intro store visitor events start once before rows visited log
  have sound := (Store.sound_empty.insert "ns:a" ⟨5, [1]⟩).insert "ns:b" ⟨0, [2]⟩
  have whole : store.Whole := fun r member => (sound r member).2
  obtain ⟨-, onDisk⟩ := removals_exact .standard 1 ⟨2000000000⟩ events
  obtain ⟨books, booksOfRuns⟩ := @onDisk {} ⟨["cache"]⟩ store whole
  have handed : Embedded.Handed before.2 "ns" once before.1.cache rows :=
    Embedded.handed_of_looking (by decide +kernel) (by decide +kernel) (by decide +kernel)
  have runs : Runs Loan.Comes start log ({ before.1 with cache := visited.2 }, before.2) :=
    .next (.own start _) (.next (.handed handed) (.done _))
  have called := booksOfRuns log { before.1 with cache := visited.2 } before.2 runs
  refine ⟨whole, ?books, ?seen, ⟨runs, called⟩, ?arrived, ?left⟩
  case books =>
    -- With the start spelt out both sides are the same, and no run is evaluated.
    simp only [start]
    exact books
  case seen => decide +kernel
  case arrived => decide +kernel
  case left => decide +kernel

end Counters

end ExpiringCache
