import ExpiringCache.Disk
import ExpiringCache.Proofs.Embedded.Contract
import ExpiringCache.Session

/-!
# Caches that are closed and opened again

A cache borrows the store in a directory. When it is closed the disk has the store
back, and the next cache on that directory goes on with the very same records, so
that a run may be interrupted by any number of closings and openings and is still
the run of one expiring map (`Loan.run_kept_across_renewals`).
-/

namespace ExpiringCache

/-! ## Lending a store -/

namespace Disk

variable {d d' : Disk} {p : Path}

/-- Whether the plain files of a store in one directory and a store in another
one are in each other's way. -/
def Collide (q p : Path) : Prop :=
  (∃ file ∈ keptFiles q, p.within file = true) ∨ ∃ file ∈ keptFiles p, q.within file = true

/-- A store is not inside its own plain files. -/
theorem within_keptFiles {file : Path} (kept : file ∈ keptFiles p) : p.within file = false := by
  obtain ⟨name, -, rfl⟩ := List.mem_map.1 kept
  rw [Path.within, Path.child, Bool.eq_false_iff]
  intro inside
  have := (List.isPrefixOf_iff_prefix.1 inside).length_le
  simp at this

theorem not_collide_self (p : Path) : ¬ Collide p p := by
  rintro (⟨file, kept, inside⟩ | ⟨file, kept, inside⟩)
  · simp [within_keptFiles kept] at inside
  · simp [within_keptFiles kept] at inside

theorem blocked_iff :
    d.blocked p = true ↔ (∃ file ∈ d.files, p.within file = true) ∨
      ∃ r ∈ d.stores, Collide r.1 p := by
  simp only [blocked, plainFiles, Bool.or_eq_true, List.any_append, List.any_flatMap,
    List.any_eq_true, Collide]
  constructor
  · rintro ((file | ⟨r, stored, hit⟩) | ⟨file, kept, r, stored, inside⟩)
    · exact .inl file
    · exact .inr ⟨r, stored, .inl hit⟩
    · exact .inr ⟨r, stored, .inr ⟨file, kept, inside⟩⟩
  · rintro (file | ⟨r, stored, hit | ⟨file, kept, inside⟩⟩)
    · exact .inl (.inl file)
    · exact .inl (.inr ⟨r, stored, hit⟩)
    · exact .inr ⟨file, kept, r, stored, inside⟩

/-- What becomes of the store in a directory does not decide whether there can be one. -/
theorem blocked_put (d : Disk) (p : Path) (store : Option Store) :
    (d.put p store).blocked p = d.blocked p := by
  rw [Bool.eq_iff_iff, blocked_iff, blocked_iff]
  -- The files are the same, and so are the other directories; this one does not count.
  refine or_congr Iff.rfl ⟨?_, ?_⟩
  · rintro ⟨r, stored, hit⟩
    rcases List.mem_cons.1 stored with rfl | other
    · exact absurd hit (not_collide_self p)
    · exact ⟨r, (List.mem_filter.1 other).1, hit⟩
  · rintro ⟨r, stored, hit⟩
    have other : r.1 ≠ p := by
      intro same
      rw [same] at hit
      exact not_collide_self p hit
    exact ⟨r, List.mem_cons_of_mem _ (List.mem_filter.2 ⟨stored, by simp [other]⟩), hit⟩

/-- There can be a store in a directory. -/
structure Usable (d : Disk) (p : Path) : Prop where
  nameable : p.nameable = true
  clear : d.blocked p = false

theorem Usable.put (usable : d.Usable p) (store : Option Store) : (d.put p store).Usable p :=
  ⟨usable.nameable, (d.blocked_put p store).trans usable.clear⟩

theorem usable_of_lend {store : Store} (lent : d.lend p = .ok (store, d')) : d'.Usable p := by
  have usable : d.Usable p := by
    rw [lend, store?] at lent
    split at lent
    next => cases lent
    next free =>
      simp only [Bool.or_eq_true, Bool.not_eq_true', not_or, Bool.not_eq_true,
        Bool.not_eq_false] at free
      exact ⟨free.1, free.2⟩
  cases found : d.store? p with
  | error cause => simp [lend, found, Except.map] at lent
  | ok store =>
      simp only [lend, found, Except.map, Except.ok.injEq, Prod.mk.injEq] at lent
      rw [← lent.2]
      exact usable.put none

/-- What is given back is what the next borrower gets. -/
theorem lend_put (usable : d.Usable p) (store : Store) :
    (d.put p (some store)).lend p = .ok (store, (d.put p (some store)).put p none) := by
  have found : (d.put p (some store)).find? p = some (some store) := by
    simp [find?, put, Bindings.find?]
  have clear := (usable.put (some store)).clear
  simp [lend, store?, usable.nameable, clear, found, Except.map]

end Disk

/-! ## Caches on a disk -/

/-- A cache together with the disk that it has borrowed its store from. -/
structure Loan where
  disk : Disk
  path : Path
  cache : Embedded

/-- What happens to a cache on a disk. -/
inductive Stage
  | event (e : Event)
  /-- The cache is closed, and another one is opened on the same directory, with
  the same delimiter and a sweep setting of its own. -/
  | renew (sweepSeconds : Nat)

namespace Stage

/-- The clock after a stage. -/
def later (now : Instant) : Stage → Instant
  | event e => e.later now
  | renew _ => now

/-- What a run has to keep to: nobody calls back, a closed cache is opened again,
and the millisecond clock does not go back, as it never does before its 64 bits have
run out (`Instant.unixMillis_mono`). -/
def Fair (now : Instant) : Stage → Prop
  | event e => e.Fair (Embedded.regime .standard) False now
  | renew _ => True

end Stage

namespace Loan

/-- Gives the store back and borrows it again for another cache. -/
def renew (now : Instant) (sweepSeconds : Nat) (l : Loan) : Answer × Loan :=
  let disk := match l.cache.close.1 with
    | some store => l.disk.put l.path (some store)
    | none => l.disk
  match disk.lend l.path with
  | .ok (store, disk) =>
      (.done, { l with disk := disk, cache := .create l.cache.keys store sweepSeconds now })
  | .error cause => (.fault cause, { l with disk := disk, cache := l.cache.close.2 })

def step (s : Loan × Instant) : Stage → Outcome × Loan × Instant
  | .event e =>
      let (outcome, cache, now) := Embedded.service.step (s.1.cache, s.2) e
      (outcome, { s.1 with cache := cache }, now)
  | .renew sweepSeconds =>
      let (answer, l) := s.1.renew s.2 sweepSeconds
      (.answer answer, l, s.2)

/-- An expiring map that is opened again is the same map. -/
def contract (keys : Keys) : Contract (Ledger String × Instant) Stage Outcome where
  Allows r
    | .event e, o => (Embedded.regime keys).contract.Allows r e o
    | .renew _, o => o = .answer .done
  next r
    | .event e => (Embedded.regime keys).contract.next r e
    | .renew _ => r

/-- What relates a cache on a disk to the ledger on record. -/
structure InTouch (keys : Keys) (s : Loan × Instant) (r : Ledger String × Instant) : Prop where
  usable : s.1.disk.Usable s.1.path
  cache : Service.Refines.InTouch (Embedded.regime keys) Embedded.ledger (Embedded.Open keys)
    (s.1.cache, s.2) r

theorem renew_of_open {keys : Keys} {l : Loan} {store : Store} (usable : l.disk.Usable l.path)
    (same : l.cache.keys = keys) (opened : l.cache.store = some store) (now : Instant)
    (sweepSeconds : Nat) :
    ∃ disk, disk.Usable l.path ∧ l.renew now sweepSeconds =
      (.done, ⟨disk, l.path, .create keys store sweepSeconds now⟩) := by
  refine ⟨_, (usable.put (some store)).put none, ?_⟩
  simp only [renew, Embedded.close, opened, Disk.lend_put usable store, same]

/-- One stage, against a ledger on record. -/
theorem in_touch (keys : Keys) (s : Loan × Instant) (r : Ledger String × Instant) (stage : Stage)
    (touch : InTouch keys s r) (fair : stage.Fair r.2) :
    (contract keys).Allows r stage (step s stage).1 ∧
      InTouch keys (step s stage).2 ((contract keys).next r stage) := by
  obtain ⟨l, now⟩ := s
  obtain ⟨usable, cache⟩ := touch
  cases stage with
  | event e =>
      have fair : e.Fair (Embedded.regime keys) False r.2 := ⟨fair.quiet, fair.open_, fair.forward⟩
      obtain ⟨allowed, after⟩ := (Embedded.refines keys).in_touch (l.cache, now) r e cache fair
      exact ⟨allowed, usable, after⟩
  | renew sweepSeconds =>
      -- The new cache has the very store that the old one gave back.
      obtain ⟨store, opened, sound⟩ := cache.sound.store
      obtain ⟨disk, usable, renewed⟩ :=
        renew_of_open usable cache.sound.keys opened now sweepSeconds
      have alike := cache.alike
      rw [Embedded.ledger_of_store opened] at alike
      simp only [step, renewed]
      exact ⟨rfl, usable, ⟨rfl, store, rfl, sound⟩, cache.clock, alike⟩

/-- Closing the cache in a slot and launching another one there renews its loan. -/
theorem renew_session {s : Session} {name : String} {slot : Slot} {l : Loan} {o : Opening}
    (cache : slot.cache = .embedded l.cache) (path : slot.path = some l.path)
    (disk : s.disk = l.disk) {store : Store} (opened : l.cache.store = some store)
    (usable : l.disk.Usable l.path) (engine : o.settings.engine = .embedded)
    (samePath : Path.ofText o.settings.embedded.path = l.path)
    (sameKeys : (if o.bare then ⟨o.settings.delimiter⟩ else o.settings.keys) = l.cache.keys)
    (line : Line) :
    let renewed := (l.renew s.now (o.sweepSeconds o.settings.embedded.sweepSeconds)).2
    ∃ s', (s.close name slot).launch name o line = (.ok s', line) ∧ s'.now = s.now ∧
      s'.disk = renewed.disk ∧
      s'.find? name = some ⟨.embedded renewed.cache, o.bare, some renewed.path⟩ := by
  have lent := Disk.lend_put usable store
  have closed : s.close name slot =
      { s.put name { slot with cache := .embedded l.cache.close.2 } with
        disk := l.disk.put l.path (some store) } := by
    simp [Session.close, cache, Cache.close, Embedded.close, opened, Session.giveBack, path, disk,
      Session.put]
  -- The slot still holds the closed cache, which has no store to give back.
  have dropped (d : Disk) : ({ s.close name slot with disk := d }.drop name).disk = d ∧
      ({ s.close name slot with disk := d }.drop name).now = s.now := by
    simp [closed, Session.drop, Session.find?, Session.put, Bindings.find?, Session.giveBack,
      Cache.close, Embedded.close, path]
  have opening : (s.close name slot).openCache o line =
      (.ok (⟨.embedded (.create l.cache.keys store
          (o.sweepSeconds o.settings.embedded.sweepSeconds) s.now), o.bare, some l.path⟩,
        (l.disk.put l.path (some store)).put l.path none), line) := by
    simp [Session.openCache, engine, samePath, sameKeys, closed, lent, Except.map, Session.put]
  refine ⟨_, by rw [Session.launch, opening]; rfl, ?_, ?_, ?_⟩
  · exact (dropped _).2
  · simp only [Session.put, (dropped _).1]
    simp [renew, Embedded.close, opened, lent]
  · simp [Session.find?, Session.put, Bindings.find?, renew, Embedded.close, opened, lent]

/-! ## Whole runs -/

/-- Take a store of texts and whole records, in a directory where it can be lent,
and a cache on it. Every run of the cache, interrupted by closings and openings as
one likes, has the outcomes of an expiring map that starts with the records of the
store and is never interrupted. -/
theorem run_kept_across_renewals (keys : Keys) (sweepSeconds : Nat) (now : Instant)
    {disk disk' : Disk} {path : Path} {store : Store} (lent : disk.lend path = .ok (store, disk'))
    (sound : store.Sound) (stages : List Stage)
    (fair : Throughout Stage.later Stage.Fair now stages) :
    (contract keys).Kept (store.ledger, now) stages
      (trace step (⟨disk', path, .create keys store sweepSeconds now⟩, now) stages).1 := by
  have start : InTouch keys (⟨disk', path, .create keys store sweepSeconds now⟩, now)
      (store.ledger, now) :=
    ⟨Disk.usable_of_lend lent, ⟨rfl, store, rfl, sound⟩, rfl, Set.eqOn_refl _ _⟩
  have course : ∀ (r : Ledger String × Instant) (stage : Stage),
      ((contract keys).next r stage).2 = stage.later r.2 := by
    intro r stage
    cases stage <;> rfl
  exact ((contract keys).kept_trace (in_touch keys) start (fair.lift course)).1

/-- A store with an entry that has expired and one that has not: the first is
dropped by whoever reads it, and the other one outlives two openings. -/
theorem run_kept_across_renewals_twice :
    let path : Path := ⟨["cache"]⟩
    let store := (Store.empty.insert (Text.encode "ns:old") (Record.encode ⟨5, [1]⟩)).insert
      (Text.encode "ns:new") (Record.encode ⟨3000, [2]⟩)
    let disk := Disk.put {} path (some store)
    let stages : List Stage :=
      [.event (.request (.get "ns" "old")), .event .sweep, .renew 60,
       .event (.request (.set "ns" "own" [3] (some (.ofMillis 10)))),
       .event (.traverse "ns" .observer), .event (.advance 500000000), .event .cleanup, .renew 0,
       .event (.request (.take "ns" "new")), .event (.request (.contains "ns" "own"))]
    disk.lend path = .ok (store, disk.put path none) ∧ store.Sound ∧
      Throughout Stage.later Stage.Fair ⟨2000000000⟩ stages ∧
      (contract .standard).Kept (store.ledger, ⟨2000000000⟩) stages
        (trace step (⟨disk.put path none, path, .create .standard store 1 ⟨2000000000⟩⟩,
          ⟨2000000000⟩) stages).1 := by
  have usable : Disk.Usable {} ⟨["cache"]⟩ := ⟨by decide +kernel, rfl⟩
  have lent := Disk.lend_put usable ((Store.empty.insert (Text.encode "ns:old")
    (Record.encode ⟨5, [1]⟩)).insert (Text.encode "ns:new") (Record.encode ⟨3000, [2]⟩))
  have sound := (Store.sound_empty.insert "ns:old" ⟨5, [1]⟩).insert "ns:new" ⟨3000, [2]⟩
  have quiet : Visitor.observer.Quiet := fun _ _ _ => rfl
  refine ⟨lent, sound, ?fair, run_kept_across_renewals .standard 1 ⟨2000000000⟩ lent sound _ ?fair⟩
  refine ⟨⟨trivial, nofun, le_rfl⟩, ⟨trivial, nofun, le_rfl⟩, trivial,
    ⟨trivial, nofun, le_rfl⟩, ⟨quiet, nofun, le_rfl⟩, ⟨trivial, nofun, ?forward⟩,
    ⟨trivial, nofun, le_rfl⟩, trivial, ⟨trivial, nofun, le_rfl⟩, ⟨trivial, nofun, le_rfl⟩,
    trivial⟩
  case forward => exact Instant.unixMillis_mono (by decide) (by decide)

end Loan

end ExpiringCache
