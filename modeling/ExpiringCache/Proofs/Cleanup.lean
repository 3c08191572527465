import ExpiringCache.Proofs.Embedded.Codec
import ExpiringCache.Proofs.Embedded.Round
import ExpiringCache.Proofs.Memory.Isolation

/-!
# Exact cleanups

A cleanup removes what has expired and nothing else, and its answer, the entries that are
left and the counter of expirations agree on how many these were (`Clears`). What has
expired stays so. Hence two cleanups, one after the other, come to what the later one would
have done alone (`Clears.trans`), and the second of two at one time finds nothing to do.

All of that holds of caches of either kind, whatever they hold (`cleanup_exact`).
-/

namespace ExpiringCache

/-! ## Removals of what is dead -/

/-- Of some rows, `n` were dead. The others are left, in their order, and of the counters
only that of expirations has changed. -/
structure Clears {α : Type} (dead : α → Bool) (rows rows' : List α) (before after : Counters)
    (n : Nat) : Prop where
  counted : n = rows.countP dead
  kept : rows' = rows.filter fun row => !dead row
  recorded : after = { before with expirations := before.expirations + .ofNat n }

namespace Clears

variable {α : Type} {dead dead' : α → Bool} {rows rows' rows'' left : List α}
  {before between after : Counters} {n n' : Nat}

/-- Whatever else removes the same ends up the same. -/
theorem unique (one : Clears dead rows rows' before between n)
    (other : Clears dead rows rows'' before after n') :
    n = n' ∧ rows' = rows'' ∧ between = after := by
  obtain rfl : n = n' := one.counted.trans other.counted.symm
  exact ⟨rfl, one.kept.trans other.kept.symm, one.recorded.trans other.recorded.symm⟩

/-- If the dead stay dead, the later of two removals could have done the work of both. -/
theorem trans (first : Clears dead rows rows' before between n)
    (second : Clears dead' rows' rows'' between after n')
    (lasting : ∀ row, dead row = true → dead' row = true) :
    Clears dead' rows rows'' before after (n + n') := by
  constructor
  case counted =>
    have gone : (rows.filter dead).countP dead' = rows.countP dead := by
      rw [List.countP_eq_length_filter, List.countP_eq_length_filter, List.filter_filter]
      congr 2
      funext row
      cases past : dead row with
      | true => rw [lasting row past, Bool.true_and]
      | false => rw [Bool.and_false]
    rw [first.counted, second.counted, first.kept, ← gone]
    exact (List.countP_eq_countP_filter_add rows dead' dead).symm
  case kept =>
    rw [second.kept, first.kept, List.filter_filter]
    congr 1
    funext row
    cases past : dead row with
    | true => rw [lasting row past, Bool.not_true, Bool.false_and]
    | false => rw [Bool.not_false, Bool.and_true]
  case recorded =>
    rw [second.recorded, first.recorded]
    simp only [UInt64.ofNat_add, UInt64.add_assoc]

end Clears

/-- If two rounds of some work come to what one does, the second one does nothing. -/
theorem nothing_left {σ : Type} {work : σ → Nat × σ} {s : σ}
    (both : work s = ((work s).1 + (work (work s).2).1, (work (work s).2).2)) :
    work (work s).2 = (0, (work s).2) := by
  have count := congrArg Prod.fst both
  have state := congrArg Prod.snd both
  dsimp only at count state
  rw [Prod.ext_iff]
  refine ⟨?_, state.symm⟩
  show (work (work s).2).1 = 0
  omega

/-! ## Memory caches -/

namespace Memory

variable {m m' : Memory} {now later : Instant}

theorem clears_cleanup (now : Instant) (m : Memory) :
    Clears (fun row => row.2.expired now) m.table.entries (m.cleanup now).2.table.entries
      m.counters (m.cleanup now).2.counters (m.cleanup now).1 where
  counted := length_sub_filter (fun row : String × Entry => row.2.expired now) _
  kept := rfl
  recorded := rfl

/-- A memory cache is what it holds, what it has counted and how it was set up. -/
theorem eq_of_entries (entries : m.table.entries = m'.table.entries)
    (counters : m.counters = m'.counters) (keys : m.keys = m'.keys)
    (schedule : m.schedule = m'.schedule) : m = m' := by
  have tables : m.table = m'.table := Table.ext entries
  cases m
  cases m'
  simp_all only

theorem expired_lasts (order : now.nanos ≤ later.nanos) {e : Entry}
    (past : e.expired now = true) : e.expired later = true := by
  unfold Entry.expired at past ⊢
  cases term : e.deadline with
  | none => simp [term] at past
  | some deadline =>
      simp only [term, decide_eq_true_eq] at past ⊢
      omega

theorem cleanup_cleanup (order : now.nanos ≤ later.nanos) (m : Memory) :
    m.cleanup later =
      ((m.cleanup now).1 + ((m.cleanup now).2.cleanup later).1,
        ((m.cleanup now).2.cleanup later).2) := by
  have both := (m.clears_cleanup now).trans ((m.cleanup now).2.clears_cleanup later)
    fun row => expired_lasts order
  obtain ⟨count, entries, counters⟩ := (m.clears_cleanup later).unique both
  rw [Prod.ext_iff]
  exact ⟨count, eq_of_entries entries counters rfl rfl⟩

/-- A cleanup leaves nothing to another one at the same time. -/
theorem cleanup_again (now : Instant) (m : Memory) :
    (m.cleanup now).2.cleanup now = (0, (m.cleanup now).2) :=
  nothing_left (cleanup_cleanup (Nat.le_refl now.nanos) m)

end Memory

/-! ## Embedded caches -/

namespace Embedded

variable {e e' : Embedded} {store : Store} {now later : Instant}

/-- What has expired are records that decode. -/
theorem hasExpired_iff_exists {now : UInt64} {raw : Bytes} :
    hasExpired now raw = true ↔
      ∃ record, Record.decode raw = .ok record ∧ record.expired now = true := by
  unfold hasExpired
  split
  next record read => simp [read]
  next cause broken => simp [broken]

/-- The records of the store, if there is one. -/
def content (e : Embedded) : List (Bytes × Bytes) :=
  match e.store with
  | none => []
  | some store => store.records

theorem clears_cleanup (now : Instant) (e : Embedded) :
    Clears (fun row => hasExpired now.unixMillis row.2) e.content (e.cleanup now).2.content
      e.counters (e.cleanup now).2.counters (e.cleanup now).1 := by
  cases opened : e.store with
  | none =>
      simp only [cleanup, content, opened]
      exact ⟨rfl, rfl, (Counters.expire_zero _).symm⟩
  | some store =>
      simp only [cleanup, content, opened]
      constructor
      case counted =>
        exact length_sub_filter
          (fun row : Bytes × Bytes => hasExpired now.unixMillis row.2) store.records
      case kept => rfl
      case recorded => rfl

theorem isSome_cleanup (now : Instant) (e : Embedded) :
    (e.cleanup now).2.store.isSome = e.store.isSome := by
  unfold cleanup
  split
  next closed => rw [closed]
  next opened => rw [opened]; rfl

theorem eq_of_content (content : e.content = e'.content) (counters : e.counters = e'.counters)
    (settings : e.settings = e'.settings) (opened : e.store.isSome = e'.store.isSome) :
    e = e' := by
  obtain ⟨keys, store, counters, schedule⟩ := e
  obtain ⟨keys', store', counters', schedule'⟩ := e'
  obtain ⟨rfl, rfl⟩ := Prod.mk.inj settings
  cases counters
  cases store with
  | none => cases store' with
    | none => rfl
    | some s' => cases opened
  | some s => cases store' with
    | none => cases opened
    | some s' =>
        obtain rfl : s = s' := Store.ext content
        rfl

theorem cleanup_cleanup (order : now.unixMillis ≤ later.unixMillis) (e : Embedded) :
    e.cleanup later =
      ((e.cleanup now).1 + ((e.cleanup now).2.cleanup later).1,
        ((e.cleanup now).2.cleanup later).2) := by
  have both := (e.clears_cleanup now).trans ((e.cleanup now).2.clears_cleanup later)
    fun row => hasExpired_mono order
  obtain ⟨count, content, counters⟩ := (e.clears_cleanup later).unique both
  rw [Prod.ext_iff]
  refine ⟨count, eq_of_content content counters ?_ ?_⟩
  · rw [settings_cleanup, settings_cleanup, settings_cleanup]
  · rw [isSome_cleanup, isSome_cleanup, isSome_cleanup]

theorem cleanup_again (now : Instant) (e : Embedded) :
    (e.cleanup now).2.cleanup now = (0, (e.cleanup now).2) :=
  nothing_left (cleanup_cleanup (UInt64.le_refl now.unixMillis) e)

/-- Records that are too short never expire. -/
theorem short_stays {after : List (Bytes × Bytes)} {before between : Counters} {n : Nat}
    {now : UInt64}
    (clears : Clears (fun row => hasExpired now row.2) store.records after before between n)
    {row : Bytes × Bytes} (member : row ∈ store.records) (short : ¬ Record.Whole row.2) :
    row ∈ after := by
  rw [clears.kept, List.mem_filter, Bool.not_eq_true']
  refine ⟨member, Bool.eq_false_iff.2 ?_⟩
  intro past
  obtain ⟨record, read, -⟩ := hasExpired_iff_exists.1 past
  exact short (Record.exists_decode_iff.1 ⟨record, read⟩)

end Embedded

/-! ## Both kinds -/

/-- Take a cache in any state, and any reading of the clock. A cleanup answers how many
entries have expired, removes these and no others, adds their number to the counter of
expirations, and changes nothing else. A second one at the same time finds nothing, and one
at a later time does what it would have left to do: both together come to what the later one
alone comes to.

An embedded cache may hold any records. What has expired are those that decode and are past
their deadline, so that the short ones stay. It goes through its store and drops one record
after the other, and that comes to the same. Its clock is that of milliseconds. -/
theorem cleanup_exact (now : Instant) :
    (∀ m : Memory,
      let n := (m.cleanup now).1
      let m' := (m.cleanup now).2
      Clears (fun row => row.2.expired now) m.table.entries m'.table.entries
        m.counters m'.counters n ∧
      (m'.keys, m'.schedule) = (m.keys, m.schedule) ∧
      m'.cleanup now = (0, m') ∧
      ∀ later : Instant, now.nanos ≤ later.nanos →
        m.cleanup later = (n + (m'.cleanup later).1, (m'.cleanup later).2)) ∧
    ∀ (e : Embedded) (store : Store), e.store = some store →
      let n := (e.cleanup now).1
      let e' := (e.cleanup now).2
      ((Embedded.Round.start e).finish now.unixMillis).result = (n, e') ∧
      (∀ raw, Embedded.hasExpired now.unixMillis raw = true ↔
        ∃ record, Record.decode raw = .ok record ∧ record.expired now.unixMillis = true) ∧
      (∃ store', e'.store = some store' ∧
        Clears (fun row => Embedded.hasExpired now.unixMillis row.2) store.records store'.records
          e.counters e'.counters n ∧
        ∀ row ∈ store.records, ¬ Record.Whole row.2 → row ∈ store'.records) ∧
      (e'.keys, e'.schedule) = (e.keys, e.schedule) ∧
      e'.cleanup now = (0, e') ∧
      ∀ later : Instant, now.unixMillis ≤ later.unixMillis →
        e.cleanup later = (n + (e'.cleanup later).1, (e'.cleanup later).2) := by
  constructor
  case left =>
    intro m n m'
    exact ⟨m.clears_cleanup now, rfl, m.cleanup_again now,
      fun later order => Memory.cleanup_cleanup order m⟩
  case right =>
    intro e store opened n e'
    refine ⟨Embedded.Round.finish_start now e, fun raw => Embedded.hasExpired_iff_exists, ?records,
      e.settings_cleanup now, e.cleanup_again now,
      fun later order => Embedded.cleanup_cleanup order e⟩
    have left := e.isSome_cleanup now
    rw [opened, Option.isSome_some, Option.isSome_iff_exists] at left
    obtain ⟨store', opened'⟩ := left
    have clears := e.clears_cleanup now
    simp only [Embedded.content, opened, opened'] at clears
    exact ⟨store', opened', clears, fun row => Embedded.short_stays clears⟩

/-- Of a record that has expired, a short one, one that is to expire later and one that
never expires, the first cleanup drops the first and the second one the third. -/
theorem cleanup_exact_mixed :
    let m := (((Memory.create .standard 0 ⟨0⟩).set ⟨0⟩ "a" [1] (some (.ofMillis 3))).set
      ⟨0⟩ "b" [2] (some (.ofMillis 9))).set ⟨0⟩ "c" [3] none
    let content := [("a", (Record.mk 3 [1]).encode), ("b", [7, 7, 7]),
      ("c", (Record.mk 9 [2]).encode), ("d", (Record.mk 0 [3]).encode)]
    let store := content.foldl
      (fun store (row : String × Bytes) => store.insert (Text.encode row.1) row.2) Store.empty
    let e := Embedded.create .standard store 0 ⟨0⟩
    let now : Instant := ⟨5000000⟩
    let later : Instant := ⟨9000000⟩
    now.nanos ≤ later.nanos ∧ now.unixMillis ≤ later.unixMillis ∧ e.store = some store ∧
    (m.cleanup now).1 = 1 ∧
      (m.cleanup now).2.table.entries = [("b", ⟨[2], some ⟨9000000⟩⟩), ("c", ⟨[3], none⟩)] ∧
      m.cleanup later =
        (1 + ((m.cleanup now).2.cleanup later).1, ((m.cleanup now).2.cleanup later).2) ∧
    (e.cleanup now).1 = 1 ∧
      (e.cleanup now).2.store.map (·.records) = some [(Text.encode "b", [7, 7, 7]),
        (Text.encode "c", (Record.mk 9 [2]).encode), (Text.encode "d", (Record.mk 0 [3]).encode)] ∧
      e.cleanup later =
        (1 + ((e.cleanup now).2.cleanup later).1, ((e.cleanup now).2.cleanup later).2) := by
  intro m content store e now later
  have forward : now.nanos ≤ later.nanos := by decide
  have forwardMillis : now.unixMillis ≤ later.unixMillis := by decide
  obtain ⟨cleared, -, -, composed⟩ := (cleanup_exact now).1 m
  obtain ⟨-, -, ⟨store', opened', cleared', -⟩, -, -, composed'⟩ :=
    (cleanup_exact now).2 e store rfl
  have one : (m.cleanup now).1 = 1 := cleared.counted.trans (by decide +kernel)
  have one' : (e.cleanup now).1 = 1 := cleared'.counted.trans (by decide +kernel)
  refine ⟨forward, forwardMillis, rfl, one, ?_, ?_, one', ?_, ?_⟩
  · rw [cleared.kept]
    decide +kernel
  · rw [← one]
    exact composed later forward
  · rw [opened', Option.map_some, cleared'.kept]
    decide +kernel
  · rw [← one']
    exact composed' later forwardMillis

end ExpiringCache
