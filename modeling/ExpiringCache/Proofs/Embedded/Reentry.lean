import ExpiringCache.Proofs.Embedded.Walk

/-!
# Visitors that change what they visit

The visitor of a traversal may send requests to the cache that is being traversed, and
these may write, remove or reclaim the very records that the traversal comes to. What it
comes to then depends on the iterator that hands out the records: it may look at the store
whenever it is asked for the next one, or read ahead and hand out records that are no longer
there. All that is asked of it is that what it hands out or passes over was there, or was
not, at some time when it was asked (`Offers`, `Exhausted`). To read the whole namespace at
the start is one way to do so (`handed_within`).

Whichever way it is, the traversal does no harm to records that have not expired, comes to
each key at most once and in order, misses no record that is left alone, and counts the
expired records that go (`Reentrant`, `iterate_reentrant`).
-/

namespace ExpiringCache

namespace Embedded

variable {e : Embedded} {store s : Store} {keys : Keys} {now : Instant} {ns : String}
  {visitor : Visitor} {rows before : List (Bytes × Bytes)} {row : Bytes × Bytes} {key : Bytes}
  {cut : Option (Bytes × Bytes)}

/-! ## Iterators -/

/-- A store that an iterator has found when it was asked for a record: the one at the start,
or one that was left when the traversal was done with a record. -/
def Stood (now : Instant) (ns : String) (visitor : Visitor) (e : Embedded)
    (rows : List (Bytes × Bytes)) (s : Store) : Prop :=
  ∃ part, part <+: rows ∧ (visit now ns visitor 0 part e).2.store = some s

/-- A key of the namespace that comes after the record that was handed out last. -/
structure Ahead (e : Embedded) (ns : String) (rows : List (Bytes × Bytes)) (key : Bytes) :
    Prop where
  inside : Text.beginsWith (Text.encode (e.keys.root ns)) key = true
  beyond : ∀ last ∈ rows.getLast?, last.1 < key

/-- What an iterator may hand out after some records: the next one ahead, as far as it has
found the store. -/
structure Offers (now : Instant) (ns : String) (visitor : Visitor) (e : Embedded)
    (rows : List (Bytes × Bytes)) (row : Bytes × Bytes) : Prop where
  ahead : Ahead e ns rows row.1
  stored : ∃ s, Stood now ns visitor e rows s ∧ s.find? row.1 = some row.2
  nearest : ∀ key, Ahead e ns rows key → key < row.1 →
    ∃ s, Stood now ns visitor e rows s ∧ s.find? key = none

/-- When an iterator may have nothing more to hand out. -/
def Exhausted (now : Instant) (ns : String) (visitor : Visitor) (e : Embedded)
    (rows : List (Bytes × Bytes)) : Prop :=
  ∀ key, Ahead e ns rows key → ∃ s, Stood now ns visitor e rows s ∧ s.find? key = none

/-- Records that are handed out one after the other, as long as the traversal goes on. -/
structure Offered (now : Instant) (ns : String) (visitor : Visitor) (e : Embedded)
    (rows : List (Bytes × Bytes)) : Prop where
  passed : ∀ before row, before ++ [row] <+: rows → Passed e.keys now ns visitor before
  offers : ∀ before row, before ++ [row] <+: rows → Offers now ns visitor e before row

/-- All records that are handed out until the traversal ends, or there are no more. -/
structure Handed (now : Instant) (ns : String) (visitor : Visitor) (e : Embedded)
    (rows : List (Bytes × Bytes)) : Prop extends Offered now ns visitor e rows where
  exhausted : Passed e.keys now ns visitor rows → Exhausted now ns visitor e rows

theorem Stood.start (opened : e.store = some store) : Stood now ns visitor e rows store :=
  ⟨[], List.nil_prefix, opened⟩

theorem Stood.mono (part : before <+: rows) (stood : Stood now ns visitor e before s) :
    Stood now ns visitor e rows s := by
  obtain ⟨earlier, within, state⟩ := stood
  exact ⟨earlier, within.trans part, state⟩

/-- Such a store is what some of the moves of the traversal have left. -/
theorem Stood.moves (stood : Stood now ns visitor e rows s) :
    ∃ made, made <+: walk e.keys now ns visitor 0 rows ∧
      (made.foldl (act now) e).store = some s := by
  obtain ⟨part, ⟨later, rfl⟩, state⟩ := stood
  rw [visit_state] at state
  exact ⟨_, walk_prefix part later, state⟩

theorem Offered.of_prefix (offered : Offered now ns visitor e rows) (part : before <+: rows) :
    Offered now ns visitor e before :=
  ⟨fun first row split => offered.passed first row (split.trans part),
    fun first row split => offered.offers first row (split.trans part)⟩

theorem Ahead.mem_within (ahead : Ahead e ns rows key) {raw : Bytes}
    (found : s.find? key = some raw) :
    (key, raw) ∈ s.within (Text.encode (e.keys.root ns)) :=
  List.mem_filter.2 ⟨Bindings.mem_of_find? found, ahead.inside⟩

/-! ## Iterators that read a store -/

/-- The first record of a store ahead of some records. -/
def next? (e : Embedded) (ns : String) (s : Store) (rows : List (Bytes × Bytes)) :
    Option (Bytes × Bytes) :=
  (s.within (Text.encode (e.keys.root ns))).find? fun row =>
    decide (∀ last ∈ rows.getLast?, last.1 < row.1)

/-- An iterator may look for the next record in any store that it has found, be it the one
of now or one that it has kept. -/
theorem offers_of_next (stood : Stood now ns visitor e rows s)
    (next : e.next? ns s rows = some row) : Offers now ns visitor e rows row := by
  obtain ⟨beyond, earlier, later, split, behind⟩ := List.find?_eq_some_iff_append.1 next
  have member : row ∈ s.within (Text.encode (e.keys.root ns)) := by
    rw [split]
    exact List.mem_append_right _ List.mem_cons_self
  obtain ⟨stored, inside⟩ := List.mem_filter.1 member
  refine ⟨⟨inside, of_decide_eq_true beyond⟩,
    ⟨s, stood, (Bindings.find?_eq_some s.nodup).2 stored⟩, ?_⟩
  intro key ahead below
  refine ⟨s, stood, ?_⟩
  by_contra held
  obtain ⟨raw, found⟩ := Option.ne_none_iff_exists'.1 held
  have among := ahead.mem_within found
  have sorted : (s.within (Text.encode (e.keys.root ns))).Pairwise fun a b => a.1 < b.1 :=
    s.sorted.filter _
  rw [split] at among sorted
  rcases List.mem_append.1 among with skipped | rest
  · -- It would have been taken instead.
    have passed := behind _ skipped
    simp only [Bool.not_eq_true', decide_eq_false_iff_not] at passed
    exact passed ahead.beyond
  · rcases List.mem_cons.1 rest with rfl | above
    · exact List.lt_irrefl _ below
    · have order := (List.pairwise_cons.1 (List.pairwise_append.1 sorted).2.1).1 _ above
      exact List.lt_asymm below order

theorem exhausted_of_next (stood : Stood now ns visitor e rows s)
    (none_ : e.next? ns s rows = none) : Exhausted now ns visitor e rows := by
  intro key ahead
  refine ⟨s, stood, ?_⟩
  by_contra held
  obtain ⟨raw, found⟩ := Option.ne_none_iff_exists'.1 held
  have among := ahead.mem_within found
  have behind := List.find?_eq_none.1 none_ _ among
  exact behind (decide_eq_true ahead.beyond)

/-- In order, the last record is the greatest. -/
theorem below_of_beyond (sorted : rows.Pairwise fun a b => a.1 < b.1)
    (beyond : ∀ last ∈ rows.getLast?, last.1 < key) (member : row ∈ rows) : row.1 < key := by
  rcases List.eq_nil_or_concat' rows with rfl | ⟨first, last, rfl⟩
  · cases member
  · have end_ : last.1 < key := beyond last (by simp)
    rcases List.mem_append.1 member with earlier | here
    · have below := (List.pairwise_append.1 sorted).2.2 row earlier last List.mem_cons_self
      exact List.lt_trans below end_
    · rw [List.mem_singleton.1 here]
      exact end_

/-- What is next in a store after its first records. -/
theorem next?_within {later : List (Bytes × Bytes)}
    (split : store.within (Text.encode (e.keys.root ns)) = before ++ later) :
    e.next? ns store before = later.head? := by
  have sorted : (before ++ later).Pairwise fun a b => a.1 < b.1 := by
    rw [← split]
    exact store.sorted.filter _
  have behind : ∀ r ∈ before, ¬ ∀ last ∈ before.getLast?, last.1 < r.1 := by
    intro r member beyond
    exact List.lt_irrefl _ (below_of_beyond (List.pairwise_append.1 sorted).1 beyond member)
  have ahead : ∀ r ∈ later, ∀ last ∈ before.getLast?, last.1 < r.1 := by
    intro r member last end_
    exact (List.pairwise_append.1 sorted).2.2 last (List.mem_of_getLast? end_) r member
  rw [next?, split, List.find?_append, List.find?_eq_none.2 (by simpa using behind),
    Option.none_or]
  cases later with
  | nil => rfl
  | cons row rest =>
      have first := decide_eq_true (ahead row List.mem_cons_self)
      simp only [List.find?_cons, first, List.head?_cons]

/-- The records that are read at the start, up to where the traversal ends, are handed out
by an iterator that keeps the store which it has found first. -/
theorem handed_within (opened : e.store = some store)
    (at_ : Cut e.keys now ns visitor (store.within (Text.encode (e.keys.root ns))) before cut) :
    Handed now ns visitor e (before ++ cut.toList) := by
  refine ⟨⟨?passed, ?offers⟩, ?exhausted⟩
  case passed =>
    intro first row split
    have size : cut.toList.length ≤ 1 := by cases cut <;> simp
    have bound := split.length_le
    rw [List.length_append, List.length_append, List.length_singleton] at bound
    apply at_.passed.of_prefix
    apply List.prefix_of_prefix_length_le ((List.prefix_append _ _).trans split)
      (List.prefix_append _ _)
    omega
  case offers =>
    intro first row split
    obtain ⟨later, all⟩ := split.trans at_.split
    rw [List.append_assoc] at all
    exact offers_of_next (.start opened) (next?_within all.symm)
  case exhausted =>
    intro passed
    cases cut with
    | none =>
        have all : store.within (Text.encode (e.keys.root ns)) = before ++ [] := by
          rw [List.append_nil, at_.finished rfl]
        rw [Option.toList_none, List.append_nil]
        exact exhausted_of_next (.start opened) (next?_within all)
    | some row => exact absurd (at_.ends row rfl) (at_.passed.snoc_iff.1 passed)

/-- An iterator that looks at the store whenever it is asked hands out what it finds then. -/
theorem handed_of_looking
    (passed : ∀ i < rows.length, Passed e.keys now ns visitor (rows.take i))
    (looked : ∀ i < rows.length,
      (visit now ns visitor 0 (rows.take i) e).2.store.map (e.next? ns · (rows.take i)) =
        some rows[i]?)
    (last : Passed e.keys now ns visitor rows →
      (visit now ns visitor 0 rows e).2.store.map (e.next? ns · rows) = some none) :
    Handed now ns visitor e rows := by
  have place {first : List (Bytes × Bytes)} {row : Bytes × Bytes}
      (split : first ++ [row] <+: rows) :
      first.length < rows.length ∧ rows.take first.length = first ∧
        rows[first.length]? = some row := by
    obtain ⟨later, rfl⟩ := split
    simp
  refine ⟨⟨?passed, ?offers⟩, ?exhausted⟩
  case passed =>
    intro first row split
    obtain ⟨inside, taken, -⟩ := place split
    rw [← taken]
    exact passed first.length inside
  case offers =>
    intro first row split
    obtain ⟨inside, taken, here⟩ := place split
    have found := looked first.length inside
    rw [taken, here] at found
    obtain ⟨s, state, next⟩ := Option.map_eq_some_iff.1 found
    exact offers_of_next ⟨first, List.prefix_rfl, state⟩ next
  case exhausted =>
    intro all
    obtain ⟨s, state, next⟩ := Option.map_eq_some_iff.1 (last all)
    exact exhausted_of_next ⟨rows, List.prefix_rfl, state⟩ next

/-- What is written ahead by the visitor is handed out in its turn. What is written behind
is not. -/
example :
    let past := (Record.mk 3 []).encode
    let live := (Record.mk 0 [7]).encode
    let store := [("n:a", past), ("n:b", live), ("n:c", past)].foldl
      (fun store (row : String × Bytes) => store.insert (Text.encode row.1) row.2) Store.empty
    let writes := [Request.set "n" "a" [7] none, .set "n" "c" [7] none, .set "n" "d" [7] none]
    let visitor : Visitor := ⟨fun n _ _ => if n = 1 then writes else [], fun _ _ _ => true⟩
    Handed ⟨5000000⟩ "n" visitor (create .standard store 0 ⟨0⟩)
      [(Text.encode "n:a", past), (Text.encode "n:b", live), (Text.encode "n:c", live),
        (Text.encode "n:d", live)] :=
  handed_of_looking (by decide +kernel) (by decide +kernel) (by decide +kernel)

/-! ## What comes of it -/

/-- Keys are handed out in order. -/
theorem Offered.ordered (offered : Offered now ns visitor e rows) :
    rows.Pairwise fun a b => a.1 < b.1 := by
  induction rows using List.reverseRecOn with
  | nil => exact .nil
  | append_singleton before row ih =>
      have sorted := ih (offered.of_prefix (List.prefix_append _ _))
      have beyond := (offered.offers before row List.prefix_rfl).ahead.beyond
      rw [List.pairwise_append]
      refine ⟨sorted, List.pairwise_singleton _ _, ?_⟩
      intro earlier member last here
      rw [List.mem_singleton.1 here]
      exact below_of_beyond sorted beyond member

theorem Offered.nodup (offered : Offered now ns visitor e rows) : rows.Nodup := by
  apply offered.ordered.imp
  rintro a b below rfl
  exact List.lt_irrefl _ below

/-- The traversal ends at the last record that is handed out, or gets past all of them. -/
theorem Offered.exists_cut (offered : Offered now ns visitor e rows) :
    ∃ before cut, before ++ cut.toList = rows ∧ Cut e.keys now ns visitor rows before cut := by
  by_cases passed : Passed e.keys now ns visitor rows
  · have whole := List.append_nil rows
    exact ⟨rows, none, whole, ⟨⟨[], by rw [Option.toList_none, whole, whole]⟩, passed, nofun,
      fun _ => rfl⟩⟩
  · rcases List.eq_nil_or_concat' rows with rfl | ⟨before, row, rfl⟩
    · exact absurd (.start ..) passed
    · have earlier := offered.passed before row List.prefix_rfl
      refine ⟨before, some row, rfl, List.prefix_rfl, earlier, ?_, nofun⟩
      rintro _ ⟨⟩
      by_contra goesOn
      exact passed (earlier.snoc_iff.2 goesOn)

theorem Offered.seen_eq (offered : Offered now ns visitor e rows) :
    (visit now ns visitor 0 rows e).1.seen =
      rows.filterMap (listed? e.keys now.unixMillis ns) := by
  obtain ⟨before, cut, all, at_⟩ := offered.exists_cut
  obtain ⟨same, seen, -⟩ := visit_cut (e := e) at_
  rw [same, seen, all]

/-- A traversal that does not get past all records has ended early. -/
theorem Offered.ended (offered : Offered now ns visitor e rows)
    (stuck : ¬ Passed e.keys now ns visitor rows) :
    (visit now ns visitor 0 rows e).1.fault ≠ none ∨
      visitor.stops 0 (visit now ns visitor 0 rows e).1.seen = true := by
  obtain ⟨before, cut, all, at_⟩ := offered.exists_cut
  obtain ⟨same, -, fault⟩ := visit_cut (e := e) at_
  cases cut with
  | none =>
      rw [Option.toList_none, List.append_nil] at all
      exact absurd (all ▸ at_.passed) stuck
  | some row =>
      by_cases whole : Record.Whole row.2
      · right
        rw [offered.seen_eq, ← Bool.not_eq_false]
        intro willing
        refine stuck ⟨?_, willing⟩
        intro r member
        rw [← all] at member
        rcases List.mem_append.1 member with earlier | here
        · exact at_.passed.whole r earlier
        · rw [List.mem_singleton.1 here]
          exact whole
      · left
        rw [same, fault, Option.bind_some, damage?, if_neg whole]
        exact Option.some_ne_none _

/-- What is handed out was there at the start, or a request has written it since. -/
theorem Offered.origin (offered : Offered now ns visitor e rows) (opened : e.store = some store)
    (split : before ++ [row] <+: rows) :
    row ∈ store.records ∨
      row ∈ (walk e.keys now ns visitor 0 before).filterMap
        (Move.written? e.keys now.unixMillis) := by
  obtain ⟨s, stood, found⟩ := (offered.offers before row split).stored
  obtain ⟨made, part, state⟩ := stood.moves
  rw [← record?_of_store state] at found
  have gentle : ∀ m ∈ made, m.Gentle now.unixMillis := by
    intro m member
    exact gentle_of_walk (part.subset member)
  rcases record?_origin gentle found with old | new
  · rw [record?_of_store opened] at old
    exact .inl (Bindings.mem_of_find? old)
  · exact .inr ((part.sublist.filterMap _).subset new)

/-- A traversal goes through no more records than there were, and were written since. -/
theorem Offered.length_le (offered : Offered now ns visitor e rows)
    (opened : e.store = some store) :
    rows.length ≤ store.size +
      ((walk e.keys now ns visitor 0 rows).filterMap
        (Move.written? e.keys now.unixMillis)).length := by
  rw [Store.size, ← List.length_append]
  apply List.Subperm.length_le
  apply List.subperm_of_subset offered.nodup
  intro row member
  obtain ⟨before, later, split⟩ := List.append_of_mem member
  have part : before ++ [row] <+: rows := ⟨later, by simp [split]⟩
  rw [List.mem_append]
  rcases offered.origin opened part with old | new
  · exact .inl old
  · right
    have fewer : walk e.keys now ns visitor 0 before <+: walk e.keys now ns visitor 0 rows := by
      rw [split]
      exact walk_prefix before (row :: later)
    exact (fewer.sublist.filterMap _).subset new

/-- A record that stands all the time is handed out, unless the traversal ends in front of
it. -/
theorem Offered.reaches (offered : Offered now ns visitor e rows)
    (inside : Text.beginsWith (Text.encode (e.keys.root ns)) row.1 = true)
    (stands : ∀ s, Stood now ns visitor e rows s → s.find? row.1 = some row.2) :
    row ∈ rows ∨ ∀ r ∈ rows, r.1 < row.1 := by
  induction rows using List.reverseRecOn with
  | nil => exact .inr nofun
  | append_singleton before r ih =>
      have part : before <+: before ++ [r] := List.prefix_append _ _
      have earlier := ih (offered.of_prefix part) fun s stood => stands s (stood.mono part)
      have offers := offered.offers before r List.prefix_rfl
      rcases earlier with met | behind
      · exact .inl (List.mem_append_left _ met)
      · have ahead : Ahead e ns before row.1 :=
          ⟨inside, fun last end_ => behind last (List.mem_of_getLast? end_)⟩
        by_cases below : r.1 < row.1
        · right
          intro r' member
          rcases List.mem_append.1 member with old | here
          · exact behind r' old
          · rw [List.mem_singleton.1 here]
            exact below
        · by_cases same : r.1 = row.1
          · -- The key is its own, and the record as well.
            obtain ⟨s, stood, found⟩ := offers.stored
            rw [same, stands s (stood.mono part)] at found
            have here : row = r := Prod.ext same.symm (Option.some.inj found)
            left
            rw [here]
            exact List.mem_append_right _ List.mem_cons_self
          · -- It would have been passed over.
            have above : row.1 < r.1 :=
              Std.lt_of_le_of_ne (Std.not_lt.1 below) (Ne.symm same)
            obtain ⟨s, stood, absent⟩ := offers.nearest row.1 ahead above
            rw [stands s (stood.mono part)] at absent
            cases absent

/-- A record that has not expired and is left alone is handed out once, unless the traversal
ends in front of it. -/
theorem Handed.once (handed : Handed now ns visitor e rows) (opened : e.store = some store)
    (member : row ∈ store.within (Text.encode (e.keys.root ns)))
    (fresh : hasExpired now.unixMillis row.2 = false)
    (alone : ∀ m ∈ walk e.keys now ns visitor 0 rows, m.target? e.keys ≠ some row.1) :
    rows.count row = 1 ∨ (¬ Passed e.keys now ns visitor rows ∧ ∀ r ∈ rows, r.1 < row.1) := by
  obtain ⟨stored, inside⟩ := List.mem_filter.1 member
  have stands : ∀ s, Stood now ns visitor e rows s → s.find? row.1 = some row.2 := by
    intro s stood
    obtain ⟨made, part, state⟩ := stood.moves
    rw [← record?_of_store state]
    apply record?_foldl
    · intro m earlier
      exact gentle_of_walk (part.subset earlier)
    · intro m earlier
      exact alone m (part.subset earlier)
    · rw [record?_of_store opened]
      exact (Bindings.find?_eq_some store.nodup).2 stored
    · exact fresh
  rcases handed.reaches inside stands with met | behind
  · exact .inl (List.count_eq_one_of_mem handed.nodup met)
  · right
    refine ⟨?_, behind⟩
    intro passed
    obtain ⟨s, stood, absent⟩ := handed.exhausted passed row.1
      ⟨inside, fun last end_ => behind last (List.mem_of_getLast? end_)⟩
    rw [stands s stood] at absent
    cases absent

/-- What holds of a traversal that has been handed some records, whatever its visitor does
to the cache in the meantime. -/
structure Reentrant (now : Instant) (ns : String) (visitor : Visitor) (e : Embedded)
    (store : Store) (rows : List (Bytes × Bytes)) : Prop where
  /-- The visitor is shown those that have not expired. -/
  shown : (visit now ns visitor 0 rows e).1.seen =
    rows.filterMap (listed? e.keys now.unixMillis ns)
  /-- Each key comes once, and in order. -/
  ordered : rows.Pairwise fun a b => a.1 < b.1
  /-- The cache is changed by these moves and by nothing else. -/
  moved : (visit now ns visitor 0 rows e).2 =
    (walk e.keys now ns visitor 0 rows).foldl (act now) e
  /-- What the traversal itself removes has expired: every other record is still there
  afterwards. -/
  spared : ∀ made key raw later,
    walk e.keys now ns visitor 0 rows = made ++ .reclaim key raw :: later →
      ∀ k r, (made.foldl (act now) e).record? k = some r →
        hasExpired now.unixMillis r = false →
          ((made.foldl (act now) e).act now (.reclaim key raw)).record? k = some r
  /-- What is handed out was there at the start, or a request has written it since. -/
  origin : ∀ before row, before ++ [row] <+: rows →
    row ∈ store.records ∨
      row ∈ (walk e.keys now ns visitor 0 before).filterMap
        (Move.written? e.keys now.unixMillis)
  /-- An entry that is live at the start and left alone comes once, unless the traversal ends
  early, and in front of it. -/
  once : ∀ row ∈ store.within (Text.encode (e.keys.root ns)),
    (listed? e.keys now.unixMillis ns row).isSome = true →
      (∀ m ∈ walk e.keys now ns visitor 0 rows, m.target? e.keys ≠ some row.1) →
        rows.count row = 1 ∨
          (((visit now ns visitor 0 rows e).1.fault ≠ none ∨
              visitor.stops 0 (visit now ns visitor 0 rows e).1.seen = true) ∧
            ∀ r ∈ rows, r.1 < row.1)
  /-- The expired records that the traversal and the requests to read take out are counted. -/
  counted : (visit now ns visitor 0 rows e).2.counters.expirations =
    e.counters.expirations +
      .ofNat (breakdown.along now (lapses now) e (walk e.keys now ns visitor 0 rows))

/-- There are records that a traversal can be handed, and the ones that it reads at the
start are such. Whichever it is handed, it does no harm, and it comes to an end if the
visitor stops writing. -/
theorem iterate_reentrant (opened : e.store = some store) :
    (∃ rows, Handed now ns visitor e rows ∧
      e.iterate now ns visitor = visit now ns visitor 0 rows e) ∧
    (∀ rows, Offered now ns visitor e rows →
      rows.length ≤ store.size +
        ((walk e.keys now ns visitor 0 rows).filterMap
          (Move.written? e.keys now.unixMillis)).length) ∧
    ∀ rows, Handed now ns visitor e rows → Reentrant now ns visitor e store rows := by
  refine ⟨?start, fun rows offered => offered.length_le opened, ?harmless⟩
  case start =>
    obtain ⟨before, cut, at_⟩ :=
      Embedded.exists_cut e.keys now ns visitor (store.within (Text.encode (e.keys.root ns)))
    refine ⟨before ++ cut.toList, handed_within opened at_, ?_⟩
    rw [iterate, opened]
    exact (visit_cut at_).1
  case harmless =>
    intro rows handed
    have gentle : ∀ m ∈ walk e.keys now ns visitor 0 rows, m.Gentle now.unixMillis := by
      intro m made
      exact gentle_of_walk made
    have state := visit_state now ns visitor 0 rows e
    constructor
    case shown => exact handed.seen_eq
    case ordered => exact handed.ordered
    case moved => exact state
    case spared =>
      intro made key raw later split k r found fresh
      have reclaims : (Move.reclaim key raw).Gentle now.unixMillis := by
        apply gentle
        rw [split]
        exact List.mem_append_right _ List.mem_cons_self
      exact record?_act reclaims (Option.some_ne_none k).symm found fresh
    case origin => exact fun before row split => handed.origin opened split
    case once =>
      intro row member live alone
      obtain ⟨entry, listed⟩ := Option.isSome_iff_exists.1 live
      rcases handed.once opened member (fresh_of_listed listed) alone with once | ⟨stuck, behind⟩
      · exact .inl once
      · exact .inr ⟨handed.ended stuck, behind⟩
    case counted =>
      rw [state]
      exact expirations_foldl gentle

/-- All records are read at the start. One that has expired is written anew by the visitor,
and survives, although the traversal has read the old one. -/
theorem iterate_reentrant_over_expired :
    let past := (Record.mk 3 []).encode
    let live := (Record.mk 0 [7]).encode
    let store := [("n:a", past), ("n:b", live), ("n:c", past), ("n:d", live)].foldl
      (fun store (row : String × Bytes) => store.insert (Text.encode row.1) row.2) Store.empty
    let e := create .standard store 0 ⟨0⟩
    let now : Instant := ⟨5000000⟩
    let writes := [Request.set "n" "c" [8] none, .set "n" "e" [8] none]
    let visitor : Visitor := ⟨fun n _ _ => if n = 1 then writes else [], fun _ _ _ => true⟩
    let rows := store.within (Text.encode (e.keys.root "n"))
    e.store = some store ∧ Handed now "n" visitor e rows ∧
      Reentrant now "n" visitor e store rows ∧
      rows.map (·.2) = [past, live, past, live] ∧
      (visit now "n" visitor 0 rows e).1.seen = [("b", [7]), ("d", [7])] ∧
      (visit now "n" visitor 0 rows e).2.record? (Text.encode "n:c") =
        some (Record.mk 0 [8]).encode ∧
      (visit now "n" visitor 0 rows e).2.counters.expirations = 1 := by
  intro past live store e now writes visitor rows
  have opened : e.store = some store := rfl
  have at_ : Cut e.keys now "n" visitor rows rows none := by
    constructor
    case split => decide +kernel
    case passed => decide +kernel
    case ends => nofun
    case finished => exact fun _ => rfl
  have handed : Handed now "n" visitor e rows := by
    have all := handed_within opened at_
    rwa [Option.toList_none, List.append_nil] at all
  have harmless : Reentrant now "n" visitor e store rows :=
    (iterate_reentrant opened).2.2 rows handed
  refine ⟨opened, handed, harmless, ?_, ?_, ?_, ?_⟩ <;> decide +kernel

end Embedded

end ExpiringCache
