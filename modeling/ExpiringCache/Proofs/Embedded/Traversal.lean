import ExpiringCache.Proofs.Embedded.Lookup

/-!
# Traversals of arbitrary content

A traversal of an embedded cache gets past the records that are whole, as long as its visitor
goes on (`Passed`). It ends at the first record that is too short, or at the first live one
at which the visitor asks to stop (`Cut`). What is behind such a record makes no difference
(`visit_cut`).

If nobody calls back, nothing happens but that the expired records in front of it are
dropped and counted (`iterate_to_cut`). The records may be whatever they are, and so may
their keys.
-/

namespace ExpiringCache

/-- One traversal after another. -/
def Traversal.andThen (t u : Traversal) : Traversal :=
  ⟨t.seen ++ u.seen, t.nested ++ u.nested, u.fault⟩

namespace Embedded

variable {e : Embedded} {store : Store} {keys : Keys} {now : Instant} {ns : String}
  {visitor : Visitor} {count : Nat} {rows before : List (Bytes × Bytes)}
  {row : Bytes × Bytes} {cut : Option (Bytes × Bytes)}

/-! ## How far a traversal gets -/

/-- A traversal gets past some records: they are whole, and the visitor asks to stop at none
of those that are shown. -/
structure Passed (keys : Keys) (now : Instant) (ns : String) (visitor : Visitor)
    (rows : List (Bytes × Bytes)) : Prop where
  whole : ∀ row ∈ rows, Record.Whole row.2
  willing : visitor.stops 0 (rows.filterMap (listed? keys now.unixMillis ns)) = false

instance : Decidable (Passed keys now ns visitor rows) :=
  decidable_of_iff
    ((∀ row ∈ rows, Record.Whole row.2) ∧
      visitor.stops 0 (rows.filterMap (listed? keys now.unixMillis ns)) = false)
    ⟨fun ⟨whole, willing⟩ => ⟨whole, willing⟩, fun passed => ⟨passed.whole, passed.willing⟩⟩

/-- A traversal that has shown `count` entries ends at a record: it is too short, or it is
live, and the visitor asks to stop there. -/
def Ends (keys : Keys) (now : Instant) (ns : String) (visitor : Visitor) (count : Nat)
    (row : Bytes × Bytes) : Prop :=
  ¬ Record.Whole row.2 ∨
    ∃ key value, listed? keys now.unixMillis ns row = some (key, value) ∧
      visitor.goesOn (count + 1) key value = false

/-- Where a traversal of some records ends: it gets past those `before` and no further, as
it ends at the `cut` or has no more records. -/
structure Cut (keys : Keys) (now : Instant) (ns : String) (visitor : Visitor)
    (rows before : List (Bytes × Bytes)) (cut : Option (Bytes × Bytes)) : Prop where
  split : before ++ cut.toList <+: rows
  passed : Passed keys now ns visitor before
  ends : ∀ row ∈ cut,
    Ends keys now ns visitor (before.filterMap (listed? keys now.unixMillis ns)).length row
  finished : cut = none → before = rows

theorem Passed.start (keys : Keys) (now : Instant) (ns : String) (visitor : Visitor) :
    Passed keys now ns visitor [] :=
  ⟨fun _ member => absurd member List.not_mem_nil, rfl⟩

theorem Passed.of_prefix (passed : Passed keys now ns visitor rows) (part : before <+: rows) :
    Passed keys now ns visitor before := by
  obtain ⟨later, rfl⟩ := part
  constructor
  · intro row member
    exact passed.whole row (List.mem_append_left _ member)
  · have willing := passed.willing
    rw [List.filterMap_append, Visitor.stops_append] at willing
    exact (Bool.or_eq_false_iff.1 willing).1

/-- A traversal gets past one more record unless it ends there. -/
theorem Passed.snoc_iff (passed : Passed keys now ns visitor before) :
    Passed keys now ns visitor (before ++ [row]) ↔
      ¬ Ends keys now ns visitor (before.filterMap (listed? keys now.unixMillis ns)).length
        row := by
  have whole : (∀ r ∈ before ++ [row], Record.Whole r.2) ↔ Record.Whole row.2 := by
    constructor
    · intro all
      exact all row (by simp)
    · intro last r member
      rcases List.mem_append.1 member with earlier | here
      · exact passed.whole r earlier
      · rw [List.mem_singleton.1 here]
        exact last
  have willing : visitor.stops 0 ((before ++ [row]).filterMap (listed? keys now.unixMillis ns)) =
      false ↔ ∀ key value, listed? keys now.unixMillis ns row = some (key, value) →
        visitor.goesOn ((before.filterMap (listed? keys now.unixMillis ns)).length + 1)
          key value = true := by
    rw [List.filterMap_append]
    cases shown : listed? keys now.unixMillis ns row with
    | none => simp [shown, passed.willing]
    | some entry =>
        obtain ⟨key, value⟩ := entry
        have one : [row].filterMap (listed? keys now.unixMillis ns) = [(key, value)] := by
          simp [shown]
        rw [one, Visitor.stops_snoc passed.willing]
        simp
  unfold Ends
  push Not
  constructor
  · intro further
    exact ⟨whole.1 further.whole, by simpa using willing.1 further.willing⟩
  · rintro ⟨last, goesOn⟩
    exact ⟨whole.2 last, willing.2 (by simpa using goesOn)⟩

/-- A traversal ends somewhere. -/
theorem exists_cut (keys : Keys) (now : Instant) (ns : String) (visitor : Visitor)
    (rows : List (Bytes × Bytes)) :
    ∃ before cut, Cut keys now ns visitor rows before cut := by
  -- Record by record, as far as the traversal gets.
  suffices onward : ∀ rest before, before ++ rest = rows → Passed keys now ns visitor before →
      ∃ before cut, Cut keys now ns visitor rows before cut from
    onward rows [] rfl (.start ..)
  intro rest
  induction rest with
  | nil =>
      intro before split passed
      rw [List.append_nil] at split
      exact ⟨before, none, by simp [split], passed, nofun, fun _ => split⟩
  | cons row rest ih =>
      intro before split passed
      by_cases ends :
          Ends keys now ns visitor (before.filterMap (listed? keys now.unixMillis ns)).length row
      · refine ⟨before, some row, ⟨rest, ?_⟩, passed, ?_, nofun⟩
        · rw [← split, Option.toList_some, List.append_assoc, List.singleton_append]
        · rintro _ ⟨⟩
          exact ends
      · apply ih (before ++ [row])
        · rw [← split, List.append_assoc, List.singleton_append]
        · exact passed.snoc_iff.2 ends

/-- Nothing that a traversal gets past reaches beyond the cut. -/
theorem Cut.le_of_passed (at_ : Cut keys now ns visitor rows before cut)
    {others : List (Bytes × Bytes)} (passed : Passed keys now ns visitor others)
    (part : others <+: rows) : others.length ≤ before.length := by
  by_contra beyond
  rw [Nat.not_le] at beyond
  cases cut with
  | none =>
      have bound := part.length_le
      rw [← at_.finished rfl] at bound
      omega
  | some row =>
      have longer : before ++ [row] <+: others := by
        apply List.prefix_of_prefix_length_le at_.split part
        rw [Option.toList_some, List.length_append, List.length_singleton]
        exact beyond
      exact at_.passed.snoc_iff.1 (passed.of_prefix longer) (at_.ends row rfl)

theorem Cut.unique {before' : List (Bytes × Bytes)} {cut' : Option (Bytes × Bytes)}
    (at_ : Cut keys now ns visitor rows before cut)
    (at' : Cut keys now ns visitor rows before' cut') : before = before' ∧ cut = cut' := by
  have part : before <+: rows := (List.prefix_append _ _).trans at_.split
  have part' : before' <+: rows := (List.prefix_append _ _).trans at'.split
  have size : before.length = before'.length :=
    Nat.le_antisymm (at'.le_of_passed at_.passed part) (at_.le_of_passed at'.passed part')
  obtain rfl : before = before' :=
    (List.prefix_of_prefix_length_le part part' size.le).eq_of_length size
  refine ⟨rfl, ?_⟩
  -- Both cuts are the record behind the ones before, if there is one.
  have next {cut : Option (Bytes × Bytes)} (at_ : Cut keys now ns visitor rows before cut) :
      cut = rows[before.length]? := by
    obtain ⟨later, split⟩ := at_.split
    cases cut with
    | none =>
        rw [at_.finished rfl]
        simp
    | some row =>
        rw [← split]
        simp
  rw [next at_, next at']

/-! ## One record after the other -/

/-- What a traversal makes of a record: it is too short, it has expired, or it is shown. -/
inductive Reads (keys : Keys) (now : Instant) (ns : String) (row : Bytes × Bytes) : Prop
  | short (broken : ¬ Record.Whole row.2)
  | expired (past : hasExpired now.unixMillis row.2 = true)
      (hidden : listed? keys now.unixMillis ns row = none)
  | live (key : String) (value : Bytes)
      (shown : listed? keys now.unixMillis ns row = some (key, value))

theorem reads (keys : Keys) (now : Instant) (ns : String) (row : Bytes × Bytes) :
    Reads keys now ns row := by
  by_cases whole : Record.Whole row.2
  case neg => exact .short whole
  case pos =>
    obtain ⟨record, read⟩ := Record.decode_of_whole whole
    cases past : record.expired now.unixMillis with
    | true =>
        apply Reads.expired
        · rw [hasExpired_iff read, past]
        · simp [listed?, read, past]
    | false => exact .live _ _ (listed?_eq_some_iff.2 ⟨record, read, past, rfl, rfl⟩)

theorem listed?_of_short (broken : ¬ Record.Whole row.2) :
    listed? keys now.unixMillis ns row = none := by
  rw [listed?, Record.decode_of_short (Nat.not_le.1 broken)]

theorem visit_short (broken : ¬ Record.Whole row.2) :
    visit now ns visitor count (row :: rows) e = (.failed (Record.tooShort row.2), e) := by
  rw [visit, Record.decode_of_short (Nat.not_le.1 broken)]

theorem visit_expired (past : hasExpired now.unixMillis row.2 = true) :
    visit now ns visitor count (row :: rows) e =
      visit now ns visitor count rows (e.reclaim row.1 row.2) := by
  unfold hasExpired at past
  split at past
  next record read =>
    rw [visit, read]
    simp only [past, if_true]
  next => cases past

theorem visit_live {key : String} {value : Bytes}
    (shown : listed? e.keys now.unixMillis ns row = some (key, value)) :
    visit now ns visitor count (row :: rows) e =
      let served := answerAll (request now) e (visitor.requests (count + 1) key value)
      let rest := if visitor.goesOn (count + 1) key value then
          visit now ns visitor (count + 1) rows served.2
        else ({}, served.2)
      (rest.1.after (key, value) served.1, rest.2) := by
  obtain ⟨record, read, past, rfl, rfl⟩ := listed?_eq_some_iff.1 shown
  rw [visit, read]
  simp only [past, Bool.false_eq_true, if_false]
  split <;> rfl

theorem keys_foldl (now : Instant) (e : Embedded) (moves : List Move) :
    (moves.foldl (act now) e).keys = e.keys := by
  refine List.foldlRecOn (motive := fun e' : Embedded => e'.keys = e.keys) moves _ rfl ?_
  intro e' same move _
  exact (e'.keys_act now move).trans same

theorem keys_visit (now : Instant) (ns : String) (visitor : Visitor) (count : Nat)
    (rows : List (Bytes × Bytes)) (e : Embedded) :
    (visit now ns visitor count rows e).2.keys = e.keys := by
  rw [visit_state, keys_foldl]

/-- What is left to be done when a traversal has got past some records does not depend on
them, but for what they have done to the cache. -/
theorem visit_append (first later : List (Bytes × Bytes)) (count : Nat) (e : Embedded)
    (whole : ∀ row ∈ first, Record.Whole row.2)
    (willing : visitor.stops count (first.filterMap (listed? e.keys now.unixMillis ns)) = false) :
    let shown := first.filterMap (listed? e.keys now.unixMillis ns)
    let met := visit now ns visitor count first e
    let rest := visit now ns visitor (count + shown.length) later met.2
    met.1.seen = shown ∧ met.1.fault = none ∧
      visit now ns visitor count (first ++ later) e = (met.1.andThen rest.1, rest.2) := by
  induction first generalizing count e with
  | nil => exact ⟨rfl, rfl, rfl⟩
  | cons row first ih =>
      have wholeRest : ∀ r ∈ first, Record.Whole r.2 := by
        intro r member
        exact whole r (.tail _ member)
      cases reads e.keys now ns row with
      | short broken => exact absurd (whole row List.mem_cons_self) broken
      | expired past hidden =>
          have same : (e.reclaim row.1 row.2).keys = e.keys :=
            e.keys_act now (.reclaim row.1 row.2)
          rw [List.filterMap_cons_none hidden] at willing ⊢
          rw [← same] at willing ⊢
          simp only [List.cons_append, visit_expired past]
          exact ih count _ wholeRest willing
      | live key value shown =>
          have same := e.keys_answerAll now (visitor.requests (count + 1) key value)
          have place (n : Nat) : count + 1 + n = count + (n + 1) := by omega
          rw [List.filterMap_cons_some shown] at willing ⊢
          obtain ⟨goesOn, willing⟩ := Bool.or_eq_false_iff.1 willing
          rw [Bool.not_eq_false'] at goesOn
          rw [← same] at willing
          obtain ⟨seen, fault, rest⟩ := ih (count + 1) _ wholeRest willing
          rw [same] at seen rest
          simp only [List.cons_append, visit_live shown, goesOn, if_true, rest, List.length_cons,
            place]
          refine ⟨congrArg _ seen, fault, ?_⟩
          simp [Traversal.after, Traversal.andThen]

theorem Passed.visit_append (passed : Passed e.keys now ns visitor before)
    (later : List (Bytes × Bytes)) :
    let shown := before.filterMap (listed? e.keys now.unixMillis ns)
    let met := visit now ns visitor 0 before e
    let rest := visit now ns visitor shown.length later met.2
    met.1.seen = shown ∧ met.1.fault = none ∧
      visit now ns visitor 0 (before ++ later) e = (met.1.andThen rest.1, rest.2) := by
  simpa only [Nat.zero_add] using
    Embedded.visit_append before later 0 e passed.whole passed.willing

/-- What is told of a record that is too short. -/
def damage? (row : Bytes × Bytes) : Option Fault :=
  if Record.Whole row.2 then none else some (Record.tooShort row.2)

/-- A traversal that ends at a record shows it if it is live, and is told of the damage if
it is too short. What is behind it does not matter. -/
theorem visit_ends (ends : Ends e.keys now ns visitor count row) (beyond : List (Bytes × Bytes)) :
    let last := visit now ns visitor count [row] e
    visit now ns visitor count (row :: beyond) e = last ∧
      last.1.seen = [row].filterMap (listed? e.keys now.unixMillis ns) ∧
      last.1.fault = damage? row := by
  rcases ends with broken | ⟨key, value, shown, stops⟩
  · have hidden : listed? e.keys now.unixMillis ns row = none := listed?_of_short broken
    simp only [visit_short broken, List.filterMap_cons_none hidden, damage?, if_neg broken]
    exact ⟨trivial, rfl, rfl⟩
  · have whole : Record.Whole row.2 := by
      by_contra broken
      rw [listed?_of_short broken] at shown
      cases shown
    simp only [visit_live shown, stops, Bool.false_eq_true, if_false,
      List.filterMap_cons_some shown, damage?, if_pos whole]
    exact ⟨trivial, rfl, rfl⟩

/-- A traversal is that of the records up to where it ends. It shows the live ones of them,
and tells of a damaged one at the end. -/
theorem visit_cut (at_ : Cut e.keys now ns visitor rows before cut) :
    let read := before ++ cut.toList
    visit now ns visitor 0 rows e = visit now ns visitor 0 read e ∧
      (visit now ns visitor 0 read e).1.seen =
        read.filterMap (listed? e.keys now.unixMillis ns) ∧
      (visit now ns visitor 0 read e).1.fault = cut.bind damage? := by
  cases cut with
  | none =>
      obtain ⟨seen, fault, -⟩ := at_.passed.visit_append []
      have all : before = rows := at_.finished rfl
      subst all
      rw [Option.toList_none, List.append_nil]
      exact ⟨rfl, seen, fault⟩
  | some row =>
      have same := keys_visit now ns visitor 0 before e
      have ends := at_.ends row rfl
      obtain ⟨beyond, split⟩ := at_.split
      obtain ⟨seen, -, further⟩ := at_.passed.visit_append (row :: beyond)
      obtain ⟨-, -, last⟩ := at_.passed.visit_append [row]
      rw [← same] at ends
      obtain ⟨rest, seenLast, faultLast⟩ := visit_ends ends beyond
      rw [same] at rest seenLast faultLast
      rw [Option.toList_some, List.append_assoc, List.singleton_append] at split
      dsimp only
      rw [← split, further, rest, Option.toList_some, last]
      refine ⟨rfl, ?_, faultLast⟩
      rw [List.filterMap_append, ← seenLast, ← seen]
      rfl

/-! ## Where nobody calls back -/

theorem answerAll_of_quiet (quiet : visitor.Quiet) (now : Instant) (e : Embedded) (n : Nat)
    (key : String) (value : Bytes) :
    answerAll (request now) e (visitor.requests n key value) = ([], e) := by
  rw [quiet]
  rfl

theorem nested_of_quiet (quiet : visitor.Quiet) (now : Instant) (ns : String) (count : Nat)
    (rows : List (Bytes × Bytes)) (e : Embedded) :
    (visit now ns visitor count rows e).1.nested = [] := by
  induction rows generalizing count e with
  | nil => rfl
  | cons row rows ih =>
      cases reads e.keys now ns row with
      | short broken =>
          rw [visit_short broken]
          rfl
      | expired past hidden =>
          rw [visit_expired past]
          exact ih count _
      | live key value shown =>
          simp only [visit_live shown, answerAll_of_quiet quiet, Traversal.after,
            List.nil_append]
          split
          next => exact ih (count + 1) e
          next => rfl

/-- The records that a traversal gets past are reclaimed if they have expired. -/
theorem state_of_passed (quiet : visitor.Quiet) (count : Nat) (e : Embedded)
    (whole : ∀ row ∈ rows, Record.Whole row.2)
    (willing : visitor.stops count (rows.filterMap (listed? e.keys now.unixMillis ns)) = false) :
    (visit now ns visitor count rows e).2 =
      (rows.filter fun row => hasExpired now.unixMillis row.2).foldl
        (fun e row => e.reclaim row.1 row.2) e := by
  induction rows generalizing count e with
  | nil => rfl
  | cons row rows ih =>
      have wholeRest : ∀ r ∈ rows, Record.Whole r.2 := by
        intro r member
        exact whole r (.tail _ member)
      cases reads e.keys now ns row with
      | short broken => exact absurd (whole row List.mem_cons_self) broken
      | expired past hidden =>
          have same : (e.reclaim row.1 row.2).keys = e.keys :=
            e.keys_act now (.reclaim row.1 row.2)
          rw [List.filterMap_cons_none hidden, ← same] at willing
          simp only [visit_expired past, List.filter_cons, past, if_true, List.foldl_cons]
          exact ih count _ wholeRest willing
      | live key value shown =>
          have fresh := fresh_of_listed shown
          rw [List.filterMap_cons_some shown] at willing
          obtain ⟨goesOn, willing⟩ := Bool.or_eq_false_iff.1 willing
          rw [Bool.not_eq_false'] at goesOn
          simp only [visit_live shown, answerAll_of_quiet quiet, goesOn, if_true,
            List.filter_cons, fresh, Bool.false_eq_true, if_false]
          exact ih (count + 1) e wholeRest willing

/-- Nothing is done about the record at which a traversal ends. -/
theorem state_of_ends (quiet : visitor.Quiet) (ends : Ends e.keys now ns visitor count row) :
    (visit now ns visitor count [row] e).2 = e := by
  rcases ends with broken | ⟨key, value, shown, stops⟩
  · rw [visit_short broken]
  · simp only [visit_live shown, answerAll_of_quiet quiet, stops, Bool.false_eq_true, if_false]

theorem state_of_cut (quiet : visitor.Quiet) (at_ : Cut e.keys now ns visitor rows before cut) :
    (visit now ns visitor 0 rows e).2 =
      (before.filter fun row => hasExpired now.unixMillis row.2).foldl
        (fun e row => e.reclaim row.1 row.2) e := by
  rw [(visit_cut at_).1, ← state_of_passed quiet 0 e at_.passed.whole at_.passed.willing]
  cases cut with
  | none => rw [Option.toList_none, List.append_nil]
  | some row =>
      obtain ⟨-, -, last⟩ := at_.passed.visit_append [row]
      rw [Option.toList_some, last]
      apply state_of_ends quiet
      rw [keys_visit]
      exact at_.ends row rfl

/-- To reclaim records that stand as they were read drops these and counts them. -/
theorem reclaim_each (opened : e.store = some store)
    (distinct : rows.Pairwise fun a b => a.1 < b.1)
    (stored : ∀ row ∈ rows, store.find? row.1 = some row.2) :
    rows.foldl (fun e row => e.reclaim row.1 row.2) e =
      { e with
        store := some (store.keep fun k raw => decide ((k, raw) ∉ rows))
        counters := e.counters.expire (.ofNat rows.length) } := by
  induction rows generalizing e store with
  | nil =>
      have unchanged : (store.keep fun k raw => decide ((k, raw) ∉ ([] : List (Bytes × Bytes)))) =
          store := Store.keep_eq_self fun k raw _ => by simp
      rw [unchanged, ← opened]
      simp [Counters.expire]
  | cons row rows ih =>
      obtain ⟨key, raw⟩ := row
      obtain ⟨above, distinctRest⟩ := List.pairwise_cons.1 distinct
      have found : store.find? key = some raw := stored _ List.mem_cons_self
      have kept : ∀ row ∈ rows, (store.erase key).find? row.1 = some row.2 := by
        intro row member
        have apart : key ≠ row.1 := by
          intro same
          have below := above row member
          rw [same] at below
          exact List.lt_irrefl _ below
        rw [Store.find?_erase, if_neg apart]
        exact stored row (.tail _ member)
      have together : ((store.erase key).keep fun k r => decide ((k, r) ∉ rows)) =
          store.keep fun k r => decide ((k, r) ∉ (key, raw) :: rows) := by
        rw [Store.erase, Store.keep_keep]
        apply Store.keep_congr_at found
        · simp
        · intro k r differs
          have other := bne_iff_ne.1 differs
          simp [other]
      have first : e.reclaim key raw =
          { e with store := some (store.erase key) }.count (·.expire 1) := by
        simp only [reclaim, opened, found, if_true]
      have counted : (e.counters.expire 1).expire (.ofNat rows.length) =
          e.counters.expire (.ofNat (rows.length + 1)) := by
        simp only [Counters.expire, UInt64.ofNat_add, UInt64.add_assoc]
        rw [UInt64.add_comm 1]
        rfl
      rw [List.foldl_cons, first, ih rfl distinctRest kept, together, List.length_cons, ← counted]
      rfl

/-- Whatever keys and records there are, a traversal that nobody calls back from ends at a
cut, and at one only. It shows the live records up to there in the order of their keys, one
at the cut included, and fails if the record at the cut is too short. It drops the expired
records in front of the cut and counts them. Apart from that it changes nothing. -/
theorem iterate_to_cut (opened : e.store = some store) (quiet : visitor.Quiet) :
    let rows := store.within (Text.encode (e.keys.root ns))
    (rows.Pairwise fun a b => a.1 < b.1) ∧
    (∃! at_ : List (Bytes × Bytes) × Option (Bytes × Bytes),
      Cut e.keys now ns visitor rows at_.1 at_.2) ∧
    ∀ before cut, Cut e.keys now ns visitor rows before cut →
      e.iterate now ns visitor =
        ({ seen := (before ++ cut.toList).filterMap (listed? e.keys now.unixMillis ns)
           fault := cut.bind damage? },
          { e with
            store := some (store.keep fun k raw =>
              !(decide ((k, raw) ∈ before) && hasExpired now.unixMillis raw))
            counters := e.counters.expire
              (.ofNat (before.countP fun row => hasExpired now.unixMillis row.2)) }) := by
  intro rows
  have ordered : rows.Pairwise fun a b => a.1 < b.1 := store.sorted.filter _
  refine ⟨ordered, ?unique, ?outcome⟩
  case unique =>
    obtain ⟨before, cut, at_⟩ := exists_cut e.keys now ns visitor rows
    refine ⟨(before, cut), at_, ?_⟩
    rintro ⟨before', cut'⟩ at'
    obtain ⟨rfl, rfl⟩ := at_.unique at'
    rfl
  case outcome =>
    intro before cut at_
    have iterated : e.iterate now ns visitor = visit now ns visitor 0 rows e := by
      rw [iterate, opened]
    have part : before.Sublist rows := ((List.prefix_append _ _).trans at_.split).sublist
    have stored : ∀ row ∈ before, store.find? row.1 = some row.2 := by
      intro row member
      exact (Bindings.find?_eq_some store.nodup).2 (List.mem_of_mem_filter (part.subset member))
    have dropped := reclaim_each opened ((ordered.sublist part).filter _) fun row member =>
      stored row (List.mem_of_mem_filter (p := fun row => hasExpired now.unixMillis row.2) member)
    obtain ⟨all, seen, fault⟩ := visit_cut (e := e) at_
    have shown : (visit now ns visitor 0 rows e).1 =
        ⟨(before ++ cut.toList).filterMap (listed? e.keys now.unixMillis ns), [],
          cut.bind damage?⟩ := by
      rw [← seen, ← nested_of_quiet quiet now ns 0 rows e, ← fault, all]
    rw [iterated, Prod.ext_iff]
    refine ⟨shown, ?_⟩
    rw [state_of_cut quiet at_, dropped, List.countP_eq_length_filter]
    simp [List.mem_filter]

/-- A traversal ends at a record of three octets. The expired record in front of it is
dropped. The one behind it stays, and so does the one in another namespace. -/
theorem iterate_to_cut_at_damage :
    let past := (Record.mk 3 []).encode
    let live := (Record.mk 9 [7]).encode
    let content := [("m:x", past), ("n:a", past), ("n:b", live), ("n:c", [1, 2, 3]), ("n:d", past)]
    let store := content.foldl
      (fun store (row : String × Bytes) => store.insert (Text.encode row.1) row.2) Store.empty
    let e := create .standard store 0 ⟨0⟩
    let now : Instant := ⟨5000000⟩
    let before := [(Text.encode "n:a", past), (Text.encode "n:b", live)]
    let cut := some (Text.encode "n:c", [1, 2, 3])
    let (shown, after) := e.iterate now "n" .observer
    e.store = some store ∧ Visitor.observer.Quiet ∧
      Cut e.keys now "n" .observer (store.within (Text.encode (e.keys.root "n"))) before cut ∧
      shown = { seen := [("b", [7])], fault := some (Record.tooShort [1, 2, 3]) } ∧
      after.store.map (·.records) = some [(Text.encode "m:x", past), (Text.encode "n:b", live),
        (Text.encode "n:c", [1, 2, 3]), (Text.encode "n:d", past)] ∧
      after.counters = { expirations := 1 } := by
  intro past live content store e now before cut
  have opened : e.store = some store := rfl
  have at_ : Cut e.keys now "n" .observer (store.within (Text.encode (e.keys.root "n"))) before
      cut := by
    constructor
    case split => decide +kernel
    case passed => decide +kernel
    case ends =>
      intro row found
      rw [← Option.some.inj found]
      exact .inl (by decide)
    case finished => nofun
  rw [(iterate_to_cut opened Visitor.quiet_observer).2.2 before cut at_]
  refine ⟨opened, Visitor.quiet_observer, at_, ?_, ?_, ?_⟩ <;> decide +kernel

end Embedded

end ExpiringCache
