import ExpiringCache.Proofs.Embedded.Isolation

/-!
# Cleanups record by record

An embedded cache drops the expired records while it goes through them. A `Round` is such a
cleanup on its way. It reads the first record behind the one that it has read last, in the
store as that is by then, and reclaims it if it has expired.

What a round comes to can be told at any time from what lies ahead of it (`settled_step`).
So a whole round does what a cleanup does at one stroke (`finish_start`).
-/

namespace ExpiringCache

/-! ## Counts -/

theorem length_sub_filter {α : Type} (dead : α → Bool) (l : List α) :
    l.length - (l.filter fun a => !dead a).length = l.countP dead := by
  have split := l.length_eq_countP_add_countP dead
  have others : (l.filter fun a => !dead a).length = l.countP fun a => ¬ dead a = true := by
    rw [List.countP_eq_length_filter]
    simp only [Bool.not_eq_true, Bool.decide_eq_false]
  omega

namespace Counters

theorem expire_expire (c : Counters) (n n' : Nat) :
    (c.expire (.ofNat n)).expire (.ofNat n') = c.expire (.ofNat (n + n')) := by
  simp only [expire, UInt64.ofNat_add, UInt64.add_assoc]

theorem expire_zero (c : Counters) : c.expire (.ofNat 0) = c := by
  show { c with expirations := c.expirations + 0 } = c
  rw [UInt64.add_zero]

end Counters

/-! ## Records behind a key -/

/-- Whether a key comes behind another one, if there is one. -/
def Behind (last : Option Bytes) (key : Bytes) : Prop := ∀ k ∈ last, k < key

instance (last : Option Bytes) (key : Bytes) : Decidable (Behind last key) :=
  inferInstanceAs (Decidable (∀ k ∈ last, k < key))

theorem behind_some {last key : Bytes} : Behind (some last) key ↔ last < key := by
  simp [Behind]

theorem Behind.trans {last : Option Bytes} {key k : Bytes} (behind : Behind last key)
    (later : key < k) : Behind last k :=
  fun l here => List.lt_trans (behind l here) later

namespace Store

variable {s : Store} {last : Option Bytes} {key raw : Bytes} {rest : List (Bytes × Bytes)}

/-- The records behind a key, in order. -/
def after (s : Store) (last : Option Bytes) : List (Bytes × Bytes) :=
  s.records.filter fun row => Behind last row.1

theorem mem_after {row : Bytes × Bytes} :
    row ∈ s.after last ↔ row ∈ s.records ∧ Behind last row.1 := by
  rw [after, List.mem_filter, decide_eq_true_iff]

theorem sorted_after (next : s.after last = (key, raw) :: rest) : ∀ row ∈ rest, key < row.1 := by
  have sorted : (s.after last).Pairwise fun a b => a.1 < b.1 := s.sorted.filter _
  rw [next] at sorted
  exact (List.pairwise_cons.1 sorted).1

theorem head_after (next : s.after last = (key, raw) :: rest) :
    s.find? key = some raw ∧ Behind last key := by
  have first : (key, raw) ∈ s.after last := by
    rw [next]
    exact List.mem_cons_self
  obtain ⟨stored, behind⟩ := mem_after.1 first
  exact ⟨(Bindings.find?_eq_some s.nodup).2 stored, behind⟩

/-- Of the keys that are there, the first one behind `last` is the one next to it. -/
theorem behind_iff (next : s.after last = (key, raw) :: rest) {k r : Bytes}
    (stored : s.find? k = some r) : Behind last k ↔ k = key ∨ key < k := by
  constructor
  · intro behind
    have member : (k, r) ∈ s.after last :=
      mem_after.2 ⟨(Bindings.find?_eq_some s.nodup).1 stored, behind⟩
    rw [next] at member
    rcases List.mem_cons.1 member with same | further
    · exact .inl (congrArg Prod.fst same)
    · exact .inr (sorted_after next _ further)
  · rintro (rfl | later)
    · exact (head_after next).2
    · exact (head_after next).2.trans later

theorem after_some (next : s.after last = (key, raw) :: rest) : s.after (some key) = rest := by
  have fromHere : s.after (some key) = (s.after last).filter fun row => key < row.1 := by
    rw [after, after, List.filter_filter]
    apply List.filter_congr
    intro row _
    by_cases later : key < row.1
    · simp [behind_some, later, (head_after next).2.trans later]
    · simp [behind_some, later]
  rw [fromHere, next, List.filter_cons_of_neg (by simp), List.filter_eq_self]
  intro row member
  exact decide_eq_true (sorted_after next row member)

/-- What is removed at a key does not lie behind it. -/
theorem after_erase (s : Store) (key : Bytes) :
    (s.erase key).after (some key) = s.after (some key) := by
  rw [after, after, erase, keep, List.filter_filter]
  apply List.filter_congr
  intro row _
  by_cases later : key < row.1
  · have other : row.1 ≠ key := by
      intro same
      rw [same] at later
      exact List.lt_irrefl _ later
    simp [behind_some, later, other]
  · simp [behind_some, later]

end Store

namespace Embedded

/-- A cleanup on its way through the store. -/
structure Round where
  /-- The key that was read last. -/
  last : Option Bytes
  /-- How many records have been dropped. -/
  dropped : Nat
  cache : Embedded

namespace Round

variable {now : UInt64} {r r' : Round} {e : Embedded} {store : Store} {key raw : Bytes}
  {rest : List (Bytes × Bytes)}

def start (e : Embedded) : Round := ⟨none, 0, e⟩

def result (r : Round) : Nat × Embedded := (r.dropped, r.cache)

/-- The records that are still to be read. -/
def ahead (r : Round) : List (Bytes × Bytes) :=
  match r.cache.store with
  | none => []
  | some store => store.after r.last

/-- Whether a record stands as it was read. -/
def Stands (r : Round) (key raw : Bytes) : Prop := r.cache.store.bind (·.find? key) = some raw

instance (r : Round) (key raw : Bytes) : Decidable (r.Stands key raw) :=
  inferInstanceAs (Decidable (_ = _))

/-- Reads the next record. A record that does not decode is passed over. An expired one is
reclaimed, and counted if it was still there. -/
def step? (now : UInt64) (r : Round) : Option Round :=
  match r.ahead with
  | [] => none
  | (key, raw) :: _ =>
      match Record.decode raw with
      | .error _ => some { r with last := some key }
      | .ok record =>
          if record.expired now then
            some ⟨some key, if r.Stands key raw then r.dropped + 1 else r.dropped,
              r.cache.reclaim key raw⟩
          else some { r with last := some key }

/-! ## One record -/

theorem step?_eq_none_iff : r.step? now = none ↔ r.ahead = [] := by
  unfold step?
  split
  next none => simp [none]
  next some =>
    simp only [some, List.cons_ne_nil, iff_false]
    split
    next => nofun
    next => split <;> nofun

/-- What a step can do: it goes on to the next record, and drops it if it has expired. -/
theorem step_cases (moved : r.step? now = some r') :
    ∃ store key raw rest, r.cache.store = some store ∧ store.after r.last = (key, raw) :: rest ∧
      r' = if hasExpired now raw then
          ⟨some key, r.dropped + 1,
            { r.cache with store := some (store.erase key) }.count (·.expire 1)⟩
        else { r with last := some key } := by
  unfold step? at moved
  split at moved
  next => cases moved
  next key raw rest next =>
    cases opened : r.cache.store with
    | none => simp [ahead, opened] at next
    | some store =>
        simp only [ahead, opened] at next
        refine ⟨store, key, raw, rest, rfl, next, ?_⟩
        have found : store.find? key = some raw := (Store.head_after next).1
        cases read : Record.decode raw with
        | error cause =>
            simp only [read, Option.some.injEq] at moved
            simp [← moved, hasExpired, read]
        | ok record =>
            rw [hasExpired_iff read]
            simp only [read] at moved
            split at moved
            next past =>
              have stands : r.Stands key raw := by
                rw [Stands, opened]
                exact found
              simp only [stands, if_true, Option.some.injEq, reclaim, opened, found] at moved
              rw [if_pos past, ← moved]
            next fresh =>
              rw [if_neg fresh]
              exact (Option.some.inj moved).symm

/-- A step leaves the records behind the one that it reads. -/
theorem ahead_step (moved : r.step? now = some r') : ∃ row, r.ahead = row :: r'.ahead := by
  obtain ⟨store, key, raw, rest, opened, next, result⟩ := step_cases moved
  refine ⟨(key, raw), ?_⟩
  have left : r'.ahead = rest := by
    split at result
    next =>
      simp only [result, ahead, count]
      rw [Store.after_erase, Store.after_some next]
    next =>
      simp only [result, ahead, opened]
      exact Store.after_some next
  simp only [ahead, opened] at left ⊢
  rw [next, left]

/-! ## The whole round -/

/-- Reads one record after the other until none is left. -/
def finish (now : UInt64) (r : Round) : Round :=
  match _moved : r.step? now with
  | none => r
  | some r' => finish now r'
termination_by r.ahead.length
decreasing_by
  obtain ⟨row, next⟩ := ahead_step _moved
  rw [next]
  exact Nat.lt_succ_self _

/-- The count and the cache that a round comes to, from what lies ahead of it. -/
def settled (now : UInt64) (r : Round) : Nat × Embedded :=
  let gone := r.ahead.countP fun row => hasExpired now row.2
  (r.dropped + gone,
    { r.cache with
      store := r.cache.store.map
        (·.keep fun k raw => !(decide (Behind r.last k) && hasExpired now raw))
      counters := r.cache.counters.expire (.ofNat gone) })

/-- Where a record lies ahead, the others ahead are those behind it. -/
theorem settled_of_cons (opened : r.cache.store = some store)
    (next : store.after r.last = (key, raw) :: rest) :
    r.settled now =
      let gone := rest.countP fun row => hasExpired now row.2
      (r.dropped + (gone + if hasExpired now raw then 1 else 0),
        { r.cache with
          store := some (store.keep fun k r =>
            !((k == key || decide (key < k)) && hasExpired now r))
          counters := r.cache.counters.expire
            (.ofNat (gone + if hasExpired now raw then 1 else 0)) }) := by
  have records : (store.keep fun k raw => !(decide (Behind r.last k) && hasExpired now raw)) =
      store.keep fun k r => !((k == key || decide (key < k)) && hasExpired now r) := by
    apply Store.keep_congr
    intro k r stored
    simp only [Store.behind_iff next stored, Bool.decide_or, Bool.beq_eq_decide_eq]
  simp only [settled, ahead, opened, next, Option.map_some, records, List.countP_cons]

/-- Of the other keys, those behind `key` lie ahead once it has been read. -/
theorem ahead_of_ne {k : Bytes} (other : (k != key) = true) :
    decide (Behind (some key) k) = (k == key || decide (key < k)) := by
  have apart : (k == key) = false := beq_eq_false_iff_ne.2 (bne_iff_ne.1 other)
  simp only [behind_some, apart, Bool.false_or]

/-- A step drops what it was to drop, and leaves the rest to the later ones. -/
theorem settled_step (moved : r.step? now = some r') : r'.settled now = r.settled now := by
  obtain ⟨store, key, raw, rest, opened, next, result⟩ := step_cases moved
  have found : store.find? key = some raw := (Store.head_after next).1
  have left : store.after (some key) = rest := Store.after_some next
  rw [settled_of_cons opened next]
  split at result
  next past =>
    have records : ((store.erase key).keep fun k r =>
          !(decide (Behind (some key) k) && hasExpired now r)) =
        store.keep fun k r => !((k == key || decide (key < k)) && hasExpired now r) := by
      rw [Store.erase, Store.keep_keep]
      apply Store.keep_congr_at found
      · simp [past]
      · intro k r other
        rw [ahead_of_ne other, other, Bool.and_true]
    have counted (gone : Nat) : (r.cache.counters.expire 1).expire (.ofNat gone) =
        r.cache.counters.expire (.ofNat (gone + 1)) := by
      rw [Nat.add_comm]
      exact r.cache.counters.expire_expire 1 gone
    simp only [settled, ahead, result, count, Store.after_erase, left, past, if_true,
      Option.map_some, records, counted, Prod.mk.injEq, and_true]
    omega
  next fresh =>
    have records : (store.keep fun k r => !(decide (Behind (some key) k) && hasExpired now r)) =
        store.keep fun k r => !((k == key || decide (key < k)) && hasExpired now r) := by
      apply Store.keep_congr_at found
      · simp [fresh]
      · intro k r other
        rw [ahead_of_ne other]
    simp only [settled, ahead, result, opened, left, fresh, Bool.false_eq_true, if_false,
      Option.map_some, records, Nat.add_zero]

/-- When nothing lies ahead, there is nothing left to do. -/
theorem settled_of_ended (ended : r.step? now = none) : r.settled now = r.result := by
  have none : r.ahead = [] := step?_eq_none_iff.1 ended
  have same : r.cache.store.map
      (·.keep fun k raw => !(decide (Behind r.last k) && hasExpired now raw)) = r.cache.store := by
    cases opened : r.cache.store with
    | none => rfl
    | some store =>
        rw [Option.map_some, Store.keep_eq_self]
        intro k raw stored
        have past : ¬ Behind r.last k := by
          intro behind
          have member : (k, raw) ∈ r.ahead := by
            simp only [ahead, opened]
            exact Store.mem_after.2 ⟨(Bindings.find?_eq_some store.nodup).1 stored, behind⟩
          rw [none] at member
          cases member
        simp [past]
  simp only [settled, result, none, List.countP_nil, Nat.add_zero, same, Counters.expire_zero]

theorem result_finish (now : UInt64) (r : Round) : (r.finish now).result = r.settled now := by
  induction r using finish.induct now with
  | case1 r ended =>
      unfold finish
      split
      next => exact (settled_of_ended ended).symm
      next moved =>
        rw [ended] at moved
        cases moved
  | case2 r r' moved ih =>
      unfold finish
      split
      next ended =>
        rw [moved] at ended
        cases ended
      next r'' moved' =>
        obtain rfl := Option.some.inj (moved.symm.trans moved')
        rw [ih, settled_step moved]

/-- A round from the start comes to what a cleanup does. -/
theorem finish_start (now : Instant) (e : Embedded) :
    ((start e).finish now.unixMillis).result = e.cleanup now := by
  rw [result_finish]
  have behind (key : Bytes) : Behind none key := nofun
  cases opened : e.store with
  | none =>
      simp only [settled, start, ahead, cleanup, opened, Option.map_none, List.countP_nil,
        Nat.add_zero, Counters.expire_zero]
      rw [← opened]
  | some store =>
      have all : store.after none = store.records := by
        rw [Store.after, List.filter_eq_self]
        intro row _
        exact decide_eq_true (behind row.1)
      have removed : store.size - (store.keep fun _ raw => !hasExpired now.unixMillis raw).size =
          store.records.countP fun row => hasExpired now.unixMillis row.2 :=
        length_sub_filter (fun row : Bytes × Bytes => hasExpired now.unixMillis row.2) _
      simp only [settled, start, ahead, cleanup, opened, all, behind, removed, decide_true,
        Bool.true_and, Option.map_some, Nat.zero_add]
      rfl

end Round

end Embedded

end ExpiringCache
