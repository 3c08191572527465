import ExpiringCache.Proofs.Embedded.Traversal

/-!
# What is done in the course of a traversal

While an embedded cache is traversed, the requests of the visitor are served, and expired
records are reclaimed (`gentle_of_walk`). None of this touches a record that has not
expired, unless a request binds or unbinds its key (`record?_foldl`), and no record comes
into being but those that requests to set write (`record?_origin`).

Expired records go as the traversal and the readers among the requests meet them, and each
one that goes is counted (`expirations_foldl`).
-/

namespace ExpiringCache

namespace Move

/-- The key that a request binds or unbinds. -/
def target? (keys : Keys) : Move → Option Bytes
  | .serve (.set ns key _ _) | .serve (.take ns key) | .serve (.delete ns key) =>
      some (Text.encode (keys.compose ns key))
  | _ => none

/-- The record that a request writes. -/
def written? (keys : Keys) (now : UInt64) : Move → Option (Bytes × Bytes)
  | .serve (.set ns key value ttl) =>
      some (Text.encode (keys.compose ns key), (Record.make value ttl now).encode)
  | _ => none

/-- A request is served, or a record is reclaimed that was read as an expired one. -/
def Gentle (now : UInt64) : Move → Prop
  | .serve _ => True
  | .reclaim _ raw => Embedded.hasExpired now raw = true
  | .cleanup | .close => False

theorem Gentle.open_ {now : UInt64} {m : Move} (gentle : m.Gentle now) : m ≠ .close := by
  rintro rfl
  exact gentle

end Move

namespace Store

variable {s : Store} {keys : Keys} {now : UInt64} {m : Move} {key raw : Bytes}

/-- A record that has not expired stays as it is, unless a request binds or unbinds its key.
What takes its place may have been written over an expired one. -/
theorem find?_moved (gentle : m.Gentle now) (apart : m.target? keys ≠ some key)
    (found : s.find? key = some raw) (fresh : Embedded.hasExpired now raw = false) :
    (s.moved keys now m).find? key = some raw := by
  cases m with
  | serve q =>
      cases q with
      | set ns k value ttl =>
          have other : Text.encode (keys.compose ns k) ≠ key := by
            rintro rfl
            exact apart rfl
          rw [moved, find?_insert, if_neg other, found]
      | get ns k | contains ns k => simp [moved, find?_keep, found, Option.filter, fresh]
      | take ns k | delete ns k =>
          have other : Text.encode (keys.compose ns k) ≠ key := by
            rintro rfl
            exact apart rfl
          rw [moved, find?_erase, if_neg other, found]
  | reclaim k r =>
      -- It is compared with what was read, and that has expired.
      have differs : raw ≠ r := by
        rintro rfl
        exact Bool.false_ne_true (fresh.symm.trans gentle)
      simp [moved, find?_keep, found, Option.filter, differs]
  | cleanup | close => cases gentle

/-- Whatever is in a store after a move was there before, or a request has written it. -/
theorem origin_moved (found : (s.moved keys now m).find? key = some raw) :
    s.find? key = some raw ∨ m.written? keys now = some (key, raw) := by
  have kept {test : Bytes → Bytes → Bool} (found : (s.keep test).find? key = some raw) :
      s.find? key = some raw := by
    rw [find?_keep, Option.filter_eq_some_iff] at found
    exact found.1
  cases m with
  | serve q =>
      cases q with
      | set ns k value ttl =>
          rw [moved, find?_insert] at found
          split at found
          next same =>
            right
            rw [← same, ← Option.some.inj found]
            rfl
          next => exact .inl found
      | get | take | contains | delete => exact .inl (kept found)
  | reclaim | cleanup => exact .inl (kept found)
  | close => exact .inl found

/-! ## Expired records that go -/

/-- How many expired records of a store are not in another one. -/
def lapsed (now : UInt64) (s t : Store) : Nat :=
  s.records.countP fun row =>
    Embedded.hasExpired now row.2 && decide (t.find? row.1 ≠ some row.2)

@[simp] theorem lapsed_self (now : UInt64) (s : Store) : s.lapsed now s = 0 := by
  rw [lapsed, List.countP_eq_zero]
  rintro ⟨key, raw⟩ member
  have found : s.find? key = some raw := (Bindings.find?_eq_some s.nodup).2 member
  simp [found]

/-- If one record is erased, this is one that goes, or none. -/
theorem lapsed_erase (found : s.find? key = some raw) :
    s.lapsed now (s.erase key) = if Embedded.hasExpired now raw then 1 else 0 := by
  have member : (key, raw) ∈ s.records := Bindings.mem_of_find? found
  have gone : s.lapsed now (s.erase key) =
      s.records.countP fun row => Embedded.hasExpired now raw && row == (key, raw) := by
    apply List.countP_congr
    rintro ⟨k, r⟩ inside
    have stored : s.find? k = some r := (Bindings.find?_eq_some s.nodup).2 inside
    by_cases same : key = k
    · subst same
      obtain rfl := Option.some.inj (stored.symm.trans found)
      simp [find?_erase]
    · simp [find?_erase, same, stored, Ne.symm same]
  rw [gone]
  cases past : Embedded.hasExpired now raw with
  | false => simp
  | true =>
      have once : s.records.count (key, raw) = 1 :=
        List.count_eq_one_of_mem (.of_map _ s.nodup) member
      simpa [List.count] using once

end Store

namespace Embedded

variable {e : Embedded} {store : Store} {keys : Keys} {now : Instant} {ns : String}
  {visitor : Visitor} {n : Nat} {rows : List (Bytes × Bytes)} {row : Bytes × Bytes}
  {m : Move} {moves : List Move} {key raw : Bytes}

/-! ## The moves of a traversal -/

theorem walk_short (broken : ¬ Record.Whole row.2) :
    walk keys now ns visitor n (row :: rows) = [] := by
  rw [walk, Record.decode_of_short (Nat.not_le.1 broken)]

theorem walk_expired (past : hasExpired now.unixMillis row.2 = true) :
    walk keys now ns visitor n (row :: rows) =
      .reclaim row.1 row.2 :: walk keys now ns visitor n rows := by
  unfold hasExpired at past
  split at past
  next record read =>
    rw [walk, read]
    simp only [past, if_true]
  next => cases past

theorem walk_live {logical : String} {value : Bytes}
    (shown : listed? keys now.unixMillis ns row = some (logical, value)) :
    walk keys now ns visitor n (row :: rows) =
      (visitor.requests (n + 1) logical value).map .serve ++
        if visitor.goesOn (n + 1) logical value then
          walk keys now ns visitor (n + 1) rows
        else [] := by
  obtain ⟨record, read, past, rfl, rfl⟩ := listed?_eq_some_iff.1 shown
  rw [walk, read]
  simp only [past, Bool.false_eq_true, if_false]

/-- A traversal does nothing but serve its visitor and reclaim expired records. -/
theorem gentle_of_walk (made : m ∈ walk keys now ns visitor n rows) :
    m.Gentle now.unixMillis := by
  induction rows generalizing n with
  | nil => cases made
  | cons row rows ih =>
      cases reads keys now ns row with
      | short broken =>
          rw [walk_short broken] at made
          cases made
      | expired past hidden =>
          rw [walk_expired past] at made
          rcases List.mem_cons.1 made with rfl | later
          · exact past
          · exact ih later
      | live logical value shown =>
          rw [walk_live shown] at made
          rcases List.mem_append.1 made with served | later
          · obtain ⟨q, -, rfl⟩ := List.mem_map.1 served
            trivial
          · split at later
            next => exact ih later
            next => cases later

/-- Further records make for further moves. -/
theorem walk_prefix (first later : List (Bytes × Bytes)) :
    walk keys now ns visitor n first <+: walk keys now ns visitor n (first ++ later) := by
  induction first generalizing n with
  | nil => exact List.nil_prefix
  | cons row first ih =>
      rw [List.cons_append]
      cases reads keys now ns row with
      | short broken => rw [walk_short broken, walk_short broken]
      | expired past hidden =>
          rw [walk_expired past, walk_expired past]
          exact (List.prefix_cons_inj _).2 ih
      | live logical value shown =>
          rw [walk_live shown, walk_live shown]
          apply (List.prefix_append_right_inj _).2
          split
          next => exact ih
          next => exact List.prefix_rfl

/-! ## Record by record -/

/-- The record that a cache has under a key. -/
def record? (e : Embedded) (key : Bytes) : Option Bytes := e.store.bind (·.find? key)

theorem record?_of_store (opened : e.store = some store) : e.record? key = store.find? key := by
  rw [record?, opened, Option.bind_some]

theorem record?_act (gentle : m.Gentle now.unixMillis) (apart : m.target? e.keys ≠ some key)
    (found : e.record? key = some raw) (fresh : hasExpired now.unixMillis raw = false) :
    (e.act now m).record? key = some raw := by
  obtain ⟨store, opened, stored⟩ := Option.bind_eq_some_iff.1 found
  rw [record?_of_store (store_act opened now gentle.open_)]
  exact Store.find?_moved gentle apart stored fresh

theorem origin_act (gentle : m.Gentle now.unixMillis)
    (found : (e.act now m).record? key = some raw) :
    e.record? key = some raw ∨ m.written? e.keys now.unixMillis = some (key, raw) := by
  cases opened : e.store with
  | none =>
      rw [record?, store_act_of_closed opened] at found
      cases found
  | some store =>
      rw [record?_of_store (store_act opened now gentle.open_)] at found
      rw [record?_of_store opened]
      exact Store.origin_moved found

/-- A record that has not expired outlives the moves of a traversal, if no request among
them binds or unbinds its key. -/
theorem record?_foldl (gentle : ∀ m ∈ moves, m.Gentle now.unixMillis)
    (apart : ∀ m ∈ moves, m.target? e.keys ≠ some key) (found : e.record? key = some raw)
    (fresh : hasExpired now.unixMillis raw = false) :
    (moves.foldl (act now) e).record? key = some raw := by
  induction moves generalizing e with
  | nil => exact found
  | cons m rest ih =>
      have first : (e.act now m).record? key = some raw :=
        record?_act (gentle m List.mem_cons_self) (apart m List.mem_cons_self) found fresh
      apply ih _ _ first
      · intro later member
        exact gentle later (.tail _ member)
      · intro later member
        rw [keys_act]
        exact apart later (.tail _ member)

/-- Whatever is there after the moves of a traversal was there before, or a request among
them has written it. -/
theorem record?_origin (gentle : ∀ m ∈ moves, m.Gentle now.unixMillis)
    (found : (moves.foldl (act now) e).record? key = some raw) :
    e.record? key = some raw ∨
      (key, raw) ∈ moves.filterMap (Move.written? e.keys now.unixMillis) := by
  induction moves generalizing e with
  | nil => exact .inl found
  | cons m rest ih =>
      have later : ∀ m ∈ rest, m.Gentle now.unixMillis := fun m member => gentle m (.tail _ member)
      have written {l : List (Bytes × Bytes)} :
          (key, raw) ∈ l → l = rest.filterMap (Move.written? e.keys now.unixMillis) →
          (key, raw) ∈ (m :: rest).filterMap (Move.written? e.keys now.unixMillis) := by
        rintro member rfl
        obtain ⟨m', inside, written⟩ := List.mem_filterMap.1 member
        exact List.mem_filterMap.2 ⟨m', .tail _ inside, written⟩
      rcases ih later found with before | after
      · rcases origin_act (gentle m List.mem_cons_self) before with old | new
        · exact .inl old
        · exact .inr (List.mem_filterMap.2 ⟨m, List.mem_cons_self, new⟩)
      · right
        exact written after (by rw [keys_act])

/-! ## Expired records that go -/

/-- The expired records that are gone after a step have been counted. -/
def Lapsing (now : UInt64) (e e' : Embedded) : Prop :=
  e'.counters.expirations =
    e.counters.expirations + .ofNat ((e.store.getD .empty).lapsed now (e'.store.getD .empty))

theorem Lapsing.refl (now : UInt64) (e : Embedded) : e.Lapsing now e := by
  simp [Lapsing]

/-- To count something else makes no difference. -/
theorem Lapsing.count {at_ : UInt64} {e' : Embedded} (lapsing : e.Lapsing at_ e')
    {change : Counters → Counters} (other : ∀ c, (change c).expirations = c.expirations) :
    e.Lapsing at_ (e'.count change) :=
  (other _).trans lapsing

theorem lapsing_reclaim {at_ : UInt64} (past : hasExpired at_ raw = true) (e : Embedded)
    (key : Bytes) : e.Lapsing at_ (e.reclaim key raw) := by
  unfold reclaim
  split
  next store opened =>
    split
    next found =>
      simp [Lapsing, opened, count, Counters.expire, Store.lapsed_erase found, past]
    next => exact .refl at_ e
  next => exact .refl at_ e

theorem lapsing_look (at_ : UInt64) (e : Embedded) (store : Store) (key : Bytes) :
    e.Lapsing at_ (e.look at_ store key).2 := by
  unfold look
  split
  next => exact .refl at_ e
  next raw _ =>
    split
    next => exact .refl at_ e
    next record read =>
      split
      next past => exact lapsing_reclaim ((hasExpired_iff read at_).trans past) e key
      next => exact .refl at_ e

theorem lapsing_take (opened : e.store = some store) (at_ : UInt64) (key : Bytes) :
    e.Lapsing at_ (e.take at_ store key).2 := by
  unfold take
  split
  next => exact (Lapsing.refl at_ e).count fun _ => rfl
  next raw found =>
    have erased (gone : UInt64) (counted : gone = .ofNat (if hasExpired at_ raw then 1 else 0)) :
        ∀ c : Counters, c.expirations = e.counters.expirations + gone →
          e.Lapsing at_ { e with store := some (store.erase key), counters := c } := by
      intro c total
      simp only [Lapsing, opened, Option.getD_some, Store.lapsed_erase found]
      rw [← counted, total]
    split
    next cause read =>
      exact erased 0 (by simp [hasExpired, read]) _ (UInt64.add_zero _).symm
    next record read =>
      split
      next past => exact erased 1 (by simp [hasExpired_iff read, past]) _ rfl
      next fresh => exact erased 0 (by simp [hasExpired_iff read, fresh]) _ (UInt64.add_zero _).symm

/-- How many expired records a move takes out as such. To overwrite or to delete one does
not count. -/
def lapses (now : Instant) (e : Embedded) : Move → Nat
  | .serve (.set ..) | .serve (.delete ..) => 0
  | m => (e.store.getD .empty).lapsed now.unixMillis ((e.act now m).store.getD .empty)

theorem expirations_act (gentle : m.Gentle now.unixMillis) :
    (e.act now m).counters.expirations = e.counters.expirations + .ofNat (e.lapses now m) := by
  cases m with
  | serve q =>
      cases opened : e.store with
      | none =>
          have unserved : e.act now (.serve q) = e := act_of_closed opened now nofun
          rw [unserved]
          cases q <;> simp [lapses, unserved]
      | some store =>
          cases q with
          | set =>
              simp only [act, request, opened]
              exact (UInt64.add_zero _).symm
          | get ns key =>
              obtain ⟨change, reads, state⟩ := e.get_state now.unixMillis store (e.rawKey ns key)
              have uncounted (c : Counters) : (change c).expirations = c.expirations := by
                rcases reads with rfl | ⟨found, rfl⟩
                · rfl
                · cases found <;> rfl
              show e.Lapsing now.unixMillis (e.request now _).2
              simp only [request, opened]
              rw [state]
              exact (e.lapsing_look now.unixMillis store _).count uncounted
          | contains ns key =>
              show e.Lapsing now.unixMillis (e.request now _).2
              simp only [request, opened, contains_state]
              exact e.lapsing_look now.unixMillis store _
          | take ns key =>
              show e.Lapsing now.unixMillis (e.request now _).2
              simp only [request, opened]
              exact lapsing_take opened now.unixMillis _
          | delete ns key =>
              simp only [act, request, opened, delete]
              split <;> exact (UInt64.add_zero _).symm
  | reclaim key raw => exact lapsing_reclaim gentle e key
  | cleanup | close => cases gentle

theorem expirations_foldl (gentle : ∀ m ∈ moves, m.Gentle now.unixMillis) :
    (moves.foldl (act now) e).counters.expirations =
      e.counters.expirations + .ofNat (breakdown.along now (lapses now) e moves) := by
  induction moves generalizing e with
  | nil => exact (UInt64.add_zero _).symm
  | cons m rest ih =>
      have first := expirations_act (e := e) (gentle m List.mem_cons_self)
      have others := ih (e := e.act now m) fun m member => gentle m (.tail _ member)
      rw [List.foldl_cons, others, first, UInt64.add_assoc, ← UInt64.ofNat_add]
      rfl

end Embedded

end ExpiringCache
