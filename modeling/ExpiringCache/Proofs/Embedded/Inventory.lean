import ExpiringCache.Proofs.Embedded.Directory
import ExpiringCache.Proofs.Inventory

/-!
# The inventory of embedded caches

The records in the directory of an embedded cache, expired ones included. Where every
record is long enough to be one, whatever is removed is counted, and a close leaves all
of them on the disk (`Loan.exact_inventory`).
-/

namespace ExpiringCache

namespace Store

variable {s : Store}

def held (s : Store) : Finset Bytes := Bindings.keys s.records

theorem card_held (s : Store) : s.held.card = s.size := Bindings.card_keys s.nodup

/-- What is erased was one record, so that counting it keeps the books. -/
theorem erase_counted {key raw : Bytes} (found : s.find? key = some raw) (gone : UInt64) :
    UInt64.ofNat (s.erase key).size + (gone + 1) = .ofNat s.size + gone :=
  ofNat_add_succ (Bindings.length_erase s.nodup found) gone

theorem keep_counted (s : Store) (test : Bytes → Bytes → Bool) (gone : UInt64) :
    UInt64.ofNat (s.keep test).size + (gone + .ofNat (s.size - (s.keep test).size)) =
      .ofNat s.size + gone :=
  ofNat_add_sub (List.length_filter_le ..) gone

theorem held_insert (s : Store) (key raw : Bytes) :
    (s.insert key raw).held = Insert.insert key s.held :=
  Bindings.keys_bind fun k => s.find?_insert key k raw

theorem held_keep (s : Store) (test : Bytes → Bytes → Bool) : (s.keep test).held ⊆ s.held :=
  Bindings.keys_filter _ _

/-- Every record is whole, whatever its key. -/
def Whole (s : Store) : Prop := ∀ r ∈ s.records, Record.Whole r.2

theorem Whole.moved (whole : s.Whole) (keys : Keys) (now : UInt64) (move : Move) :
    (s.moved keys now move).Whole := by
  have kept (test : Bytes → Bytes → Bool) : (s.keep test).Whole := by
    intro r member
    exact whole r (List.mem_of_mem_filter member)
  cases move with
  | serve q =>
      cases q with
      | set ns key value ttl =>
          intro r member
          rcases mem_insertRecord member with rfl | old
          · exact Record.whole_encode _
          · exact whole r old
      | get | take | contains | delete => exact kept _
  | reclaim | cleanup => exact kept _
  | close => exact whole

end Store

namespace Embedded

variable {e : Embedded} {store : Store}

/-- The records that an open cache has, and those that it has counted as removed. -/
def stock (e : Embedded) : UInt64 := .ofNat (e.store.elim 0 Store.size) + e.counters.removals

theorem stock_reclaim (e : Embedded) (key raw : Bytes) : (e.reclaim key raw).stock = e.stock := by
  unfold reclaim
  split
  next store opened =>
    split
    next found =>
      show .ofNat (store.erase key).size + (e.counters.expire 1).removals =
        .ofNat (e.store.elim 0 Store.size) + _
      rw [Counters.removals_expire, opened, Option.elim_some]
      exact Store.erase_counted found _
    next => rfl
  next => rfl

theorem stock_look (now : UInt64) (e : Embedded) (store : Store) (key : Bytes) :
    (e.look now store key).2.stock = e.stock := by
  unfold look
  split
  next => rfl
  next raw _ =>
    split
    next => rfl
    next =>
      split
      next => exact e.stock_reclaim key raw
      next => rfl

theorem stock_get (now : UInt64) (e : Embedded) (store : Store) (key : Bytes) :
    (e.get now store key).2.stock = e.stock := by
  obtain ⟨change, reads, state⟩ := e.get_state now store key
  have uncounted (c : Counters) : (change c).removals = c.removals := by
    rcases reads with rfl | ⟨found, rfl⟩
    · rfl
    · exact c.removals_read found
  rw [state]
  show .ofNat _ + (change _).removals = _
  rw [uncounted]
  exact e.stock_look now store key

theorem stock_contains (now : UInt64) (e : Embedded) (store : Store) (key : Bytes) :
    (e.contains now store key).2.stock = e.stock := by
  rw [contains_state]
  exact e.stock_look now store key

/-- A take counts what it removes, as all records are whole. -/
theorem stock_take (opened : e.store = some store) (whole : store.Whole) (now : UInt64)
    (key : Bytes) : (e.take now store key).2.stock = e.stock := by
  unfold take
  split
  next => rfl
  next raw found =>
    obtain ⟨record, read⟩ := Record.decode_of_whole (whole _ (Bindings.mem_of_find? found))
    simp only [read]
    split
    next =>
      show .ofNat (store.erase key).size + ((e.counters.expire 1).miss).removals =
        .ofNat (e.store.elim 0 Store.size) + _
      rw [Counters.removals_miss, Counters.removals_expire, opened, Option.elim_some]
      exact Store.erase_counted found _
    next =>
      show .ofNat (store.erase key).size + (e.counters.delete.hit).removals =
        .ofNat (e.store.elim 0 Store.size) + _
      rw [Counters.removals_hit, Counters.removals_delete, opened, Option.elim_some]
      exact Store.erase_counted found _

theorem stock_delete (opened : e.store = some store) (key : Bytes) :
    (e.delete store key).2.stock = e.stock := by
  unfold delete
  split
  next => rfl
  next raw found =>
    show .ofNat (store.erase key).size + e.counters.delete.removals =
      .ofNat (e.store.elim 0 Store.size) + _
    rw [Counters.removals_delete, opened, Option.elim_some]
    exact Store.erase_counted found _

theorem stock_request (opened : e.store = some store) (whole : store.Whole) (now : Instant)
    {q : Request} (other : ∀ ns key value ttl, q ≠ .set ns key value ttl) :
    (e.request now q).2.stock = e.stock := by
  simp only [request, opened]
  cases q with
  | set ns key value ttl => exact absurd rfl (other ns key value ttl)
  | get => exact e.stock_get _ _ _
  | take => exact stock_take opened whole _ _
  | contains => exact e.stock_contains _ _ _
  | delete => exact stock_delete opened _

theorem stock_cleanup (now : Instant) (e : Embedded) : (e.cleanup now).2.stock = e.stock := by
  unfold cleanup
  split
  next => rfl
  next store opened =>
    show .ofNat (store.keep _).size + (e.counters.expire (.ofNat (_ - _))).removals =
      .ofNat (e.store.elim 0 Store.size) + _
    rw [Counters.removals_expire, opened, Option.elim_some]
    exact store.keep_counted _ _

end Embedded

/-! ## Caches on a disk -/

namespace Loan

variable {l : Loan} {s : Store}

/-- What the directory of a cache holds, live or expired. -/
def inventory : breakdown.Inventory Bytes where
  held l := l.content.held
  counters l := l.cache.counters
  composite l := l.cache.rawKey

theorem stock_of_open (opened : l.cache.store = some s) : inventory.stock l = l.cache.stock := by
  show UInt64.ofNat l.content.held.card + _ = .ofNat (l.cache.store.elim 0 Store.size) + _
  rw [content_of_open opened, Store.card_held, opened]
  rfl

theorem stock_close (l : Loan) : inventory.stock l.close = inventory.stock l := by
  have uncounted : l.close.cache.counters = l.cache.counters := by
    cases opened : l.cache.store <;> simp [close, Embedded.close, opened]
  show UInt64.ofNat l.close.content.held.card + l.close.cache.counters.removals = _
  rw [l.content_close, uncounted]
  rfl

/-- Nothing comes or goes through a cache that is closed. -/
theorem still_of_closed (closed : l.cache.store = none) (now : Instant) (move : Move) :
    inventory.stock (l.act now move) = inventory.stock l ∧ inventory.arrivals now l move = 0 := by
  by_cases closing : move = .close
  · subst closing
    exact ⟨l.stock_close, rfl⟩
  · refine ⟨by rw [act_of_closed closed now closing], ?_⟩
    cases move with
    | serve q =>
        cases q with
        | set ns key value ttl =>
            have refused : (service.request now l (.set ns key value ttl)).1 = .fault .closed := by
              simp only [service, Embedded.request, closed]
            simp [Service.Breakdown.Inventory.arrivals, refused]
        | get | take | contains | delete => rfl
    | reclaim | cleanup => rfl
    | close => exact absurd rfl closing

/-- Only a request to set makes a new record. -/
theorem card_new (opened : l.cache.store = some s) (now : Instant) (move : Move) :
    ((l.act now move).content.held \ l.content.held).card = inventory.arrivals now l move := by
  have kept (test : Bytes → Bytes → Bool) : ((s.keep test).held \ s.held).card = 0 := by
    rw [Finset.sdiff_eq_empty_iff_subset.2 (s.held_keep test), Finset.card_empty]
  rw [content_act opened, content_of_open opened]
  cases move with
  | serve q =>
      cases q with
      | set ns key value ttl =>
          have served : (service.request now l (.set ns key value ttl)).1 = .done := by
            simp only [service, Embedded.request, opened]
            rfl
          simp only [Service.Breakdown.Inventory.arrivals, served, true_and]
          show ((s.insert (l.cache.rawKey ns key) _).held \ s.held).card =
            if l.cache.rawKey ns key ∉ l.content.held then 1 else 0
          rw [Store.held_insert, card_insert_sdiff, content_of_open opened]
      | get | take | contains | delete => exact kept _
  | reclaim | cleanup => exact kept _
  | close => exact Finset.card_eq_zero.2 (Finset.sdiff_self _)

/-- A close drops nothing, as the disk has all records back. -/
theorem dropped_eq_zero (now : Instant) (l : Loan) (move : Move) :
    inventory.dropped now l move = 0 := by
  cases move with
  | serve | reclaim | cleanup => rfl
  | close =>
      show (l.content.held \ l.close.content.held).card = 0
      rw [l.content_close, Finset.sdiff_self, Finset.card_empty]

theorem stock_set (opened : l.cache.store = some s) (now : Instant) (ns key : String)
    (value : Bytes) (ttl : Option Duration) :
    inventory.stock (l.act now (.serve (.set ns key value ttl))) =
      inventory.stock l + .ofNat (inventory.arrivals now l (.serve (.set ns key value ttl))) := by
  have uncounted : (l.act now (.serve (.set ns key value ttl))).cache.counters.removals =
      l.cache.counters.removals := by
    show ((l.cache.request now (.set ns key value ttl)).2).counters.removals = _
    simp only [Embedded.request, opened]
    rfl
  rw [← card_new opened now (.serve (.set ns key value ttl))]
  show UInt64.ofNat (l.act now _).content.held.card + (l.act now _).cache.counters.removals =
    .ofNat l.content.held.card + l.cache.counters.removals + _
  rw [uncounted, content_act opened, content_of_open opened]
  show UInt64.ofNat (s.insert (l.cache.rawKey ns key) _).held.card + _ =
    _ + _ + .ofNat ((s.insert (l.cache.rawKey ns key) _).held \ s.held).card
  rw [Store.held_insert, card_insert_sdiff, card_insert_counted]

theorem stock_act (opened : l.cache.store = some s) (whole : s.Whole) (now : Instant)
    (move : Move) :
    inventory.stock (l.act now move) =
      inventory.stock l + .ofNat (inventory.arrivals now l move) := by
  have same {e : Embedded} {t : Store} (after : e.store = some t) (kept : e.stock = l.cache.stock) :
      inventory.stock { l with cache := e } = inventory.stock l + .ofNat 0 := by
    rw [stock_of_open after, stock_of_open opened, kept]
    exact (UInt64.add_zero _).symm
  have after {move : Move} (open_ : move ≠ .close) := Embedded.store_act opened now open_
  cases move with
  | serve q =>
      cases q with
      | set ns key value ttl => exact stock_set opened now ns key value ttl
      | get | take | contains | delete =>
          exact same (after nofun) (Embedded.stock_request opened whole now nofun)
  | reclaim key raw => exact same (after nofun) (l.cache.stock_reclaim key raw)
  | cleanup => exact same (after nofun) (l.cache.stock_cleanup now)
  | close => exact (l.stock_close).trans (UInt64.add_zero _).symm

/-- Every move keeps the books, as long as every record is whole. -/
theorem exact_inventory : inventory.Exact fun l => l.content.Whole where
  keeps now l move whole := by
    cases opened : l.cache.store with
    | none =>
        show (l.act now move).content.Whole
        rw [content_of_closed opened]
        exact whole
    | some s =>
        rw [content_of_open opened] at whole
        show (l.act now move).content.Whole
        rw [content_act opened]
        exact whole.moved _ _ _
  arrives now l move _ := by
    cases opened : l.cache.store with
    | none =>
        show ((l.act now move).content.held \ l.content.held).card = _
        rw [content_of_closed opened, (still_of_closed opened now move).2, Finset.sdiff_self,
          Finset.card_empty]
    | some s => exact card_new opened now move
  counts now l move whole := by
    rw [dropped_eq_zero]
    refine (UInt64.add_zero _).trans ?_
    cases opened : l.cache.store with
    | none =>
        obtain ⟨still, nothing⟩ := still_of_closed opened now move
        show inventory.stock (l.act now move) = _
        rw [still, nothing]
        exact (UInt64.add_zero _).symm
    | some s =>
        rw [content_of_open opened] at whole
        exact stock_act opened whole now move

end Loan

end ExpiringCache
