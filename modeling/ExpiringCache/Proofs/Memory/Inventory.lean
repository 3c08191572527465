import ExpiringCache.Proofs.Inventory
import ExpiringCache.Proofs.Memory.Moves

/-!
# The inventory of memory caches

The entries in the table of a memory cache, expired ones included. Every request,
cleanup and sweep counts what it removes, and a close drops the whole table without
counting (`Memory.exact_inventory`).
-/

namespace ExpiringCache

namespace Table

variable {t : Table}

def held (t : Table) : Finset String := Bindings.keys t.entries

theorem card_held (t : Table) : t.held.card = t.size := Bindings.card_keys t.nodup

/-- What is erased was one entry, so that counting it keeps the books. -/
theorem erase_counted {key : String} {e : Entry} (found : t.find? key = some e) (gone : UInt64) :
    UInt64.ofNat (t.erase key).size + (gone + 1) = .ofNat t.size + gone :=
  ofNat_add_succ (Bindings.length_erase t.nodup found) gone

theorem keep_counted (t : Table) (test : String → Entry → Bool) (gone : UInt64) :
    UInt64.ofNat (t.keep test).size + (gone + .ofNat (t.size - (t.keep test).size)) =
      .ofNat t.size + gone :=
  ofNat_add_sub (List.length_filter_le ..) gone

theorem held_insert (t : Table) (key : String) (e : Entry) :
    (t.insert key e).held = Insert.insert key t.held :=
  Bindings.keys_bind fun k => t.find?_insert key k e

theorem held_keep (t : Table) (test : String → Entry → Bool) : (t.keep test).held ⊆ t.held :=
  Bindings.keys_filter _ _

end Table

namespace Memory

/-- What a memory cache holds, live or expired. -/
def inventory : breakdown.Inventory String where
  held m := m.table.held
  counters := counters
  composite m := m.keys.compose

theorem stock_eq (m : Memory) :
    inventory.stock m = .ofNat m.table.size + m.counters.removals := by
  rw [← Table.card_held]
  rfl

/-! ## Requests -/

theorem stock_set (now : Instant) (m : Memory) (ns key : String) (value : Bytes)
    (ttl : Option Duration) :
    inventory.stock (m.act now (.serve (.set ns key value ttl))) =
      inventory.stock m + .ofNat (inventory.arrivals now m (.serve (.set ns key value ttl))) := by
  show UInt64.ofNat (m.table.insert (m.keys.compose ns key) _).held.card + m.counters.removals =
    .ofNat m.table.held.card + m.counters.removals +
      .ofNat (if Answer.done = .done ∧ m.keys.compose ns key ∉ m.table.held then 1 else 0)
  rw [Table.held_insert, card_insert_counted]
  simp only [true_and]

theorem stock_get (now : Instant) (m : Memory) (key : String) :
    inventory.stock (m.get now key).2 = inventory.stock m := by
  rw [stock_eq, stock_eq]
  unfold get
  split
  next => rfl
  next e found =>
    split
    next =>
      show .ofNat (m.table.erase key).size + ((m.counters.expire 1).miss).removals = _
      rw [Counters.removals_miss, Counters.removals_expire]
      exact Table.erase_counted found _
    next => rfl

theorem stock_take (now : Instant) (m : Memory) (key : String) :
    inventory.stock (m.take now key).2 = inventory.stock m := by
  rw [stock_eq, stock_eq]
  unfold take
  split
  next => rfl
  next e found =>
    dsimp only
    split
    next =>
      show .ofNat (m.table.erase key).size + ((m.counters.expire 1).miss).removals = _
      rw [Counters.removals_miss, Counters.removals_expire]
      exact Table.erase_counted found _
    next =>
      show .ofNat (m.table.erase key).size + (m.counters.delete.hit).removals = _
      rw [Counters.removals_hit, Counters.removals_delete]
      exact Table.erase_counted found _

theorem stock_delete (m : Memory) (key : String) :
    inventory.stock (m.delete key) = inventory.stock m := by
  rw [stock_eq, stock_eq]
  unfold delete
  split
  next => rfl
  next e found =>
    show .ofNat (m.table.erase key).size + (m.counters.delete).removals = _
    rw [Counters.removals_delete]
    exact Table.erase_counted found _

theorem stock_cleanup (now : Instant) (m : Memory) :
    inventory.stock (m.cleanup now).2 = inventory.stock m := by
  rw [stock_eq, stock_eq]
  show .ofNat (m.table.keep _).size + (m.counters.expire (.ofNat (_ - _))).removals = _
  rw [Counters.removals_expire]
  exact m.table.keep_counted _ _

/-! ## Moves -/

/-- Only a request to set binds a new key. -/
theorem card_new (now : Instant) (m : Memory) (move : Move) :
    ((m.act now move).table.held \ m.table.held).card = inventory.arrivals now m move := by
  have kept (test : String → Entry → Bool) :
      ((m.table.keep test).held \ m.table.held).card = 0 := by
    rw [Finset.sdiff_eq_empty_iff_subset.2 (m.table.held_keep test), Finset.card_empty]
  rw [table_act]
  cases move with
  | serve q =>
      cases q with
      | set ns key value ttl =>
          show ((m.table.insert (m.keys.compose ns key) _).held \ m.table.held).card =
            if Answer.done = .done ∧ m.keys.compose ns key ∉ m.table.held then 1 else 0
          rw [Table.held_insert, card_insert_sdiff]
          simp only [true_and]
      | get | take | delete => exact kept _
      | contains => exact Finset.card_eq_zero.2 (Finset.sdiff_self _)
  | reclaim => exact Finset.card_eq_zero.2 (Finset.sdiff_self _)
  | cleanup => exact kept _
  | close => exact Finset.card_eq_zero.2 (Finset.empty_sdiff _)

/-- Every move keeps the books. -/
theorem exact_inventory : inventory.Exact fun _ => True where
  keeps _ _ _ _ := trivial
  arrives now m move _ := m.card_new now move
  counts now m move _ := by
    have same {m' : Memory} (kept : inventory.stock m' = inventory.stock m) :
        inventory.stock m' + .ofNat 0 = inventory.stock m + .ofNat 0 := by rw [kept]
    cases move with
    | serve q =>
        cases q with
        | set ns key value ttl =>
            exact (UInt64.add_zero _).trans (m.stock_set now ns key value ttl)
        | get ns key => exact same (m.stock_get now _)
        | take ns key => exact same (m.stock_take now _)
        | contains => rfl
        | delete ns key => exact same (m.stock_delete _)
    | reclaim => rfl
    | cleanup => exact same (m.stock_cleanup now)
    | close =>
        -- The table is gone, and all its entries are dropped.
        show UInt64.ofNat 0 + m.counters.removals + .ofNat (m.table.held \ ∅).card =
          .ofNat m.table.held.card + m.counters.removals + .ofNat 0
        rw [Finset.sdiff_empty]
        grind

end Memory

end ExpiringCache
