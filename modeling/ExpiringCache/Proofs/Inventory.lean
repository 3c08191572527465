import ExpiringCache.Bindings
import ExpiringCache.Proofs.Moves

/-!
# Inventories

What a cache physically holds changes with the moves that are made. Entries come in
when a request to set finds its key not held, and they leave by a removal, by expiry
or by a close that empties the cache. An `Inventory` says what is held and how it is
counted, and it is `Exact` if every single move keeps the books: then they balance
over every run, and the removals that were counted are the entries that have left
(`Inventory.Exact.runs`).
-/

namespace ExpiringCache

/-! ## Keys that are bound -/

namespace Bindings

variable {κ ν : Type} [DecidableEq κ]

def keys (l : List (κ × ν)) : Finset κ := (l.map (·.1)).toFinset

theorem mem_keys {l : List (κ × ν)} {key : κ} : key ∈ keys l ↔ (find? key l).isSome = true := by
  rw [keys, List.mem_toFinset, ← Option.ne_none_iff_isSome, Ne, find?_eq_none, not_not]

theorem card_keys {l : List (κ × ν)} (distinct : (l.map (·.1)).Nodup) :
    (keys l).card = l.length := by
  rw [keys, List.toFinset_card_of_nodup distinct, List.length_map]

/-- A list in which one more key is bound. -/
theorem keys_bind {l l' : List (κ × ν)} {key : κ} {value : ν}
    (bound : ∀ k, find? k l' = if key = k then some value else find? k l) :
    keys l' = insert key (keys l) := by
  ext k
  rw [mem_keys, bound, Finset.mem_insert, mem_keys]
  by_cases same : key = k
  · simp [same]
  · simp [same, Ne.symm same]

theorem keys_filter (test : κ × ν → Bool) (l : List (κ × ν)) : keys (l.filter test) ⊆ keys l := by
  intro k selected
  rw [keys, List.mem_toFinset] at selected ⊢
  exact (List.filter_sublist.map _).subset selected

theorem keys_erase [BEq κ] [LawfulBEq κ] (key : κ) (l : List (κ × ν)) :
    keys (l.filter fun (k, _) => k != key) = (keys l).erase key := by
  ext k
  simp only [keys, List.mem_toFinset, Finset.mem_erase, List.mem_map, List.mem_filter, bne_iff_ne]
  constructor
  · rintro ⟨row, ⟨member, other⟩, rfl⟩
    exact ⟨other, row, member, rfl⟩
  · rintro ⟨other, row, member, rfl⟩
    exact ⟨row, ⟨member, other⟩, rfl⟩

/-- To erase a key that is bound takes one pair away. -/
theorem length_erase [BEq κ] [LawfulBEq κ] {key : κ} {value : ν} {l : List (κ × ν)}
    (distinct : (l.map (·.1)).Nodup) (found : find? key l = some value) :
    (l.filter fun (k, _) => k != key).length + 1 = l.length := by
  have bound : key ∈ keys l := by
    rw [mem_keys, found]
    rfl
  have rest : ((l.filter fun (k, _) => k != key).map (·.1)).Nodup :=
    distinct.sublist (List.filter_sublist.map _)
  rw [← card_keys distinct, ← card_keys rest, keys_erase, Finset.card_erase_add_one bound]

end Bindings

/-- To insert a key makes one new member at most. -/
theorem card_insert_sdiff {κ : Type} [DecidableEq κ] (key : κ) (keys : Finset κ) :
    (insert key keys \ keys).card = if key ∉ keys then 1 else 0 := by
  split
  next absent => rw [Finset.insert_sdiff_of_notMem _ absent, Finset.sdiff_self]; rfl
  next present =>
    rw [Finset.insert_eq_of_mem (not_not.1 present), Finset.sdiff_self, Finset.card_empty]

/-! ## Counting removals -/

/-- How many entries were removed on request or dropped as expired. -/
def Counters.removals (c : Counters) : UInt64 := c.deletes + c.expirations

namespace Counters

theorem removals_delete (c : Counters) : c.delete.removals = c.removals + 1 := by
  show c.deletes + 1 + c.expirations = c.deletes + c.expirations + 1
  grind

theorem removals_expire (c : Counters) (count : UInt64) :
    (c.expire count).removals = c.removals + count :=
  (UInt64.add_assoc ..).symm

@[simp] theorem removals_hit (c : Counters) : c.hit.removals = c.removals := rfl

@[simp] theorem removals_miss (c : Counters) : c.miss.removals = c.removals := rfl

@[simp] theorem removals_read (c : Counters) (found : Bool) :
    (c.read found).removals = c.removals := by
  cases found <;> rfl

end Counters

/-- A key that is inserted makes one more, unless it is there. -/
theorem card_insert_counted {κ : Type} [DecidableEq κ] (key : κ) (keys : Finset κ) (gone : UInt64) :
    UInt64.ofNat (insert key keys).card + gone =
      .ofNat keys.card + gone + .ofNat (if key ∉ keys then 1 else 0) := by
  rw [Finset.card_insert_eq_ite]
  by_cases bound : key ∈ keys
  · simp only [bound, if_true, not_true, if_false]
    exact (UInt64.add_zero _).symm
  · simp only [bound, if_false, not_false_eq_true, if_true, UInt64.ofNat_add]
    grind

/-- To count one that is taken away makes up for it. -/
theorem ofNat_add_succ {left whole : Nat} (one : left + 1 = whole) (gone : UInt64) :
    UInt64.ofNat left + (gone + 1) = .ofNat whole + gone := by
  rw [← one, UInt64.ofNat_add]
  show _ = .ofNat left + 1 + gone
  grind

/-- To count what is taken away makes up for it. -/
theorem ofNat_add_sub {left whole : Nat} (order : left ≤ whole) (gone : UInt64) :
    UInt64.ofNat left + (gone + .ofNat (whole - left)) = .ofNat whole + gone := by
  have sum : UInt64.ofNat whole = .ofNat (whole - left) + .ofNat left := by
    rw [← UInt64.ofNat_add, Nat.sub_add_cancel order]
  rw [sum]
  grind

namespace Service.Breakdown

variable {σ κ : Type} {service : Service σ}

/-! ## Totals of nothing -/

theorem tally_eq_zero (parts : service.Breakdown) {count : Instant → σ → Move → Nat}
    (nothing : ∀ now s move, count now s move = 0) (s : σ × Instant)
    (log : List (Event × List Move)) : parts.tally count s log = 0 := by
  have along_zero (now : Instant) (s : σ) (moves : List Move) :
      parts.along now (count now) s moves = 0 := by
    induction moves generalizing s with
    | nil => rfl
    | cons move rest ih => rw [along, nothing, ih]
  induction log generalizing s with
  | nil => rfl
  | cons turn rest ih => rw [tally, along_zero, ih]

/-! ## Inventories -/

/-- What a service physically holds, and how it counts. -/
structure Inventory (parts : service.Breakdown) (κ : Type) where
  held : σ → Finset κ
  counters : σ → Counters
  /-- The key under which an entry is held. -/
  composite : σ → String → String → κ

namespace Inventory

variable [DecidableEq κ] {parts : service.Breakdown} (inv : parts.Inventory κ)

/-- The entries that come in with a move: one, if it is a request to set that succeeds
and finds its key not held. -/
def arrivals (now : Instant) (s : σ) : Move → Nat
  | .serve (.set ns key value ttl) =>
      if (service.request now s (.set ns key value ttl)).1 = .done ∧
        inv.composite s ns key ∉ inv.held s then 1 else 0
  | _ => 0

/-- The entries that are no longer held after a move. -/
def losses (now : Instant) (s : σ) (move : Move) : Nat :=
  (inv.held s \ inv.held (parts.act now s move)).card

/-- The entries that leave other than by a close. -/
def departures (now : Instant) (s : σ) : Move → Nat
  | .close => 0
  | move => inv.losses now s move

/-- The entries that are dropped by a close. -/
def dropped (now : Instant) (s : σ) : Move → Nat
  | .close => inv.losses now s .close
  | _ => 0

theorem departures_add_dropped (now : Instant) (s : σ) (move : Move) :
    inv.departures now s move + inv.dropped now s move = inv.losses now s move := by
  cases move with
  | close => exact Nat.zero_add _
  | serve | reclaim | cleanup => rfl

/-- What is in stock: the entries that are held, and those that have left. -/
def stock (s : σ) : UInt64 := .ofNat (inv.held s).card + (inv.counters s).removals

/-- Every single move keeps the books. -/
structure Exact (Sound : σ → Prop) : Prop where
  keeps : ∀ now s move, Sound s → Sound (parts.act now s move)
  /-- Only a request to set makes a key held. -/
  arrives : ∀ now s move, Sound s →
    (inv.held (parts.act now s move) \ inv.held s).card = inv.arrivals now s move
  /-- Whatever leaves the shelf is counted, unless a close drops it. -/
  counts : ∀ now s move, Sound s →
    inv.stock (parts.act now s move) + .ofNat (inv.dropped now s move) =
      inv.stock s + .ofNat (inv.arrivals now s move)

namespace Exact

variable {inv} {Sound : σ → Prop}

/-- One move counts what leaves with it. -/
theorem removals_act (exact_ : inv.Exact Sound) (now : Instant) (s : σ) (move : Move)
    (sound : Sound s) :
    (inv.counters (parts.act now s move)).removals =
      (inv.counters s).removals + .ofNat (inv.departures now s move) := by
  have counted := exact_.counts now s move sound
  -- Either way of getting to all that was ever held gives the same number.
  have cards : (inv.held (parts.act now s move)).card + inv.losses now s move =
      (inv.held s).card + inv.arrivals now s move := by
    rw [← exact_.arrives now s move sound, losses, Nat.add_comm, Nat.add_comm (inv.held s).card,
      Finset.card_sdiff_add_card, Finset.card_sdiff_add_card, Finset.union_comm]
  have numbers := congrArg UInt64.ofNat cards
  rw [← inv.departures_add_dropped] at numbers
  simp only [UInt64.ofNat_add] at numbers
  simp only [stock] at counted
  grind

/-- In every run from counters at zero, what is held and what has left make up what was
held at the start and what came in; and the removals counted are the entries that left. -/
theorem runs (exact_ : inv.Exact Sound)
    {Comes : σ × Instant → Event → List Move → σ × Instant → Prop} (lawful : parts.Lawful Comes)
    {s final : σ × Instant} {log : List (Event × List Move)} (runs : Runs Comes s log final)
    (sound : Sound s.1) (fresh : inv.counters s.1 = .zero) :
    .ofNat (inv.held final.1).card + (inv.counters final.1).deletes +
          (inv.counters final.1).expirations + .ofNat (parts.tally inv.dropped s log) =
        .ofNat (inv.held s.1).card + .ofNat (parts.tally inv.arrivals s log) ∧
      (inv.counters final.1).deletes + (inv.counters final.1).expirations =
        .ofNat (parts.tally inv.departures s log) := by
  have none_ : (inv.counters s.1).removals = 0 := by rw [fresh]; rfl
  constructor
  · have balanced := parts.balance inv.stock lawful inv.arrivals inv.dropped
      (fun now s move sound => ⟨exact_.keeps now s move sound, exact_.counts now s move sound⟩)
      runs sound
    simp only [stock, none_] at balanced
    simp only [Counters.removals] at balanced
    grind
  · have balanced := parts.balance (fun s => (inv.counters s).removals) lawful inv.departures
      (fun _ _ _ => 0)
      (fun now s move sound => ⟨exact_.keeps now s move sound, by
        rw [exact_.removals_act now s move sound]
        exact UInt64.add_zero _⟩)
      runs sound
    rw [parts.tally_eq_zero (fun _ _ _ => rfl), none_] at balanced
    exact (UInt64.add_zero _).symm.trans (balanced.trans (UInt64.zero_add _))

/-- So it is in the runs of the service itself. -/
theorem run (exact_ : inv.Exact Sound) {s : σ × Instant} (sound : Sound s.1)
    (fresh : inv.counters s.1 = .zero) (events : List Event) :
    let final := (trace service.step s events).2.1
    .ofNat (inv.held final).card + (inv.counters final).deletes +
          (inv.counters final).expirations + .ofNat (parts.total inv.dropped s events) =
        .ofNat (inv.held s.1).card + .ofNat (parts.total inv.arrivals s events) ∧
      (inv.counters final).deletes + (inv.counters final).expirations =
        .ofNat (parts.total inv.departures s events) := by
  simp only [parts.total_eq_tally]
  exact exact_.runs parts.lawful_own (parts.runs_trace .step s events) sound fresh

end Exact

end Inventory

end Service.Breakdown

end ExpiringCache
