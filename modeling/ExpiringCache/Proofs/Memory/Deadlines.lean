import ExpiringCache.Proofs.Deadlines
import ExpiringCache.Proofs.Memory.Moves

/-!
# Deadlines in memory caches

An entry is set to expire later than it is set, to the nanosecond, and a cleanup leaves
just the entries that are live.
-/

namespace ExpiringCache

/-- A deadline is later than the reading at which it is set. -/
theorem Entry.lt_deadline_make {value : Bytes} {ttl : Option Duration} {now t : Instant}
    (limited : (make value ttl now).deadline = some t) : now.nanos < t.nanos := by
  obtain ⟨d, nonzero, after⟩ := Option.bind_eq_some_iff.1 limited
  have positive : d.nanos ≠ 0 := of_decide_eq_true (Option.filter_eq_some_iff.1 nonzero).2
  simp only [Instant.after?] at after
  split at after
  next =>
    cases after
    show now.nanos < now.nanos + d.nanos
    omega
  next => cases after

theorem Table.find?_of_keep {t : Table} {test : String → Entry → Bool} {key : String} {e : Entry}
    (found : (t.keep test).find? key = some e) : t.find? key = some e ∧ test key e = true := by
  rw [find?_keep] at found
  exact Option.filter_eq_some_iff.1 found

namespace Memory

/-- When the entries of a cache expire. -/
def deadlines (m : Memory) : Set Nat :=
  {d | ∃ key e t, m.table.find? key = some e ∧ e.deadline = some t ∧ t.nanos = d}

theorem deadlines_act (now : Instant) (m : Memory) (move : Move) :
    ∀ d ∈ (m.act now move).deadlines, d ∈ m.deadlines ∨ now.nanos < d := by
  rintro d ⟨key, e, t, found, limited, rfl⟩
  have kept {test : String → Entry → Bool} (found : (m.table.keep test).find? key = some e) :
      t.nanos ∈ m.deadlines := ⟨key, e, t, (Table.find?_of_keep found).1, limited, rfl⟩
  rw [table_act] at found
  cases move with
  | serve q =>
      cases q with
      | set ns key' value ttl =>
          simp only [Table.moved] at found
          rw [Table.find?_insert] at found
          split at found
          next =>
            cases found
            exact .inr (Entry.lt_deadline_make limited)
          next => exact .inl ⟨key, e, t, found, limited, rfl⟩
      | get | take | delete => exact .inl (kept found)
      | contains => exact .inl ⟨key, e, t, found, limited, rfl⟩
  | reclaim => exact .inl ⟨key, e, t, found, limited, rfl⟩
  | cleanup => exact .inl (kept found)
  | close => cases found

theorem deadlines_cleanup (now : Instant) (m : Memory) :
    ∀ d ∈ (m.act now .cleanup).deadlines, now.nanos < d := by
  rintro d ⟨key, e, t, found, limited, rfl⟩
  rw [table_act] at found
  have live := (Table.find?_of_keep found).2
  simpa [Entry.live, Entry.expired, limited] using live

/-- How the entries of a memory cache expire. -/
def ageing : breakdown.Ageing fun _ => True where
  deadlines := deadlines
  schedule := schedule
  sets now m move _ _ := m.deadlines_act now move
  sweeps now m _ := m.deadlines_cleanup now
  schedule_act now m _ open_ := m.schedule_act now open_
  schedule_close _ _ := rfl
  open_moves s _ open_ _ made := open_moves s open_ made
  close_moves _ := rfl
  cleanup_moves _ := rfl
  time_moves s e time := by rcases time with rfl | ⟨nanos, rfl⟩ <;> rfl

end Memory

end ExpiringCache
