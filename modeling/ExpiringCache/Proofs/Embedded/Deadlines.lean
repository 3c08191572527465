import ExpiringCache.Proofs.Deadlines
import ExpiringCache.Proofs.Embedded.Directory

/-!
# Deadlines in embedded caches

Deadlines are milliseconds, and the clock is cut down to them. Even so a record is set to
expire later than it is set, as long as there is a later millisecond, and a cleanup
leaves just the records that have not expired, the broken ones among them.
-/

namespace ExpiringCache

/-- There is a later millisecond for a deadline. -/
def Instant.Early (t : Instant) : Prop := t.nanos / nanosPerMilli < UInt64.size - 1

namespace Instant

theorem Early.toNat_unixMillis {t : Instant} (early : t.Early) :
    t.unixMillis.toNat = t.nanos / nanosPerMilli := by
  have fits : t.nanos / nanosPerMilli < UInt64.size := Nat.lt_of_lt_pred early
  exact Instant.toNat_unixMillis fits

theorem Early.of_le {t u : Instant} (order : t.nanos ≤ u.nanos) (early : u.Early) : t.Early :=
  Nat.lt_of_le_of_lt (Nat.div_le_div_right order) early

/-- A later millisecond is a later reading. -/
theorem Early.nanos_lt {t : Instant} (early : t.Early) {deadline : UInt64}
    (later : t.unixMillis < deadline) : t.nanos < deadline.toNat * nanosPerMilli := by
  have order := UInt64.lt_iff_toNat_lt.1 later
  rw [early.toNat_unixMillis] at order
  exact (Nat.div_lt_iff_lt_mul (by decide)).1 order

end Instant

/-- A deadline is later than the millisecond at which it is set. -/
theorem Record.lt_deadlineFor {ttl : Option Duration} {now : UInt64}
    (early : now.toNat < UInt64.size - 1) (limited : deadlineFor ttl now ≠ 0) :
    now < deadlineFor ttl now := by
  unfold deadlineFor at limited ⊢
  split
  next never => simp [never] at limited
  next d =>
    have size : UInt64.size = 18446744073709551616 := rfl
    rw [UInt64.lt_iff_toNat_lt, UInt64.toNat_ofNat_of_lt' (by omega)]
    omega

theorem Store.find?_of_keep {s : Store} {test : Bytes → Bytes → Bool} {key raw : Bytes}
    (found : (s.keep test).find? key = some raw) :
    s.find? key = some raw ∧ test key raw = true := by
  rw [find?_keep] at found
  exact Option.filter_eq_some_iff.1 found

namespace Embedded

variable {e : Embedded} {s : Store}

/-- When the records of a store expire that decode and have a deadline. -/
def deadlinesIn (s : Store) : Set Nat :=
  {d | ∃ key raw r, s.find? key = some raw ∧ Record.decode raw = .ok r ∧ r.deadline ≠ 0 ∧
    r.deadline.toNat * nanosPerMilli = d}

theorem deadlinesIn_moved {now : Instant} (early : now.Early) (keys : Keys) (s : Store)
    (move : Move) :
    ∀ d ∈ deadlinesIn (s.moved keys now.unixMillis move), d ∈ deadlinesIn s ∨ now.nanos < d := by
  rintro d ⟨key, raw, r, found, read, limited, rfl⟩
  have kept {test : Bytes → Bytes → Bool} (found : (s.keep test).find? key = some raw) :
      r.deadline.toNat * nanosPerMilli ∈ deadlinesIn s :=
    ⟨key, raw, r, (Store.find?_of_keep found).1, read, limited, rfl⟩
  cases move with
  | serve q =>
      cases q with
      | set ns key' value ttl =>
          simp only [Store.moved] at found
          rw [Store.find?_insert] at found
          split at found
          next =>
            cases found
            rw [Record.decode_encode] at read
            cases read
            have order : now.unixMillis.toNat < UInt64.size - 1 := by
              rw [early.toNat_unixMillis]
              exact early
            exact .inr (early.nanos_lt (Record.lt_deadlineFor order limited))
          next => exact .inl ⟨key, raw, r, found, read, limited, rfl⟩
      | get | take | contains | delete => exact .inl (kept found)
  | reclaim | cleanup => exact .inl (kept found)
  | close => exact .inl ⟨key, raw, r, found, read, limited, rfl⟩

theorem deadlinesIn_cleanup {now : Instant} (early : now.Early) (keys : Keys) (s : Store) :
    ∀ d ∈ deadlinesIn (s.moved keys now.unixMillis .cleanup), now.nanos < d := by
  rintro d ⟨key, raw, r, found, read, limited, rfl⟩
  have fresh := (Store.find?_of_keep found).2
  rw [hasExpired_iff read, Record.expired] at fresh
  simp only [limited, ne_eq, not_false_eq_true, decide_true, Bool.true_and, Bool.not_eq_true',
    decide_eq_false_iff_not, UInt64.not_le] at fresh
  exact early.nanos_lt fresh

end Embedded

namespace Loan

variable {l : Loan}

/-- When the records that a cache holds expire. A cache that has been closed holds none. -/
def deadlines (l : Loan) : Set Nat :=
  {d | l.cache.store.isSome = true ∧ d ∈ Embedded.deadlinesIn l.content}

theorem deadlines_act {now : Instant} (early : now.Early) (l : Loan) {move : Move}
    (open_ : move ≠ .close) :
    ∀ d ∈ (l.act now move).deadlines, d ∈ l.deadlines ∨ now.nanos < d := by
  rintro d ⟨isOpen, held⟩
  cases opened : l.cache.store with
  | none =>
      rw [act_of_closed opened now open_, opened] at isOpen
      cases isOpen
  | some s =>
      rw [content_act opened] at held
      refine (Embedded.deadlinesIn_moved early _ s move d held).imp_left fun before => ?_
      rw [← content_of_open opened] at before
      exact ⟨Option.isSome_iff_exists.2 ⟨s, opened⟩, before⟩

theorem deadlines_cleanup {now : Instant} (early : now.Early) (l : Loan) :
    ∀ d ∈ (l.act now .cleanup).deadlines, now.nanos < d := by
  rintro d ⟨isOpen, held⟩
  cases opened : l.cache.store with
  | none =>
      have same : l.act now .cleanup = l := act_of_closed opened now nofun
      rw [same, opened] at isOpen
      cases isOpen
  | some s =>
      rw [content_act opened] at held
      exact Embedded.deadlinesIn_cleanup early _ s d held

/-- How the records in the directory of a cache expire. -/
def ageing : breakdown.Ageing Instant.Early where
  deadlines := deadlines
  schedule l := l.cache.schedule
  sets _ l _ early open_ := l.deadlines_act early open_
  sweeps _ l early := l.deadlines_cleanup early
  schedule_act now l move open_ := by
    show (l.act now move).cache.schedule = _
    rw [l.act_of_open_move now open_]
    exact Embedded.schedule_act now l.cache open_
  schedule_close _ l := by
    show l.close.cache.schedule = none
    cases opened : l.cache.store <;> simp [close, Embedded.close, opened]
  open_moves s _ open_ _ made := Embedded.open_moves _ open_ made
  close_moves _ := rfl
  cleanup_moves _ := rfl
  time_moves s e time := by rcases time with rfl | ⟨nanos, rfl⟩ <;> rfl

end Loan

end ExpiringCache
