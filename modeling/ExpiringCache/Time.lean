/-!
# Time

A clock reading is a number of nanoseconds since the Unix epoch, and a
duration is a number of nanoseconds that an unsigned 64-bit count of seconds
can carry. A sweep schedule has its ticks at whole multiples of a period after
its start; `due_iff` says that it is due exactly when a tick lies between two
readings.
-/

namespace ExpiringCache

def nanosPerMilli : Nat := 1000000

def nanosPerSecond : Nat := 1000000000

/-! ## Durations -/

/-- A span of time whose whole seconds fit 64 bits. -/
structure Duration where
  nanos : Nat
  bounded : nanos < UInt64.size * nanosPerSecond
  deriving DecidableEq, Repr

namespace Duration

/-- The duration of so many nanoseconds, or the longest one. -/
def ofNanos (n : Nat) : Duration :=
  ⟨min n (UInt64.size * nanosPerSecond - 1), by simp only [UInt64.size, nanosPerSecond]; omega⟩

def ofMillis (n : Nat) : Duration := ofNanos (n * nanosPerMilli)

/-- Whole milliseconds, rounded down. -/
def millis (d : Duration) : Nat := d.nanos / nanosPerMilli

end Duration

/-- The time that an entry is to live. An absent or zero time means that the
entry never expires, so only a nonzero time is a limit. -/
def limit? (ttl : Option Duration) : Option Duration := ttl.filter (·.nanos ≠ 0)

/-! ## Clock readings -/

/-- A reading of the clock. -/
structure Instant where
  nanos : Nat
  deriving DecidableEq, Repr

namespace Instant

/-- The millisecond of a reading, as an unsigned 64-bit number. -/
def unixMillis (t : Instant) : UInt64 := UInt64.ofNat (t.nanos / nanosPerMilli)

/-- The reading after a duration, if its seconds fit a signed 64-bit number. -/
def after? (t : Instant) (d : Duration) : Option Instant :=
  let nanos := t.nanos + d.nanos
  if nanos < UInt64.size / 2 * nanosPerSecond then some ⟨nanos⟩ else none

end Instant

/-! ## Sweep schedules -/

/-- Ticks every `period` seconds after `start`. -/
structure Schedule where
  start : Instant
  period : Nat
  positive : 0 < period
  deriving DecidableEq, Repr

namespace Schedule

/-- The schedule with a period in seconds. A period of zero means none. -/
def every? (start : Instant) (seconds : Nat) : Option Schedule :=
  if h : 0 < seconds then some ⟨start, seconds, h⟩ else none

/-- How many ticks have passed at a reading. -/
def ticks (s : Schedule) (t : Instant) : Nat :=
  (t.nanos - s.start.nanos) / (s.period * nanosPerSecond)

/-- Whether a tick has passed between two readings, the later one included. -/
def due (s : Schedule) (earlier later : Instant) : Bool := s.ticks earlier < s.ticks later

/-- The reading at the `n`-th tick. -/
def tick (s : Schedule) (n : Nat) : Instant :=
  ⟨s.start.nanos + n * (s.period * nanosPerSecond)⟩

theorem step_pos (s : Schedule) : 0 < s.period * nanosPerSecond :=
  Nat.mul_pos s.positive (by decide)

theorem due_iff (s : Schedule) (earlier later : Instant)
    (started : s.start.nanos ≤ earlier.nanos) :
    s.due earlier later = true ↔
      ∃ n, earlier.nanos < (s.tick n).nanos ∧ (s.tick n).nanos ≤ later.nanos := by
  have pos := s.step_pos
  rw [due, decide_eq_true_iff]
  simp only [ticks, tick]
  generalize s.period * nanosPerSecond = step at pos ⊢
  constructor
  · intro h
    -- The last tick that the later reading has passed is the one.
    refine ⟨(later.nanos - s.start.nanos) / step, ?_, ?_⟩
    · have := (Nat.div_lt_iff_lt_mul pos).1 h
      omega
    · have := Nat.div_mul_le_self (later.nanos - s.start.nanos) step
      rcases Nat.lt_or_ge later.nanos s.start.nanos with early | late
      · simp [Nat.sub_eq_zero_of_le (Nat.le_of_lt early)] at h
      · omega
  · rintro ⟨n, after, reached⟩
    have low : (earlier.nanos - s.start.nanos) / step < n :=
      (Nat.div_lt_iff_lt_mul pos).2 (by omega)
    have high : n ≤ (later.nanos - s.start.nanos) / step :=
      (Nat.le_div_iff_mul_le pos).2 (by omega)
    omega

end Schedule

end ExpiringCache
