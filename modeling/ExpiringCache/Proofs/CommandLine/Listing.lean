import ExpiringCache.CommandLine.Run
import ExpiringCache.Proofs.Watching

/-!
# Listings with a limit

A listing with a limit prints the first entries that a listing without one prints, as many
as the limit says. It is shown one more entry, which it does not print but stops at: what
lies behind that one makes no difference (`list_limited`).

So a fault behind the last entry printed is the listing's own if there is no further entry
before it (`list_limited_by_fault`).
-/

namespace ExpiringCache.CommandLine

theorem quiet_lister (limit : Option UInt64) : (lister limit).Quiet := fun _ _ _ => rfl

theorem stops_lister {limit : UInt64} {count : Nat} (below : count ≤ limit.toNat)
    (seen : List (String × Bytes)) :
    (lister (some limit)).stops count seen = decide (limit.toNat < count + seen.length) := by
  induction seen generalizing count with
  | nil => simp [Visitor.stops, Nat.not_lt.2 below]
  | cons row rest ih =>
      have goesOn : (lister (some limit)).goesOn (count + 1) row.1 row.2 =
          decide (count + 1 ≤ limit.toNat) := rfl
      rw [Visitor.stops, goesOn]
      by_cases further : count + 1 ≤ limit.toNat
      · have place : count + 1 + rest.length = count + (rest.length + 1) := by omega
        simp [further, ih, place]
      · have past : limit.toNat < count + (rest.length + 1) := by omega
        simp [further, past]

theorem upTo_lister {limit : UInt64} {count : Nat} (below : count ≤ limit.toNat)
    (seen : List (String × Bytes)) :
    (lister (some limit)).upTo count seen = seen.take (limit.toNat - count + 1) := by
  induction seen generalizing count with
  | nil => rfl
  | cons row rest ih =>
      have goesOn : (lister (some limit)).goesOn (count + 1) row.1 row.2 =
          decide (count + 1 ≤ limit.toNat) := rfl
      rw [Visitor.upTo, goesOn, List.take_succ_cons]
      by_cases further : count + 1 ≤ limit.toNat
      · have place : limit.toNat - (count + 1) + 1 = limit.toNat - count := by omega
        simp [further, ih, place]
      · have last : limit.toNat - count = 0 := by omega
        simp [further, last]

/-- What a listing prints and leaves, in view of what its visitor is shown. -/
theorem run_list (now : Instant) (link : Cache × Line) (ns : String) (limit : Option UInt64) :
    (Command.list ns limit).run now link =
      (⟨(listed limit (Cache.iterate now link ns (lister limit)).1.seen).map entryText,
        (Cache.iterate now link ns (lister limit)).1.fault⟩,
        (Cache.iterate now link ns (lister limit)).2) := rfl

/-- A listing with a limit prints the first lines of the listing without one. It succeeds
if there is a further line, and then it makes no difference what comes behind that one. If
there is none, it cannot be told from the listing without a limit, so that it fails if that
one does. -/
theorem list_limited (now : Instant) (link : Cache × Line) (ns : String) (limit : UInt64) :
    let all := (Command.list ns none).run now link
    let part := (Command.list ns (some limit)).run now link
    part.1.lines = all.1.lines.take limit.toNat ∧
      (limit.toNat < all.1.lines.length → part.1.fault = none) ∧
      (all.1.lines.length ≤ limit.toNat → part = all) := by
  intro all part
  have cuts := Cache.cuts_iterate (quiet_lister (some limit)) now link ns
  have same : all = (Command.list ns none).run now link := rfl
  have same' : part = (Command.list ns (some limit)).run now link := rfl
  rw [run_list] at same same'
  rw [show lister none = Visitor.observer from rfl] at same
  unfold Visitor.Cuts at cuts
  generalize Cache.iterate now link ns .observer = observed at cuts same
  generalize Cache.iterate now link ns (lister (some limit)) = watched at cuts same'
  rw [stops_lister (Nat.zero_le _), upTo_lister (Nat.zero_le _), Nat.zero_add, Nat.sub_zero] at cuts
  have lines : all.1.lines = observed.1.seen.map entryText := by rw [same]; rfl
  have count : all.1.lines.length = observed.1.seen.length := by rw [lines, List.length_map]
  by_cases further : limit.toNat < observed.1.seen.length
  case pos =>
    rw [if_pos (decide_eq_true further)] at cuts
    have shown : part.1 = ⟨(observed.1.seen.take limit.toNat).map entryText, none⟩ := by
      rw [same']
      simp [listed, cuts, List.take_take]
    refine ⟨?_, ?_, ?_⟩
    · rw [shown, lines, List.map_take]
    · rw [shown]
      exact fun _ => rfl
    · rw [count]
      omega
  case neg =>
    rw [decide_eq_false further, if_neg Bool.false_ne_true] at cuts
    have whole : observed.1.seen.take limit.toNat = observed.1.seen :=
      List.take_of_length_le (Nat.le_of_not_lt further)
    have equal : part = all := by
      rw [same, same', cuts]
      simp only [listed, whole]
    refine ⟨?_, ?_, fun _ => equal⟩
    · rw [equal, lines, ← List.map_take, whole]
    · rw [count]
      exact fun more => absurd more further

/-- A limit of one prints the one good entry, and then fails over the damaged record behind
it. It succeeds without that record, and also with another good entry before it. -/
theorem list_limited_by_fault :
    let good := (Record.mk 0 (Text.encode "1")).encode
    let first := Store.empty.insert (Text.encode "ns:a") good
    let fails := first.insert (Text.encode "ns:c") [1, 2, 3]
    let further := fails.insert (Text.encode "ns:b") good
    let outcome (store : Store) (limit : Option UInt64) :=
      ((Command.list "ns" limit).run ⟨0⟩
        (.embedded (.create .standard store 0 ⟨0⟩), ⟨[], []⟩)).1
    let cause := Fault.corrupted "record of 3 bytes is shorter than its header"
    outcome fails none = ⟨["a\t1"], some cause⟩ ∧
      outcome fails (some 1) = ⟨["a\t1"], some cause⟩ ∧
      outcome first (some 1) = ⟨["a\t1"], none⟩ ∧
      outcome further (some 1) = ⟨["a\t1"], none⟩ := by
  decide +kernel

end ExpiringCache.CommandLine
