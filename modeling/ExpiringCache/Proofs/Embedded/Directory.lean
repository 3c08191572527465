import ExpiringCache.Proofs.Embedded.Loan
import ExpiringCache.Proofs.Embedded.Moves

/-!
# Caches and their directories

The records in the directory of an embedded cache (`Loan.content`) are with the cache
while it is open, and back on the disk once it is closed. What the cache does, it does
without the disk until then, so its moves are those of the cache.
-/

namespace ExpiringCache

namespace Loan

/-- Closes the cache, whose store goes back to the disk. -/
def close (l : Loan) : Loan :=
  match l.cache.close with
  | (some store, e) => { l with disk := l.disk.put l.path (some store), cache := e }
  | (none, e) => { l with cache := e }

/-- A session closes the cache in a slot in the same way. -/
theorem close_session {s : Session} (name : String) {slot : Slot} {l : Loan}
    (cache : slot.cache = .embedded l.cache) (path : slot.path = some l.path)
    (disk : s.disk = l.disk) :
    (s.close name slot).disk = l.close.disk ∧
      (s.close name slot).find? name = some { slot with cache := .embedded l.close.cache } := by
  cases opened : l.cache.store <;>
    simp [Session.close, cache, Cache.close, Session.giveBack, path, disk, close, Embedded.close,
      opened, Session.put, Session.find?, Bindings.find?]

/-- What the cache does, it does without the disk, until it is closed. -/
def service : Service Loan where
  request now l q :=
    let (answer, e) := l.cache.request now q
    (answer, { l with cache := e })
  iterate now l ns visitor :=
    let (shown, e) := l.cache.iterate now ns visitor
    (shown, { l with cache := e })
  cleanup now l :=
    let (removed, e) := l.cache.cleanup now
    (removed, { l with cache := e })
  sweep now l := { l with cache := Embedded.service.sweep now l.cache }
  pass earlier later l := { l with cache := l.cache.pass earlier later }
  close := close

/-- The records in the directory, be they lent to the cache or not. -/
def content (l : Loan) : Store := l.cache.store.getD ((l.disk.find? l.path).join.getD .empty)

variable {l : Loan} {s : Store}

theorem content_of_open (opened : l.cache.store = some s) : l.content = s := by
  simp [content, opened]

/-- A close leaves all records where they are. -/
theorem content_close (l : Loan) : l.close.content = l.content := by
  cases opened : l.cache.store with
  | none => simp [close, Embedded.close, opened, content]
  | some s => simp [close, Embedded.close, opened, content, Disk.find?, Disk.put, Bindings.find?]

/-! ## Moves -/

/-- Carries out a move. -/
def act (now : Instant) (l : Loan) : Move → Loan
  | .close => l.close
  | move => { l with cache := l.cache.act now move }

theorem act_of_open_move (now : Instant) (l : Loan) {move : Move} (open_ : move ≠ .close) :
    l.act now move = { l with cache := l.cache.act now move } := by
  cases move with
  | serve | reclaim | cleanup => rfl
  | close => exact absurd rfl open_

theorem foldl_act (now : Instant) (l : Loan) {made : List Move}
    (open_ : ∀ move ∈ made, move ≠ .close) :
    made.foldl (act now) l = { l with cache := made.foldl (Embedded.act now) l.cache } := by
  induction made generalizing l with
  | nil => rfl
  | cons move rest ih =>
      have others : ∀ move ∈ rest, move ≠ .close := fun move member => open_ move (.tail _ member)
      rw [List.foldl_cons, ih _ others, l.act_of_open_move now (open_ move List.mem_cons_self)]
      rfl

def moves (s : Loan × Instant) (e : Event) : List Move := Embedded.moves (s.1.cache, s.2) e

theorem step_eq (s : Loan × Instant) (e : Event) :
    (service.step s e).2.1 = (moves s e).foldl (act (e.later s.2)) s.1 := by
  obtain ⟨l, now⟩ := s
  by_cases closing : e = .close
  · subst closing
    rfl
  · have carried : (service.step (l, now) e).2.1 =
        { l with cache := (Embedded.service.step (l.cache, now) e).2.1 } := by
      cases e with
      | request | traverse | cleanup | sweep | advance => rfl
      | close => exact absurd rfl closing
    rw [carried, Embedded.step_eq]
    exact (l.foldl_act _ fun _ made => Embedded.open_moves _ closing made).symm

/-- How the events of a cache on a disk come down to moves. -/
def breakdown : service.Breakdown := ⟨act, moves, step_eq⟩

theorem content_act (opened : l.cache.store = some s) (now : Instant) (move : Move) :
    (l.act now move).content = s.moved l.cache.keys now.unixMillis move := by
  by_cases closing : move = .close
  · subst closing
    exact l.content_close.trans (content_of_open opened)
  · apply content_of_open
    rw [l.act_of_open_move now closing]
    exact Embedded.store_act opened now closing

/-- A cache that has been closed stays as it is, and so does the disk. -/
theorem act_of_closed (closed : l.cache.store = none) (now : Instant) {move : Move}
    (open_ : move ≠ .close) : l.act now move = l := by
  rw [l.act_of_open_move now open_, Embedded.act_of_closed closed now open_]

theorem content_of_closed (closed : l.cache.store = none) (now : Instant) (move : Move) :
    (l.act now move).content = l.content := by
  by_cases closing : move = .close
  · subst closing
    exact l.content_close
  · rw [act_of_closed closed now closing]

end Loan

end ExpiringCache
