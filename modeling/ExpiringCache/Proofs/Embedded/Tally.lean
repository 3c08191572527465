import ExpiringCache.Proofs.Embedded.Contract
import ExpiringCache.Proofs.Tally

/-!
# Counting in embedded caches

An open cache counts each read and each insertion once, whatever records its store
has: to drop an expired record counts as an expiration and as nothing else.
-/

namespace ExpiringCache

namespace Embedded

theorem sameReads_reclaim (e : Embedded) (key raw : Bytes) :
    SameReads e.counters (e.reclaim key raw).counters := by
  unfold reclaim
  split
  next =>
    split
    next => exact .expire _ _
    next => exact .refl _
  next => exact .refl _

theorem sameReads_look (now : UInt64) (e : Embedded) (store : Store) (key : Bytes) :
    SameReads e.counters (e.look now store key).2.counters := by
  unfold look
  split
  next => exact .refl _
  next raw _ =>
    split
    next => exact .refl _
    next =>
      split
      next => exact e.sameReads_reclaim key raw
      next => exact .refl _

theorem take_tallied (now : UInt64) (e : Embedded) (store : Store) (key : Bytes) {event : Event}
    (other : event.isSet = false) :
    Tallied e.counters (e.take now store key).2.counters event
      (.answer (e.take now store key).1) := by
  unfold take
  split
  next => exact .miss (.refl _) other
  next =>
    dsimp only
    split
    next => exact .neither (.refl _) other rfl rfl
    next record _ =>
      split
      next => exact .miss (.expire _ _) other
      next => exact .hit (.delete _) record.value other

theorem delete_tallied (e : Embedded) (store : Store) (key : Bytes) {event : Event}
    (other : event.isSet = false) :
    Tallied e.counters (e.delete store key).2.counters event
      (.answer (e.delete store key).1) := by
  unfold delete
  split
  next => exact .neither (.refl _) other rfl rfl
  next => exact .neither (.delete _) other rfl rfl

theorem request_tallied {e : Embedded} {store : Store} (opened : e.store = some store)
    (now : Instant) (q : Request) :
    Tallied e.counters (e.request now q).2.counters (.request q)
      (.answer (e.request now q).1) := by
  simp only [request, opened]
  cases q with
  | set ns key value ttl => exact .set ..
  | get ns key =>
      have same := e.sameReads_look now.unixMillis store (e.rawKey ns key)
      simp only [get]
      split
      next looked =>
        rw [looked] at same
        exact .neither same rfl rfl rfl
      next found _ looked =>
        rw [looked] at same
        exact .read same Option.isSome_map rfl
  | contains ns key =>
      have same := e.sameReads_look now.unixMillis store (e.rawKey ns key)
      simp only [contains]
      split
      next looked =>
        rw [looked] at same
        exact .neither same rfl rfl rfl
      next looked =>
        rw [looked] at same
        exact .neither same rfl rfl rfl
  | take ns key => exact e.take_tallied _ store _ rfl
  | delete ns key => exact e.delete_tallied store _ rfl

theorem sameReads_visit (now : Instant) (ns : String) {visitor : Visitor} (quiet : visitor.Quiet)
    (count : Nat) (rows : List (Bytes × Bytes)) (e : Embedded) :
    SameReads e.counters (visit now ns visitor count rows e).2.counters := by
  induction rows generalizing count e with
  | nil => exact .refl _
  | cons row rest ih =>
      obtain ⟨key, raw⟩ := row
      unfold visit
      split
      next => exact .refl _
      next record _ =>
        have silent : ∀ logical, visitor.requests (count + 1) logical record.value = [] :=
          fun logical => quiet (count + 1) logical record.value
        split
        next => exact (e.sameReads_reclaim key raw).trans (ih count _)
        next =>
          simp only [silent, answerAll]
          split
          next => exact ih (count + 1) e
          next => exact .refl _

theorem sameReads_iterate (now : Instant) (e : Embedded) (ns : String) {visitor : Visitor}
    (quiet : visitor.Quiet) : SameReads e.counters (e.iterate now ns visitor).2.counters := by
  unfold iterate
  split
  next => exact .refl _
  next => exact sameReads_visit now ns quiet 0 _ e

theorem sameReads_cleanup (now : Instant) (e : Embedded) :
    SameReads e.counters (e.cleanup now).2.counters := by
  unfold cleanup
  split
  next => exact .refl _
  next => exact .expire _ _

theorem step_tallied {keys : Keys} (s : Embedded × Instant) (e : Event) (opened : Open keys s.1)
    (quiet : e.Quiet) :
    Tallied s.1.counters (service.step s e).2.1.counters e (service.step s e).1 := by
  obtain ⟨cache, now⟩ := s
  cases e with
  | request q =>
      obtain ⟨store, found, -⟩ := opened.store
      exact request_tallied found now q
  | traverse ns visitor => exact .neither (cache.sameReads_iterate now ns quiet) rfl rfl rfl
  | cleanup => exact .neither (cache.sameReads_cleanup now) rfl rfl rfl
  | sweep =>
      simp only [Service.step, service]
      split
      next => exact .neither (cache.sameReads_cleanup now) rfl rfl rfl
      next => exact .neither (.refl _) rfl rfl rfl
  | advance nanos =>
      simp only [Service.step, service, pass]
      split
      next =>
        split
        next => exact .neither (cache.sameReads_cleanup _) rfl rfl rfl
        next => exact .neither (.refl _) rfl rfl rfl
      next => exact .neither (.refl _) rfl rfl rfl
  | close => exact .neither (.refl _) rfl rfl rfl

end Embedded

end ExpiringCache
