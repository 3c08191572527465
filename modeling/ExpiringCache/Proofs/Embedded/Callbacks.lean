import ExpiringCache.Proofs.Embedded.Directory
import ExpiringCache.Proofs.Embedded.Reentry

/-!
# Runs in which visitors call back

Once the visitor of a traversal writes to the cache that it visits, it is up to the iterator
which records the traversal comes to. `Loan.Comes` says what the events of a cache on a disk
may come to, with any records that an iterator can hand out. All these runs are made of
moves (`Loan.lawful_comes`), so that what every move keeps holds in all of them.
-/

namespace ExpiringCache

namespace Loan

/-- What the events of a cache on a disk may come to, the moves that are made and what they
leave: what the cache does itself, which reads all records of a namespace at the start, or
what a traversal does with other records that it is handed. -/
inductive Comes : Loan × Instant → Event → List Move → Loan × Instant → Prop
  | own (s : Loan × Instant) (e : Event) : Comes s e (moves s e) (service.step s e).2
  | handed {l : Loan} {now : Instant} {ns : String} {visitor : Visitor}
      {rows : List (Bytes × Bytes)} (handed : Embedded.Handed now ns visitor l.cache rows) :
      Comes (l, now) (.traverse ns visitor) (Embedded.walk l.cache.keys now ns visitor 0 rows)
        ({ l with cache := (Embedded.visit now ns visitor 0 rows l.cache).2 }, now)

theorem lawful_comes : breakdown.Lawful Comes where
  carries := by
    intro s e made s' comes
    cases comes with
    | own => exact breakdown.step_after s e
    | @handed l now ns visitor rows _ =>
        have unclosed : ∀ move ∈ Embedded.walk l.cache.keys now ns visitor 0 rows,
            move ≠ .close := fun _ => Embedded.open_walk
        have carried := l.foldl_act now unclosed
        rw [← Embedded.visit_state] at carried
        exact congrArg (·, now) carried.symm
  choice := by
    intro s e made s' comes
    cases comes with
    | own => exact .inl rfl
    | handed => exact .inr ⟨⟨_, _, rfl⟩, fun _ => Embedded.open_walk⟩

/-- The runs of the cache itself are among them. -/
theorem runs_trace (s : Loan × Instant) (events : List Event) :
    Runs Comes s (breakdown.log s events) (trace service.step s events).2 :=
  breakdown.runs_trace .own s events

end Loan

end ExpiringCache
