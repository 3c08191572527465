import ExpiringCache.Proofs.Embedded.Isolation
import ExpiringCache.Proofs.Memory.Isolation

/-!
# Namespaces do not interfere

What happens in one namespace has no effect on what comes back from another one, in
a cache of either kind (`Keys.Apart.outcomes_unaffected`). Other namespaces may be in
use as well, even such as have parts of both in them.
-/

namespace ExpiringCache

namespace Keys.Apart

/-- Take two namespaces neither of whose roots begins the other one, and a run of a
cache in any state. Without all that is done in the first namespace, every request and
every traversal in the second one has the same outcome: the same answers, and the
same entries shown in the same order up to the same fault. An embedded cache may have
any records, whole or not; its clock of milliseconds only has to go forward, as it does
until it runs out of bits. -/
theorem outcomes_unaffected {keys : Keys} {ns ns' : String} (apart : keys.Apart ns ns')
    (now : Instant) (events : List Event) :
    let others := events.filter fun event => !event.concerns ns
    (∀ m : Memory, m.keys = keys → (∀ event ∈ events, event.Quiet) →
      outcomesOf (Event.concerns ns') events (trace Memory.service.step (m, now) events).1 =
        outcomesOf (Event.concerns ns') others
          (trace Memory.service.step (m, now) others).1) ∧
      ∀ e : Embedded, e.keys = keys → Throughout Event.later Embedded.Steady now events →
        outcomesOf (Event.concerns ns') events
            (trace Embedded.service.step (e, now) events).1 =
          outcomesOf (Event.concerns ns') others
            (trace Embedded.service.step (e, now) others).1 := by
  intro others
  constructor
  · intro m same quiet
    have met : Throughout Event.later (fun _ event => event.Quiet) now events :=
      .of_forall (fun event member _ => quiet event member) now
    exact (Memory.screens apart).outcomes_eq same same rfl met
  · intro e same steady
    exact (Embedded.screens apart).outcomes_eq same same rfl steady

/-- Without a delimiter, a namespace `a` has the entries of `ab` and `ac` in it. A
broken record of `ab` stops its first traversal before the expired record of `ac`. -/
theorem outcomes_unaffected_broken :
    let keys : Keys := ⟨""⟩
    let store := (Store.empty.insert (Text.encode "abx") [7]).insert (Text.encode "acy")
      (Record.encode ⟨5, [1]⟩)
    let events : List Event :=
      [.traverse "a" .observer, .request (.take "ab" "x"), .traverse "a" .observer,
       .request (.set "ac" "z" [2] none), .advance 1000000000, .request (.get "ac" "y"),
       .traverse "ac" .observer, .close, .request (.get "ac" "z")]
    let others := events.filter fun event => !event.concerns "ab"
    keys.Apart "ab" "ac" ∧ (∀ event ∈ events, event.Quiet) ∧
      Throughout Event.later Embedded.Steady ⟨2000000000⟩ events ∧
      (let m := Memory.create keys 1 ⟨2000000000⟩
       outcomesOf (Event.concerns "ac") events
          (trace Memory.service.step (m, ⟨2000000000⟩) events).1 =
        outcomesOf (Event.concerns "ac") others
          (trace Memory.service.step (m, ⟨2000000000⟩) others).1) ∧
      (let e := Embedded.create keys store 1 ⟨2000000000⟩
       outcomesOf (Event.concerns "ac") events
          (trace Embedded.service.step (e, ⟨2000000000⟩) events).1 =
        outcomesOf (Event.concerns "ac") others
          (trace Embedded.service.step (e, ⟨2000000000⟩) others).1) := by
  intro keys store events others
  have apart : keys.Apart "ab" "ac" := ⟨by decide, by decide⟩
  have silent : Visitor.observer.Quiet := fun _ _ _ => rfl
  have quiet : ∀ event ∈ events, event.Quiet := by
    simp [events, Event.Quiet, silent]
  have steady : Throughout Event.later Embedded.Steady ⟨2000000000⟩ events :=
    ⟨⟨silent, UInt64.le_refl _⟩, ⟨trivial, UInt64.le_refl _⟩, ⟨silent, UInt64.le_refl _⟩,
      ⟨trivial, UInt64.le_refl _⟩, ⟨trivial, by decide⟩, ⟨trivial, UInt64.le_refl _⟩,
      ⟨silent, UInt64.le_refl _⟩, ⟨trivial, UInt64.le_refl _⟩, ⟨trivial, UInt64.le_refl _⟩,
      trivial⟩
  obtain ⟨memory, embedded⟩ := apart.outcomes_unaffected ⟨2000000000⟩ events
  exact ⟨apart, quiet, steady, memory _ rfl quiet, embedded _ rfl steady⟩

end Keys.Apart

end ExpiringCache
