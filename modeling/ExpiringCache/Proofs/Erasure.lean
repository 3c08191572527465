import ExpiringCache.Keys
import ExpiringCache.Proofs.Run

/-!
# Erasing events from a run

Take some events out of a run and look at the outcomes of some others. Nothing has
changed if there is a *view* of the states that screens the erased events off
(`Service.Screens`): they leave the view alone, what is seen after an event follows
from what is seen before it, and the outcomes looked at follow from the view.
`Screens.outcomes_eq` is the induction along the run.

Here the erased events are those about one namespace, and the others those about a
namespace apart from it. Where neither root begins the other one, no composite key
begins with both (`Keys.Apart.not_both`).
-/

namespace ExpiringCache

/-! ## Events about a namespace -/

/-- The namespace that a request is about. -/
def Request.ns : Request → String
  | set ns .. | get ns _ | take ns _ | contains ns _ | delete ns _ => ns

/-- Whether an event is about a namespace. -/
def Event.concerns (ns : String) : Event → Bool
  | request q => q.ns = ns
  | traverse other _ => other = ns
  | _ => false

theorem Event.later_of_concerns {ns : String} {e : Event} (about : e.concerns ns = true)
    (now : Instant) : e.later now = now := by
  cases e with
  | request | traverse => rfl
  | cleanup | sweep | advance | close => simp [concerns] at about

theorem Event.eq_of_concerns {ns ns' : String} {e : Event} (about : e.concerns ns = true)
    (about' : e.concerns ns' = true) : ns = ns' := by
  cases e with
  | request q =>
      simp only [concerns, decide_eq_true_eq] at about about'
      rw [← about, about']
  | traverse other visitor =>
      simp only [concerns, decide_eq_true_eq] at about about'
      rw [← about, about']
  | cleanup | sweep | advance | close => simp [concerns] at about

/-! ## Roots apart -/

/-- Two namespaces neither of whose roots begins the other one. -/
structure Keys.Apart (keys : Keys) (ns ns' : String) : Prop where
  left : ¬ (keys.root ns).toList <+: (keys.root ns').toList
  right : ¬ (keys.root ns').toList <+: (keys.root ns).toList

namespace Keys.Apart

variable {keys : Keys} {ns ns' : String}

theorem ne (apart : keys.Apart ns ns') : ns ≠ ns' := by
  rintro rfl
  exact apart.left (List.prefix_refl _)

theorem not_both (apart : keys.Apart ns ns') {composite : List Char}
    (inside : (keys.root ns).toList <+: composite) :
    ¬ (keys.root ns').toList <+: composite := by
  intro inside'
  rcases List.prefix_or_prefix_of_prefix inside inside' with first | second
  · exact apart.left first
  · exact apart.right second

end Keys.Apart

/-! ## Screens -/

/-- The outcomes of those events of a run that a test selects, in their order. -/
def outcomesOf {ε ω : Type} (test : ε → Bool) (events : List ε) (outcomes : List ω) : List ω :=
  ((events.zip outcomes).filter fun row => test row.1).map (·.2)

variable {σ α : Type}

theorem Service.outcomes_cons (service : Service σ) (s : σ) (now : Instant) (e : Event)
    (rest : List Event) :
    (trace service.step (s, now) (e :: rest)).1 = (service.step (s, now) e).1 ::
      (trace service.step ((service.step (s, now) e).2.1, e.later now) rest).1 := by
  rw [← service.step_clock (s, now) e]
  rfl

theorem outcomesOf_cons {ε ω : Type} (test : ε → Bool) (e : ε) (events : List ε) (o : ω)
    (outcomes : List ω) :
    outcomesOf test (e :: events) (o :: outcomes) =
      if test e then o :: outcomesOf test events outcomes else outcomesOf test events outcomes := by
  simp only [outcomesOf, List.zip_cons_cons, List.filter_cons]
  split <;> rfl

/-- A view of the states of a service that tells nothing of the hidden events and
all that the watched ones depend on. -/
structure Service.Screens (service : Service σ) (Sound : σ → Prop) (view : Instant → σ → α)
    (Meets : Instant → Event → Prop) (hidden watched : Event → Bool) : Prop where
  keeps : ∀ now s e, Sound s → Sound (service.step (s, now) e).2.1
  /-- A hidden event changes nothing that is seen, and takes no time. -/
  hides : ∀ now s e, Sound s → Meets now e → hidden e = true →
    e.later now = now ∧ view now (service.step (s, now) e).2.1 = view now s
  /-- What is seen after an event depends on what is seen before it. -/
  follows : ∀ now s s' e, Sound s → Sound s' → Meets now e → view now s = view now s' →
    view (e.later now) (service.step (s, now) e).2.1 =
      view (e.later now) (service.step (s', now) e).2.1
  /-- The outcome of a watched event depends on what is seen. -/
  shows : ∀ now s s' e, Sound s → Sound s' → Meets now e → watched e = true →
    view now s = view now s' → (service.step (s, now) e).1 = (service.step (s', now) e).1
  apart : ∀ e, hidden e = true → watched e = false

namespace Service.Screens

variable {service : Service σ} {Sound : σ → Prop} {view : Instant → σ → α}
  {Meets : Instant → Event → Prop} {hidden watched : Event → Bool}

/-- Without the hidden events the watched ones have the same outcomes. -/
theorem outcomes_eq (screens : service.Screens Sound view Meets hidden watched)
    {events : List Event} {now : Instant} {s s' : σ} (sound : Sound s) (sound' : Sound s')
    (alike : view now s = view now s') (met : Throughout Event.later Meets now events) :
    outcomesOf watched events (trace service.step (s, now) events).1 =
      outcomesOf watched (events.filter fun e => !hidden e)
        (trace service.step (s', now) (events.filter fun e => !hidden e)).1 := by
  -- Along the full run. The other one stands still at a hidden event, and otherwise
  -- goes along; what is seen of the two stays the same.
  induction events generalizing now s s' with
  | nil => rfl
  | cons e rest ih =>
      cases erased : hidden e with
      | true =>
          obtain ⟨still, unseen⟩ := screens.hides now s e sound met.1 erased
          have unwatched := screens.apart e erased
          have skipped : (e :: rest).filter (fun e => !hidden e) =
              rest.filter fun e => !hidden e := by
            simp [erased]
          rw [service.outcomes_cons, outcomesOf_cons, unwatched, if_neg Bool.false_ne_true, skipped,
            still]
          apply ih (screens.keeps now s e sound) sound' (unseen.trans alike)
          rw [← still]
          exact met.2
      | false =>
          have kept : (e :: rest).filter (fun e => !hidden e) =
              e :: rest.filter fun e => !hidden e := by
            simp [erased]
          have others := ih (screens.keeps now s e sound) (screens.keeps now s' e sound')
            (screens.follows now s s' e sound sound' met.1 alike) met.2
          rw [kept, service.outcomes_cons, service.outcomes_cons, outcomesOf_cons,
            outcomesOf_cons, others]
          split
          next looked => rw [screens.shows now s s' e sound sound' met.1 looked alike]
          next => rfl

end Service.Screens

end ExpiringCache
