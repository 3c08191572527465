import ExpiringCache.Cache
import ExpiringCache.Proofs.Embedded.Contract
import ExpiringCache.Proofs.Memory.Contract
import ExpiringCache.Proofs.Remote.Scan

/-!
# Watching a traversal

A visitor that sends no requests merely watches. It sees what an observer sees, up to the
entry at which it asks to stop, and then the traversal is over: what lies behind that entry
makes no difference, be it a fault. If it does not ask to stop, it cannot be told from an
observer at all (`Visitor.Cuts`).

This holds of every engine, although each goes on from one entry to the next in a way of
its own (`Cache.cuts_iterate`).
-/

namespace ExpiringCache

namespace Visitor

variable {v : Visitor}

theorem quiet_observer : observer.Quiet := fun _ _ _ => rfl

theorem tireless_observer : observer.Tireless := fun _ _ _ => rfl

/-- Whether a visitor asks to stop at one of some entries, of which `count` were shown
before. -/
def stops (v : Visitor) : Nat → List (String × Bytes) → Bool
  | _, [] => false
  | count, (key, value) :: rest => !v.goesOn (count + 1) key value || v.stops (count + 1) rest

theorem stops_of_tireless (tireless : v.Tireless) (count : Nat) (seen : List (String × Bytes)) :
    v.stops count seen = false := by
  induction seen generalizing count with
  | nil => rfl
  | cons row rest ih => rw [stops, tireless, ih, Bool.not_true, Bool.or_false]

theorem stops_append (v : Visitor) (count : Nat) (first later : List (String × Bytes)) :
    v.stops count (first ++ later) =
      (v.stops count first || v.stops (count + first.length) later) := by
  induction first generalizing count with
  | nil => rfl
  | cons row rest ih =>
      have place : count + 1 + rest.length = count + (rest.length + 1) := by omega
      simp only [List.cons_append, stops, ih, List.length_cons, place, Bool.or_assoc]

/-- A visitor that has gone on so far stops at the next entry or nowhere. -/
theorem stops_snoc {seen : List (String × Bytes)} (going : v.stops 0 seen = false) (key : String)
    (value : Bytes) :
    v.stops 0 (seen ++ [(key, value)]) = !v.goesOn (seen.length + 1) key value := by
  rw [stops_append, going, Bool.false_or, Nat.zero_add, stops, stops, Bool.or_false]

theorem upTo_append (v : Visitor) (count : Nat) (first later : List (String × Bytes)) :
    v.upTo count (first ++ later) =
      if v.stops count first then v.upTo count first
      else first ++ v.upTo (count + first.length) later := by
  induction first generalizing count with
  | nil => rfl
  | cons row rest ih =>
      have place : count + 1 + rest.length = count + (rest.length + 1) := by omega
      cases goesOn : v.goesOn (count + 1) row.1 row.2 with
      | false => simp [upTo, stops, goesOn]
      | true =>
          simp only [List.cons_append, upTo, stops, goesOn, ih, if_true, Bool.not_true,
            Bool.false_or, List.length_cons, place]
          split <;> rfl

/-- What is shown to a visitor that does not ask to stop. -/
theorem upTo_of_going {count : Nat} {seen : List (String × Bytes)}
    (going : v.stops count seen = false) : v.upTo count seen = seen := by
  have whole := v.upTo_append count seen []
  rwa [going, if_neg Bool.false_ne_true, List.append_nil, upTo, List.append_nil] at whole

/-- How the traversal of a visitor comes out, in view of what an observer is shown: it is
the same, unless the visitor asks to stop. -/
def Cuts {σ : Type} (v : Visitor) (count : Nat) (all part : Traversal × σ) : Prop :=
  if v.stops count all.1.seen then part.1 = { seen := v.upTo count all.1.seen } else part = all

namespace Cuts

variable {σ τ : Type} {count : Nat} {all part : Traversal × σ} {key : String} {value : Bytes}

/-- A visitor that goes on is cut off where it is cut off later. -/
theorem after (goesOn : v.goesOn (count + 1) key value = true)
    (cuts : v.Cuts (count + 1) all part) :
    v.Cuts count (all.1.after (key, value) [], all.2) (part.1.after (key, value) [], part.2) := by
  unfold Cuts at cuts ⊢
  simp only [Traversal.after, stops, upTo, goesOn, Bool.not_true, Bool.false_or, if_true]
  split at cuts
  next stopped => simp [if_pos stopped, cuts]
  next going => rw [if_neg going, cuts]

/-- A visitor that asks to stop sees nothing more. -/
theorem stop (declined : v.goesOn (count + 1) key value = false) (all : Traversal × σ) (s : σ) :
    v.Cuts count (all.1.after (key, value) [], all.2)
      (({} : Traversal).after (key, value) [], s) := by
  simp [Cuts, Traversal.after, stops, upTo, declined]

theorem map (cuts : v.Cuts count all part) (f : σ → τ) :
    v.Cuts count (all.1, f all.2) (part.1, f part.2) := by
  unfold Cuts at cuts ⊢
  split at cuts
  next stopped => rwa [if_pos stopped]
  next going => rw [if_neg going, cuts]

/-- Nothing is cut off for a visitor that never asks to stop. -/
theorem eq_of_tireless (cuts : v.Cuts count all part) (tireless : v.Tireless) : part = all := by
  have going := v.stops_of_tireless tireless count all.1.seen
  unfold Cuts at cuts
  rwa [going, if_neg Bool.false_ne_true] at cuts

end Cuts

end Visitor

open Visitor

variable {visitor : Visitor}

/-! ## Memory caches -/

theorem Memory.cuts_iterate (quiet : visitor.Quiet) (now : Instant) (m : Memory) (ns : String) :
    visitor.Cuts 0 (m.iterate now ns .observer) (m.iterate now ns visitor) := by
  have observed : m.iterate now ns .observer = ({ seen := m.snapshot now ns }, m) := by
    rw [iterate, visit_quiet now quiet_observer, upTo_of_tireless tireless_observer]
  rw [observed, iterate, visit_quiet now quiet]
  unfold Cuts
  split
  next => rfl
  next going => rw [upTo_of_going (Bool.eq_false_iff.2 going)]

/-! ## Embedded caches -/

theorem Embedded.cuts_visit (quiet : visitor.Quiet) (now : Instant) (ns : String) (count : Nat)
    (rows : List (Bytes × Bytes)) (e : Embedded) :
    visitor.Cuts count (visit now ns .observer count rows e)
      (visit now ns visitor count rows e) := by
  induction rows generalizing count e with
  | nil => rfl
  | cons row rest ih =>
      obtain ⟨key, raw⟩ := row
      cases read : Record.decode raw with
      | error cause =>
          simp only [visit, read]
          rfl
      | ok record =>
          cases past : record.expired now.unixMillis with
          | true =>
              simp only [visit, read, past, if_true]
              exact ih count _
          | false =>
              have silent : ∀ logical, visitor.requests (count + 1) logical record.value = [] := by
                intro logical
                exact quiet _ _ _
              simp only [visit, read, past, Bool.false_eq_true, if_false, silent, answerAll]
              cases goesOn : visitor.goesOn (count + 1)
                  (e.keys.logical (Text.decodeLossy key) ns) record.value with
              | true => exact (ih (count + 1) e).after goesOn
              | false => exact .stop goesOn (visit now ns .observer (count + 1) rest e) e

theorem Embedded.cuts_iterate (quiet : visitor.Quiet) (now : Instant) (e : Embedded)
    (ns : String) : visitor.Cuts 0 (e.iterate now ns .observer) (e.iterate now ns visitor) := by
  cases opened : e.store with
  | none =>
      simp only [iterate, opened]
      rfl
  | some store =>
      simp only [iterate, opened]
      exact cuts_visit quiet now ns 0 _ e

/-! ## Remote caches -/

namespace Remote

/-- The entries of a traversal that has come some way, and then some more. -/
def Progress.adding (p : Progress) (fresh : List (String × Bytes)) : Traversal :=
  { p.shown with seen := p.shown.seen ++ fresh }

/-- How part of a traversal comes out from some progress on, for an observer and for a
visitor: the same, unless the visitor asks to stop at one of the fresh entries. Then it is
shown nothing behind that one, and does not go on. -/
structure Parts (v : Visitor) (p : Progress) (all part : Bool × Progress)
    (fresh : List (String × Bytes)) : Prop where
  seen : all.2.shown.seen = p.shown.seen ++ fresh
  /-- Nothing went wrong where an observer can go on. -/
  sound : all.1 = true → all.2.shown = p.adding fresh
  going : v.stops p.shown.seen.length fresh = false → part = all
  stopped : v.stops p.shown.seen.length fresh = true →
    part.1 = false ∧ part.2.shown = p.adding (v.upTo p.shown.seen.length fresh)

namespace Parts

variable {p q : Progress} {all part rest : Bool × Progress} {fresh fresh' : List (String × Bytes)}
  {key : String} {value : Bytes}

/-- Nothing is shown to anybody. -/
theorem silent (same : p.shown = q.shown) : Parts visitor p (true, q) (true, q) [] where
  seen := by rw [same, List.append_nil]
  sound _ := by simp [Progress.adding, same]
  going _ := rfl
  stopped := nofun

/-- A fault breaks the traversal off before anything is shown. -/
theorem broken (p : Progress) (line : Line) (cause : Fault) :
    Parts visitor p (false, p.broken line cause) (false, p.broken line cause) [] where
  seen := (List.append_nil _).symm
  sound := nofun
  going _ := rfl
  stopped := nofun

/-- What has been shown decides, and not how far the traversal has come otherwise. -/
theorem aside {link : Link} {met : List String}
    (parts : Parts visitor ⟨link, met, p.shown⟩ all part fresh) :
    Parts visitor p all part fresh :=
  ⟨parts.seen, parts.sound, parts.going, parts.stopped⟩

/-- A visitor that goes on is where an observer is. -/
theorem eq_of_going (parts : Parts visitor p all part fresh) (going : part.1 = true) :
    part = all := by
  cases early : visitor.stops p.shown.seen.length fresh with
  | true => exact absurd (parts.stopped early).1 (by rw [going]; exact Bool.noConfusion)
  | false => exact parts.going early

/-- It ends here, for an observer as well. -/
theorem ended (parts : Parts visitor p all part fresh) :
    Parts visitor p (false, all.2) (false, part.2) fresh where
  seen := parts.seen
  sound := nofun
  going early := by rw [parts.going early]
  stopped early := ⟨rfl, (parts.stopped early).2⟩

/-- An entry is shown, and the visitor goes on. -/
theorem shown (goesOn : visitor.goesOn (p.shown.seen.length + 1) key value = true)
    (shown : q.shown = p.shown.snoc (key, value) []) (parts : Parts visitor q all part fresh) :
    Parts visitor p all part ((key, value) :: fresh) := by
  have grown : q.shown.seen = p.shown.seen ++ [(key, value)] := by rw [shown]; rfl
  have added (more : List (String × Bytes)) : q.adding more = p.adding ((key, value) :: more) := by
    simp [Progress.adding, shown, Traversal.snoc]
  have place : q.shown.seen.length = p.shown.seen.length + 1 := by
    rw [grown, List.length_append, List.length_singleton]
  refine ⟨?_, ?_, ?_, ?_⟩
  · rw [parts.seen, grown, List.append_assoc]
    rfl
  · intro open_
    rw [parts.sound open_, added]
  · intro going
    rw [stops, goesOn, Bool.not_true, Bool.false_or, ← place] at going
    exact parts.going going
  · intro stopped
    rw [stops, goesOn, Bool.not_true, Bool.false_or, ← place] at stopped
    rw [upTo, goesOn, if_pos rfl, ← place, ← added]
    exact parts.stopped stopped

/-- An entry is shown, and the visitor asks to stop there. -/
theorem declined (goesOn : visitor.goesOn (p.shown.seen.length + 1) key value = false)
    (shown : q.shown = p.shown.snoc (key, value) []) (parts : Parts visitor q all part fresh) :
    Parts visitor p all (false, q) ((key, value) :: fresh) where
  seen := by simp [parts.seen, shown, Traversal.snoc]
  sound open_ := by simp [parts.sound open_, Progress.adding, shown, Traversal.snoc]
  going := by simp [stops, goesOn]
  stopped _ := by simp [upTo, goesOn, Progress.adding, shown, Traversal.snoc]

/-- One part after the other. A visitor that has asked to stop in the first one is not
concerned with the second one. -/
theorem trans (first : Parts visitor p all part fresh) (open_ : all.1 = true)
    {all' rest : Bool × Progress} (later : Parts visitor all.2 all' rest fresh') :
    Parts visitor p all' (if part.1 then rest else part) (fresh ++ fresh') := by
  have added (more : List (String × Bytes)) :
      all.2.adding more = p.adding (fresh ++ more) := by
    simp [Progress.adding, first.sound open_]
  have place : all.2.shown.seen.length = p.shown.seen.length + fresh.length := by
    rw [first.seen, List.length_append]
  have seen : all'.2.shown.seen = p.shown.seen ++ (fresh ++ fresh') := by
    rw [later.seen, first.seen, List.append_assoc]
  have sound (open_ : all'.1 = true) : all'.2.shown = p.adding (fresh ++ fresh') := by
    rw [later.sound open_, added]
  cases early : visitor.stops p.shown.seen.length fresh with
  | true =>
      obtain ⟨halted, shown⟩ := first.stopped early
      rw [halted, if_neg Bool.false_ne_true]
      refine ⟨seen, sound, ?_, ?_⟩
      · rw [stops_append, early]
        nofun
      · rw [upTo_append, early, if_pos rfl]
        exact fun _ => ⟨halted, shown⟩
  | false =>
      rw [first.going early, open_, if_pos rfl]
      refine ⟨seen, sound, ?_, ?_⟩
      · rw [stops_append, early, Bool.false_or, ← place]
        exact later.going
      · rw [stops_append, early, Bool.false_or, upTo_append, early, if_neg Bool.false_ne_true,
          ← place, ← added]
        exact later.stopped

/-- A part that ends here, or is followed by more if there is more to come. -/
theorem onward (parts : Parts visitor p all part fresh) (more : Prop) [Decidable more]
    {observed watched : Progress → Progress}
    (later : ∀ q, ∃ fresh', Parts visitor q (false, observed q) (false, watched q) fresh') :
    ∃ fresh', Parts visitor p
      (false, if all.1 = true ∧ more then observed all.2 else all.2)
      (false, if part.1 = true ∧ more then watched part.2 else part.2) fresh' := by
  by_cases further : all.1 = true ∧ more
  · obtain ⟨fresh', rest⟩ := later all.2
    have both := parts.trans further.1 rest
    rw [if_pos further]
    cases went : part.1 with
    | true =>
        rw [went, if_pos rfl] at both
        rw [parts.eq_of_going went, if_pos ⟨rfl, further.2⟩]
        exact ⟨_, both⟩
    | false =>
        rw [went, if_neg Bool.false_ne_true] at both
        rw [if_neg fun goes => Bool.false_ne_true goes.1]
        exact ⟨_, both.ended⟩
  · have nothing : ¬ (part.1 = true ∧ more) := by
      rintro ⟨went, more⟩
      rw [parts.eq_of_going went] at went
      exact further ⟨went, more⟩
    rw [if_neg further, if_neg nothing]
    exact ⟨_, parts.ended⟩

end Parts

/-- A page, as an observer and a visitor see it. -/
theorem parts_visitPage (quiet : visitor.Quiet) (root : String) (batch : List Bytes)
    (p : Progress) :
    ∃ fresh, Parts visitor p (visitPage root .observer batch p) (visitPage root visitor batch p)
      fresh := by
  induction batch generalizing p with
  | nil => exact ⟨[], .silent rfl⟩
  | cons raw rest ih =>
      cases found : logical? root raw with
      | none =>
          simp only [visitPage, found]
          exact ih p
      | some key =>
          by_cases met : key ∈ p.met
          · simp only [visitPage, found, met, if_true]
            exact ih p
          · simp only [visitPage, found, met, if_false]
            -- The read of a new key fails, or the key is gone, or it is shown.
            cases fetched : fetch p.link.2 raw with
            | mk read line =>
                cases read with
                | error cause =>
                    let q : Progress := ⟨p.link, key :: p.met, p.shown⟩
                    exact ⟨[], (Parts.broken q line cause).aside⟩
                | ok found =>
                    cases found with
                    | none =>
                        obtain ⟨fresh, parts⟩ := ih ⟨(p.link.1, line), key :: p.met, p.shown⟩
                        exact ⟨fresh, parts.aside⟩
                    | some value =>
                        obtain ⟨fresh, parts⟩ :=
                          ih ⟨(p.link.1, line), key :: p.met, p.shown.snoc (key, value) []⟩
                        simp only [visit_quiet quiet, visit_quiet quiet_observer]
                        cases goesOn : visitor.goesOn (p.shown.seen.length + 1) key value with
                        | true => exact ⟨_, parts.shown goesOn rfl⟩
                        | false => exact ⟨_, parts.declined goesOn rfl⟩

/-- A page that was answered, and the pages that follow if there are any. -/
theorem visitPages_succ {pattern root : String} {pages cursor next : Nat} {p : Progress}
    {batch : List Bytes} {line : Line}
    (replied : p.link.2.query (scanCommand cursor pattern) Reply.page? =
      (.ok (next, batch), line)) :
    visitPages pattern root visitor (pages + 1) cursor p =
      let page := visitPage root visitor batch { p with link := (p.link.1, line) }
      if page.1 = true ∧ next ≠ 0 then visitPages pattern root visitor pages next page.2
      else page.2 := by
  simp only [visitPages, replied]
  cases visitPage root visitor batch { p with link := (p.link.1, line) } with
  | mk went q => cases went <;> by_cases last : next = 0 <;> simp [last]

/-- All pages, as an observer and a visitor see them. -/
theorem parts_visitPages (quiet : visitor.Quiet) (pattern root : String) (pages cursor : Nat)
    (p : Progress) :
    ∃ fresh, Parts visitor p (false, visitPages pattern root .observer pages cursor p)
      (false, visitPages pattern root visitor pages cursor p) fresh := by
  induction pages generalizing cursor p with
  | zero => exact ⟨[], (Parts.silent rfl).ended⟩
  | succ pages ih =>
      cases asked : p.link.2.query (scanCommand cursor pattern) Reply.page? with
      | mk read line =>
          cases read with
          | error cause =>
              simp only [visitPages, asked]
              exact ⟨[], .broken p line cause⟩
          | ok reply =>
              obtain ⟨next, batch⟩ := reply
              rw [visitPages_succ asked, visitPages_succ asked]
              obtain ⟨fresh, page⟩ := parts_visitPage quiet root batch
                ⟨(p.link.1, line), p.met, p.shown⟩
              exact page.aside.onward (next ≠ 0) (ih next)

theorem cuts_iterate (quiet : visitor.Quiet) (link : Link) (ns : String) :
    visitor.Cuts 0 (iterate link ns .observer) (iterate link ns visitor) := by
  obtain ⟨r, line⟩ := link
  cases connected : r.mode with
  | none =>
      simp only [iterate, connected]
      rfl
  | some mode =>
      simp only [iterate, connected]
      obtain ⟨fresh, parts⟩ := parts_visitPages quiet (r.keys.pattern ns) (r.keys.root ns)
        (line.replies.length + 1) 0 ⟨(r, line), [], {}⟩
      have seen : _ = fresh := parts.seen
      unfold Cuts
      rw [seen]
      split
      next stopped => exact (parts.stopped stopped).2
      next going =>
        have same := congrArg Prod.snd (parts.going (Bool.eq_false_iff.2 going))
        dsimp only at same
        rw [same]

end Remote

/-! ## Any cache -/

/-- Whatever the engine, a visitor that sends no requests sees what an observer sees, up to
where it asks to stop. -/
theorem Cache.cuts_iterate (quiet : visitor.Quiet) (now : Instant) (link : Cache × Line)
    (ns : String) :
    visitor.Cuts 0 (iterate now link ns .observer) (iterate now link ns visitor) := by
  obtain ⟨cache, line⟩ := link
  cases cache with
  | memory m => exact (m.cuts_iterate quiet now ns).map fun m => (memory m, line)
  | embedded e => exact (e.cuts_iterate quiet now ns).map fun e => (embedded e, line)
  | remote r =>
      exact (Remote.cuts_iterate quiet (r, line) ns).map fun (link : Remote.Link) =>
        (remote link.1, link.2)

end ExpiringCache
