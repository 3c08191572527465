import ExpiringCache.Proofs.Erasure
import ExpiringCache.Proofs.Session.Lending

/-!
# Closed caches

A closed cache stays in its slot, but there is nothing behind it any more: whatever
is done with it fails or does nothing, and leaves no trace (`Session.step_of_closed`).
Its store is back in its directory, where whoever opens a cache on it next finds it as
it was at the close, whatever has been done with the closed cache in between
(`Session.closed_is_inert`).
-/

namespace ExpiringCache

/-! ## Caches -/

namespace Cache

/-- The entries are not in the process of the cache, but in a store or on a server. -/
def EntriesOutside : Cache → Prop
  | memory _ => False
  | embedded _ | remote _ => True

/-- There is no store or server behind a cache, and no sweep. -/
def Closed : Cache → Prop
  | memory _ => False
  | embedded e => e.store = none ∧ e.schedule = none
  | remote r => r.mode = none

/-- Whether a cleanup can be asked for. Servers clean up by themselves. -/
def cleanable : Cache → Bool
  | memory _ | embedded _ => true
  | remote _ => false

theorem closed_close {c : Cache} (outside : c.EntriesOutside) : c.close.2.Closed := by
  cases c with
  | memory => cases outside
  | embedded e => exact ⟨rfl, rfl⟩
  | remote r => rfl

theorem counters_close (c : Cache) (outside : c.EntriesOutside) :
    c.close.2.counters = c.counters := by
  cases c with
  | memory => cases outside
  | embedded | remote => rfl

namespace Closed

variable {c : Cache}

theorem store? (closed : c.Closed) : c.store? = none := by
  cases c with
  | memory | remote => rfl
  | embedded e => exact closed.1

theorem request (closed : c.Closed) (now : Instant) (line : Line) (q : Request) :
    Cache.request now (c, line) q = (.fault .closed, c, line) := by
  cases c with
  | memory => cases closed
  | embedded e => simp only [Cache.request, Embedded.request, closed.1]
  | remote r => simp only [Cache.request, Remote.request, show r.mode = none from closed]

theorem iterate (closed : c.Closed) (now : Instant) (line : Line) (ns : String)
    (visitor : Visitor) :
    Cache.iterate now (c, line) ns visitor = (.failed .closed, c, line) := by
  cases c with
  | memory => cases closed
  | embedded e => simp only [Cache.iterate, Embedded.iterate, closed.1]
  | remote r => simp only [Cache.iterate, Remote.iterate, show r.mode = none from closed]

theorem cleanup? (closed : c.Closed) (now : Instant) :
    c.cleanup? now = if c.cleanable then some (0, c) else none := by
  cases c with
  | memory => cases closed
  | embedded e => simp [Cache.cleanup?, Embedded.cleanup, closed.1, cleanable]
  | remote r => rfl

theorem sweep (closed : c.Closed) (now : Instant) : c.sweep now = c := by
  cases c with
  | memory => cases closed
  | embedded e =>
      have idle : Embedded.service.sweep now e = e := by
        simp [Embedded.service, closed.2]
      rw [Cache.sweep, idle]
  | remote r => rfl

theorem pass (closed : c.Closed) (earlier later : Instant) : c.pass earlier later = c := by
  cases c with
  | memory => cases closed
  | embedded e => simp only [Cache.pass, Embedded.pass, closed.2]
  | remote r => rfl

theorem close (closed : c.Closed) : c.close = (none, c) := by
  cases c with
  | memory => cases closed
  | embedded e =>
      obtain ⟨keys, store, counters, schedule⟩ := e
      obtain ⟨rfl, rfl⟩ := closed
      rfl
  | remote r =>
      obtain ⟨keys, mode, counters⟩ := r
      obtain rfl : mode = none := closed
      rfl

end Closed

end Cache

namespace Session

variable {s s' : Session} {name : String} {slot : Slot}

/-! ## Steps -/

namespace Step

/-- Whether a step uses the cache in a slot. -/
def uses (name : String) : Step → Bool
  | request other .. | traverse other .. | cleanup other | sweep other | close other => other = name
  | launch .. | drop _ | advance _ => false

/-- Whether a step takes the cache out of its slot. -/
def removes (name : String) : Step → Bool
  | launch other .. | drop other => other = name
  | _ => false

end Step

/-- What comes back when the closed cache of a slot is used: nothing is found, shown,
removed or sent. -/
def refusal (slot : Slot) : Step → Reaction
  | .request _ _ line => .answer (.fault .closed) line
  | .traverse _ _ _ line => .shown (.failed .closed) line
  | .cleanup _ => .removed (if slot.bare && slot.cache.cleanable then some 0 else none)
  | .sweep _ | .close _ | .drop _ | .advance _ => .done
  | .launch .. => .missing

theorem use_of_found (found : s.find? name = some slot) (act : Slot → Reaction × Session) :
    s.use name act = act slot := by
  simp only [use, found]

/-- Whatever is done with a closed cache, it is refused, and all stays as it is. -/
theorem step_of_closed (found : s.find? name = some slot) (closed : slot.cache.Closed)
    {t : Step} (used : t.uses name = true) :
    (s.step t).1 = refusal slot t ∧ (s.step t).2.Alike s := by
  have still : (s.put name slot).Alike s := .put_self found
  cases t with
  | request other q line =>
      obtain rfl := of_decide_eq_true used
      rw [step, use_of_found found]
      simp only [Session.request, closed.request]
      exact ⟨rfl, still⟩
  | traverse other ns visitor line =>
      obtain rfl := of_decide_eq_true used
      rw [step, use_of_found found]
      simp only [Session.iterate, closed.iterate]
      exact ⟨rfl, still⟩
  | cleanup other =>
      obtain rfl := of_decide_eq_true used
      rw [step, use_of_found found]
      simp only [Session.cleanup, closed.cleanup?, refusal]
      split
      next asked =>
        have told : (slot.bare && slot.cache.cleanable) = slot.cache.cleanable := by
          rw [asked, Bool.true_and]
        rw [told]
        cases slot.cache.cleanable with
        | true => exact ⟨rfl, still⟩
        | false => exact ⟨rfl, .refl s⟩
      next hidden =>
        rw [Bool.eq_false_iff.2 hidden]
        exact ⟨rfl, .refl s⟩
  | sweep other =>
      obtain rfl := of_decide_eq_true used
      rw [step, use_of_found found]
      simp only [closed.sweep]
      exact ⟨rfl, still⟩
  | close other =>
      obtain rfl := of_decide_eq_true used
      rw [step, use_of_found found]
      simp only [Session.close, closed.close]
      have nothing : (s.put other slot).giveBack slot none = s.put other slot := by
        cases path : slot.path <;> simp only [giveBack, path]
      rw [nothing]
      exact ⟨rfl, still⟩
  | launch | drop | advance => cases used

/-- A closed cache stays as it is, whatever happens elsewhere. -/
theorem find?_step_of_closed (found : s.find? name = some slot) (closed : slot.cache.Closed)
    {t : Step} (stays : t.removes name = false) : (s.step t).2.find? name = some slot := by
  -- What is done in another slot ends with something put there.
  have elsewhere (s' : Session) (other : String) (slot' : Slot) (differs : other ≠ name)
      (same : s'.find? name = some slot) : (s'.put other slot').find? name = some slot := by
    rw [find?_put, if_neg (Ne.symm differs), same]
  by_cases used : t.uses name = true
  · exact ((step_of_closed found closed used).2.slots name).trans found
  · have through {other : String} (unused : decide (other = name) ≠ true)
        {act : Slot → Reaction × Session}
        (acts : other ≠ name → ∀ slot', (act slot').2.find? name = some slot) :
        (s.use other act).2.find? name = some slot := by
      unfold use
      split
      next slot' _ => exact acts (fun same => unused (decide_eq_true same)) slot'
      next => exact found
    cases t with
    | launch other o line =>
        have differs : other ≠ name := of_decide_eq_false stays
        simp only [step, Session.launch]
        cases s.openCache o line with
        | mk result line' =>
            cases result with
            | error cause => exact found
            | ok opened =>
                refine elsewhere _ other opened.1 differs ?_
                rw [find?_drop, if_neg (Ne.symm differs)]
                exact found
    | request other q line =>
        exact through used fun differs slot' => elsewhere s other _ differs found
    | traverse other ns visitor line =>
        exact through used fun differs slot' => elsewhere s other _ differs found
    | cleanup other =>
        refine through used fun differs slot' => ?_
        simp only [Session.cleanup]
        split
        next =>
          split
          next => exact elsewhere s other _ differs found
          next => exact found
        next => exact found
    | sweep other =>
        exact through used fun differs slot' => elsewhere s other _ differs found
    | close other =>
        refine through used fun differs slot' => ?_
        simp only [Session.close, find?_giveBack]
        exact elsewhere s other _ differs found
    | drop other =>
        have differs : other ≠ name := of_decide_eq_false stays
        simp only [step, find?_drop, if_neg (Ne.symm differs), found]
    | advance nanos =>
        simp only [step, find?_advance, found, Option.map_some, closed.pass]

/-! ## Runs -/

/-- Without all that is done with a closed cache, everything else goes as it does. -/
theorem trace_of_closed (alike : s.Alike s') (found : s.find? name = some slot)
    (closed : slot.cache.Closed) {steps : List Step}
    (stay : ∀ t ∈ steps, t.removes name = false) :
    let run := trace step s steps
    let others := trace step s' (steps.filter fun t => !t.uses name)
    outcomesOf (Step.uses name) steps run.1 =
        (steps.filter (Step.uses name)).map (refusal slot) ∧
      outcomesOf (fun t => !t.uses name) steps run.1 = others.1 ∧
      run.2.find? name = some slot ∧ run.2.Alike others.2 := by
  induction steps generalizing s s' with
  | nil => exact ⟨rfl, rfl, found, alike⟩
  | cons t rest ih =>
      have there := find?_step_of_closed found closed (stay t List.mem_cons_self)
      have staying : ∀ u ∈ rest, u.removes name = false := fun u later => stay u (.tail _ later)
      intro run others
      have unfolded : run = ((s.step t).1 :: (trace step (s.step t).2 rest).1,
          (trace step (s.step t).2 rest).2) := rfl
      cases used : t.uses name with
      | true =>
          obtain ⟨refused, still⟩ := step_of_closed found closed used
          obtain ⟨later, aside, final, same⟩ := ih (still.trans alike) there staying
          have skipped : others = trace step s' (rest.filter fun t => !t.uses name) := by
            simp [others, used]
          rw [unfolded, skipped]
          refine ⟨?_, ?_, final, same⟩
          · simp [outcomesOf_cons, used, later, refused]
          · simp [outcomesOf_cons, used, aside]
      | false =>
          obtain ⟨first, after⟩ := alike.step t
          obtain ⟨later, aside, final, same⟩ := ih after there staying
          have taken : others = ((s'.step t).1 ::
              (trace step (s'.step t).2 (rest.filter fun t => !t.uses name)).1,
              (trace step (s'.step t).2 (rest.filter fun t => !t.uses name)).2) := by
            simp [others, used, trace]
          rw [unfolded, taken]
          refine ⟨?_, ?_, final, same⟩
          · simp [outcomesOf_cons, used, later]
          · simp [outcomesOf_cons, used, aside, first]

/-! ## What becomes of the store -/

/-- A close puts the store of a cache back in its directory. -/
theorem Lends.shelved_close (lends : s.Lends) (found : s.find? name = some slot) {store : Store}
    (had : slot.cache.store? = some store) :
    ∃ path, slot.path = some path ∧ (s.close name slot).disk.Shelved path store := by
  obtain ⟨path, spelt, lent⟩ := lends.lent name slot found (by rw [had]; rfl)
  have back : (s.close name slot).disk = s.disk.put path (some store) := by
    have closing : s.close name slot =
        (s.put name { slot with cache := slot.cache.close.2 }).giveBack slot slot.cache.close.1 :=
      rfl
    rw [closing, Cache.close_fst, had]
    simp only [Session.giveBack, spelt]
    rfl
  refine ⟨path, spelt, ?_⟩
  rw [back]
  exact ⟨by rw [Disk.find?_put, if_pos rfl], lent.usable.put _⟩

/-- Whoever opens a cache on a directory gets the store that lies there. -/
theorem launch_of_shelved {o : Opening} {path : Path} {store : Store} (opens : o.Opens path)
    (shelved : s.disk.Shelved path store) (name : String) (line : Line) :
    (s.step (.launch name o line)).1 = .opened line ∧
      ∃ e, (s.step (.launch name o line)).2.find? name = some ⟨.embedded e, o.bare, some path⟩ ∧
        e.store = some store := by
  obtain ⟨engine, rfl⟩ := opens
  simp only [step, Session.launch, openCache, engine, shelved.lend, Except.map]
  exact ⟨trivial, _, (find?_put _ name name _).trans (if_pos rfl), rfl⟩

/-- Take a cache with a store or a server behind it, in any session from its start on, and
close it. Whatever is done later, all that is done with the closed cache is refused, and
sends and counts nothing; and everything else goes as if none of it were done. A cache
that is opened later on the same directory, for the first time since, gets the store as it
was at the close. -/
theorem closed_is_inert {start : Session} (empty : start.slots = []) (before after : List Step)
    {name : String} {slot : Slot} (found : (trace step start before).2.find? name = some slot)
    (outside : slot.cache.EntriesOutside) (stay : ∀ t ∈ after, t.removes name = false) :
    let closing := (trace step start before).2.step (.close name)
    let closed : Slot := { slot with cache := slot.cache.close.2 }
    let run := trace step closing.2 after
    let others := trace step closing.2 (after.filter fun t => !t.uses name)
    closing.1 = .done ∧
      outcomesOf (Step.uses name) after run.1 =
        (after.filter (Step.uses name)).map (refusal closed) ∧
      run.2.find? name = some closed ∧ closed.cache.counters = slot.cache.counters ∧
      outcomesOf (fun t => !t.uses name) after run.1 = others.1 ∧ run.2.Alike others.2 ∧
      ∀ store, slot.cache.store? = some store → ∃ path, slot.path = some path ∧
        ((∀ t ∈ after, ¬ t.Opens path) → ∀ o line other, o.Opens path →
          (run.2.step (.launch other o line)).1 = .opened line ∧
            ∃ e, (run.2.step (.launch other o line)).2.find? other =
                some ⟨.embedded e, o.bare, some path⟩ ∧ e.store = some store) := by
  intro closing closed run others
  have lends : (trace step start before).2.Lends := ((Lends.of_empty empty).trace before).lends
  have closes : closing = (.done, (trace step start before).2.close name slot) :=
    use_of_found found _
  have there : closing.2.find? name = some closed := by
    rw [closes]
    simp only [Session.close, find?_giveBack]
    rw [find?_put, if_pos rfl]
  have stays := trace_of_closed (.refl closing.2) there (Cache.closed_close outside) stay
  obtain ⟨refused, aside, final, alike⟩ := stays
  refine ⟨by rw [closes], refused, final, slot.cache.counters_close outside, aside, alike, ?_⟩
  intro store had
  obtain ⟨path, spelt, shelved⟩ := lends.shelved_close found had
  refine ⟨path, spelt, fun unopened o line other opens => ?_⟩
  have closing_spares : Spares _ _ fun _ => False := lends.close found
  have spared := closing_spares.lends.trace after
  have still : (trace step closing.2 after).2.disk.Shelved path store := by
    rw [closes]
    refine spared.shelved path store ?_ shelved
    rintro ⟨t, member, opened⟩
    exact unopened t member opened
  exact launch_of_shelved opens still other line

/-- A cache on a store with a record is closed, used, cleaned up and closed again, and
another one is opened on its directory. -/
theorem closed_is_inert_reopened :
    let path : Path := ⟨["data", "cache"]⟩
    let store := Store.empty.insert (Text.encode "ns:k") (Record.encode ⟨5, [1]⟩)
    let start : Session := { now := ⟨2000000000⟩, disk := Disk.put {} path (some store) }
    let opening : Opening := { settings := { engine := .embedded }, bare := true }
    let line : Line := { replies := [] }
    let before : List Step := [.launch "a" opening line]
    let after : List Step :=
      [.request "a" (.take "ns" "k") line, .cleanup "a", .advance 60000000000, .sweep "a",
       .close "a", .traverse "a" "ns" .observer line]
    let session := (trace step start before).2
    ∃ slot, start.slots = [] ∧ session.find? "a" = some slot ∧ slot.cache.EntriesOutside ∧
      slot.cache.store? = some store ∧ (∀ t ∈ after, t.removes "a" = false) ∧
      (let run := trace step (session.step (.close "a")).2 after
       outcomesOf (Step.uses "a") after run.1 =
          [.answer (.fault .closed) line, .removed (some 0), .done, .done,
           .shown (.failed .closed) line] ∧
        ∃ e, (run.2.step (.launch "b" opening line)).2.find? "b" =
          some ⟨.embedded e, true, some path⟩ ∧ e.store = some store) := by
  intro path store start opening line before after session
  have opens : opening.Opens path := ⟨rfl, show Path.ofText "data/cache" = _ by decide +kernel⟩
  have usable : Disk.Usable {} path := ⟨by decide +kernel, rfl⟩
  have shelved : start.disk.Shelved path store := ⟨rfl, usable.put (some store)⟩
  obtain ⟨-, e, found, had⟩ := launch_of_shelved opens shelved "a" line
  have stay : ∀ t ∈ after, t.removes "a" = false := by decide
  have unopened : ∀ t ∈ after, ¬ t.Opens path := by simp [after, Step.Opens]
  obtain ⟨-, refused, -, -, -, -, reopened⟩ := closed_is_inert rfl before after found trivial stay
  obtain ⟨path', spelt, back⟩ := reopened store had
  obtain rfl : path = path' := Option.some.inj spelt
  exact ⟨_, rfl, found, trivial, had, stay, refused, (back unopened opening line "b" opens).2⟩

end Session

end ExpiringCache
