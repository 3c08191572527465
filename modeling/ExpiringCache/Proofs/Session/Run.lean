import ExpiringCache.Proofs.Embedded.Moves
import ExpiringCache.Proofs.Memory.Contract
import ExpiringCache.Session

/-!
# Runs of sessions

Several caches are used side by side, one step after the other: one is opened in a slot,
requests and traversals go to another, a third one is closed, and time passes for all of
them. `Session.step` carries out a step.

Sessions in which every slot holds the same cache, on the same disk and at the same time,
are `Alike`, whatever the order of the slots. No step tells them apart (`Alike.step`).
-/

namespace ExpiringCache

/-! ## Looking up -/

/-- Where one key is filtered out, the others are found as before. -/
theorem Bindings.find?_without {κ ν : Type} [DecidableEq κ] (gone key : κ) (l : List (κ × ν)) :
    find? key (l.filter fun (k, _) => k != gone) = if key = gone then none else find? key l := by
  induction l with
  | nil => simp [find?]
  | cons head rest ih =>
      obtain ⟨k, v⟩ := head
      by_cases dropped : k = gone
      · rw [List.filter_cons_of_neg (by simp [dropped]), ih]
        split
        next => rfl
        next other => rw [find?, if_neg fun same => other (same.symm.trans dropped)]
      · rw [List.filter_cons_of_pos (by simp [dropped]), find?, find?, ih]
        by_cases same : k = key
        · simp [same, same ▸ dropped]
        · simp [same]

theorem Bindings.find?_put {κ ν : Type} [DecidableEq κ] (new key : κ) (v : ν)
    (l : List (κ × ν)) :
    find? key ((new, v) :: l.filter fun (k, _) => k != new) =
      if key = new then some v else find? key l := by
  rw [find?]
  by_cases same : key = new
  · rw [if_pos same.symm, if_pos same]
  · rw [if_neg (Ne.symm same), if_neg same, find?_without, if_neg same]

/-- The background sweep runs, if there is one, be it due or not. -/
def Cache.sweep (now : Instant) : Cache → Cache
  | memory m => memory (Memory.service.sweep now m)
  | embedded e => embedded (Embedded.service.sweep now e)
  | remote r => remote r

namespace Session

/-! ## Steps -/

/-- What is done in a session. A cache is used through its slot, with the replies that
are to come in on its line. -/
inductive Step
  | launch (name : String) (o : Opening) (line : Line)
  | request (name : String) (q : Request) (line : Line)
  | traverse (name ns : String) (visitor : Visitor) (line : Line)
  | cleanup (name : String)
  /-- The background sweep of one cache runs, be it due or not. -/
  | sweep (name : String)
  | close (name : String)
  | drop (name : String)
  | advance (nanos : Nat)

/-- What comes back from a step, and the line with what has been said on it. -/
inductive Reaction
  | opened (line : Line)
  | unopened (cause : Fault) (line : Line)
  | answer (a : Answer) (line : Line)
  | shown (t : Traversal) (line : Line)
  | removed (count : Option Nat)
  | done
  /-- There is no cache in the slot. -/
  | missing

/-- Uses the cache in a slot. -/
def use (s : Session) (name : String) (act : Slot → Reaction × Session) : Reaction × Session :=
  match s.find? name with
  | some slot => act slot
  | none => (.missing, s)

def step (s : Session) : Step → Reaction × Session
  | .launch name o line =>
      match s.launch name o line with
      | (.ok s, line) => (.opened line, s)
      | (.error cause, line) => (.unopened cause line, s)
  | .request name q line => s.use name fun slot =>
      let (answer, s, line) := s.request name slot q line
      (.answer answer line, s)
  | .traverse name ns visitor line => s.use name fun slot =>
      let (shown, s, line) := s.iterate name slot ns visitor line
      (.shown shown line, s)
  | .cleanup name => s.use name fun slot =>
      let (count, s) := s.cleanup name slot
      (.removed count, s)
  | .sweep name => s.use name fun slot =>
      (.done, s.put name { slot with cache := slot.cache.sweep s.now })
  | .close name => s.use name fun slot => (.done, s.close name slot)
  | .drop name => (.done, s.drop name)
  | .advance nanos => (.done, s.advance nanos)

/-! ## What is in the slots -/

variable {s s' : Session} {name other : String} {slot : Slot}

theorem find?_put (s : Session) (name other : String) (slot : Slot) :
    (s.put name slot).find? other = if other = name then some slot else s.find? other :=
  Bindings.find?_put name other slot s.slots

/-- The session without a slot, whose cache may still have a store to give back. -/
def without (s : Session) (name : String) : Session :=
  { s with slots := s.slots.filter fun (other, _) => other != name }

theorem find?_without (s : Session) (name other : String) :
    (s.without name).find? other = if other = name then none else s.find? other :=
  Bindings.find?_without name other s.slots

theorem find?_giveBack (s : Session) (slot : Slot) (store : Option Store) (other : String) :
    (s.giveBack slot store).find? other = s.find? other := by
  unfold giveBack
  split <;> rfl

theorem find?_advance (s : Session) (nanos : Nat) (other : String) :
    (s.advance nanos).find? other = (s.find? other).map fun slot =>
      { slot with cache := slot.cache.pass s.now ⟨s.now.nanos + nanos⟩ } := by
  simp only [find?, advance]
  induction s.slots with
  | nil => rfl
  | cons head rest ih =>
      simp only [List.map_cons, Bindings.find?]
      split
      next => rfl
      next => exact ih

theorem drop_of_found (found : s.find? name = some slot) :
    s.drop name = (s.without name).giveBack slot slot.cache.close.1 := by
  simp only [drop, found]
  rfl

theorem drop_of_missing (missing : s.find? name = none) : s.drop name = s := by
  simp only [drop, missing]

theorem find?_drop (s : Session) (name other : String) :
    (s.drop name).find? other = if other = name then none else s.find? other := by
  cases found : s.find? name with
  | none =>
      rw [drop_of_missing found]
      split
      next same => rw [same, found]
      next => rfl
  | some slot => rw [drop_of_found found, find?_giveBack, find?_without]

/-! ## Opening -/

/-- How a cache that is opened composes its keys. -/
def keysOf (o : Opening) : Keys := if o.bare then ⟨o.settings.delimiter⟩ else o.settings.keys

/-- The ways that opening a cache can go well. -/
inductive Opened (s : Session) (o : Opening) : Slot → Disk → Prop
  | embedded (engine : o.settings.engine = .embedded) {store : Store} {disk : Disk}
      (lent : s.disk.lend (.ofText o.settings.embedded.path) = .ok (store, disk)) :
      Opened s o ⟨.embedded
        (.create (keysOf o) store (o.sweepSeconds o.settings.embedded.sweepSeconds) s.now),
        o.bare, some (.ofText o.settings.embedded.path)⟩ disk
  | remote (engine : o.settings.engine = .remote) (mode : Mode) :
      Opened s o ⟨.remote ⟨keysOf o, some mode, .zero⟩, o.bare, none⟩ s.disk
  | memory (engine : o.settings.engine = .memory ∨ o.settings.engine = .unknown) :
      Opened s o ⟨.memory (.create (keysOf o)
        (o.sweepSeconds o.settings.memory.sweepSeconds) s.now),
        o.bare, none⟩ s.disk

theorem opened_of_openCache {o : Opening} {line : Line} {disk : Disk}
    (opened : (s.openCache o line).1 = .ok (slot, disk)) : s.Opened o slot disk := by
  unfold openCache at opened
  cases engine : o.settings.engine with
  | embedded =>
      simp only [engine] at opened
      cases lent : s.disk.lend (.ofText o.settings.embedded.path) with
      | error cause => simp [lent, Except.map] at opened
      | ok found =>
          simp only [lent, Except.map, Except.ok.injEq, Prod.mk.injEq] at opened
          obtain ⟨rfl, rfl⟩ := opened
          exact .embedded engine lent
  | remote =>
      simp only [engine, Remote.connect] at opened
      cases reached : (Handshake.run o.settings.remote s.server line).1 with
      | error cause => simp [reached, Except.map] at opened
      | ok mode =>
          simp only [reached, Except.map, Except.ok.injEq, Prod.mk.injEq] at opened
          obtain ⟨rfl, rfl⟩ := opened
          exact .remote engine mode
  | memory =>
      simp only [engine] at opened
      cases opened
      exact .memory (.inl engine)
  | unknown =>
      simp only [engine] at opened
      cases opened
      exact .memory (.inr engine)

/-! ## Sessions that are alike -/

/-- The same caches in the same slots, with the same surroundings. -/
structure Alike (s s' : Session) : Prop where
  now : s.now = s'.now
  disk : s.disk = s'.disk
  server : s.server = s'.server
  slots : ∀ name, s.find? name = s'.find? name

namespace Alike

theorem refl (s : Session) : s.Alike s := ⟨rfl, rfl, rfl, fun _ => rfl⟩

theorem trans {s'' : Session} (first : s.Alike s') (second : s'.Alike s'') : s.Alike s'' where
  now := first.now.trans second.now
  disk := first.disk.trans second.disk
  server := first.server.trans second.server
  slots name := (first.slots name).trans (second.slots name)

/-- To put back what is in a slot changes nothing. -/
theorem put_self (found : s.find? name = some slot) : (s.put name slot).Alike s where
  now := rfl
  disk := rfl
  server := rfl
  slots other := by
    rw [find?_put]
    split
    next same => rw [same, found]
    next => rfl

theorem put (alike : s.Alike s') (name : String) (slot : Slot) :
    (s.put name slot).Alike (s'.put name slot) where
  now := alike.now
  disk := alike.disk
  server := alike.server
  slots other := by rw [find?_put, find?_put, alike.slots]

theorem without (alike : s.Alike s') (name : String) :
    (s.without name).Alike (s'.without name) where
  now := alike.now
  disk := alike.disk
  server := alike.server
  slots other := by rw [find?_without, find?_without, alike.slots]

theorem giveBack (alike : s.Alike s') (slot : Slot) (store : Option Store) :
    (s.giveBack slot store).Alike (s'.giveBack slot store) := by
  unfold Session.giveBack
  split
  next => exact ⟨alike.now, by rw [alike.disk], alike.server, alike.slots⟩
  next => exact alike

theorem drop (alike : s.Alike s') (name : String) : (s.drop name).Alike (s'.drop name) := by
  cases found : s.find? name with
  | none => rwa [drop_of_missing found, drop_of_missing ((alike.slots name).symm.trans found)]
  | some slot =>
      rw [drop_of_found found, drop_of_found ((alike.slots name).symm.trans found)]
      exact (alike.without name).giveBack slot _

theorem advance (alike : s.Alike s') (nanos : Nat) :
    (s.advance nanos).Alike (s'.advance nanos) where
  now := by simp only [Session.advance, alike.now]
  disk := alike.disk
  server := alike.server
  slots other := by rw [find?_advance, find?_advance, alike.slots, alike.now]

theorem openCache (alike : s.Alike s') (o : Opening) (line : Line) :
    s.openCache o line = s'.openCache o line := by
  simp only [Session.openCache, alike.now, alike.disk, alike.server]

/-- To use the cache in a slot comes to the same, if what is done does. -/
theorem use (alike : s.Alike s') (name : String) {act act' : Slot → Reaction × Session}
    (same : ∀ slot, (act slot).1 = (act' slot).1 ∧ (act slot).2.Alike (act' slot).2) :
    (s.use name act).1 = (s'.use name act').1 ∧
      (s.use name act).2.Alike (s'.use name act').2 := by
  unfold Session.use
  rw [alike.slots name]
  split
  next slot _ => exact same slot
  next => exact ⟨rfl, alike⟩

theorem launch (alike : s.Alike s') (name : String) (o : Opening) (line : Line) :
    (s.step (.launch name o line)).1 = (s'.step (.launch name o line)).1 ∧
      (s.step (.launch name o line)).2.Alike (s'.step (.launch name o line)).2 := by
  simp only [step, Session.launch, ← alike.openCache o line]
  rcases s.openCache o line with ⟨cause | ⟨slot, disk⟩, line'⟩
  · exact ⟨rfl, alike⟩
  · have lent : Alike { s with disk := disk } { s' with disk := disk } :=
      ⟨alike.now, rfl, alike.server, alike.slots⟩
    exact ⟨rfl, (lent.drop name).put name slot⟩

/-- A step does the same in sessions that are alike. -/
theorem step (alike : s.Alike s') (t : Step) :
    (s.step t).1 = (s'.step t).1 ∧ (s.step t).2.Alike (s'.step t).2 := by
  cases t with
  | launch name o line => exact alike.launch name o line
  | request name q line =>
      refine alike.use name fun slot => ?_
      rw [Session.request, Session.request, alike.now]
      exact ⟨rfl, alike.put name _⟩
  | traverse name ns visitor line =>
      refine alike.use name fun slot => ?_
      rw [Session.iterate, Session.iterate, alike.now]
      exact ⟨rfl, alike.put name _⟩
  | cleanup name =>
      refine alike.use name fun slot => ?_
      simp only [Session.cleanup, alike.now]
      split
      next =>
        split
        next => exact ⟨rfl, alike.put name _⟩
        next => exact ⟨rfl, alike⟩
      next => exact ⟨rfl, alike⟩
  | sweep name =>
      refine alike.use name fun slot => ?_
      rw [alike.now]
      exact ⟨rfl, alike.put name _⟩
  | close name => exact alike.use name fun slot => ⟨rfl, (alike.put name _).giveBack slot _⟩
  | drop name => exact ⟨rfl, alike.drop name⟩
  | advance nanos => exact ⟨rfl, alike.advance nanos⟩

end Alike

end Session

end ExpiringCache
