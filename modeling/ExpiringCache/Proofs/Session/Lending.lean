import ExpiringCache.Proofs.Embedded.Loan
import ExpiringCache.Proofs.Session.Run

/-!
# What the slots of a session have borrowed

In a session that began without caches, every open durable store is out of its directory,
and no two slots have the same one (`Session.Lends`). So a store that lies in its
directory is nobody's, and it stays there as it is until it is lent again
(`Lends.shelved_step`).
-/

namespace ExpiringCache

/-! ## Stores in their directories -/

namespace Disk

variable {d : Disk} {p q : Path}

theorem find?_put (d : Disk) (p q : Path) (store : Option Store) :
    (d.put p store).find? q = if q = p then some store else d.find? q :=
  Bindings.find?_put p q store d.stores

theorem mem_of_find? {store : Option Store} (known : d.find? p = some store) :
    (p, store) ∈ d.stores := Bindings.mem_of_find? known

theorem collide_comm : Collide p q ↔ Collide q p := or_comm

/-- A store that is in nobody's way takes no place from another one. -/
theorem Usable.put_apart (usable : d.Usable p) (apart : ¬ Collide q p) (store : Option Store) :
    (d.put q store).Usable p := by
  refine ⟨usable.nameable, ?_⟩
  rw [Bool.eq_false_iff, Ne, blocked_iff]
  have clear := usable.clear
  rw [Bool.eq_false_iff, Ne, blocked_iff, not_or] at clear
  rintro (file | ⟨r, stored, hit⟩)
  · exact clear.1 file
  · rcases List.mem_cons.1 stored with rfl | other
    · exact apart hit
    · exact clear.2 ⟨r, List.mem_of_mem_filter other, hit⟩

/-- A store whose directory is known is in nobody's way. -/
theorem Usable.put_known (usable : d.Usable p) {known : Option Store}
    (there : d.find? q = some known) (store : Option Store) : (d.put q store).Usable p := by
  refine usable.put_apart (fun hit => ?_) store
  have blocked : d.blocked p = true := blocked_iff.2 (.inr ⟨_, mem_of_find? there, hit⟩)
  rw [usable.clear] at blocked
  cases blocked

/-- What can be lent is in no known directory's way. -/
theorem Usable.put_usable (usable : d.Usable p) {known : Option Store}
    (there : d.find? p = some known) (fresh : d.Usable q) (store : Option Store) :
    (d.put q store).Usable p := by
  refine usable.put_apart (fun hit => ?_) store
  have blocked : d.blocked q = true :=
    blocked_iff.2 (.inr ⟨_, mem_of_find? there, collide_comm.1 hit⟩)
  rw [fresh.clear] at blocked
  cases blocked

/-- The store of a directory is out. -/
structure Lent (d : Disk) (p : Path) : Prop where
  out : d.find? p = some none
  usable : d.Usable p

/-- The store of a directory lies there. -/
structure Shelved (d : Disk) (p : Path) (store : Store) : Prop where
  there : d.find? p = some (some store)
  usable : d.Usable p

theorem Lent.ne {store : Store} (lent : d.Lent p) (shelved : d.Shelved q store) : p ≠ q := by
  rintro rfl
  exact absurd (lent.out.symm.trans shelved.there) (by simp)

theorem lend_eq_ok {store : Store} {d' : Disk} (lent : d.lend p = .ok (store, d')) :
    d' = d.put p none ∧ d.Usable p ∧ d.find? p ≠ some none := by
  rw [lend, store?] at lent
  split at lent
  next => cases lent
  next free =>
    simp only [Bool.or_eq_true, Bool.not_eq_true', not_or, Bool.not_eq_true,
      Bool.not_eq_false] at free
    refine ⟨?_, ⟨free.1, free.2⟩, fun out => by simp [out, Except.map] at lent⟩
    split at lent
    next => simp only [Except.map, Except.ok.injEq, Prod.mk.injEq] at lent; exact lent.2.symm
    next => simp only [Except.map, Except.ok.injEq, Prod.mk.injEq] at lent; exact lent.2.symm
    next => simp [Except.map] at lent

theorem Shelved.lend {store : Store} (shelved : d.Shelved p store) :
    d.lend p = .ok (store, d.put p none) := by
  simp [Disk.lend, store?, shelved.usable.nameable, shelved.usable.clear, shelved.there, Except.map]

end Disk

/-! ## Caches with a store -/

namespace Embedded

theorem isSome_act (now : Instant) (e : Embedded) {move : Move} (open_ : move ≠ .close) :
    (e.act now move).store.isSome = e.store.isSome := by
  cases opened : e.store with
  | none => rw [act_of_closed opened now open_, opened]
  | some store => rw [store_act opened now open_]; rfl

/-- Only a close takes the store from a cache. -/
theorem isSome_step (s : Embedded × Instant) (event : Event) (open_ : event ≠ .close) :
    (service.step s event).2.1.store.isSome = s.1.store.isSome := by
  refine breakdown.keeps (fun e => e.store.isSome = s.1.store.isSome) rfl ?_
  intro e same move made
  exact (e.isSome_act _ (open_moves s open_ made)).trans same

end Embedded

namespace Cache

/-- The durable store that a cache has. -/
def store? : Cache → Option Store
  | embedded e => e.store
  | memory _ | remote _ => none

theorem close_fst (c : Cache) : c.close.1 = c.store? := by
  cases c <;> rfl

theorem store?_close (c : Cache) : c.close.2.store? = none := by
  cases c <;> rfl

theorem isSome_request (now : Instant) (c : Cache) (line : Line) (q : Request) :
    (request now (c, line) q).2.1.store?.isSome = c.store?.isSome := by
  cases c with
  | memory | remote => rfl
  | embedded e => exact Embedded.isSome_step (e, now) (.request q) nofun

theorem isSome_iterate (now : Instant) (c : Cache) (line : Line) (ns : String)
    (visitor : Visitor) :
    (iterate now (c, line) ns visitor).2.1.store?.isSome = c.store?.isSome := by
  cases c with
  | memory | remote => rfl
  | embedded e => exact Embedded.isSome_step (e, now) (.traverse ns visitor) nofun

theorem isSome_cleanup {now : Instant} {c c' : Cache} {count : Nat}
    (cleaned : c.cleanup? now = some (count, c')) : c'.store?.isSome = c.store?.isSome := by
  cases c with
  | memory | remote => cases cleaned <;> rfl
  | embedded e =>
      cases cleaned
      exact Embedded.isSome_step (e, now) .cleanup nofun

theorem isSome_sweep (now : Instant) (c : Cache) :
    (c.sweep now).store?.isSome = c.store?.isSome := by
  cases c with
  | memory | remote => rfl
  | embedded e => exact Embedded.isSome_step (e, now) .sweep nofun

theorem isSome_pass (now : Instant) (nanos : Nat) (c : Cache) :
    (c.pass now ⟨now.nanos + nanos⟩).store?.isSome = c.store?.isSome := by
  cases c with
  | memory | remote => rfl
  | embedded e => exact Embedded.isSome_step (e, now) (.advance nanos) nofun

end Cache

/-! ## Sessions -/

/-- Whether it takes the store of a directory to open a cache. -/
def Opening.Opens (o : Opening) (path : Path) : Prop :=
  o.settings.engine = .embedded ∧ Path.ofText o.settings.embedded.path = path

namespace Session

variable {s s' : Session} {name : String} {slot : Slot}

/-- Whether a step opens a cache on a directory. -/
def Step.Opens : Step → Path → Prop
  | launch _ o _, path => o.Opens path
  | _, _ => False

/-- Slots whose open caches have been there before. -/
structure Within (s' s : Session) : Prop where
  disk : s'.disk = s.disk
  slots : ∀ name slot', s'.find? name = some slot' → slot'.cache.store?.isSome = true →
    ∃ slot, s.find? name = some slot ∧ slot.cache.store?.isSome = true ∧ slot.path = slot'.path

namespace Within

theorem refl (s : Session) : s.Within s :=
  ⟨rfl, fun _ slot found opened => ⟨slot, found, opened, rfl⟩⟩

theorem put (found : s.find? name = some slot) {cache : Cache}
    (kept : cache.store?.isSome = true → slot.cache.store?.isSome = true) :
    (s.put name { slot with cache := cache }).Within s where
  disk := rfl
  slots other slot' there opened := by
    rw [find?_put] at there
    split at there
    next same =>
      cases there
      exact ⟨slot, same ▸ found, kept opened, rfl⟩
    next => exact ⟨slot', there, opened, rfl⟩

theorem without (s : Session) (name : String) : (s.without name).Within s where
  disk := rfl
  slots other slot' there opened := by
    rw [find?_without] at there
    split at there
    next => cases there
    next => exact ⟨slot', there, opened, rfl⟩

theorem advance (s : Session) (nanos : Nat) : (s.advance nanos).Within s where
  disk := rfl
  slots other slot' there opened := by
    rw [find?_advance] at there
    obtain ⟨slot, found, rfl⟩ := Option.map_eq_some_iff.1 there
    exact ⟨slot, found, (Cache.isSome_pass s.now nanos slot.cache).symm.trans opened, rfl⟩

end Within

/-! ## Borrowed stores -/

/-- The open stores are out of their directories, each with one slot. -/
structure Lends (s : Session) : Prop where
  lent : ∀ name slot, s.find? name = some slot → slot.cache.store?.isSome = true →
    ∃ path, slot.path = some path ∧ s.disk.Lent path
  apart : ∀ name name' slot slot', s.find? name = some slot → s.find? name' = some slot' →
    slot.cache.store?.isSome = true → slot'.cache.store?.isSome = true →
    slot.path = slot'.path → name = name'

/-- What has been done took no store out of its directory, or changed it there, unless
the directory was opened. -/
structure Spares (s s' : Session) (opened : Path → Prop) : Prop where
  lends : s'.Lends
  shelved : ∀ path store, ¬ opened path → s.disk.Shelved path store → s'.disk.Shelved path store

namespace Lends

variable {opened : Path → Prop}

/-- A session without caches has lent nothing. -/
theorem of_empty (empty : s.slots = []) : s.Lends := by
  have nowhere (name : String) (slot : Slot) : s.find? name ≠ some slot := by
    simp [find?, empty, Bindings.find?]
  exact ⟨fun name slot found => absurd found (nowhere name slot),
    fun name _ slot _ found => absurd found (nowhere name slot)⟩

theorem mono (lends : s.Lends) (less : s'.Within s) : s'.Lends where
  lent name slot' there opened := by
    obtain ⟨slot, found, before, path⟩ := less.slots name slot' there opened
    rw [← path, less.disk]
    exact lends.lent name slot found before
  apart name name' slot slot' there there' opened opened' same := by
    obtain ⟨_, found, before, path⟩ := less.slots name slot there opened
    obtain ⟨_, found', before', path'⟩ := less.slots name' slot' there' opened'
    exact lends.apart name name' _ _ found found' before before'
      (path.trans (same.trans path'.symm))

theorem within (lends : s.Lends) (less : s'.Within s) : s.Spares s' opened :=
  ⟨lends.mono less, fun _ _ _ shelved => less.disk ▸ shelved⟩

/-- A store that is given back goes to a directory that no other slot has borrowed from. -/
theorem giveBack (lends : s.Lends) (found : s.find? name = some slot) (less : s'.Within s)
    (gone : ∀ slot', s'.find? name = some slot' → slot'.cache.store? = none) :
    s.Spares (s'.giveBack slot slot.cache.close.1) opened ∧
      ∀ path, s.disk.Lent path → (slot.cache.store?.isSome = true → slot.path ≠ some path) →
        (s'.giveBack slot slot.cache.close.1).disk.Lent path := by
  rw [Cache.close_fst]
  cases had : slot.cache.store? with
  | none =>
      have same : s'.giveBack slot none = s' := by
        cases path : slot.path <;> simp only [Session.giveBack, path]
      rw [same]
      exact ⟨lends.within less, fun _ lent _ => less.disk ▸ lent⟩
  | some store =>
      obtain ⟨home, path, out⟩ := lends.lent name slot found (by rw [had]; rfl)
      have back : s'.giveBack slot (some store) =
          { s' with disk := s.disk.put home (some store) } := by
        simp only [Session.giveBack, path, less.disk]
      have elsewhere (other : Path) (differs : other ≠ home) :
          (s.disk.put home (some store)).find? other = s.disk.find? other := by
        rw [Disk.find?_put, if_neg differs]
      have keeps (other : Path) (lent : s.disk.Lent other) (differs : other ≠ home) :
          (s.disk.put home (some store)).Lent other :=
        ⟨(elsewhere other differs).trans lent.out, lent.usable.put_known out.out _⟩
      rw [back]
      refine ⟨⟨⟨?_, (lends.mono less).apart⟩, ?_⟩, ?_⟩
      · intro other slot' there still
        -- The slot that gave its store back is none of those that still have one.
        obtain ⟨slot₀, found₀, before, samePath⟩ := less.slots other slot' there still
        obtain ⟨path', spelt, lent⟩ := lends.lent other slot₀ found₀ before
        refine ⟨path', samePath ▸ spelt, keeps path' lent ?_⟩
        rintro rfl
        have same : other = name :=
          lends.apart other name slot₀ slot found₀ found before (by rw [had]; rfl)
            (spelt.trans path.symm)
        rw [gone slot' (same ▸ there)] at still
        cases still
      · intro other kept _ shelved
        have differs : other ≠ home := fun same => out.ne shelved same.symm
        exact ⟨(elsewhere other differs).trans shelved.there, shelved.usable.put_known out.out _⟩
      · intro other lent differs
        exact keeps other lent fun same => differs rfl (same ▸ path)

theorem drop (lends : s.Lends) (name : String) (opened : Path → Prop) :
    s.Spares (s.drop name) opened ∧
      ∀ path, s.disk.Lent path → (∀ slot, s.find? name = some slot →
        slot.cache.store?.isSome = true → slot.path ≠ some path) →
        (s.drop name).disk.Lent path := by
  cases found : s.find? name with
  | none =>
      rw [drop_of_missing found]
      exact ⟨lends.within (.refl s), fun _ lent _ => lent⟩
  | some slot =>
      rw [drop_of_found found]
      obtain ⟨after, lent⟩ := lends.giveBack found (.without s name) fun slot' there => by
        rw [find?_without, if_pos rfl] at there
        cases there
      exact ⟨after, fun path out other => lent path out (other slot rfl)⟩

theorem close (lends : s.Lends) (found : s.find? name = some slot) :
    s.Spares (s.close name slot) opened := by
  have taken : slot.cache.close.2.store? = none := slot.cache.store?_close
  have less : (s.put name { slot with cache := slot.cache.close.2 }).Within s := by
    refine .put found fun still => ?_
    simp [taken] at still
  refine (lends.giveBack found less fun slot' there => ?_).1
  rw [find?_put, if_pos rfl] at there
  cases there
  exact taken

/-! ## Opening -/

theorem put_bare (lends : s.Lends) (name : String) (bare : slot.cache.store? = none) :
    (s.put name slot).Lends := by
  refine lends.mono ⟨rfl, fun other slot' there opened => ?_⟩
  rw [find?_put] at there
  split at there
  next =>
    cases there
    simp [bare] at opened
  next => exact ⟨slot', there, opened, rfl⟩

/-- A cache whose store is out, and in no other slot. -/
theorem put_lent (lends : s.Lends) (name : String) {path : Path} (spelt : slot.path = some path)
    (lent : s.disk.Lent path)
    (others : ∀ other slot', s.find? other = some slot' → slot'.cache.store?.isSome = true →
      slot'.path ≠ some path) : (s.put name slot).Lends where
  lent other slot' there opened := by
    rw [find?_put] at there
    split at there
    next =>
      cases there
      exact ⟨path, spelt, lent⟩
    next => exact lends.lent other slot' there opened
  apart other other' slot₁ slot₂ there there' opened opened' same := by
    rw [find?_put] at there there'
    split at there <;> split at there'
    next here here' => exact here.trans here'.symm
    next =>
      cases there
      exact absurd (same.symm.trans spelt) (others other' slot₂ there' opened')
    next =>
      cases there'
      exact absurd (same.trans spelt) (others other slot₁ there opened)
    next => exact lends.apart other other' slot₁ slot₂ there there' opened opened' same

/-- A store that is lent has been in nobody's slot. -/
theorem lend (lends : s.Lends) {path : Path} {store : Store} {disk : Disk}
    (lent : s.disk.lend path = .ok (store, disk)) :
    s.Spares { s with disk := disk } (· = path) ∧ disk.Lent path ∧
      ∀ other slot', s.find? other = some slot' → slot'.cache.store?.isSome = true →
        slot'.path ≠ some path := by
  obtain ⟨rfl, usable, inside⟩ := Disk.lend_eq_ok lent
  have elsewhere (other : Path) (differs : other ≠ path) :
      (s.disk.put path none).find? other = s.disk.find? other := by
    rw [Disk.find?_put, if_neg differs]
  refine ⟨⟨⟨?_, lends.apart⟩, ?_⟩, ⟨?_, usable.put none⟩, ?_⟩
  · intro name slot found opened
    obtain ⟨home, spelt, out⟩ := lends.lent name slot found opened
    have differs : home ≠ path := fun same => inside (same ▸ out.out)
    exact ⟨home, spelt, (elsewhere home differs).trans out.out,
      out.usable.put_usable out.out usable none⟩
  · intro other kept differs shelved
    exact ⟨(elsewhere other differs).trans shelved.there,
      shelved.usable.put_usable shelved.there usable none⟩
  · rw [Disk.find?_put, if_pos rfl]
  · intro other slot' found opened spelt
    obtain ⟨home, spelt', out⟩ := lends.lent other slot' found opened
    obtain rfl := Option.some.inj (spelt'.symm.trans spelt)
    exact inside out.out

theorem launch (lends : s.Lends) (name : String) {o : Opening} {line : Line} {disk : Disk}
    (opened : (s.openCache o line).1 = .ok (slot, disk)) :
    s.Spares (({ s with disk := disk }.drop name).put name slot) o.Opens := by
  have bare {cache : Cache} (none_ : cache.store? = none) :
      s.Spares ((s.drop name).put name ⟨cache, o.bare, none⟩) o.Opens := by
    have dropped := (lends.drop name o.Opens).1
    exact ⟨dropped.lends.put_bare name none_, dropped.shelved⟩
  cases opened_of_openCache opened with
  | embedded engine lent =>
      obtain ⟨after, out, others⟩ := lends.lend lent
      obtain ⟨dropped, kept⟩ := after.lends.drop name o.Opens
      refine ⟨dropped.lends.put_lent name rfl (kept _ out (others name)) ?_, ?_⟩
      · intro other slot' there opened
        rw [find?_drop] at there
        split at there
        next => cases there
        next => exact others other slot' there opened
      · intro path store elsewhere before
        have differs : path ≠ .ofText o.settings.embedded.path :=
          fun same => elsewhere ⟨engine, same.symm⟩
        exact dropped.shelved path store elsewhere (after.shelved path store differs before)
  | remote | memory => exact bare rfl

/-! ## Steps -/

theorem use (lends : s.Lends) (name : String) {act : Slot → Reaction × Session}
    (acts : ∀ slot, s.find? name = some slot → s.Spares (act slot).2 opened) :
    s.Spares (s.use name act).2 opened := by
  unfold Session.use
  split
  next slot found => exact acts slot found
  next => exact lends.within (.refl s)

/-- A store that lies in its directory stays there, unless a step opens a cache on it. -/
theorem step (lends : s.Lends) (t : Step) : s.Spares (s.step t).2 t.Opens := by
  cases t with
  | launch name o line =>
      simp only [Session.step, Session.launch]
      cases opened : s.openCache o line with
      | mk result line' =>
          cases result with
          | error cause => exact lends.within (.refl s)
          | ok found => exact lends.launch name (by rw [opened])
  | request name q line =>
      refine lends.use name fun slot found => lends.within (.put found fun still => ?_)
      exact (Cache.isSome_request s.now slot.cache line q).symm.trans still
  | traverse name ns visitor line =>
      refine lends.use name fun slot found => lends.within (.put found fun still => ?_)
      exact (Cache.isSome_iterate s.now slot.cache line ns visitor).symm.trans still
  | cleanup name =>
      refine lends.use name fun slot found => ?_
      simp only [Session.cleanup]
      split
      next =>
        split
        next cleaned =>
          exact lends.within
            (.put found fun still => (Cache.isSome_cleanup cleaned).symm.trans still)
        next => exact lends.within (.refl s)
      next => exact lends.within (.refl s)
  | sweep name =>
      refine lends.use name fun slot found => lends.within (.put found fun still => ?_)
      exact (slot.cache.isSome_sweep s.now).symm.trans still
  | close name => exact lends.use name fun slot found => lends.close found
  | drop name => exact (lends.drop name _).1
  | advance nanos => exact lends.within (.advance s nanos)

/-- So it is over a whole run. -/
theorem trace (lends : s.Lends) (steps : List Step) :
    s.Spares (trace Session.step s steps).2 fun path => ∃ t ∈ steps, t.Opens path := by
  induction steps generalizing s with
  | nil => exact lends.within (.refl s)
  | cons t rest ih =>
      have first := lends.step t
      have later := ih first.lends
      refine ⟨later.lends, fun path store unopened shelved => ?_⟩
      refine later.shelved path store ?_ (first.shelved path store ?_ shelved)
      · rintro ⟨u, member, opens⟩
        exact unopened ⟨u, .tail _ member, opens⟩
      · exact fun opens => unopened ⟨t, List.mem_cons_self, opens⟩

end Lends

end Session

end ExpiringCache
