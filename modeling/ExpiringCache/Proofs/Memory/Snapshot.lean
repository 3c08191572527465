import ExpiringCache.Proofs.Memory.Moves

/-!
# Snapshots of memory caches

A memory cache keeps its entries in the order in which their keys were created. To set a key
that is there keeps its place, be the entry expired or not, and to remove others moves
nothing, so that of all times when a key was created only the last one counts
(`Table.InOrder`). Every move keeps this, and so does every run (`orderly_run`).

A traversal shows the listing that it finds at the start, up to where its visitor stops. What
the visitor does in the meantime makes no difference to that, and nothing else is done to
the cache (`iterate_ordered_snapshot`).
-/

namespace ExpiringCache

/-! ## Order of creation -/

/-- The last occurrence of a member that is added at the end is that one. -/
theorem dedup_snoc {α : Type} [DecidableEq α] (l : List α) (a : α) :
    (l ++ [a]).dedup = (l.dedup.filter fun b => b ≠ a) ++ [a] := by
  induction l with
  | nil => simp
  | cons b rest ih =>
      by_cases later : b ∈ rest
      · rw [List.cons_append, List.dedup_cons_of_mem (List.mem_append_left _ later), ih,
          List.dedup_cons_of_mem later]
      · by_cases same : b = a
        · subst same
          rw [List.cons_append, List.dedup_cons_of_mem (by simp), ih,
            List.dedup_cons_of_notMem later]
          simp
        · rw [List.cons_append, List.dedup_cons_of_notMem (by simp [later, same]), ih,
            List.dedup_cons_of_notMem later]
          simp [same]

namespace Table

variable {t : Table} {created : List String}

/-- Whether there is an entry under a key, be it live or expired. -/
def holds (t : Table) (key : String) : Bool := (t.find? key).isSome

theorem holds_iff {key : String} : t.holds key = true ↔ key ∈ t.entries.map (·.1) := by
  rw [holds, ← Option.ne_none_iff_isSome, find?, Ne, Bindings.find?_eq_none, not_not]

/-- The keys of a table stand in the order in which they were created, each where it was
created last. -/
def InOrder (t : Table) (created : List String) : Prop :=
  t.entries.map (·.1) = created.dedup.filter t.holds

theorem inOrder_empty (created : List String) : empty.InOrder created :=
  (List.filter_eq_nil_iff.2 fun _ _ => Bool.false_ne_true).symm

/-- An entry that is replaced keeps its place. -/
theorem InOrder.replace (ordered : t.InOrder created) {key : String} (held : t.holds key = true)
    (e : Entry) : (t.insert key e).InOrder created := by
  have same : (t.insert key e).holds = t.holds := by
    funext k
    rw [holds, find?_insert]
    split
    next here => rw [← here, held]; rfl
    next => rfl
  show (insertEntry key e t.entries).map (·.1) = _
  rw [insertEntry_keys, if_pos (holds_iff.1 held), same, ordered]

/-- An entry under a new key goes last. -/
theorem InOrder.create (ordered : t.InOrder created) {key : String} (absent : t.holds key = false)
    (e : Entry) : (t.insert key e).InOrder (created ++ [key]) := by
  have new : key ∉ t.entries.map (·.1) := fun held => by
    rw [holds_iff.2 held] at absent
    cases absent
  have here : (t.insert key e).holds key = true := by
    rw [holds, find?_insert, if_pos rfl]
    rfl
  -- Older creations of the key do not count: it was not held in between.
  have elsewhere : ((created.dedup.filter fun k => k ≠ key).filter (t.insert key e).holds) =
      created.dedup.filter t.holds := by
    rw [List.filter_filter]
    apply List.filter_congr
    intro k _
    rw [holds, find?_insert]
    by_cases same : key = k
    · subst same
      simp [absent]
    · simp [same, Ne.symm same, holds]
  show (insertEntry key e t.entries).map (·.1) = _
  rw [insertEntry_keys, if_neg new, dedup_snoc, List.filter_append, elsewhere, ← ordered,
    List.filter_singleton, here]
  rfl

/-- To remove entries leaves the order of the others alone. -/
theorem InOrder.keep (ordered : t.InOrder created) (test : String → Entry → Bool) :
    (t.keep test).InOrder created := by
  have kept : (t.keep test).entries.map (·.1) =
      (t.entries.map (·.1)).filter (t.keep test).holds := by
    rw [List.filter_map]
    apply congrArg (List.map _)
    apply List.filter_congr
    rintro ⟨k, e⟩ member
    have found : t.find? k = some e := (Bindings.find?_eq_some t.nodup).2 member
    simp only [Function.comp_apply, holds, find?_keep, found]
    cases selected : test k e <;> simp [Option.filter, selected]
  show (t.keep test).entries.map (·.1) = _
  rw [kept, ordered, List.filter_filter]
  apply List.filter_congr
  intro k _
  rw [holds, find?_keep, holds]
  cases t.find? k <;> simp

end Table

namespace Memory

variable {m : Memory} {created : List String}

/-- The composite key that a move creates: that of a request to set which finds it neither
live nor expired. -/
def creates (m : Memory) : Move → List String
  | .serve (.set ns key _ _) =>
      if m.table.holds (m.keys.compose ns key) then [] else [m.keys.compose ns key]
  | _ => []

/-- The keys that a run creates, one after the other and as often as it does. -/
def creations : Memory × Instant → List Event → List String := breakdown.notes creates

theorem inOrder_act (now : Instant) (m : Memory) (created : List String) (move : Move)
    (ordered : m.table.InOrder created) :
    (m.act now move).table.InOrder (created ++ m.creates move) := by
  have unchanged : m.table.InOrder (created ++ []) := by
    rw [List.append_nil]
    exact ordered
  have kept (test : String → Entry → Bool) : (m.table.keep test).InOrder (created ++ []) :=
    unchanged.keep test
  rw [table_act]
  cases move with
  | serve q =>
      cases q with
      | set ns key value ttl =>
          simp only [creates, Table.moved]
          split
          next held =>
            rw [List.append_nil]
            exact ordered.replace held _
          next absent => exact ordered.create (Bool.eq_false_iff.2 absent) _
      | get | take | delete => exact kept _
      | contains => exact unchanged
  | reclaim => exact unchanged
  | cleanup => exact kept _
  | close => exact Table.inOrder_empty _

/-- A cache with the given keys whose table stands in the order of creation. -/
structure Orderly (keys : Keys) (m : Memory) (created : List String) : Prop where
  keys : m.keys = keys
  inOrder : m.table.InOrder created

theorem Orderly.act {keys : Keys} (orderly : Orderly keys m created) (now : Instant)
    (move : Move) : Orderly keys (m.act now move) (created ++ m.creates move) :=
  ⟨(m.keys_act now move).trans orderly.keys, inOrder_act now m created move orderly.inOrder⟩

/-- In every run of a new cache the table stays in the order in which keys are created. -/
theorem orderly_run (keys : Keys) (sweepSeconds : Nat) (start : Instant) (events : List Event) :
    let opened := (create keys sweepSeconds start, start)
    Orderly keys (trace service.step opened events).2.1 (creations opened events) := by
  intro opened
  have new : Orderly keys opened.1 [] := ⟨rfl, Table.inOrder_empty []⟩
  exact breakdown.noted_run (fun now m created move orderly => orderly.act now move) new events

/-! ## Snapshots -/

/-- What a traversal shows of a composite key, if anything. -/
def shown? (now : Instant) (m : Memory) (ns composite : String) : Option (String × Bytes) :=
  let root := (m.keys.root ns).toList
  (m.table.find? composite).bind fun e =>
    if Text.beginsWith root composite.toList && e.live now then
      some (String.ofList (composite.toList.drop root.length), e.value)
    else none

/-- A snapshot shows the keys in the order in which they were created. -/
theorem snapshot_eq (ordered : m.table.InOrder created) (now : Instant) (ns : String) :
    m.snapshot now ns = created.dedup.filterMap (m.shown? now ns) := by
  have unheld : (created.dedup.filter m.table.holds).filterMap (m.shown? now ns) =
      created.dedup.filterMap (m.shown? now ns) := by
    rw [List.filterMap_filter]
    apply List.filterMap_congr
    intro k _
    cases found : m.table.find? k <;> simp [Table.holds, shown?, found]
  rw [← unheld, ← ordered, List.filterMap_map, snapshot, ← List.filterMap_eq_map,
    List.filterMap_filter]
  apply List.filterMap_congr
  rintro ⟨k, e⟩ member
  have found : m.table.find? k = some e := (Bindings.find?_eq_some m.table.nodup).2 member
  simp [shown?, found]

/-- A traversal shows a listing up to where the visitor stops, and nothing happens to the
cache but what the visitor asks for. -/
theorem visit_eq (now : Instant) (visitor : Visitor) (count : Nat)
    (listing : List (String × Bytes)) (m : Memory) :
    visit now visitor count listing m =
      ({ seen := visitor.upTo count listing
         nested := (answerAll (request now) m (visitor.sends count listing)).1 },
        (answerAll (request now) m (visitor.sends count listing)).2) := by
  induction listing generalizing count m with
  | nil => rfl
  | cons row rest ih =>
      obtain ⟨key, value⟩ := row
      cases goesOn : visitor.goesOn (count + 1) key value with
      | true =>
          simp only [visit, goesOn, if_true, Visitor.upTo, Visitor.sends, answerAll_append, ih]
          rfl
      | false =>
          simp only [visit, goesOn, Bool.false_eq_true, if_false, Visitor.upTo, Visitor.sends,
            List.append_nil]
          simp [Traversal.after]

/-- Whatever has been done to a cache, a traversal shows the entries of the namespace that
are live when it starts, with the values that they have then, up to the one at which the
visitor asks to stop. They come in the order in which the keys were created, of which only
the last creation of each counts. Nothing happens to the cache but what the visitor asks for,
one request after the other. -/
theorem iterate_ordered_snapshot (keys : Keys) (sweepSeconds : Nat) (start : Instant)
    (events : List Event) (ns : String) (visitor : Visitor) :
    let opened := (create keys sweepSeconds start, start)
    let (m, now) := (trace service.step opened events).2
    let listing := (creations opened events).dedup.filterMap (m.shown? now ns)
    let (answers, after) := answerAll (request now) m (visitor.sends 0 listing)
    m.iterate now ns visitor = ({ seen := visitor.upTo 0 listing, nested := answers }, after) ∧
      ∀ key value, (key, value) ∈ listing ↔
        ∃ e, m.table.find? (keys.compose ns key) = some e ∧ e.live now = true ∧
          e.value = value := by
  intro opened
  obtain ⟨same, ordered⟩ := orderly_run keys sweepSeconds start events
  change (trace service.step opened events).2.1.keys = keys at same
  generalize (trace service.step opened events).2 = s at same ordered ⊢
  obtain ⟨m, now⟩ := s
  have listed := snapshot_eq ordered now ns
  dsimp only
  constructor
  · rw [iterate, listed, visit_eq]
  · intro key value
    show (key, value) ∈ (creations opened events).dedup.filterMap (m.shown? now ns) ↔ _
    rw [← listed, mem_snapshot, live_ledger, ← same, Option.bind_eq_some_iff]
    simp only [Entry.live]
    constructor
    · rintro ⟨e, found, shown⟩
      cases past : e.expired now <;> simp [past] at shown
      exact ⟨e, found, by simp [past], shown⟩
    · rintro ⟨e, found, live, rfl⟩
      exact ⟨e, found, by simpa using live⟩

/-- Set again while it is there, a key keeps its place. Set again after it was taken, it
comes last. -/
example :
    let set key := Event.request (.set "n" key [] none)
    let opened := (create .standard 0 ⟨0⟩, (⟨0⟩ : Instant))
    let events := [set "a", set "b", set "c", .request (.take "n" "b"), set "a", set "b"]
    let (m, now) := (trace service.step opened events).2
    creations opened events = ["n:a", "n:b", "n:c", "n:b"] ∧
      (m.iterate now "n" .observer).1.seen = [("a", []), ("c", []), ("b", [])] := by
  decide +kernel

end Memory

end ExpiringCache
