import ExpiringCache.Proofs.Embedded.Damage
import ExpiringCache.Proofs.Embedded.Isolation
import ExpiringCache.Proofs.Watching

/-!
# Traversals and single reads of embedded caches

A traversal reads the records of a namespace one after the other, up to the first one that
is too short (`visit_observer`). A single read finds the record under the composite key of
what it asks for, and that is a text (`get_value_iff`).

So what can be read is shown by every traversal that is not broken off. What is shown can be
read, and is shown once, exactly if the keys in the namespace are texts, those of expired
records aside (`reads_agree_iff_texts`). A key that is no text is shown under a name of its
own making (`shown_but_not_read`).
-/

namespace ExpiringCache

instance (raw : Bytes) : Decidable (Record.Whole raw) := inferInstanceAs (Decidable (_ ≤ _))

namespace Embedded

variable {e : Embedded} {store : Store} {keys : Keys} {ns key : String} {value : Bytes}
  {now : Instant} {visitor : Visitor}

/-! ## What a traversal shows -/

/-- An observer is shown the records in front of the first one that is too short, and is
told of that one. -/
theorem visit_observer (now : Instant) (ns : String) (count : Nat) (rows : List (Bytes × Bytes))
    (e : Embedded) :
    (visit now ns .observer count rows e).1 =
      { seen := (rows.takeWhile fun row => decide (Record.Whole row.2)).filterMap
          (listed? e.keys now.unixMillis ns)
        fault := (rows.find? fun row => !decide (Record.Whole row.2)).map
          fun row => Record.tooShort row.2 } := by
  induction rows generalizing count e with
  | nil => rfl
  | cons row rest ih =>
      obtain ⟨composite, raw⟩ := row
      by_cases whole : Record.Whole raw
      case neg =>
        have read : Record.decode raw = .error (Record.tooShort raw) :=
          Record.decode_of_short (Nat.not_le.1 whole)
        simp [visit, read, whole, Traversal.failed]
      case pos =>
        obtain ⟨r, read⟩ := Record.decode_of_whole whole
        have same : (e.reclaim composite raw).keys = e.keys :=
          e.keys_act now (.reclaim composite raw)
        cases past : r.expired now.unixMillis with
        | true => simp [visit, read, past, whole, ih, same, listed?]
        | false =>
            have quiet := Visitor.quiet_observer
            simp [visit, read, past, whole, ih, listed?, quiet (count + 1), answerAll,
              Visitor.tireless_observer (count + 1), Traversal.after]

/-- Whoever sees everything without a fault is shown the listing of the namespace, of which
all records are whole. -/
theorem iterate_of_finished (opened : e.store = some store) (quiet : visitor.Quiet)
    (tireless : visitor.Tireless) (finished : (e.iterate now ns visitor).1.fault = none) :
    (e.iterate now ns visitor).1.seen = listing e.keys now.unixMillis ns store ∧
      ∀ row ∈ store.within (Text.encode (e.keys.root ns)), Record.Whole row.2 := by
  rw [(e.cuts_iterate quiet now ns).eq_of_tireless tireless] at finished ⊢
  simp only [iterate, opened, visit_observer, Option.map_eq_none_iff, List.find?_eq_none,
    Bool.not_eq_true', decide_eq_false_iff_not, not_not] at finished ⊢
  refine ⟨?_, finished⟩
  rw [List.takeWhile_eq_self_iff.2 fun row member => decide_eq_true (finished row member), listing]

/-! ## What a read finds -/

/-- A read finds what a traversal shows of the record under the composite key. -/
theorem get_value_iff (opened : e.store = some store) :
    (e.request now (.get ns key)).1 = .value (some value) ↔
      ∃ row ∈ store.within (Text.encode (e.keys.root ns)),
        row.1 = Text.encode (e.keys.compose ns key) ∧
          listed? e.keys now.unixMillis ns row = some (key, value) := by
  simp only [request, opened, get_answer, look_eq, rawKey]
  constructor
  · intro told
    cases found : store.find? (Text.encode (e.keys.compose ns key)) with
    | none => simp [found, inspect] at told
    | some raw =>
        refine ⟨(_, raw), Store.mem_within_compose.2 found, rfl, listed?_eq_some_iff.2 ?_⟩
        cases read : Record.decode raw with
        | error cause => simp [found, inspect, Option.filter, hasExpired, read, Except.map] at told
        | ok r =>
            cases past : r.expired now.unixMillis with
            | true => simp [found, inspect, Option.filter, hasExpired, read, past] at told
            | false =>
                have shown : r.value = value := by
                  simpa [found, inspect, Option.filter, hasExpired, read, past, Except.map]
                    using told
                exact ⟨r, rfl, past, by simp, shown⟩
  · rintro ⟨⟨_, raw⟩, member, rfl, listed⟩
    obtain ⟨r, read, past, -, rfl⟩ := listed?_eq_some_iff.1 listed
    dsimp only at read
    rw [Store.mem_within_compose.1 member]
    simp [inspect, Option.filter, hasExpired, read, past, Except.map]

/-- A read answers after a traversal what it answers before. -/
theorem get_after_iterate (quiet : visitor.Quiet) (e : Embedded) (now : Instant)
    (ns key : String) :
    ((e.iterate now ns visitor).2.request now (.get ns key)).1 =
      (e.request now (.get ns key)).1 := by
  have same : (e.iterate now ns visitor).2.keys = e.keys := e.keys_step now (.traverse ns visitor)
  have alike : (e.iterate now ns visitor).2.view (e.keys.root ns) now =
      e.view (e.keys.root ns) now := view_traverse quiet
  apply answer_congr same
  rw [same]
  exact alike

/-! ## Both together -/

/-- Whether the keys in a namespace are texts, those of expired records aside. -/
def Legible (root : String) (now : UInt64) (store : Store) : Prop :=
  ∀ row ∈ store.within (Text.encode root), hasExpired now row.2 = false →
    ∃ composite, row.1 = Text.encode composite

theorem fresh_of_listed {at_ : UInt64} {row : Bytes × Bytes} {shown : String × Bytes}
    (listed : listed? keys at_ ns row = some shown) : hasExpired at_ row.2 = false := by
  obtain ⟨r, read, past, -⟩ := listed?_eq_some_iff.1 listed
  rw [hasExpired_iff read, past]

/-- A legible record that is shown stands under the composite key of what is shown. -/
theorem Legible.key_of_listed {at_ : UInt64} (legible : Legible (keys.root ns) at_ store)
    {row : Bytes × Bytes} (member : row ∈ store.within (Text.encode (keys.root ns)))
    (listed : listed? keys at_ ns row = some (key, value)) :
    row.1 = Text.encode (keys.compose ns key) := by
  obtain ⟨composite, spelt⟩ := legible row member (fresh_of_listed listed)
  exact Embedded.key_of_listed member spelt listed

/-- Legible records are shown under keys of their own. -/
theorem Legible.nodup_listing {at_ : UInt64} (legible : Legible (keys.root ns) at_ store) :
    ((listing keys at_ ns store).map (·.1)).Nodup := by
  rw [List.Nodup, List.pairwise_map, listing, List.pairwise_filterMap]
  apply (store.sorted.filter _).imp_of_mem
  rintro a b first second below ⟨key, value⟩ shown ⟨key', value'⟩ shown' same
  obtain rfl : key = key' := same
  rw [legible.key_of_listed first shown, legible.key_of_listed second shown'] at below
  exact List.lt_irrefl _ below

/-- If whatever is shown can be read, and is shown once, a record whose key is no text would
take the place of the one that is read. -/
theorem legible_of_agreement (opened : e.store = some store)
    (whole : ∀ row ∈ store.within (Text.encode (e.keys.root ns)), Record.Whole row.2)
    (readable : ∀ row ∈ listing e.keys now.unixMillis ns store,
      (e.request now (.get ns row.1)).1 = .value (some row.2))
    (once : ((listing e.keys now.unixMillis ns store).map (·.1)).Nodup) :
    Legible (e.keys.root ns) now.unixMillis store := by
  intro row member fresh
  obtain ⟨r, read⟩ := Record.decode_of_whole (whole row member)
  rw [hasExpired_iff read] at fresh
  obtain ⟨entry, listed⟩ : ∃ entry, listed? e.keys now.unixMillis ns row = some entry :=
    ⟨(_, _), listed?_eq_some_iff.2 ⟨r, read, fresh, rfl, rfl⟩⟩
  obtain ⟨other, member', spelt, listed'⟩ :=
    (get_value_iff opened).1 (readable _ (List.mem_filterMap.2 ⟨row, member, listed⟩))
  by_cases same : row = other
  · exact ⟨_, same ▸ spelt⟩
  · -- Both records would be shown under one key.
    rw [List.Nodup, List.pairwise_map, listing, List.pairwise_filterMap] at once
    have symmetric : Std.Symm fun a b =>
        ∀ shown, listed? e.keys now.unixMillis ns a = some shown →
          ∀ shown', listed? e.keys now.unixMillis ns b = some shown' → shown.1 ≠ shown'.1 := by
      constructor
      intro a b differ shown listed shown' listed'
      exact (differ shown' listed' shown listed).symm
    exact absurd rfl (once.forall member member' same _ listed _ listed')

/-- Take a traversal that shows all there is and ends without a fault. Whatever can be read
has been shown. What has been shown can be read, and has been shown once, exactly if the
keys in the namespace are texts. The traversal makes no difference to what can be read. -/
theorem reads_agree_iff_texts (opened : e.store = some store) (quiet : visitor.Quiet)
    (tireless : visitor.Tireless) (finished : (e.iterate now ns visitor).1.fault = none) :
    let seen := (e.iterate now ns visitor).1.seen
    let told key := (e.request now (.get ns key)).1
    (∀ key value, told key = .value (some value) → (key, value) ∈ seen) ∧
    (((∀ row ∈ seen, told row.1 = .value (some row.2)) ∧ (seen.map (·.1)).Nodup) ↔
      Legible (e.keys.root ns) now.unixMillis store) ∧
    ∀ key, ((e.iterate now ns visitor).2.request now (.get ns key)).1 = told key := by
  intro seen told
  obtain ⟨shown, whole⟩ := iterate_of_finished opened quiet tireless finished
  have same : seen = listing e.keys now.unixMillis ns store := shown
  refine ⟨?complete, ⟨?legible, ?agreement⟩, fun key => get_after_iterate quiet e now ns key⟩
  case complete =>
    intro key value read
    obtain ⟨row, member, -, listed⟩ := (get_value_iff opened).1 read
    rw [same]
    exact List.mem_filterMap.2 ⟨row, member, listed⟩
  case legible =>
    rintro ⟨readable, once⟩
    rw [same] at readable once
    exact legible_of_agreement opened whole readable once
  case agreement =>
    intro legible
    rw [same]
    refine ⟨?_, legible.nodup_listing⟩
    rintro ⟨key, value⟩ member
    obtain ⟨row, inside, listed⟩ := List.mem_filterMap.1 member
    exact (get_value_iff opened).2 ⟨row, inside, legible.key_of_listed inside listed, listed⟩

/-- Beside two legible records there is one that has expired, whose key is no text, and a
short one in another namespace. -/
theorem reads_agree_iff_texts_of_legible :
    let store := [("n:a", ⟨0, [1]⟩), ("n:ü", ⟨9, [2]⟩)].foldl
      (fun store (row : String × Record) => store.insert (Text.encode row.1) row.2.encode)
      ((Store.empty.insert [0x6e, 0x3a, 0xff] (Record.mk 5 [3]).encode).insert [0x6d, 0x3a] [])
    let e := create .standard store 0 ⟨0⟩
    let now : Instant := ⟨5000000⟩
    e.store = some store ∧ Visitor.observer.Quiet ∧ Visitor.observer.Tireless ∧
      (e.iterate now "n" .observer).1 = { seen := [("a", [1]), ("ü", [2])] } ∧
      ∀ key value, (e.request now (.get "n" key)).1 = .value (some value) →
        (key, value) ∈ [("a", [1]), ("ü", [2])] := by
  intro store e now
  have shown : (e.iterate now "n" .observer).1 = { seen := [("a", [1]), ("ü", [2])] } := by
    decide +kernel
  have finished : (e.iterate now "n" .observer).1.fault = none := by rw [shown]
  have opened : e.store = some store := rfl
  obtain ⟨complete, -⟩ := reads_agree_iff_texts opened Visitor.quiet_observer
    Visitor.tireless_observer finished
  rw [shown] at complete
  exact ⟨opened, Visitor.quiet_observer, Visitor.tireless_observer, shown, complete⟩

/-- Two keys that are no texts are shown as one, under which nothing can be read. -/
theorem shown_but_not_read :
    let store := (Store.empty.insert [0x6e, 0x3a, 0xfe] (Record.mk 0 [1]).encode).insert
      [0x6e, 0x3a, 0xff] (Record.mk 0 [2]).encode
    let e := create .standard store 0 ⟨0⟩
    (e.iterate ⟨0⟩ "n" .observer).1 = { seen := [("\uFFFD", [1]), ("\uFFFD", [2])] } ∧
      (e.request ⟨0⟩ (.get "n" "\uFFFD")).1 = .value none := by
  decide +kernel

end Embedded

end ExpiringCache
