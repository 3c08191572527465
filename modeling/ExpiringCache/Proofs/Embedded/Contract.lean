import ExpiringCache.Embedded
import ExpiringCache.Proofs.Ledger
import ExpiringCache.Proofs.Text.Utf8

/-!
# Embedded caches keep the contract

An open cache over a store of texts and whole records holds a ledger: that of
its records. Readers, traversals and sweeps take expired records out of the store
for good, which makes no difference to the ledger from then on.
-/

namespace ExpiringCache

/-! ## Records -/

/-- A record, as it stands on a ledger. The deadline zero means never. -/
def Record.term (r : Record) : Term :=
  ⟨r.value, if r.deadline = 0 then none else some r.deadline.toNat⟩

theorem Record.live_term (r : Record) (now : UInt64) :
    r.term.live now.toNat = if r.expired now then none else some r.value := by
  unfold term Term.live expired
  by_cases never : r.deadline = 0
  · simp [never]
  · by_cases past : r.deadline ≤ now
    · have := UInt64.le_iff_toNat_le.1 past
      simp [never, past, Nat.not_lt.2 this]
    · have := UInt64.lt_iff_toNat_lt.1 (UInt64.not_le.1 past)
      simp [never, past, this]

theorem Record.term_of_pos {deadline : Nat} (pos : 0 < deadline) (fits : deadline < UInt64.size)
    (value : Bytes) : (Record.mk (.ofNat deadline) value).term = ⟨value, some deadline⟩ := by
  have exact : (UInt64.ofNat deadline).toNat = deadline := UInt64.toNat_ofNat_of_lt' fits
  have never : UInt64.ofNat deadline ≠ 0 := by
    intro zero
    rw [zero, UInt64.toNat_zero] at exact
    omega
  simp [term, never, exact]

/-- A byte string that is long enough to be a record. -/
def Record.Whole (raw : Bytes) : Prop := Record.headerSize ≤ raw.length

theorem Record.decode_of_whole {raw : Bytes} (whole : Whole raw) : ∃ r, decode raw = .ok r := by
  unfold decode
  rw [if_neg (Nat.not_lt.2 whole)]
  exact ⟨_, rfl⟩

theorem Record.whole_encode (r : Record) : Whole r.encode := by
  simp [Whole, encode, length_octetsOf]

/-- A stored byte string, as it stands on a ledger. -/
def Record.term? (raw : Bytes) : Option Term :=
  match decode raw with
  | .ok r => some r.term
  | .error _ => none

/-! ## Stores -/

namespace Store

/-- Every key is a text, and every record is whole. -/
def Sound (s : Store) : Prop :=
  ∀ r ∈ s.records, (∃ key, r.1 = Text.encode key) ∧ Record.Whole r.2

/-- The ledger that a store holds. -/
def ledger (s : Store) : Ledger String := fun key => (s.find? (Text.encode key)).bind Record.term?

theorem sound_empty : empty.Sound := by simp [Sound, empty]

theorem Sound.insert {s : Store} (sound : s.Sound) (key : String) (r : Record) :
    (s.insert (Text.encode key) r.encode).Sound := by
  intro entry member
  rcases mem_insertRecord member with rfl | old
  · exact ⟨⟨key, rfl⟩, r.whole_encode⟩
  · exact sound entry old

theorem Sound.keep {s : Store} (sound : s.Sound) (test : Bytes → Bytes → Bool) :
    (s.keep test).Sound := by
  intro entry member
  exact sound entry (List.mem_of_mem_filter member)

theorem Sound.decode {s : Store} (sound : s.Sound) {key raw : Bytes}
    (found : s.find? key = some raw) : ∃ r, Record.decode raw = .ok r :=
  Record.decode_of_whole (sound _ (Bindings.mem_of_find? found)).2

/-- The records in a namespace that have a given composite key. -/
theorem mem_within_compose {s : Store} {keys : Keys} {ns key : String} {raw : Bytes} :
    (Text.encode (keys.compose ns key), raw) ∈ s.within (Text.encode (keys.root ns)) ↔
      s.find? (Text.encode (keys.compose ns key)) = some raw := by
  have inside : Text.beginsWith (Text.encode (keys.root ns))
      (Text.encode (keys.compose ns key)) = true :=
    (Text.beginsWith_encode _ _).2 ⟨key, keys.compose_eq_root_append ns key⟩
  rw [find?, Bindings.find?_eq_some s.nodup, within, List.mem_filter]
  exact and_iff_left inside

theorem ledger_insert (s : Store) (key : String) (r : Record) :
    (s.insert (Text.encode key) r.encode).ledger = s.ledger.put key r.term := by
  funext other
  by_cases same : other = key
  · simp [ledger, Ledger.put, find?_insert, same, Record.term?, Record.decode_encode]
  · have differ : Text.encode key ≠ Text.encode other := by
      intro equal
      exact same (Text.encode_injective equal).symm
    simp [ledger, Ledger.put, find?_insert, same, differ]

theorem ledger_erase (s : Store) (key : String) :
    (s.erase (Text.encode key)).ledger = s.ledger.drop key := by
  funext other
  by_cases same : other = key
  · simp [ledger, Ledger.drop, find?_erase, same]
  · have differ : Text.encode key ≠ Text.encode other := by
      intro equal
      exact same (Text.encode_injective equal).symm
    simp [ledger, Ledger.drop, find?_erase, same, differ]

theorem live_ledger {s : Store} {key : String} {raw : Bytes} {r : Record}
    (found : s.find? (Text.encode key) = some raw) (read : Record.decode raw = .ok r)
    (now : UInt64) :
    s.ledger.live now.toNat key = if r.expired now then none else some r.value := by
  simp [ledger, Ledger.live, found, Record.term?, read, Record.live_term]

theorem live_ledger_of_absent {s : Store} {key : String}
    (absent : s.find? (Text.encode key) = none) (reading : Nat) :
    s.ledger.live reading key = none := by
  simp [ledger, Ledger.live, absent]

end Store

/-! ## The millisecond clock -/

namespace Instant

theorem toNat_unixMillis {t : Instant} (fits : t.nanos / nanosPerMilli < UInt64.size) :
    t.unixMillis.toNat = t.nanos / nanosPerMilli := UInt64.toNat_ofNat_of_lt' fits

/-- The clock does not go back before its 64 bits have run out. -/
theorem unixMillis_mono {t u : Instant} (order : t.nanos ≤ u.nanos)
    (fits : u.nanos / nanosPerMilli < UInt64.size) : t.unixMillis.toNat ≤ u.unixMillis.toNat := by
  have quotients : t.nanos / nanosPerMilli ≤ u.nanos / nanosPerMilli :=
    Nat.div_le_div_right order
  rw [toNat_unixMillis (Nat.lt_of_le_of_lt quotients fits), toNat_unixMillis fits]
  exact quotients

end Instant

namespace Embedded

/-- Deadlines are Unix milliseconds. A nonzero time to live counts as one
millisecond at least, and no deadline is beyond 64 bits. Traversals follow the
order of the octets of the keys. -/
def regime (keys : Keys) : Regime where
  keys := keys
  reading now := now.unixMillis.toNat
  deadline? now d := some (min (now.unixMillis.toNat + max 1 d.millis) (UInt64.size - 1))
  Precedes a b := Text.encode a < Text.encode b

theorem term_make (keys : Keys) (value : Bytes) (ttl : Option Duration) (now : Instant) :
    (Record.make value ttl now.unixMillis).term = (regime keys).term now value ttl := by
  rw [Regime.term_eq]
  unfold Record.make Record.deadlineFor
  cases limit? ttl with
  | none => rfl
  | some d =>
      have size : UInt64.size = 18446744073709551616 := rfl
      exact Record.term_of_pos (by omega) (by omega) value

def service : Service Embedded where
  request := request
  iterate := iterate
  cleanup := cleanup
  sweep now e := if e.schedule.isSome then (e.cleanup now).2 else e
  pass := pass
  close e := e.close.2

/-- The ledger that an open cache holds. -/
def ledger (e : Embedded) : Ledger String :=
  match e.store with
  | some store => store.ledger
  | none => .empty

/-- An open cache, with the given keys, over a sound store. -/
structure Open (keys : Keys) (e : Embedded) : Prop where
  keys : e.keys = keys
  store : ∃ store, e.store = some store ∧ store.Sound

/-- An open cache that shows the same live entries as a ledger at the given times. -/
structure Holds (keys : Keys) (l : Ledger String) (times : Set Nat) (e : Embedded) : Prop
    extends Open keys e where
  alike : Set.EqOn e.ledger.live l.live times

theorem Open.holds {keys : Keys} {e : Embedded} (opened : Open keys e) (times : Set Nat) :
    Holds keys e.ledger times e :=
  ⟨opened, Set.eqOn_refl _ _⟩

theorem Holds.count {keys : Keys} {l : Ledger String} {times : Set Nat} {e : Embedded}
    (holds : Holds keys l times e) (change : Counters → Counters) :
    Holds keys l times (e.count change) :=
  ⟨⟨holds.keys, holds.store⟩, holds.alike⟩

/-- A cache whose store has been replaced. -/
theorem Holds.of_store {keys : Keys} {l : Ledger String} {times : Set Nat} {e : Embedded}
    (same : e.keys = keys) {store : Store} (sound : store.Sound)
    (alike : Set.EqOn store.ledger.live l.live times) :
    Holds keys l times { e with store := some store } :=
  ⟨⟨same, store, rfl, sound⟩, alike⟩

theorem Holds.self {e : Embedded} {store : Store} (opened : e.store = some store)
    (sound : store.Sound) (times : Set Nat) : Holds e.keys store.ledger times e :=
  ⟨⟨rfl, store, opened, sound⟩, by simp only [ledger, opened]; exact Set.eqOn_refl _ _⟩

/-! ## Requests -/

variable {e : Embedded} {store : Store}

/-- To reclaim an expired record makes no difference from then on. -/
theorem Holds.reclaim {keys : Keys} {l : Ledger String} {now : UInt64}
    (holds : Holds keys l (Set.Ici now.toNat) e) (key : String) {raw : Bytes} {r : Record}
    (read : Record.decode raw = .ok r) (past : r.expired now = true) :
    Holds keys l (Set.Ici now.toNat) (e.reclaim (Text.encode key) raw) := by
  obtain ⟨store, opened, sound⟩ := holds.store
  have alike := holds.alike
  simp only [ledger, opened] at alike
  simp only [Embedded.reclaim, opened]
  split
  next found =>
    have dead : store.ledger.live now.toNat key = none := by
      rw [Store.live_ledger found read, past]
      rfl
    refine (Holds.of_store holds.keys (sound.keep _) ?_).count _
    have dropped := store.ledger_erase key
    rw [Store.erase] at dropped
    rw [dropped]
    exact (Ledger.eqOn_drop dead).trans alike
  next => exact holds

/-- To look at a key shows the live entry there. -/
theorem look_in_touch (opened : e.store = some store) (sound : store.Sound) (now : UInt64)
    (key : String) :
    ∃ found after, e.look now store (Text.encode key) = (.ok found, after) ∧
      found.map (·.value) = store.ledger.live now.toNat key ∧
      Holds e.keys store.ledger (Set.Ici now.toNat) after := by
  have self := Holds.self opened sound (Set.Ici now.toNat)
  unfold look
  cases found : store.find? (Text.encode key) with
  | none => exact ⟨none, e, rfl, (Store.live_ledger_of_absent found _).symm, self⟩
  | some raw =>
      obtain ⟨r, read⟩ := sound.decode found
      have live := Store.live_ledger found read now
      cases past : r.expired now with
      | false => exact ⟨some r, e, by simp [read, past], by simp [live, past], self⟩
      | true =>
          exact ⟨none, e.reclaim (Text.encode key) raw, by simp [read, past],
            by simp [live, past], self.reclaim key read past⟩

theorem get_in_touch (opened : e.store = some store) (sound : store.Sound) (now : UInt64)
    (key : String) :
    (e.get now store (Text.encode key)).1 = .value (store.ledger.live now.toNat key) ∧
      Holds e.keys store.ledger (Set.Ici now.toNat) (e.get now store (Text.encode key)).2 := by
  obtain ⟨found, after, looked, live, holds⟩ := look_in_touch opened sound now key
  simp only [get, looked, live]
  exact ⟨trivial, holds.count _⟩

theorem contains_in_touch (opened : e.store = some store) (sound : store.Sound) (now : UInt64)
    (key : String) :
    (e.contains now store (Text.encode key)).1 =
        .present (store.ledger.live now.toNat key).isSome ∧
      Holds e.keys store.ledger (Set.Ici now.toNat)
        (e.contains now store (Text.encode key)).2 := by
  obtain ⟨found, after, looked, live, holds⟩ := look_in_touch opened sound now key
  simp only [contains, looked, ← live, Option.isSome_map]
  exact ⟨trivial, holds⟩

/-- A store without a key holds the ledger without it. -/
theorem Holds.erase (sound : store.Sound) (key : String) (times : Set Nat) :
    Holds e.keys (store.ledger.drop key) times
      { e with store := some (store.erase (Text.encode key)) } :=
  .of_store rfl (sound.keep _) (by rw [store.ledger_erase]; exact Set.eqOn_refl _ _)

theorem Holds.absent (opened : e.store = some store) (sound : store.Sound) {key : String}
    (absent : store.find? (Text.encode key) = none) (times : Set Nat) :
    Holds e.keys (store.ledger.drop key) times e := by
  refine ⟨⟨rfl, store, opened, sound⟩, ?_⟩
  intro t _
  simp only [ledger, opened]
  funext other
  rw [Ledger.live_drop]
  split
  next same => rw [same, Store.live_ledger_of_absent absent]
  next => rfl

theorem take_in_touch (opened : e.store = some store) (sound : store.Sound) (now : UInt64)
    (key : String) :
    (e.take now store (Text.encode key)).1 = .value (store.ledger.live now.toNat key) ∧
      Holds e.keys (store.ledger.drop key) (Set.Ici now.toNat)
        (e.take now store (Text.encode key)).2 := by
  unfold take
  cases found : store.find? (Text.encode key) with
  | none =>
      rw [Store.live_ledger_of_absent found]
      exact ⟨rfl, (Holds.absent opened sound found _).count _⟩
  | some raw =>
      obtain ⟨r, read⟩ := sound.decode found
      have erased := Holds.erase (e := e) sound key (Set.Ici now.toNat)
      rw [Store.live_ledger found read now]
      simp only [read]
      split
      · exact ⟨rfl, erased.count fun c => (c.expire 1).miss⟩
      · exact ⟨rfl, erased.count fun c => c.delete.hit⟩

theorem delete_in_touch (opened : e.store = some store) (sound : store.Sound) (key : String)
    (times : Set Nat) :
    (e.delete store (Text.encode key)).1 = .done ∧
      Holds e.keys (store.ledger.drop key) times (e.delete store (Text.encode key)).2 := by
  unfold delete
  cases found : store.find? (Text.encode key) with
  | none => exact ⟨rfl, .absent opened sound found _⟩
  | some raw => exact ⟨rfl, (Holds.erase sound key times).count _⟩

theorem set_in_touch (sound : store.Sound) (now : Instant) (key : String) (value : Bytes)
    (ttl : Option Duration) (times : Set Nat) :
    (e.set now.unixMillis store (Text.encode key) value ttl).1 = .done ∧
      Holds e.keys (store.ledger.put key ((regime e.keys).term now value ttl)) times
        (e.set now.unixMillis store (Text.encode key) value ttl).2 := by
  refine ⟨rfl, (Holds.of_store rfl (sound.insert key _) ?_).count _⟩
  rw [Store.ledger_insert, term_make e.keys]
  exact Set.eqOn_refl _ _

theorem request_in_touch (opened : e.store = some store) (sound : store.Sound) (now : Instant)
    (q : Request) :
    (e.request now q).1 = store.ledger.answer (regime e.keys) now q ∧
      Holds e.keys (store.ledger.serve (regime e.keys) now q)
        (Set.Ici now.unixMillis.toNat) (e.request now q).2 := by
  simp only [request, opened]
  cases q with
  | set ns key value ttl => exact set_in_touch sound now _ value ttl _
  | get ns key => exact get_in_touch opened sound _ _
  | take ns key => exact take_in_touch opened sound _ _
  | contains ns key => exact contains_in_touch opened sound _ _
  | delete ns key => exact delete_in_touch opened sound _ _

/-! ## Traversals -/

/-- What a traversal shows of a record in the store, if anything. -/
def listed? (keys : Keys) (now : UInt64) (ns : String) (row : Bytes × Bytes) :
    Option (String × Bytes) :=
  match Record.decode row.2 with
  | .ok record =>
      if record.expired now then none
      else some (keys.logical (Text.decodeLossy row.1) ns, record.value)
  | .error _ => none

/-- The entries of a namespace that a traversal shows to whoever sees them all. -/
def listing (keys : Keys) (now : UInt64) (ns : String) (store : Store) : List (String × Bytes) :=
  (store.within (Text.encode (keys.root ns))).filterMap (listed? keys now ns)

theorem listed?_eq_some_iff {keys : Keys} {now : UInt64} {ns : String} {row : Bytes × Bytes}
    {key : String} {value : Bytes} :
    listed? keys now ns row = some (key, value) ↔
      ∃ r, Record.decode row.2 = .ok r ∧ r.expired now = false ∧
        keys.logical (Text.decodeLossy row.1) ns = key ∧ r.value = value := by
  unfold listed?
  cases read : Record.decode row.2 with
  | error cause => simp
  | ok r => cases past : r.expired now <;> simp [past]

/-- A record that is shown stands under the composite key of what is shown, if its own key
is a text. -/
theorem key_of_listed {keys : Keys} {now : UInt64} {ns : String} {row : Bytes × Bytes}
    (member : row ∈ store.within (Text.encode (keys.root ns))) {composite : String}
    (spelt : row.1 = Text.encode composite) {key : String} {value : Bytes}
    (listed : listed? keys now ns row = some (key, value)) :
    row.1 = Text.encode (keys.compose ns key) := by
  -- The octets begin with those of the root, so the text begins with the root.
  have inside := (List.mem_filter.1 member).2
  simp only [spelt] at inside
  obtain ⟨rest, rfl⟩ := (Text.beginsWith_encode _ _).1 inside
  obtain ⟨r, -, -, logical, -⟩ := listed?_eq_some_iff.1 listed
  rw [spelt, Text.decodeLossy_encode, ← Keys.compose_eq_root_append,
    Keys.logical_compose] at logical
  rw [spelt, ← logical, Keys.compose_eq_root_append]

theorem listed?_eq_some {keys : Keys} {now : UInt64} {ns : String} {row : Bytes × Bytes}
    (sound : store.Sound) (member : row ∈ store.within (Text.encode (keys.root ns)))
    {key : String} {value : Bytes} (listed : listed? keys now ns row = some (key, value)) :
    row.1 = Text.encode (keys.compose ns key) ∧
      ∃ r, Record.decode row.2 = .ok r ∧ r.expired now = false ∧ r.value = value := by
  obtain ⟨⟨composite, spelt⟩, -⟩ := sound row (List.mem_filter.1 member).1
  obtain ⟨r, read, past, -, shown⟩ := listed?_eq_some_iff.1 listed
  exact ⟨key_of_listed member spelt listed, r, read, past, shown⟩

theorem mem_listing (sound : store.Sound) {keys : Keys} {now : UInt64} {ns key : String}
    {value : Bytes} :
    (key, value) ∈ listing keys now ns store ↔
      store.ledger.live now.toNat (keys.compose ns key) = some value := by
  rw [listing, List.mem_filterMap]
  constructor
  · rintro ⟨row, member, listed⟩
    obtain ⟨spelt, r, read, past, rfl⟩ := listed?_eq_some sound member listed
    have found : store.find? (Text.encode (keys.compose ns key)) = some row.2 := by
      apply Store.mem_within_compose.1
      rw [← spelt]
      exact member
    rw [Store.live_ledger found read, past]
    rfl
  · intro live
    cases found : store.find? (Text.encode (keys.compose ns key)) with
    | none => simp [Store.live_ledger_of_absent found] at live
    | some raw =>
        obtain ⟨r, read⟩ := sound.decode found
        rw [Store.live_ledger found read] at live
        refine ⟨(_, raw), Store.mem_within_compose.2 found, ?_⟩
        cases past : r.expired now with
        | true => simp [past] at live
        | false =>
            rw [past] at live
            cases live
            simp [listed?, read, past]

/-- The listing of a namespace lists its live entries, in the order of the
octets of their keys. -/
theorem lists_listing (sound : store.Sound) (keys : Keys) (now : Instant) (ns : String) :
    store.ledger.Lists (regime keys) now ns (listing keys now.unixMillis ns store) where
  complete _ _ := mem_listing sound
  ordered := by
    rw [listing, List.pairwise_filterMap]
    -- Records are shown in the order of the store, which is that of their keys.
    apply (store.sorted.filter _).imp_of_mem
    intro a b first second below
    rintro ⟨key, value⟩ shown ⟨key', value'⟩ shown'
    obtain ⟨spelt, -⟩ := listed?_eq_some sound first shown
    obtain ⟨spelt', -⟩ := listed?_eq_some sound second shown'
    show Text.encode (keys.compose ns key) < Text.encode (keys.compose ns key')
    rw [← spelt, ← spelt']
    exact below

/-- A visitor that sends no requests sees the listing up to where it stops, and
the records that are dropped on the way make no difference. -/
theorem visit_quiet (now : Instant) (ns : String) {visitor : Visitor} (quiet : visitor.Quiet)
    {keys : Keys} {l : Ledger String} (count : Nat) (rows : List (Bytes × Bytes))
    (fit : ∀ row ∈ rows, (∃ key, row.1 = Text.encode key) ∧ Record.Whole row.2) (e : Embedded)
    (holds : Holds keys l (Set.Ici now.unixMillis.toNat) e) :
    (visit now ns visitor count rows e).1 =
        { seen := visitor.upTo count (rows.filterMap (listed? keys now.unixMillis ns)) } ∧
      Holds keys l (Set.Ici now.unixMillis.toNat) (visit now ns visitor count rows e).2 := by
  -- The rows were read at the start. Dropping one of them leaves the rest as it was
  -- read, and the cache with the same ledger.
  induction rows generalizing count e with
  | nil => exact ⟨rfl, holds⟩
  | cons row rest ih =>
      obtain ⟨composite, raw⟩ := row
      obtain ⟨⟨key, rfl⟩, whole⟩ := fit (composite, raw) List.mem_cons_self
      obtain ⟨r, read⟩ := Record.decode_of_whole whole
      have others : ∀ row ∈ rest, (∃ key, row.1 = Text.encode key) ∧ Record.Whole row.2 := by
        intro row member
        exact fit row (.tail _ member)
      cases past : r.expired now.unixMillis with
      | true =>
          simp only [visit, read, past, if_true, List.filterMap_cons, listed?]
          exact ih count others _ (holds.reclaim key read past)
      | false =>
          have silent : ∀ logical, visitor.requests (count + 1) logical r.value = [] := by
            intro logical
            exact quiet _ _ _
          simp only [visit, read, past, Bool.false_eq_true, if_false, List.filterMap_cons, listed?,
            silent, answerAll, holds.keys, Visitor.upTo]
          split
          next =>
            obtain ⟨shown, after⟩ := ih (count + 1) others e holds
            exact ⟨by rw [shown]; rfl, after⟩
          next => exact ⟨rfl, holds⟩

/-! ## Sweeping -/

theorem hasExpired_iff {raw : Bytes} {r : Record} (read : Record.decode raw = .ok r)
    (now : UInt64) : hasExpired now raw = r.expired now := by
  simp [hasExpired, read]

/-- A store without its expired records makes no difference from then on. -/
theorem eqOn_keep (sound : store.Sound) (now : UInt64) :
    Set.EqOn (store.keep fun _ raw => !hasExpired now raw).ledger.live store.ledger.live
      (Set.Ici now.toNat) := by
  intro t later
  funext key
  simp only [Ledger.live, Store.ledger, Store.find?_keep]
  cases found : store.find? (Text.encode key) with
  | none => rfl
  | some raw =>
      obtain ⟨r, read⟩ := sound.decode found
      have dead : r.expired now = true → r.term.live t = none := by
        intro past
        apply Term.live_none_of_le later
        rw [r.live_term, past]
        rfl
      cases past : r.expired now with
      | true =>
          simp [Option.filter, hasExpired_iff read, past, Record.term?, read, dead past]
      | false => simp [Option.filter, hasExpired_iff read, past]

theorem Holds.cleanup {keys : Keys} {l : Ledger String} (now : Instant)
    (holds : Holds keys l (Set.Ici now.unixMillis.toNat) e) :
    Holds keys l (Set.Ici now.unixMillis.toNat) (e.cleanup now).2 := by
  obtain ⟨store, opened, sound⟩ := holds.store
  have alike := holds.alike
  simp only [ledger, opened] at alike
  simp only [Embedded.cleanup, opened]
  refine (Holds.of_store holds.keys (sound.keep _) ?_).count _
  exact (eqOn_keep sound now.unixMillis).trans alike

/-! ## Runs -/

theorem ledger_of_store (opened : e.store = some store) : e.ledger = store.ledger := by
  simp [ledger, opened]

/-- An open cache keeps the contract until it is closed. -/
theorem refines (keys : Keys) : service.Refines (regime keys) ledger (Open keys) False where
  request now e q opened := by
    obtain ⟨rfl, store, found, sound⟩ := opened
    obtain ⟨answer, holds⟩ := request_in_touch found sound now q
    rw [ledger_of_store found]
    exact ⟨answer, holds.toOpen, holds.alike⟩
  iterate now e ns visitor opened quiet := by
    obtain ⟨rfl, store, found, sound⟩ := opened
    have fit : ∀ row ∈ store.within (Text.encode (e.keys.root ns)),
        (∃ key, row.1 = Text.encode key) ∧ Record.Whole row.2 := by
      intro row member
      exact sound row (List.mem_filter.1 member).1
    obtain ⟨shown, holds⟩ := visit_quiet now ns quiet 0 _ fit e (.self found sound _)
    have unfolded : service.iterate now e ns visitor =
        visit now ns visitor 0 (store.within (Text.encode (e.keys.root ns))) e := by
      simp only [service, iterate, found]
    rw [unfolded, ledger_of_store found]
    exact ⟨⟨_, lists_listing sound e.keys now ns, shown⟩, holds.toOpen, holds.alike⟩
  cleanup now e opened := by
    have holds := (opened.holds _).cleanup now
    exact ⟨holds.toOpen, holds.alike⟩
  sweep now e opened := by
    have holds := (opened.holds _).cleanup now
    simp only [service]
    split
    next => exact ⟨holds.toOpen, holds.alike⟩
    next => exact ⟨opened, Set.eqOn_refl _ _⟩
  pass earlier later e opened := by
    have holds := (opened.holds _).cleanup later
    simp only [service, pass]
    split
    next =>
      split
      next => exact ⟨holds.toOpen, holds.alike⟩
      next => exact ⟨opened, Set.eqOn_refl _ _⟩
    next => exact ⟨opened, Set.eqOn_refl _ _⟩
  close impossible := impossible.elim

end Embedded

end ExpiringCache
