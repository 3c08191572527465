import ExpiringCache.Proofs.Embedded.Contract

/-!
# Damaged records

A record that is too short to carry a deadline is damaged. Whoever reads its entry is told
so, and nobody else is (`damaged_of_reported`). To read the entry and to ask for it leave
everything as it was, so that the next reader is told the same.

A take removes the record before it reads it. It counts nothing and is told the same as the
others, but the record is gone: whoever takes next finds nothing (`damage_outlasts_reads`).
-/

namespace ExpiringCache

/-! ## Short records -/

theorem Record.decode_of_short {raw : Bytes} (short : raw.length < headerSize) :
    decode raw = .error (tooShort raw) :=
  if_pos short

theorem Record.short_of_decode {raw : Bytes} {cause : Fault} (failed : decode raw = .error cause) :
    raw.length < headerSize ∧ cause = tooShort raw := by
  unfold decode at failed
  split at failed
  next short => exact ⟨short, (Except.error.inj failed).symm⟩
  next => cases failed

namespace Embedded

/-- The requests that read the entry of a key. -/
def readers (ns key : String) : List Request := [.get ns key, .contains ns key, .take ns key]

/-- A record that is too short stands in the store under the key of an entry. -/
structure Damaged (e : Embedded) (ns key : String) (store : Store) (raw : Bytes) : Prop where
  opened : e.store = some store
  found : store.find? (e.rawKey ns key) = some raw
  short : raw.length < Record.headerSize

variable {e : Embedded} {ns key : String} {store : Store} {raw : Bytes} {q : Request}

/-! ## What readers make of them -/

theorem look_of_damaged (damaged : e.Damaged ns key store raw) (now : UInt64) :
    e.look now store (e.rawKey ns key) = (.error (Record.tooShort raw), e) := by
  simp only [look, damaged.found, Record.decode_of_short damaged.short]

/-- Each reader is told of the damage. Only a take does something about it. -/
theorem request_of_damaged (damaged : e.Damaged ns key store raw) (now : Instant)
    (reads : q ∈ readers ns key) :
    e.request now q = (.fault (Record.tooShort raw),
      if q = .take ns key then { e with store := some (store.erase (e.rawKey ns key)) }
      else e) := by
  have looked := look_of_damaged damaged now.unixMillis
  simp only [readers, List.mem_cons, List.not_mem_nil, or_false] at reads
  rcases reads with rfl | rfl | rfl
  case inl => simp [request, damaged.opened, get, looked]
  case inr.inl => simp [request, damaged.opened, contains, looked]
  case inr.inr =>
    simp [request, damaged.opened, take, damaged.found, Record.decode_of_short damaged.short]

theorem look_error {now : UInt64} {bytes : Bytes} {cause : Fault}
    (failed : (e.look now store bytes).1 = .error cause) :
    ∃ raw, store.find? bytes = some raw ∧ Record.decode raw = .error cause := by
  unfold look at failed
  split at failed
  next => cases failed
  next raw found =>
    split at failed
    next read =>
      cases failed
      exact ⟨raw, found, read⟩
    next => split at failed <;> cases failed

/-- What a reader is told is the fault of the record that stands under its key. -/
theorem request_error (opened : e.store = some store) {now : Instant} (reads : q ∈ readers ns key)
    {cause : Fault} (failed : (e.request now q).1 = .fault cause) :
    ∃ raw, store.find? (e.rawKey ns key) = some raw ∧ Record.decode raw = .error cause := by
  simp only [readers, List.mem_cons, List.not_mem_nil, or_false] at reads
  rcases reads with rfl | rfl | rfl
  case inl =>
    simp only [request, opened, get] at failed
    split at failed
    next looked =>
      cases failed
      exact look_error (congrArg Prod.fst looked)
    next => cases failed
  case inr.inl =>
    simp only [request, opened, contains] at failed
    split at failed
    next looked =>
      cases failed
      exact look_error (congrArg Prod.fst looked)
    next => cases failed
  case inr.inr =>
    simp only [request, opened, take] at failed
    split at failed
    next => cases failed
    next raw found =>
      split at failed
      next read =>
        cases failed
        exact ⟨raw, found, read⟩
      next => split at failed <;> cases failed

/-- Nobody is told of damage where there is none. -/
theorem damaged_of_reported {now : Instant} (reads : q ∈ readers ns key) {reason : String}
    (reported : (e.request now q).1 = .fault (.corrupted reason)) :
    ∃ store raw, e.Damaged ns key store raw ∧ Record.tooShort raw = .corrupted reason := by
  cases opened : e.store with
  | none => simp [request, opened] at reported
  | some store =>
      obtain ⟨raw, found, read⟩ := request_error opened reads reported
      obtain ⟨short, cause⟩ := Record.short_of_decode read
      exact ⟨store, raw, ⟨opened, found, short⟩, cause.symm⟩

theorem take_of_absent (opened : e.store = some store)
    (absent : store.find? (e.rawKey ns key) = none) (now : Instant) :
    (e.request now (.take ns key)).1 = .value none := by
  simp only [request, opened, take, absent]

/-- A reader is told of damage just if a damaged record stands under its key, and changes no
counter then. To read the entry and to ask for it change nothing at all, so that they are
told the same at any time. A take removes the record and nothing else, and the next one
finds nothing. -/
theorem damage_outlasts_reads (e : Embedded) (now : Instant) {ns key : String} {q : Request}
    (reads : q ∈ readers ns key) :
    (∀ reason, (e.request now q).1 = .fault (.corrupted reason) ↔
      ∃ store raw, e.Damaged ns key store raw ∧ Record.tooShort raw = .corrupted reason) ∧
    ∀ store raw, e.Damaged ns key store raw →
      (e.request now q).2.counters = e.counters ∧
      (q ≠ .take ns key →
        (e.request now q).2 = e ∧ ∀ later, e.request later q = e.request now q) ∧
      (q = .take ns key →
        (e.request now q).2 = { e with store := some (store.erase (e.rawKey ns key)) } ∧
        ∀ later, ((e.request now q).2.request later q).1 = .value none) := by
  refine ⟨?reported, ?kept⟩
  case reported =>
    intro reason
    constructor
    · exact damaged_of_reported reads
    · rintro ⟨store, raw, damaged, told⟩
      rw [request_of_damaged damaged now reads, told]
  case kept =>
    intro store raw damaged
    have served (at_ : Instant) := request_of_damaged damaged at_ reads
    refine ⟨?_, ?_, ?_⟩
    · rw [served]
      split <;> rfl
    · intro other
      simp only [served, if_neg other, implies_true, and_self]
    · rintro rfl
      have gone : (store.erase (e.rawKey ns key)).find? (e.rawKey ns key) = none := by
        rw [Store.find?_erase, if_pos rfl]
      rw [served, if_pos rfl]
      exact ⟨rfl, take_of_absent rfl gone⟩

/-- A take of a damaged record that stands beside a sound one. -/
theorem damage_outlasts_reads_beside_sound :
    let good := (Record.mk 0 [7]).encode
    let store := (Store.empty.insert (Text.encode "ns:bad") [1, 2, 3]).insert
      (Text.encode "ns:good") good
    let e := create .standard store 0 ⟨0⟩
    let q := Request.take "ns" "bad"
    q ∈ readers "ns" "bad" ∧ e.Damaged "ns" "bad" store [1, 2, 3] ∧
      (e.request ⟨0⟩ q).1 = .fault (.corrupted "record of 3 bytes is shorter than its header") ∧
      (e.request ⟨0⟩ q).2.store.map (·.records) = some [(Text.encode "ns:good", good)] ∧
      ∀ later, ((e.request ⟨0⟩ q).2.request later q).1 = .value none := by
  intro good store e q
  have reads : q ∈ readers "ns" "bad" := by decide
  have damaged : e.Damaged "ns" "bad" store [1, 2, 3] := ⟨rfl, by decide +kernel, by decide⟩
  obtain ⟨reported, kept⟩ := damage_outlasts_reads e ⟨0⟩ reads
  obtain ⟨-, -, took⟩ := kept store [1, 2, 3] damaged
  obtain ⟨state, later⟩ := took rfl
  refine ⟨reads, damaged, (reported _).2 ⟨store, _, damaged, rfl⟩, ?_, later⟩
  rw [state]
  decide +kernel

/-- A take fails, and yet the record is gone: the second take is not told of it any more,
although nothing was counted. -/
theorem take_loses_damaged_record :
    let store := Store.empty.insert (Text.encode "ns:k") [1, 2, 3]
    let e := create .standard store 0 ⟨0⟩
    let first := e.request ⟨0⟩ (.take "ns" "k")
    let second := first.2.request ⟨0⟩ (.take "ns" "k")
    first.1 = .fault (.corrupted "record of 3 bytes is shorter than its header") ∧
      first.2.counters = e.counters ∧ e.store.map (·.size) = some 1 ∧
      first.2.store.map (·.size) = some 0 ∧ second.1 = .value none := by
  decide +kernel

end Embedded

end ExpiringCache
