import ExpiringCache.Proofs.Collisions
import ExpiringCache.Proofs.Embedded.Traversal
import ExpiringCache.Proofs.Memory.Snapshot
import ExpiringCache.Proofs.Remote.Scan

/-!
# Keys are recovered alike

A cache of each kind has its own way from a composite key back to the logical one. A memory
cache cuts the text behind the root, a remote cache reads the octets and takes off the root,
and an embedded cache reads the octets leniently and takes off the namespace and then the
delimiter. All three come to the remainder of the composite key behind the root.

What an embedded cache finds behind the root need not be text. Octets of a whole text in
front of them make no difference to how they are read (`Text.decodeLossy_append`), so that
the root comes off there as well (`Keys.logical_decodeLossy`).
-/

namespace ExpiringCache

/-! ## Octets behind a text -/

namespace Text

/-- Whatever octets follow a text, the text is read as itself and they are read as if they
stood alone. -/
theorem decodeLossy_append (s : String) (rest : Bytes) :
    decodeLossy (encode s ++ rest) = s ++ decodeLossy rest := by
  rw [decodeLossy, encode, readChars_encodeChars_append, List.map_append, String.ofList_append,
    decodeLossy]
  congr 1
  simp [Function.comp_def]

/-- The octets of a text come off its beginning as a whole. -/
theorem drop_encode (s t : String) : (encode (s ++ t)).drop s.utf8ByteSize = encode t := by
  rw [encode_append, ← length_encode, List.drop_left]

end Text

/-! ## The key function -/

namespace Keys

variable {keys : Keys} {ns c : String}

/-- A text that begins with the root is the composite key of what follows. -/
theorem begins_iff : (keys.root ns).toList <+: c.toList ↔ ∃ key, c = keys.compose ns key := by
  simp only [compose_eq_root_append]
  constructor
  · rintro ⟨rest, split⟩
    refine ⟨String.ofList rest, ?_⟩
    rw [← String.toList_inj, ← split, String.toList_append, String.toList_ofList]
  · rintro ⟨key, rfl⟩
    exact ⟨key.toList, String.toList_append.symm⟩

theorem compose_logical (begun : (keys.root ns).toList <+: c.toList) :
    keys.compose ns (keys.logical c ns) = c := by
  obtain ⟨key, rfl⟩ := begins_iff.1 begun
  rw [logical_compose]

theorem logical_foreign (foreign : ¬ (keys.root ns).toList <+: c.toList) :
    keys.logical c ns = c :=
  keys.logical_eq_self_of_foreign c ns fun own => foreign (begins_iff.2 own)

/-- The octet behind the root is the first one of a character, or the end of the text. -/
theorem boundary (begun : (keys.root ns).toList <+: c.toList) :
    (keys.root ns).rawEndPos.IsValid c := by
  obtain ⟨key, rfl⟩ := begins_iff.1 begun
  exact String.Pos.Raw.isValid_iff_exists_append.2
    ⟨keys.root ns, key, keys.compose_eq_root_append ns key, rfl⟩

/-- The octets behind the root are those of the logical key. -/
theorem encode_logical (begun : (keys.root ns).toList <+: c.toList) :
    (Text.encode c).drop (keys.root ns).utf8ByteSize = Text.encode (keys.logical c ns) := by
  obtain ⟨key, rfl⟩ := begins_iff.1 begun
  rw [logical_compose, compose_eq_root_append, Text.drop_encode]

/-- Of octets that begin with those of the root, the logical key is what the rest reads as. -/
theorem logical_decodeLossy (keys : Keys) (ns : String) (rest : Bytes) :
    keys.logical (Text.decodeLossy (Text.encode (keys.root ns) ++ rest)) ns =
      Text.decodeLossy rest := by
  rw [Text.decodeLossy_append, ← compose_eq_root_append, logical_compose]

/-- The whole octets read as something else, unless the root is empty. -/
theorem decodeLossy_ne (rooted : keys.root ns ≠ "") (rest : Bytes) :
    Text.decodeLossy rest ≠ Text.decodeLossy (Text.encode (keys.root ns) ++ rest) := by
  rw [Text.decodeLossy_append]
  intro same
  have lengths := congrArg (fun s : String => s.toList.length) same
  simp only [String.toList_append, List.length_append] at lengths
  have none : (keys.root ns).toList = [] := List.eq_nil_of_length_eq_zero (by omega)
  exact rooted (String.toList_eq_nil_iff.1 none)

end Keys

/-! ## The three ways back -/

/-- A memory cache cuts its composite keys to their logical keys. -/
theorem Memory.snapshot_logical (now : Instant) (m : Memory) (ns : String) :
    m.snapshot now ns =
      (m.table.entries.filter fun row =>
        Text.beginsWith (m.keys.root ns).toList row.1.toList && row.2.live now).map
          fun row => (m.keys.logical row.1 ns, row.2.value) := by
  apply List.map_congr_left
  rintro ⟨c, e⟩ member
  obtain ⟨inside, -⟩ := Bool.and_eq_true_iff.1 (List.mem_filter.1 member).2
  obtain ⟨rest, split⟩ := Text.beginsWith_iff.1 inside
  obtain ⟨key, rfl⟩ := Keys.begins_iff.1 ⟨rest, split.symm⟩
  rw [Prod.mk.injEq]
  refine ⟨?_, rfl⟩
  rw [Keys.logical_compose, Keys.compose_eq_root_append, String.toList_append, List.drop_left,
    String.ofList_toList]

/-- A remote cache keeps the raw keys that are texts and begin with the root, and recovers
their logical keys. -/
theorem Remote.logical?_iff {keys : Keys} {ns key : String} {raw : Bytes} :
    Remote.logical? (keys.root ns) raw = some key ↔
      ∃ c, raw = Text.encode c ∧ (keys.root ns).toList <+: c.toList ∧ key = keys.logical c ns := by
  rw [logical?_eq_some_iff, ← Keys.compose_eq_root_append]
  constructor
  · rintro rfl
    exact ⟨keys.compose ns key, rfl, Keys.begins_iff.2 ⟨key, rfl⟩, by rw [Keys.logical_compose]⟩
  · rintro ⟨c, rfl, begun, rfl⟩
    rw [Keys.compose_logical begun]

namespace Embedded

variable {e : Embedded} {store : Store} {now : Instant} {ns root : String} {visitor : Visitor}

/-- What is shown of a live record: its value under the text of its key behind the root. -/
def behind? (root : String) (now : UInt64) (row : Bytes × Bytes) : Option (String × Bytes) :=
  match Record.decode row.2 with
  | .ok record =>
      if record.expired now then none
      else some (Text.decodeLossy (row.1.drop root.utf8ByteSize), record.value)
  | .error _ => none

theorem listed?_eq_behind? {keys : Keys} {now : UInt64} {row : Bytes × Bytes}
    (member : row ∈ store.within (Text.encode (keys.root ns))) :
    listed? keys now ns row = behind? (keys.root ns) now row := by
  obtain ⟨rest, split⟩ := Text.beginsWith_iff.1 (List.mem_filter.1 member).2
  have text : keys.logical (Text.decodeLossy row.1) ns =
      Text.decodeLossy (row.1.drop (keys.root ns).utf8ByteSize) := by
    rw [split, keys.logical_decodeLossy, ← Text.length_encode, List.drop_left]
  cases read : Record.decode row.2 with
  | ok record => simp only [listed?, behind?, read, text]
  | error cause => simp only [listed?, behind?, read]

/-- Whatever the visitor does, a traversal shows the live ones of some first records of the
namespace under what is behind the root. -/
theorem seen_behind (opened : e.store = some store) (now : Instant) (ns : String)
    (visitor : Visitor) :
    ∃ rows, rows <+: store.within (Text.encode (e.keys.root ns)) ∧
      (e.iterate now ns visitor).1.seen =
        rows.filterMap (behind? (e.keys.root ns) now.unixMillis) := by
  obtain ⟨before, cut, at_⟩ :=
    exists_cut e.keys now ns visitor (store.within (Text.encode (e.keys.root ns)))
  obtain ⟨all, seen, -⟩ := visit_cut (e := e) at_
  refine ⟨before ++ cut.toList, at_.split, ?_⟩
  rw [iterate, opened]
  dsimp only
  rw [all, seen]
  apply List.filterMap_congr
  intro row member
  exact listed?_eq_behind? (at_.split.subset member)

end Embedded

/-! ## All alike -/

/-- Take any delimiter and any namespace. The logical key of a text that begins with the root
is the remainder behind it, and any other text is its own logical key.

If the text begins with the root, its octets can be cut behind those of the root, and the
rest are the octets of the logical key. A remote cache recovers that key as well, of these
texts and of no other octets. To compose and to recover a key undo each other.

So a memory cache shows the entries of the namespace under their logical keys. An embedded
cache may find any octets behind the root. It shows a record under what they read as, which
is not what all the octets of the key read as, unless the root is empty. -/
theorem recovered_alike (keys : Keys) (ns : String) :
    let root := keys.root ns
    (∀ c rest, c = root ++ rest → keys.logical c ns = rest) ∧
    (∀ c, ¬ root.toList <+: c.toList → keys.logical c ns = c) ∧
    (∀ key, keys.logical (keys.compose ns key) ns = key) ∧
    (∀ c, root.toList <+: c.toList →
      keys.compose ns (keys.logical c ns) = c ∧
      root.rawEndPos.IsValid c ∧
      Text.decode? ((Text.encode c).drop root.utf8ByteSize) = some (keys.logical c ns)) ∧
    (∀ raw key, Remote.logical? root raw = some key ↔
      ∃ c, raw = Text.encode c ∧ root.toList <+: c.toList ∧ key = keys.logical c ns) ∧
    (∀ (m : Memory) (now : Instant) (visitor : Visitor), m.keys = keys →
      (m.iterate now ns visitor).1.seen = visitor.upTo 0
        ((m.table.entries.filter fun row =>
          Text.beginsWith root.toList row.1.toList && row.2.live now).map
            fun row => (keys.logical row.1 ns, row.2.value))) ∧
    (∀ rest, keys.logical (Text.decodeLossy (Text.encode root ++ rest)) ns =
        Text.decodeLossy rest ∧
      (root ≠ "" → Text.decodeLossy rest ≠ Text.decodeLossy (Text.encode root ++ rest))) ∧
    ∀ (e : Embedded) (store : Store) (now : Instant) (visitor : Visitor),
      e.keys = keys → e.store = some store →
      ∃ rows, rows <+: store.within (Text.encode root) ∧
        (e.iterate now ns visitor).1.seen =
          rows.filterMap (Embedded.behind? root now.unixMillis) := by
  intro root
  refine ⟨?remainder, fun c => Keys.logical_foreign, keys.logical_compose ns, ?inside,
    fun raw key => Remote.logical?_iff, ?memory, ?octets, ?embedded⟩
  case remainder =>
    rintro c rest rfl
    show keys.logical (keys.root ns ++ rest) ns = rest
    rw [← Keys.compose_eq_root_append, Keys.logical_compose]
  case inside =>
    intro c begun
    refine ⟨Keys.compose_logical begun, Keys.boundary begun, ?_⟩
    rw [Keys.encode_logical begun, Text.decode?_encode]
  case memory =>
    rintro m now visitor rfl
    rw [Memory.iterate, Memory.visit_eq, Memory.snapshot_logical]
  case octets =>
    intro rest
    exact ⟨keys.logical_decodeLossy ns rest, fun rooted => Keys.decodeLossy_ne rooted rest⟩
  case embedded =>
    rintro e store now visitor rfl opened
    exact Embedded.seen_behind opened now ns visitor

/-- A namespace and a delimiter of several octets each. Of the record under `né→` and the
octets FF and 61, the key that is shown is the replacement character and `a`. -/
theorem recovered_alike_octets :
    let keys : Keys := ⟨"→"⟩
    let raw := Text.encode "né→" ++ [0xFF, 0x61]
    let store := Store.empty.insert raw (Record.mk 0 [7]).encode
    let e := Embedded.create keys store 0 ⟨0⟩
    let m := (Memory.create keys 0 ⟨0⟩).set ⟨0⟩ "né→ü" [8] none
    (keys.root "né").toList <+: "né→ü".toList ∧ ¬ (keys.root "né").toList <+: "né:ü".toList ∧
    keys.root "né" ≠ "" ∧ m.keys = keys ∧ e.keys = keys ∧ e.store = some store ∧
    keys.logical "né→ü" "né" = "ü" ∧ keys.logical "né:ü" "né" = "né:ü" ∧
    keys.compose "né" (keys.logical "né→ü" "né") = "né→ü" ∧
    (m.iterate ⟨1⟩ "né" .observer).1.seen = [("ü", [8])] ∧
    keys.logical (Text.decodeLossy raw) "né" = "\uFFFDa" ∧
    Text.decodeLossy [0xFF, 0x61] ≠ Text.decodeLossy raw ∧
    ∃ rows, rows <+: store.within (Text.encode "né→") ∧
      (e.iterate ⟨1⟩ "né" .observer).1.seen =
        rows.filterMap (Embedded.behind? "né→" (Instant.unixMillis ⟨1⟩)) := by
  intro keys raw store e m
  obtain ⟨remainder, foreign, -, inside, -, memory, octets, embedded⟩ :=
    recovered_alike keys "né"
  have begun : (keys.root "né").toList <+: "né→ü".toList := by decide
  have apart : ¬ (keys.root "né").toList <+: "né:ü".toList := by decide
  have rooted : keys.root "né" ≠ "" := by decide
  refine ⟨begun, apart, rooted, rfl, rfl, rfl, ?_, ?_, ?_, ?_, ?_, ?_, ?_⟩
  · exact remainder "né→ü" "ü" (by decide)
  · exact foreign "né:ü" apart
  · exact (inside "né→ü" begun).1
  · rw [memory m ⟨1⟩ .observer rfl]
    decide +kernel
  · exact (octets [0xFF, 0x61]).1.trans (by decide +kernel)
  · exact (octets [0xFF, 0x61]).2 rooted
  · exact embedded e store ⟨1⟩ .observer rfl rfl

end ExpiringCache
