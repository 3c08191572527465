import ExpiringCache.Keys
import ExpiringCache.Proofs.Text.Quoted
import ExpiringCache.Proofs.Text.Utf8

/-!
# Collisions of composite keys

Two entries collide if they have one composite key. The law of collisions is a law of
octets: the longer root goes on where the shorter one ends, and what it has in excess is
the beginning of the key under the shorter one (`Keys.compose_eq_iff`).

So it is the roots that decide. A delimiter that overlaps with the end of a namespace makes
namespaces collide that do not contain it, as `::` does with `a` and `a:`; a delimiter of one
character does not (`Keys.collision_law`).
-/

namespace ExpiringCache

/-! ## Texts and their octets -/

namespace Text

theorem length_encodeChar (c : Char) : (encodeChar c).length = c.utf8Size := by
  have code : c.val.toNat = c.toNat := rfl
  simp only [encodeChar, Char.utf8Size, UInt32.le_iff_toNat_le, UInt32.toNat_ofNatLT, code]
  split_ifs <;> first | rfl | omega

/-- A text has as many octets as its size says. -/
theorem length_encode (s : String) : (encode s).length = s.utf8ByteSize := by
  have size (cs : List Char) : (encodeChars cs).length = String.utf8Len cs := by
    induction cs with
    | nil => rfl
    | cons c cs ih =>
        rw [encodeChars, List.flatMap_cons, List.length_append, length_encodeChar,
          String.utf8Len_cons, ← ih, Nat.add_comm, encodeChars]
  rw [encode, size, ← String.utf8ByteSize_ofList, String.ofList_toList]

/-- The octets of a text begin those of another one just if the text begins the other. -/
theorem encode_prefix_iff {s t : String} : encode s <+: encode t ↔ s.toList <+: t.toList := by
  have begun := beginsWith_encode s t
  rw [beginsWith_iff] at begun
  constructor
  · rintro ⟨octets, split⟩
    obtain ⟨rest, rfl⟩ := begun.1 ⟨octets, split.symm⟩
    exact ⟨rest.toList, String.toList_append.symm⟩
  · rintro ⟨rest, split⟩
    have whole : t = s ++ String.ofList rest := by
      rw [← String.toList_inj, ← split, String.toList_append, String.toList_ofList]
    obtain ⟨octets, split⟩ := begun.2 ⟨_, whole⟩
    exact ⟨octets, split.symm⟩

end Text

/-! ## Composite keys -/

namespace Keys

open Text

variable {keys : Keys} {ns key ns' key' : String}

theorem encode_compose (keys : Keys) (ns key : String) :
    encode (keys.compose ns key) = encode (keys.root ns) ++ encode key := by
  rw [compose_eq_root_append, encode_append]

theorem encode_root (keys : Keys) (ns : String) :
    encode (keys.root ns) = encode ns ++ encode keys.delimiter := by
  rw [← encode_append, root, compose, String.append_empty]

/-- A key under a shorter root collides if it is what remains of the other composite key. -/
theorem compose_eq_of_rest (begun : encode (keys.root ns) <+: encode (keys.root ns'))
    (rest : encode key = (encode (keys.compose ns' key')).drop (encode (keys.root ns)).length) :
    keys.compose ns key = keys.compose ns' key' := by
  obtain ⟨excess, split⟩ := begun
  apply encode_injective
  rw [encode_compose, rest, encode_compose, ← split, List.append_assoc, List.drop_left]

/-- Where two entries collide, the shorter namespace has the shorter root, and the longer root
goes on with octets of the key. -/
theorem rest_of_compose_eq (collide : keys.compose ns key = keys.compose ns' key')
    (shorter : (encode ns).length ≤ (encode ns').length) :
    encode (keys.root ns) <+: encode (keys.root ns') ∧
      encode key = (encode (keys.compose ns' key')).drop (encode (keys.root ns)).length := by
  have same : encode (keys.root ns) ++ encode key = encode (keys.root ns') ++ encode key' := by
    rw [← encode_compose, ← encode_compose, collide]
  refine ⟨?_, by rw [← collide, encode_compose, List.drop_left]⟩
  apply List.prefix_of_prefix_length_le (List.prefix_append _ (encode key))
  · rw [same]
    exact List.prefix_append _ _
  · rw [encode_root, encode_root, List.length_append, List.length_append]
    omega

/-- Two entries collide just if they are the same, or if the namespace of the one is the
shorter, its root begins the root of the other, and its key is what remains of the composite
key of the other behind that root. -/
theorem compose_eq_iff (keys : Keys) (shorter : ns.utf8ByteSize ≤ ns'.utf8ByteSize) :
    keys.compose ns key = keys.compose ns' key' ↔
      ns = ns' ∧ key = key' ∨
        ns.utf8ByteSize < ns'.utf8ByteSize ∧
          (keys.root ns).toList <+: (keys.root ns').toList ∧
          encode key = (encode (keys.compose ns' key')).drop (keys.root ns).utf8ByteSize := by
  simp only [← length_encode, ← encode_prefix_iff] at shorter ⊢
  constructor
  · intro collide
    obtain ⟨begun, rest⟩ := rest_of_compose_eq collide shorter
    rcases Nat.lt_or_eq_of_le shorter with less | equal
    · exact .inr ⟨less, begun, rest⟩
    · -- Roots of one length, of which one begins the other, are one root.
      have root : encode (keys.root ns) = encode (keys.root ns') := by
        apply begun.eq_of_length
        rw [encode_root, encode_root, List.length_append, List.length_append, equal]
      rw [encode_compose, root, List.drop_left] at rest
      rw [encode_root, encode_root, List.append_left_inj] at root
      exact .inl ⟨encode_injective root, encode_injective rest⟩
  · rintro (⟨rfl, rfl⟩ | ⟨-, begun, rest⟩)
    · rfl
    · exact compose_eq_of_rest begun rest

/-! ## Namespaces that collide -/

/-- One key is apart from itself in two namespaces. -/
theorem compose_left_injective (keys : Keys) (key : String) :
    Function.Injective (keys.compose · key) := by
  intro ns ns' same
  have chars := congrArg String.toList same
  simp only [toList_compose, List.append_left_inj] at chars
  exact String.toList_inj.1 chars

/-- Some keys of two namespaces collide just if one of the roots begins the other. -/
theorem exists_collision_iff :
    (∃ key key', keys.compose ns key = keys.compose ns' key') ↔
      (keys.root ns).toList <+: (keys.root ns').toList ∨
        (keys.root ns').toList <+: (keys.root ns).toList := by
  simp only [compose_eq_root_append]
  constructor
  · rintro ⟨key, key', same⟩
    have chars := congrArg String.toList same
    rw [String.toList_append, String.toList_append] at chars
    apply List.prefix_or_prefix_of_prefix (List.prefix_append _ key.toList)
    rw [chars]
    exact List.prefix_append _ _
  · -- The key is the excess of the longer root, and the other key is empty.
    rintro (⟨excess, split⟩ | ⟨excess, split⟩)
    · refine ⟨.ofList excess, "", ?_⟩
      rw [← String.toList_inj]
      simp [split]
    · refine ⟨"", .ofList excess, ?_⟩
      rw [← String.toList_inj]
      simp [split]

/-- A delimiter of one character that two namespaces do not contain can be seen in every
composite key, and what stands before it is the namespace. -/
theorem eq_of_compose_eq {c : Char} (single : keys.delimiter = String.singleton c)
    (absent : c ∉ ns.toList) (absent' : c ∉ ns'.toList)
    (collide : keys.compose ns key = keys.compose ns' key') : ns = ns' := by
  have chars := congrArg (fun composite : String => composite.toList.takeWhile (· ≠ c)) collide
  simp only [toList_compose, single, String.toList_singleton, List.singleton_append,
    takeWhile_append_stop absent, takeWhile_append_stop absent'] at chars
  exact String.toList_inj.1 chars

/-- When two entries collide. First, of any two entries, the one with the namespace of fewer
octets collides with the other if they are the same, or if it is strictly shorter, its root
begins the root of the other, and its key is what remains behind it. Therefore one key never
collides with itself in two namespaces, whatever the delimiter; two namespaces collide for some
keys just if one of their roots begins the other; and with a delimiter of one character, two
namespaces that do not contain it never collide. -/
theorem collision_law (keys : Keys) :
    (∀ ns key ns' key', ns.utf8ByteSize ≤ ns'.utf8ByteSize →
      (keys.compose ns key = keys.compose ns' key' ↔
        ns = ns' ∧ key = key' ∨
          ns.utf8ByteSize < ns'.utf8ByteSize ∧
            (keys.root ns).toList <+: (keys.root ns').toList ∧
            encode key =
              (encode (keys.compose ns' key')).drop (keys.root ns).utf8ByteSize)) ∧
    (∀ ns ns' key, ns ≠ ns' → keys.compose ns key ≠ keys.compose ns' key) ∧
    (∀ ns ns', ns ≠ ns' →
      ((∃ key key', keys.compose ns key = keys.compose ns' key') ↔
        (keys.root ns).toList <+: (keys.root ns').toList ∨
          (keys.root ns').toList <+: (keys.root ns).toList)) ∧
    ∀ c, keys.delimiter = String.singleton c →
      ∀ ns ns', ns ≠ ns' → c ∉ ns.toList → c ∉ ns'.toList →
        ∀ key key', keys.compose ns key ≠ keys.compose ns' key' := by
  refine ⟨fun _ _ _ _ shorter => keys.compose_eq_iff shorter,
    fun _ _ key differ => (keys.compose_left_injective key).ne differ,
    fun _ _ _ => exists_collision_iff, ?_⟩
  intro c single ns ns' differ absent absent' key key' collide
  exact differ (eq_of_compose_eq single absent absent' collide)

/-- With the delimiter `::`, the namespaces `a` and `a:` collide, though neither contains it;
with `:` nothing in `é` collides with anything in `éa`. -/
theorem collision_law_overlapping :
    let double : Keys := ⟨"::"⟩
    "a".utf8ByteSize ≤ "a:".utf8ByteSize ∧
      double.compose "a" ":ü" = double.compose "a:" "ü" ∧
      double.compose "a" "ü" ≠ double.compose "a:" "ü" ∧
      standard.delimiter = String.singleton ':' ∧
      ∀ key key', standard.compose "é" key ≠ standard.compose "éa" key' := by
  intro double
  obtain ⟨law, apart, -⟩ := collision_law double
  obtain ⟨-, -, -, clean⟩ := collision_law standard
  have shorter : "a".utf8ByteSize ≤ "a:".utf8ByteSize := by decide
  refine ⟨shorter, (law _ _ _ _ shorter).2 (.inr ⟨by decide, by decide, by decide +kernel⟩),
    apart _ _ _ (by decide), rfl, clean ':' rfl _ _ (by decide) (by decide) (by decide)⟩

end Keys

end ExpiringCache
