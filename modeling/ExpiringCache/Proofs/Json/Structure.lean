import ExpiringCache.Json.Read
import ExpiringCache.Proofs.Json.Document

/-!
# How structures are written as JSON objects

An object writes a structure if each field is there under one of its names, with a
document that writes its value, or is left out and has its default; members of other
names may be anywhere (`Written`). Readers that suit the fields (`Layout`) get the
structure back, whatever the order of the members (`Layout.readMembers_of_written`),
and never get anything from an object that names a field twice
(`Layout.once_of_readMembers`).
-/

namespace ExpiringCache.Json

/-- A field of a structure, as texts have it. -/
structure TextField (σ : Type) where
  /-- The names that the field goes by. -/
  names : List String
  {Value : Type}
  get : σ → Value
  set : Value → σ → σ
  get_set : ∀ v s, get (set v s) = v := by exact fun _ _ => rfl
  /-- Whether a document writes a value of the field. -/
  Writes : Value → Document → Prop

/-- The members of an object, by their names. -/
def Members.ofList : List (String × Document) → Members
  | [] => .done
  | (name, d) :: rest => .cons (.ok name) d (ofList rest)

theorem Members.whole_ofList {ms : List (String × Document)}
    (whole : Token.Whole (Members.ofList ms).tokens) : ∀ m ∈ ms, Token.Whole m.2.tokens := by
  induction ms with
  | nil => exact nofun
  | cons m rest ih =>
      have inside := whole.tail.tail
      intro m' there
      rcases List.mem_cons.1 there with rfl | later
      · exact inside.left
      · exact ih inside.right.right m' later

section Writing

variable {σ : Type}

/-- No two members have names of the same field. -/
def TextField.Once (f : TextField σ) (ms : List (String × Document)) : Prop :=
  ms.Pairwise fun m m' => ¬ (m.1 ∈ f.names ∧ m'.1 ∈ f.names)

/-- Whether members write a structure. -/
structure Written (fields : List (TextField σ)) (default s : σ) (ms : List (String × Document)) :
    Prop where
  once : ∀ f ∈ fields, f.Once ms
  /-- Members with the name of a field write its value. -/
  right : ∀ f ∈ fields, ∀ m ∈ ms, m.1 ∈ f.names → f.Writes (f.get s) m.2
  /-- A field that is left out has its default. -/
  omitted : ∀ f ∈ fields, (∀ m ∈ ms, m.1 ∉ f.names) → f.get s = f.get default

/-- Whether a document writes a structure. -/
def Document.WritesStructure (fields : List (TextField σ)) (default s : σ) (d : Document) : Prop :=
  ∃ ms, d = .object (.ofList ms) ∧ Written fields default s ms

/-- Whether a document is an object in which a field is named twice. -/
def Document.NamesTwice (fields : List (TextField σ)) (d : Document) : Prop :=
  ∃ ms, d = .object (.ofList ms) ∧ ∃ f ∈ fields, ¬ f.Once ms

/-! ## Readers -/

/-- Whether a reader suits a field. -/
structure TextField.Suits (f : TextField σ) (reader : Document.FieldReader σ) : Prop where
  names : f.names = reader.name :: reader.aliases
  reads : ∀ v d s, Token.Whole d.tokens → f.Writes v d → reader.read d s = .ok (f.set v s)

/-- Readers that suit fields, which are apart from each other and make up the whole of
a structure. -/
structure Layout (readers : List (Document.FieldReader σ)) (fields : List (TextField σ)) :
    Prop where
  suits : List.Forall₂ (fun reader f => f.Suits reader) readers fields
  apart : fields.Pairwise fun f g => f.names.Disjoint g.names
  frame : ∀ f ∈ fields, ∀ g ∈ fields, g.names ≠ f.names → ∀ v s, g.get (f.set v s) = g.get s
  ext : ∀ s s', (∀ f ∈ fields, f.get s = f.get s') → s = s'

theorem TextField.Suits.isNamed_iff {f : TextField σ} {reader : Document.FieldReader σ}
    (suits : f.Suits reader) (name : String) : reader.isNamed name = true ↔ name ∈ f.names := by
  rw [Document.FieldReader.isNamed, Bool.or_eq_true, beq_iff_eq, List.contains_iff_mem,
    suits.names, List.mem_cons, eq_comm]

namespace Layout

variable {readers : List (Document.FieldReader σ)} {fields : List (TextField σ)}
  {ms : List (String × Document)} {seen : List String} {default s state : σ}

/-- A name is that of one field at most. -/
theorem eq_of_name (layout : Layout readers fields) {f g : TextField σ} (member : f ∈ fields)
    (member' : g ∈ fields) {name : String} (named : name ∈ f.names) (named' : name ∈ g.names) :
    f = g := by
  by_contra differ
  have symm : Std.Symm fun f g : TextField σ => f.names.Disjoint g.names :=
    ⟨fun _ _ apart => apart.symm⟩
  exact layout.apart.forall member member' differ named named'

theorem exists_reader (layout : Layout readers fields) {f : TextField σ} (member : f ∈ fields) :
    ∃ reader ∈ readers, f.Suits reader := by
  have suits := layout.suits
  clear layout
  induction suits with
  | nil => cases member
  | cons first _ ih =>
      rcases List.mem_cons.1 member with rfl | later
      · exact ⟨_, List.mem_cons_self, first⟩
      · obtain ⟨reader, among, suits⟩ := ih later
        exact ⟨reader, .tail _ among, suits⟩

theorem exists_field (layout : Layout readers fields) {reader : Document.FieldReader σ}
    (member : reader ∈ readers) : ∃ f ∈ fields, f.Suits reader := by
  have suits := layout.suits
  clear layout
  induction suits with
  | nil => cases member
  | cons first _ ih =>
      rcases List.mem_cons.1 member with rfl | later
      · exact ⟨_, List.mem_cons_self, first⟩
      · obtain ⟨f, among, suits⟩ := ih later
        exact ⟨f, .tail _ among, suits⟩

/-- A reader that is found under a name suits a field of that name. -/
theorem suits_of_find? (layout : Layout readers fields) {name : String}
    {reader : Document.FieldReader σ} (found : readers.find? (·.isNamed name) = some reader) :
    ∃ f ∈ fields, f.Suits reader ∧ name ∈ f.names := by
  obtain ⟨f, member, suits⟩ := layout.exists_field (List.mem_of_find?_eq_some found)
  have named : reader.isNamed name = true := by simpa using List.find?_some found
  exact ⟨f, member, suits, (suits.isNamed_iff name).1 named⟩

/-- Under a name of a field a reader is found, and one that suits the field. -/
theorem find?_of_name (layout : Layout readers fields) {f : TextField σ} (member : f ∈ fields)
    {name : String} (named : name ∈ f.names) :
    ∃ reader, readers.find? (·.isNamed name) = some reader ∧ f.Suits reader := by
  obtain ⟨candidate, among, suits⟩ := layout.exists_reader member
  cases found : readers.find? (·.isNamed name) with
  | none =>
      exact absurd ((suits.isNamed_iff name).2 named) (List.find?_eq_none.1 found candidate among)
  | some reader =>
      obtain ⟨g, member', suits', named'⟩ := layout.suits_of_find? found
      obtain rfl := layout.eq_of_name member member' named named'
      exact ⟨reader, rfl, suits'⟩

/-! ## What readers make of the members -/

/-- Whatever is left of the members of a written structure is read, and what is not
there any more has been read before. -/
theorem readMembers_of_written (layout : Layout readers fields)
    (once : ∀ f ∈ fields, f.Once ms)
    (right : ∀ f ∈ fields, ∀ m ∈ ms, m.1 ∈ f.names → f.Writes (f.get s) m.2)
    (sound : ∀ m ∈ ms, Token.Whole m.2.tokens)
    (fresh : ∀ f ∈ fields, ∀ name ∈ seen, name ∈ f.names → ∀ m ∈ ms, m.1 ∉ f.names)
    (pending : ∀ f ∈ fields, f.get state ≠ f.get s → ∃ m ∈ ms, m.1 ∈ f.names) :
    Document.readMembers readers (.ofList ms) seen state = .ok s := by
  induction ms generalizing seen state with
  | nil =>
      have complete : state = s := layout.ext state s fun f member => by
        by_contra differ
        obtain ⟨m, nowhere, -⟩ := pending f member differ
        cases nowhere
      rw [complete]
      rfl
  | cons m rest ih =>
      obtain ⟨name, d⟩ := m
      have onceLater : ∀ f ∈ fields, f.Once rest := fun f member => (once f member).tail
      have rightLater : ∀ f ∈ fields, ∀ m ∈ rest, m.1 ∈ f.names → f.Writes (f.get s) m.2 :=
        fun f member m later => right f member m (.tail _ later)
      have soundLater : ∀ m ∈ rest, Token.Whole m.2.tokens := fun m later => sound m (.tail _ later)
      have whole := sound (name, d) List.mem_cons_self
      rw [Members.ofList, Document.readMembers]
      cases found : readers.find? (·.isNamed name) with
      | none =>
          have unknown : ∀ f ∈ fields, name ∉ f.names := by
            intro f member named
            obtain ⟨reader, there, -⟩ := layout.find?_of_name member named
            rw [found] at there
            cases there
          simp only [d.skip?_of_whole whole]
          refine ih onceLater rightLater soundLater ?_ ?_
          · intro f member before among named m later
            exact fresh f member before among named m (.tail _ later)
          · intro f member differ
            obtain ⟨m, among, named⟩ := pending f member differ
            rcases List.mem_cons.1 among with rfl | later
            · exact absurd named (unknown f member)
            · exact ⟨m, later, named⟩
      | some reader =>
          obtain ⟨f, member, suits, named⟩ := layout.suits_of_find? found
          have main : reader.name ∈ f.names := by
            rw [suits.names]
            exact List.mem_cons_self
          have unseen : seen.contains reader.name = false := by
            rw [Bool.eq_false_iff, Ne, List.contains_iff_mem]
            intro before
            exact fresh f member reader.name before main (name, d) List.mem_cons_self named
          have read := suits.reads (f.get s) d state whole
            (right f member (name, d) List.mem_cons_self named)
          simp only [unseen, Bool.false_eq_true, if_false, read]
          refine ih onceLater rightLater soundLater ?_ ?_
          · intro g member' other among named' m later
            rcases List.mem_cons.1 among with rfl | before
            · obtain rfl := layout.eq_of_name member member' main named'
              have single := List.rel_of_pairwise_cons (once f member) later
              exact fun again => single ⟨named, again⟩
            · exact fresh g member' other before named' m (.tail _ later)
          · intro g member' differ
            by_cases same : g.names = f.names
            · obtain rfl := layout.eq_of_name member member' main (same ▸ main)
              exact absurd (f.get_set _ state) differ
            · rw [layout.frame f member g member' same] at differ
              obtain ⟨m, among, named'⟩ := pending g member' differ
              rcases List.mem_cons.1 among with rfl | later
              · obtain rfl := layout.eq_of_name member member' named named'
                exact absurd rfl same
              · exact ⟨m, later, named'⟩

/-- Readers that get a structure from members have been content with each of them, and
have found no field twice. -/
theorem once_of_readMembers (layout : Layout readers fields)
    (read : Document.readMembers readers (.ofList ms) seen state = .ok s) :
    (∀ f ∈ fields, f.Once ms ∧
        ∀ reader, f.Suits reader → reader.name ∈ seen → ∀ m ∈ ms, m.1 ∉ f.names) ∧
      ∀ m ∈ ms, ∀ reader, readers.find? (·.isNamed m.1) = some reader →
        ∃ before after, reader.read m.2 before = .ok after := by
  induction ms generalizing seen state with
  | nil => exact ⟨fun _ _ => ⟨.nil, fun _ _ _ => nofun⟩, nofun⟩
  | cons m rest ih =>
      obtain ⟨name, d⟩ := m
      rw [Members.ofList, Document.readMembers] at read
      cases found : readers.find? (·.isNamed name) with
      | none =>
          have unknown : ∀ f ∈ fields, name ∉ f.names := by
            intro f member named
            obtain ⟨reader, there, -⟩ := layout.find?_of_name member named
            rw [found] at there
            cases there
          simp only [found] at read
          split at read
          next => cases read
          next =>
            obtain ⟨once, content⟩ := ih read
            refine ⟨fun f member => ⟨?_, ?_⟩, ?_⟩
            · exact (once f member).1.cons fun m _ both => unknown f member both.1
            · intro reader suits before m there
              rcases List.mem_cons.1 there with rfl | later
              · exact unknown f member
              · exact (once f member).2 reader suits before m later
            · intro m there reader known
              rcases List.mem_cons.1 there with rfl | later
              · rw [found] at known
                cases known
              · exact content m later reader known
      | some reader =>
          obtain ⟨f, member, suits, named⟩ := layout.suits_of_find? found
          simp only [found] at read
          split at read
          next => cases read
          next unseen =>
            rw [Bool.not_eq_true, Bool.eq_false_iff, Ne, List.contains_iff_mem] at unseen
            split at read
            next after taken =>
              obtain ⟨once, content⟩ := ih read
              refine ⟨fun g member' => ⟨?_, ?_⟩, ?_⟩
              · refine (once g member').1.cons fun m later both => ?_
                obtain rfl := layout.eq_of_name member member' named both.1
                exact (once f member).2 reader suits List.mem_cons_self m later both.2
              · intro reader' suits' before m there
                rcases List.mem_cons.1 there with rfl | later
                · intro named'
                  obtain rfl := layout.eq_of_name member member' named named'
                  have same : reader'.name = reader.name :=
                    (List.cons.inj (suits'.names.symm.trans suits.names)).1
                  exact unseen (same ▸ before)
                · exact (once g member').2 reader' suits' (.tail _ before) m later
              · intro m there reader' known
                rcases List.mem_cons.1 there with rfl | later
                · obtain rfl := Option.some.inj (found.symm.trans known)
                  exact ⟨state, after, taken⟩
                · exact content m later reader' known
            next => cases read

/-! ## Structures -/

theorem readStructure_of_written (layout : Layout readers fields) {d : Document}
    (whole : Token.Whole d.tokens) (writes : d.WritesStructure fields default s) (name : String) :
    Document.readStructure name readers default d = .ok s := by
  obtain ⟨ms, rfl, written⟩ := writes
  refine layout.readMembers_of_written written.once written.right
    (Members.whole_ofList whole.tail) (fun _ _ => nofun) ?_
  intro f member differ
  by_contra absent
  refine differ (written.omitted f member fun m there named => ?_).symm
  exact absent ⟨m, there, named⟩

theorem map_readStructure_of_written (layout : Layout readers fields) {τ : Type} {d : Document}
    (whole : Token.Whole d.tokens) (writes : d.WritesStructure fields default s) (name : String)
    (f : σ → τ) : (Document.readStructure name readers default d).map f = .ok (f s) := by
  rw [layout.readStructure_of_written whole writes]
  rfl

theorem not_twice_of_readStructure (layout : Layout readers fields) {d : Document} {name : String}
    (read : Document.readStructure name readers default d = .ok s) : ¬ d.NamesTwice fields := by
  rintro ⟨ms, rfl, f, member, twice⟩
  exact twice ((layout.once_of_readMembers read).1 f member).1

theorem not_twice_of_map (layout : Layout readers fields) {τ : Type} {d : Document}
    {name : String} {f : σ → τ} {result : τ}
    (taken : (Document.readStructure name readers default d).map f = .ok result) :
    ¬ d.NamesTwice fields := by
  cases read : Document.readStructure name readers default d with
  | ok s => exact layout.not_twice_of_readStructure read
  | error e =>
      rw [read] at taken
      cases taken

end Layout

end Writing

end ExpiringCache.Json
