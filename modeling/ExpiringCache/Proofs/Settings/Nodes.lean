import ExpiringCache.Proofs.Text.Trim
import ExpiringCache.Settings

/-!
# The nodes of an address

An address names its nodes between commas. Blanks around a node do not belong to it, and where
there are only blanks between two commas there is no node. So an address says nothing but its
nodes: commas and blanks can be put in at its ends and around its commas as one likes
(`nodesOf_of_padded`), and every address comes about in this way from its nodes, joined by
commas (`padded_nodes`).

Joined nodes are a normal form of addresses (`nodesOf_intercalate`, `nodes_normal`).
-/

namespace ExpiringCache

open Text Relation

variable {a b before after node : String} {nodes : List String}

/-! ## Commas and blanks -/

/-- A text of commas and blanks only. -/
def Vacant (s : String) : Prop := ∀ c ∈ s.toList, c = ',' ∨ isBlank c = true

instance (s : String) : Decidable (Vacant s) :=
  decidable_of_iff (s.toList.all fun c => c == ',' || isBlank c) (by simp [Vacant])

theorem vacant_append : Vacant (a ++ b) ↔ Vacant a ∧ Vacant b := by
  simp only [Vacant, String.toList_append, List.forall_mem_append]

theorem vacant_empty : Vacant "" := nofun

theorem vacant_comma : Vacant "," := by
  intro c member
  exact .inl (List.mem_singleton.1 member)

theorem vacant_of_blank (blank : Blank a) : Vacant a := fun c member => .inr (blank c member)

theorem vacant_iff_of_free (free : ',' ∉ a.toList) : Vacant a ↔ Blank a := by
  refine ⟨fun vacant c member => ?_, vacant_of_blank⟩
  rcases vacant c member with rfl | blank
  · exact absurd member free
  · exact blank

theorem free_append (free : ',' ∉ a.toList) (free' : ',' ∉ b.toList) :
    ',' ∉ (a ++ b).toList := by
  rw [String.toList_append, List.mem_append]
  exact not_or.2 ⟨free, free'⟩

/-- A text has no comma, or it is one without a comma before a comma and another text. -/
theorem comma_induction {P : String → Prop} (free : ∀ a, ',' ∉ a.toList → P a)
    (comma : ∀ a b, ',' ∉ a.toList → P a → P b → P (a ++ "," ++ b)) (a : String) : P a := by
  suffices all : ∀ cs : List Char, P (.ofList cs) by
    simpa using all a.toList
  intro cs
  induction hn : cs.length using Nat.strong_induction_on generalizing cs with
  | _ n ih =>
      by_cases found : ',' ∈ cs
      case neg => exact free _ (by simpa using found)
      case pos =>
        obtain ⟨first, rest, rfl, absent⟩ := List.eq_append_cons_of_mem found
        have absent : ',' ∉ (String.ofList first).toList := by simpa using absent
        have shorter : rest.length < n := by
          rw [← hn, List.length_append, List.length_cons]
          omega
        have split : String.ofList (first ++ ',' :: rest) =
            .ofList first ++ "," ++ .ofList rest := by
          rw [← String.toList_inj]
          simp
        rw [split]
        exact comma _ _ absent (free _ absent) (ih _ shorter rest rfl)

/-! ## Nodes -/

/-- What a node is: some text without a comma, and without a blank at its ends. -/
structure IsNode (node : String) : Prop where
  nonempty : node ≠ ""
  noComma : ',' ∉ node.toList
  tight : Tight node

/-- Without a comma there is one node or none. -/
theorem nodesOf_of_free (free : ',' ∉ a.toList) :
    nodesOf a = if trim a = "" then [] else [trim a] := by
  have empty : trim a = "" ↔ trimChars a.toList = [] := by
    rw [trim, ← String.toList_inj, String.toList_ofList]
    rfl
  simp only [nodesOf, List.splitOn_eq_singleton free, List.map_cons, List.map_nil, empty]
  split
  next gone => simp [gone]
  next left => simp [left, trim]

theorem isNode_of_mem (named : node ∈ nodesOf a) : IsNode node := by
  induction a using comma_induction with
  | free a absent =>
      rw [nodesOf_of_free absent] at named
      split at named
      next => cases named
      next left =>
        rw [List.mem_singleton.1 named]
        obtain ⟨tight, before, after, -, -, split⟩ := exists_trim a
        refine ⟨left, fun member => absent ?_, tight⟩
        rw [split]
        simp [member]
  | comma a b absent first later =>
      rw [nodes_join, List.mem_append] at named
      exact named.elim first later

/-- A node by itself is the one node that it names. -/
theorem nodesOf_node (isNode : IsNode node) : nodesOf node = [node] := by
  have trimmed := trim_of_tight isNode.tight blank_empty blank_empty
  rw [String.empty_append, String.append_empty] at trimmed
  rw [nodesOf_of_free isNode.noComma, trimmed, if_neg isNode.nonempty]

/-- An address names no nodes just if there is nothing in it but commas and blanks. -/
theorem nodesOf_eq_nil_iff : nodesOf a = [] ↔ Vacant a := by
  induction a using comma_induction with
  | free a absent =>
      rw [nodesOf_of_free absent, vacant_iff_of_free absent, ← trim_eq_empty_iff]
      simp
  | comma a b absent first later =>
      rw [nodes_join, List.append_eq_nil_iff, first, later, vacant_append, vacant_append]
      simp [vacant_comma]

/-- Nodes that are joined by commas are read as these nodes. -/
theorem nodesOf_intercalate (each : ∀ node ∈ nodes, IsNode node) :
    nodesOf (",".intercalate nodes) = nodes := by
  induction nodes with
  | nil => exact nodesOf_eq_nil_iff.2 vacant_empty
  | cons node rest ih =>
      have first := nodesOf_node (each node List.mem_cons_self)
      have others := ih fun node member => each node (.tail _ member)
      cases rest with
      | nil => rw [String.intercalate_singleton, first]
      | cons next rest =>
          rw [String.intercalate_cons_cons, nodes_join, first, others, List.singleton_append]

/-! ## Putting in commas and blanks -/

/-- Commas and blanks are put in at the ends of an address, or around one of its commas. -/
inductive Padded : String → String → Prop
  | ends {before after : String} (address : String) (front : Vacant before) (back : Vacant after) :
      Padded address (before ++ address ++ after)
  | comma {before after : String} (first later : String) (front : Vacant before)
      (back : Vacant after) :
      Padded (first ++ "," ++ later) (first ++ before ++ "," ++ (after ++ later))

theorem free_of_blank (blank : Blank a) : ',' ∉ a.toList := by
  intro member
  have visible : isBlank ',' = false := by decide
  rw [blank ',' member] at visible
  cases visible

/-- Blanks at the ends of an address make no difference. -/
theorem nodesOf_blanks (blank : Blank before) (blank' : Blank after) (a : String) :
    nodesOf (before ++ a ++ after) = nodesOf a := by
  have front (a : String) : nodesOf (before ++ a) = nodesOf a := by
    have trimmed (a : String) : trim (before ++ a) = trim a := by
      simpa using trim_padded blank blank_empty a
    induction a using comma_induction with
    | free a absent =>
        rw [nodesOf_of_free (free_append (free_of_blank blank) absent), nodesOf_of_free absent,
          trimmed]
    | comma a b absent first later =>
        rw [← String.append_assoc, ← String.append_assoc, nodes_join, first, nodes_join]
  rw [String.append_assoc, front]
  induction a using comma_induction with
  | free a absent =>
      have trimmed : trim (a ++ after) = trim a := by
        simpa using trim_padded blank_empty blank' a
      rw [nodesOf_of_free (free_append absent (free_of_blank blank')), nodesOf_of_free absent,
        trimmed]
  | comma a b absent first later =>
      rw [String.append_assoc, nodes_join, later, nodes_join]

/-- Commas and blanks before an address name no further nodes. -/
theorem nodesOf_vacant_append (vacant : Vacant before) (a : String) :
    nodesOf (before ++ a) = nodesOf a := by
  induction before using comma_induction with
  | free before absent =>
      simpa using nodesOf_blanks ((vacant_iff_of_free absent).1 vacant) blank_empty a
  | comma before more absent first later =>
      obtain ⟨⟨front, -⟩, back⟩ := vacant_append.1 vacant |>.imp_left vacant_append.1
      rw [String.append_assoc, nodes_join, nodesOf_eq_nil_iff.2 front, later back,
        List.nil_append]

/-- Commas and blanks after an address name no further nodes. -/
theorem nodesOf_append_vacant (vacant : Vacant after) (a : String) :
    nodesOf (a ++ after) = nodesOf a := by
  induction after using comma_induction with
  | free after absent =>
      simpa using nodesOf_blanks blank_empty ((vacant_iff_of_free absent).1 vacant) a
  | comma after more absent first later =>
      obtain ⟨⟨front, -⟩, back⟩ := vacant_append.1 vacant |>.imp_left vacant_append.1
      rw [← String.append_assoc, ← String.append_assoc, nodes_join, first front,
        nodesOf_eq_nil_iff.2 back, List.append_nil]

theorem nodesOf_of_padded (padded : Padded a b) : nodesOf b = nodesOf a := by
  cases padded with
  | ends address front back =>
      rw [nodesOf_append_vacant back, nodesOf_vacant_append front]
  | comma first later front back =>
      rw [nodes_join, nodesOf_append_vacant front, nodesOf_vacant_append back, nodes_join]

/-- However often commas and blanks are put in, the nodes stay the same. -/
theorem nodesOf_of_paddings (padded : ReflTransGen Padded a b) : nodesOf b = nodesOf a := by
  induction padded with
  | refl => rfl
  | tail _ last ih => rw [nodesOf_of_padded last, ih]

/-! ## The normal form -/

/-- What can be put into an address can be put in before a comma and behind one. -/
theorem Padded.beside (padded : Padded a b) (other : String) :
    ReflTransGen Padded (a ++ "," ++ other) (b ++ "," ++ other) ∧
      ReflTransGen Padded (other ++ "," ++ a) (other ++ "," ++ b) := by
  cases padded with
  | @ends before after _ front back =>
      have early := Padded.comma a other back vacant_empty
      have early' := Padded.ends (a ++ after ++ "," ++ ("" ++ other)) front vacant_empty
      have late := Padded.comma other a vacant_empty front
      have late' := Padded.ends (other ++ "" ++ "," ++ (before ++ a)) vacant_empty back
      constructor
      · simpa [String.append_assoc] using (ReflTransGen.single early).tail early'
      · simpa [String.append_assoc] using (ReflTransGen.single late).tail late'
  | comma first later front back =>
      have early := Padded.comma first (later ++ "," ++ other) front back
      have late := Padded.comma (other ++ "," ++ first) later front back
      constructor
      · simpa [String.append_assoc] using ReflTransGen.single early
      · simpa [String.append_assoc] using ReflTransGen.single late

/-- Commas and blanks can be put in on both sides of a comma. -/
theorem padded_join {a' b' : String} (padded : ReflTransGen Padded a a')
    (padded' : ReflTransGen Padded b b') :
    ReflTransGen Padded (a ++ "," ++ b) (a' ++ "," ++ b') :=
  (padded.lift' (· ++ "," ++ b) fun _ _ step => (step.beside b).1).trans
    (padded'.lift' (a' ++ "," ++ ·) fun _ _ step => (step.beside a').2)

/-- Every address is made from its nodes, joined by commas, by putting in commas and blanks. -/
theorem padded_nodes (a : String) : ReflTransGen Padded (",".intercalate (nodesOf a)) a := by
  induction a using comma_induction with
  | free a absent =>
      rw [nodesOf_of_free absent]
      split
      next gone =>
        have vacant := vacant_of_blank (trim_eq_empty_iff.1 gone)
        simpa using ReflTransGen.single (Padded.ends "" vacant vacant_empty)
      next =>
        obtain ⟨-, before, after, blank, blank', split⟩ := exists_trim a
        have whole := Padded.ends (trim a) (vacant_of_blank blank) (vacant_of_blank blank')
        rw [← split] at whole
        simpa using ReflTransGen.single whole
  | comma a b _ first later =>
      rw [nodes_join]
      by_cases none : nodesOf a = []
      case pos =>
        have front := vacant_append.2 ⟨nodesOf_eq_nil_iff.1 none, vacant_comma⟩
        have last := Padded.ends b front vacant_empty
        rw [String.append_empty] at last
        rw [none, List.nil_append]
        exact later.tail last
      by_cases none' : nodesOf b = []
      case pos =>
        have back := vacant_append.2 ⟨vacant_comma, nodesOf_eq_nil_iff.1 none'⟩
        have last := Padded.ends a vacant_empty back
        rw [String.empty_append, ← String.append_assoc] at last
        rw [none', List.append_nil]
        exact first.tail last
      rw [String.intercalate_append_of_ne_nil none none']
      exact padded_join first later

/-- The nodes of an address are texts without commas and without blanks at their ends, and
these are all the nodes there can be: joined by commas, they are read as they are. Two addresses
around a comma have the nodes of both. To put in commas and blanks, at the ends or around the
commas, leaves the nodes as they are, and that is how every address comes about from its nodes,
joined by commas. An address has no nodes just if it is made of commas and blanks only. -/
theorem nodes_normal :
    (∀ a, ∀ node ∈ nodesOf a, IsNode node) ∧
    (∀ nodes : List String, (∀ node ∈ nodes, IsNode node) →
      nodesOf (",".intercalate nodes) = nodes) ∧
    (∀ a, nodesOf (",".intercalate (nodesOf a)) = nodesOf a) ∧
    (∀ a b, nodesOf (a ++ "," ++ b) = nodesOf a ++ nodesOf b) ∧
    (∀ a b, ReflTransGen Padded a b → nodesOf b = nodesOf a) ∧
    (∀ a, ReflTransGen Padded (",".intercalate (nodesOf a)) a) ∧
    ∀ a, nodesOf a = [] ↔ ∀ c ∈ a.toList, c = ',' ∨ isBlank c = true :=
  ⟨fun _ _ named => isNode_of_mem named, fun _ each => nodesOf_intercalate each,
    fun _ => nodesOf_intercalate fun _ named => isNode_of_mem named, nodes_join,
    fun _ _ padded => nodesOf_of_paddings padded, padded_nodes, fun _ => nodesOf_eq_nil_iff⟩

/-- Two nodes with a tab, an ideographic space and more commas than it takes. -/
theorem nodes_normal_spaced :
    let plain := "h:1,h:2"
    let spaced := " h:1 ,,\u3000h:2\t,"
    let nodes := ["h:1", "h:2"]
    ReflTransGen Padded plain spaced ∧ nodesOf spaced = nodes ∧
      "h:2" ∈ nodesOf spaced ∧ IsNode "h:2" ∧
      (∀ node ∈ nodes, IsNode node) ∧ nodesOf (",".intercalate nodes) = nodes := by
  intro plain spaced nodes
  obtain ⟨named, joined, -, -, same, -, -⟩ := nodes_normal
  have read : nodesOf plain = nodes := by decide +kernel
  have each : ∀ node ∈ nodes, IsNode node := by
    intro node member
    rw [← read] at member
    exact named plain node member
  have padded : ReflTransGen Padded plain spaced := by
    have apart : plain = "h:1" ++ "," ++ "h:2" := by decide +kernel
    have whole : spaced = " " ++ ("h:1" ++ " " ++ "," ++ (",\u3000" ++ "h:2")) ++ "\t," := by
      decide +kernel
    rw [apart, whole]
    exact (ReflTransGen.single (.comma "h:1" "h:2" (by decide +kernel) (by decide +kernel))).tail
      (.ends _ (by decide +kernel) (by decide +kernel))
  have kept : nodesOf spaced = nodes := (same plain spaced padded).trans read
  have member : "h:2" ∈ nodesOf spaced := by
    rw [kept]
    exact .tail _ (.head _)
  exact ⟨padded, kept, member, named spaced "h:2" member, each, joined nodes each⟩

end ExpiringCache
