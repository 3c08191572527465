import ExpiringCache.Json.Document
import ExpiringCache.Proofs.Json.Token

/-!
# How JSON documents are spelt

A document is a sequence of tokens, with commas between its items and members and with
brackets around them (`Document.tokens`). A text that spells these tokens is read as the
document, with nothing left over (`Document.ofChars_of_spells`), and whoever skips the
document finds no flaw in it (`Document.skip?_of_whole`).
-/

namespace ExpiringCache.Json

/-! ## Tokens -/

/-- What stands between an item and the others of an array. -/
def Items.separator : Items → List Token
  | .done => []
  | .broken _ | .cons .. => [.comma]

/-- What stands between a member and the others of an object. -/
def Members.separator : Members → List Token
  | .done => []
  | .broken _ | .cons .. => [.comma]

mutual

/-- The tokens of a document. -/
def Document.tokens : Document → List Token
  | .null => [.null]
  | .bool b => [.bool b]
  | .number v => [.number v]
  | .string v => [.string v]
  | .array items => .leftBracket :: items.tokens
  | .object members => .leftBrace :: members.tokens
  | .broken b => [.broken b]

/-- The tokens of the items of an array, and of the bracket behind them. -/
def Items.tokens : Items → List Token
  | .done => [.rightBracket]
  | .broken b => [.broken b]
  | .cons item rest => item.tokens ++ (rest.separator ++ rest.tokens)

/-- The tokens of the members of an object, and of the brace behind them. -/
def Members.tokens : Members → List Token
  | .done => [.rightBrace]
  | .broken b => [.broken b]
  | .cons key value rest =>
      .string key :: .colon :: (value.tokens ++ (rest.separator ++ rest.tokens))

end

namespace Token

/-- Whether a token is complete. -/
def isWhole : Token → Bool
  | broken _ | brokenString _ => false
  | _ => true

/-- No token breaks off. -/
def Whole (ts : List Token) : Prop := ∀ t ∈ ts, t.isWhole = true

theorem Whole.left {ts us : List Token} (whole : Whole (ts ++ us)) : Whole ts :=
  fun t member => whole t (List.mem_append_left us member)

theorem Whole.right {ts us : List Token} (whole : Whole (ts ++ us)) : Whole us :=
  fun t member => whole t (List.mem_append_right ts member)

theorem Whole.tail {t : Token} {ts : List Token} (whole : Whole (t :: ts)) : Whole ts :=
  fun u member => whole u (.tail t member)

theorem Spelling.isWhole {t : Token} {unit : List Char} (spelling : Spelling t unit) :
    t.isWhole = true := by
  cases spelling <;> rfl

theorem Spells.whole {ts : List Token} {cs : List Char} (spells : Spells ts cs) : Whole ts := by
  induction spells with
  | done => exact nofun
  | token blank spelling others ih =>
      intro t member
      rcases List.mem_cons.1 member with rfl | later
      · exact spelling.isWhole
      · exact ih t later

end Token

namespace Document

open Token (Whole Separated Spells)

/-! ## Reading -/

/-- No document starts like something that closes one. -/
theorem tokens_eq_cons (d : Document) : ∃ t ts, d.tokens = t :: ts ∧ t.isCloser = false := by
  cases d <;> exact ⟨_, _, rfl, rfl⟩

theorem value_leftBracket {rest : List Token} (inhabited : ∀ more, rest ≠ .rightBracket :: more)
    (fuel : Nat) :
    value (fuel + 1) (.leftBracket :: rest) =
      (.array (items fuel rest).1, (items fuel rest).2) := by
  rw [value]
  exact inhabited

theorem value_leftBrace {rest : List Token} (inhabited : ∀ more, rest ≠ .rightBrace :: more)
    (fuel : Nat) :
    value (fuel + 1) (.leftBrace :: rest) =
      (.object (members fuel rest).1, (members fuel rest).2) := by
  rw [value]
  exact inhabited

mutual

/-- The tokens of a document are read as the document. -/
theorem value_tokens (d : Document) (whole : Whole d.tokens) {fuel : Nat}
    (enough : d.tokens.length ≤ fuel) (rest : List Token) :
    value fuel (d.tokens ++ rest) = (d, rest) := by
  obtain ⟨more, rfl⟩ : ∃ more, fuel = more + 1 := by
    obtain ⟨t, ts, front, -⟩ := d.tokens_eq_cons
    rw [front, List.length_cons] at enough
    exact ⟨fuel - 1, by omega⟩
  cases d with
  | null | bool | number | string => rfl
  | array i =>
      cases inside : i with
      | done => rfl
      | broken b => rw [inside] at whole; cases whole (.broken b) (by simp [tokens, Items.tokens])
      | cons item others =>
          rw [← inside]
          have inhabited (after : List Token) : i.tokens ++ rest ≠ .rightBracket :: after := by
            obtain ⟨t, ts, front, opens⟩ := item.tokens_eq_cons
            intro closed
            rw [inside, Items.tokens, front] at closed
            rw [(List.cons.inj closed).1] at opens
            cases opens
          have read :=
            items_tokens i (inside ▸ nofun) whole.tail (Nat.le_of_succ_le_succ enough) rest
          show value (more + 1) (.leftBracket :: (i.tokens ++ rest)) = _
          rw [value_leftBracket inhabited, read]
  | object m =>
      cases inside : m with
      | done => rfl
      | broken b => rw [inside] at whole; cases whole (.broken b) (by simp [tokens, Members.tokens])
      | cons key v others =>
          rw [← inside]
          have inhabited (after : List Token) : m.tokens ++ rest ≠ .rightBrace :: after := by
            rw [inside]
            exact nofun
          have read :=
            members_tokens m (inside ▸ nofun) whole.tail (Nat.le_of_succ_le_succ enough) rest
          show value (more + 1) (.leftBrace :: (m.tokens ++ rest)) = _
          rw [value_leftBrace inhabited, read]
  | broken b => cases whole _ List.mem_cons_self

theorem items_tokens (i : Items) (inhabited : i ≠ .done) (whole : Whole i.tokens) {fuel : Nat}
    (enough : i.tokens.length ≤ fuel) (rest : List Token) :
    items fuel (i.tokens ++ rest) = (i, rest) := by
  cases i with
  | done => exact absurd rfl inhabited
  | broken b => cases whole _ List.mem_cons_self
  | cons item others =>
      obtain ⟨more, rfl⟩ : ∃ more, fuel = more + 1 := ⟨fuel - 1, by
        obtain ⟨t, ts, front, -⟩ := item.tokens_eq_cons
        rw [Items.tokens, front, List.cons_append, List.length_cons] at enough
        omega⟩
      rw [Items.tokens, List.append_assoc]
      simp only [Items.tokens, List.length_append] at enough
      have first := @value_tokens item whole.left more
      have later := whole.right.right
      cases next : others with
      | done =>
          rw [next] at enough
          simp only [Items.separator, Items.tokens, List.length_nil,
            List.length_singleton] at enough
          have read := first (by omega) (.rightBracket :: rest)
          show items (more + 1) (item.tokens ++ .rightBracket :: rest) = _
          simp only [items, read]
      | broken b => cases (next ▸ later) _ List.mem_cons_self
      | cons _ _ =>
          have inhabited : others ≠ .done := by rw [next]; exact nofun
          have comma : others.separator = [.comma] := by rw [next]; rfl
          rw [comma, List.length_singleton] at enough
          have read := first (by omega) (.comma :: (others.tokens ++ rest))
          have last := items_tokens others inhabited later (show _ ≤ more by omega) rest
          rw [← next, comma, List.append_assoc]
          show items (more + 1) (item.tokens ++ .comma :: (others.tokens ++ rest)) = _
          simp only [items, read, last]

theorem members_tokens (m : Members) (inhabited : m ≠ .done) (whole : Whole m.tokens)
    {fuel : Nat} (enough : m.tokens.length ≤ fuel) (rest : List Token) :
    members fuel (m.tokens ++ rest) = (m, rest) := by
  cases m with
  | done => exact absurd rfl inhabited
  | broken b => cases whole _ List.mem_cons_self
  | cons key v others =>
      obtain ⟨more, rfl⟩ : ∃ more, fuel = more + 1 := ⟨fuel - 1, by
        rw [Members.tokens, List.length_cons] at enough
        omega⟩
      simp only [Members.tokens, List.length_cons, List.length_append] at enough
      have first := @value_tokens v whole.tail.tail.left more
      have later := whole.tail.tail.right.right
      cases next : others with
      | done =>
          rw [next] at enough
          simp only [Members.separator, Members.tokens, List.length_nil] at enough
          have read := first (by omega) (.rightBrace :: rest)
          simp only [Members.tokens, Members.separator, List.cons_append, List.append_assoc,
            List.nil_append, members, read]
      | broken b => cases (next ▸ later) _ List.mem_cons_self
      | cons _ _ _ =>
          have inhabited : others ≠ .done := by rw [next]; exact nofun
          have comma : others.separator = [.comma] := by rw [next]; rfl
          rw [comma, List.length_singleton] at enough
          have read := first (by omega) (.comma :: (others.tokens ++ rest))
          have last := members_tokens others inhabited later (show _ ≤ more by omega) rest
          rw [← next, Members.tokens, comma]
          simp only [List.cons_append, List.append_assoc, List.nil_append, members, read, last]

end

/-! ## Numbers -/

/-- Whether something that can follow a value comes first, if there is anything. -/
def Closed (ts : List Token) : Prop := ∀ t, ts.head? = some t → t.isCloser = true

theorem separated_cons {t : Token} {ts : List Token} (plain : t.isNumber = false)
    (separated : Separated ts) : Separated (t :: ts) :=
  List.isChain_cons.2 ⟨fun _ _ numeric => absurd numeric (by simp [plain]), separated⟩

mutual

/-- A number in a document is followed by a comma or a closing bracket. -/
theorem separated_tokens (d : Document) {rest : List Token} (separated : Separated rest)
    (closed : Closed rest) : Separated (d.tokens ++ rest) := by
  cases d with
  | null | bool | string | broken => exact separated_cons rfl separated
  | number v => exact List.isChain_cons.2 ⟨fun t first _ => closed t first, separated⟩
  | array i => exact separated_cons rfl (separated_items i separated)
  | object m => exact separated_cons rfl (separated_members m separated)

theorem separated_items (i : Items) {rest : List Token} (separated : Separated rest) :
    Separated (i.tokens ++ rest) := by
  cases i with
  | done | broken => exact separated_cons rfl separated
  | cons item others =>
      have later := separated_items others separated
      rw [Items.tokens, List.append_assoc, List.append_assoc]
      cases others with
      | done =>
          refine separated_tokens item later ?_
          simp [Closed, Items.separator, Items.tokens, Token.isCloser]
      | broken | cons =>
          refine separated_tokens item (separated_cons rfl later) ?_
          simp [Closed, Items.separator, Token.isCloser]

theorem separated_members (m : Members) {rest : List Token} (separated : Separated rest) :
    Separated (m.tokens ++ rest) := by
  cases m with
  | done | broken => exact separated_cons rfl separated
  | cons key v others =>
      have later := separated_members others separated
      rw [Members.tokens, List.cons_append, List.cons_append, List.append_assoc,
        List.append_assoc]
      refine separated_cons rfl (separated_cons rfl ?_)
      cases others with
      | done =>
          refine separated_tokens v later ?_
          simp [Closed, Members.separator, Members.tokens, Token.isCloser]
      | broken | cons =>
          refine separated_tokens v (separated_cons rfl later) ?_
          simp [Closed, Members.separator, Token.isCloser]

end

/-! ## Texts -/

/-- A text that spells a document is read as the document, to its end. -/
theorem ofChars_of_spells {d : Document} {cs : List Char} (spells : Spells d.tokens cs) :
    ofChars cs = (d, []) := by
  have separated : Separated (d.tokens ++ []) := d.separated_tokens .nil nofun
  rw [List.append_nil] at separated
  have read := d.value_tokens spells.whole (show _ ≤ 2 * d.tokens.length + 1 by omega) []
  rw [List.append_nil] at read
  simp only [ofChars, Token.ofChars_of_spells spells separated, read]

/-! ## Skipping -/

mutual

/-- There is no flaw in a document that does not break off. -/
theorem skip?_of_whole (d : Document) (whole : Whole d.tokens) : d.skip? = none := by
  cases d with
  | null | bool | number | string => rfl
  | array i => exact skipItems?_of_whole i whole.tail
  | object m => exact skipMembers?_of_whole m whole.tail
  | broken b => cases whole _ List.mem_cons_self

theorem skipItems?_of_whole (i : Items) (whole : Whole i.tokens) : skipItems? i = none := by
  cases i with
  | done => rfl
  | broken b => cases whole _ List.mem_cons_self
  | cons item others =>
      have first := skip?_of_whole item whole.left
      have later := skipItems?_of_whole others whole.right.right
      rw [skipItems?, first, later]
      rfl

theorem skipMembers?_of_whole (m : Members) (whole : Whole m.tokens) :
    skipMembers? m = none := by
  cases m with
  | done => rfl
  | broken b => cases whole _ List.mem_cons_self
  | cons key v others =>
      have first := skip?_of_whole v whole.tail.tail.left
      have later := skipMembers?_of_whole others whole.tail.tail.right.right
      rw [skipMembers?, first, later]
      rfl

end

end Document

end ExpiringCache.Json
