import ExpiringCache.Json.Token
import ExpiringCache.Proofs.Json.Numeral
import ExpiringCache.Proofs.Json.Quote

/-!
# How JSON tokens are spelt

A text spells a sequence of tokens if it has their spellings in it, one after the other,
with blanks anywhere between them (`Token.Spells`). Where no number runs into what
follows it, the tokens of the text are those (`Token.ofChars_of_spells`).
-/

namespace ExpiringCache.Json

namespace Token

/-! ## Spellings -/

/-- The characters that spell a token. -/
inductive Spelling : Token → List Char → Prop
  | leftBrace : Spelling .leftBrace ['\x7b']
  | rightBrace : Spelling .rightBrace ['\x7d']
  | leftBracket : Spelling .leftBracket ['[']
  | rightBracket : Spelling .rightBracket [']']
  | comma : Spelling .comma [',']
  | colon : Spelling .colon [':']
  | null : Spelling .null "null".toList
  | yes : Spelling (.bool true) "true".toList
  | no : Spelling (.bool false) "false".toList
  | natural (n : UInt64) : Spelling (.number (.ok (.natural n))) (Nat.toDigits 10 n.toNat)
  | negative {i : Int64} (below : i < 0) :
      Spelling (.number (.ok (.negative i))) ('-' :: Nat.toDigits 10 i.toInt.natAbs)
  /-- Any number at all, whatever its value is taken to be. -/
  | number {n : Numeral} {cs : List Char} (spells : n.Spells cs) :
      Spelling (.number (n.value?.elim (.error .malformed) .ok)) cs
  | text {ps : List Piece} {cs t : List Char} (spells : Quote.Spells ps cs)
      (reads : Quote.Reads ps t) :
      Spelling (.string (.ok (String.ofList t))) ('"' :: (cs ++ ['"']))
  /-- A string in which a surrogate has no partner. -/
  | textless {ps : List Piece} {cs : List Char} (spells : Quote.Spells ps cs)
      (unreadable : ∀ t, ¬ Quote.Reads ps t) :
      Spelling (.string (.error .malformed)) ('"' :: (cs ++ ['"']))

/-- Nothing but blanks. -/
def Blank (cs : List Char) : Prop := ∀ c ∈ cs, c = ' ' ∨ c = '\n' ∨ c = '\t' ∨ c = '\r'

/-- The texts that spell a sequence of tokens. -/
inductive Spells : List Token → List Char → Prop
  | done {blanks : List Char} (blank : Blank blanks) : Spells [] blanks
  | token {t : Token} {ts : List Token} {blanks unit rest : List Char} (blank : Blank blanks)
      (spelling : Spelling t unit) (others : Spells ts rest) :
      Spells (t :: ts) (blanks ++ (unit ++ rest))

theorem blank_nil : Blank [] := by simp [Blank]

/-- A token without blanks in front. -/
theorem Spells.next {t : Token} {ts : List Token} {unit rest : List Char}
    (spelling : Spelling t unit) (others : Spells ts rest) : Spells (t :: ts) (unit ++ rest) :=
  .token blank_nil spelling others

/-- A text that stands for itself between quotes. -/
theorem Spelling.plain (s : String) (plain : s.toList.all Quote.isPlain = true) :
    Spelling (.string (.ok s)) ('"' :: (s.toList ++ ['"'])) := by
  obtain ⟨spells, reads⟩ := Quote.spells_plain plain
  have spelling := Spelling.text spells reads
  rwa [String.ofList_toList] at spelling

def isNumber : Token → Bool
  | number _ => true
  | _ => false

/-- Whether a token can follow a value. -/
def isCloser : Token → Bool
  | comma | rightBrace | rightBracket => true
  | _ => false

/-- No number is followed by anything that it could run into. -/
def Separated (ts : List Token) : Prop := ts.IsChain fun t u => t.isNumber → u.isCloser

/-! ## Single tokens -/

theorem ofCharsWith_blank {c : Char} (blank : c = ' ' ∨ c = '\n' ∨ c = '\t' ∨ c = '\r')
    (fuel : Nat) (rest : List Char) :
    ofCharsWith (fuel + 1) (c :: rest) = ofCharsWith fuel rest := by
  rcases blank with rfl | rfl | rfl | rfl <;> rfl

theorem ofCharsWith_blanks {blanks : List Char} (blank : Blank blanks) (fuel : Nat)
    (rest : List Char) :
    ofCharsWith (blanks.length + fuel) (blanks ++ rest) = ofCharsWith fuel rest := by
  induction blanks with
  | nil => rw [List.length_nil, Nat.zero_add, List.nil_append]
  | cons c blanks ih =>
      have later : Blank blanks := fun d member => blank d (.tail _ member)
      rw [List.length_cons, Nat.add_right_comm, List.cons_append,
        ofCharsWith_blank (blank c List.mem_cons_self), ih later]

theorem ofCharsWith_number {n : Numeral} {cs : List Char} (spells : n.Spells cs)
    {rest : List Char} (ends : Numeral.Ends rest) (fuel : Nat) :
    ofCharsWith (fuel + 1) (cs ++ rest) =
      .number (n.value?.elim (.error .malformed) .ok) :: ofCharsWith fuel rest := by
  have found := Numeral.scan_of_spells spells ends
  obtain ⟨c, more, rfl, start⟩ := Numeral.head_of_spells spells
  rw [List.cons_append] at found ⊢
  have other {d : Char} (elsewhere : ¬ (d = '-' ∨ d.isDigit = true)) : c ≠ d :=
    fun same => elsewhere (same ▸ start)
  have solid : isSpace c = false := by
    simp only [isSpace, Bool.or_eq_false_iff, beq_eq_false_iff_ne]
    exact ⟨⟨⟨other (by decide), other (by decide)⟩, other (by decide)⟩, other (by decide)⟩
  rw [ofCharsWith]
  · rw [if_neg (by rw [solid]; decide), if_pos start, found]
  all_goals exact other (by decide)

/-- A string up to its closing quote. -/
theorem scan_of_spelling {ps : List Piece} {cs : List Char} (spells : Quote.Spells ps cs)
    (fuel : Nat) (rest : List Char) :
    ofCharsWith (fuel + 1) ('"' :: (cs ++ ['"']) ++ rest) =
      .string (Quote.text ⟨ps, none, rest⟩) :: ofCharsWith fuel rest := by
  have found := Quote.scan_of_spells spells rest
  have closed : '"' :: (cs ++ ['"']) ++ rest = '"' :: (cs ++ '"' :: rest) := by simp
  rw [closed]
  simp only [ofCharsWith, found]

theorem ofCharsWith_spelling {t : Token} {unit : List Char} (spelling : Spelling t unit)
    {rest : List Char} (ends : t.isNumber → Numeral.Ends rest) (fuel : Nat) :
    ofCharsWith (fuel + 1) (unit ++ rest) = t :: ofCharsWith fuel rest := by
  cases spelling with
  | leftBrace | rightBrace | leftBracket | rightBracket | comma | colon => rfl
  | null | yes | no => rfl
  | natural n =>
      have whole := ofCharsWith_number (Numeral.spells_whole false n.toNat) (ends rfl) fuel
      rwa [Numeral.value?_natural] at whole
  | @negative i below =>
      have whole := ofCharsWith_number (Numeral.spells_whole true i.toInt.natAbs) (ends rfl) fuel
      rwa [Numeral.value?_negative below] at whole
  | number spells => exact ofCharsWith_number spells (ends rfl) fuel
  | text spells reads =>
      rw [scan_of_spelling spells, Quote.text, (Quote.textOf_eq_some_iff spells _).2 reads]
  | @textless ps cs spells unreadable =>
      have none : Quote.textOf ps = none := by
        rw [Option.eq_none_iff_forall_ne_some]
        exact fun t read => unreadable t ((Quote.textOf_eq_some_iff spells t).1 read)
      rw [scan_of_spelling spells, Quote.text, none]

theorem Spelling.ne_nil {t : Token} {unit : List Char} (spelling : Spelling t unit) :
    unit ≠ [] := by
  cases spelling with
  | natural => exact Nat.toDigits_ne_nil
  | number spells =>
      obtain ⟨c, rest, rfl, -⟩ := Numeral.head_of_spells spells
      exact List.cons_ne_nil c rest
  | _ => exact List.cons_ne_nil _ _

/-! ## Sequences of tokens -/

/-- What closes a value, or a blank in front of it, ends a number as well. -/
theorem ends_of_spells {ts : List Token} {cs : List Char} (spells : Spells ts cs)
    (closed : ∀ u, ts.head? = some u → u.isCloser) : Numeral.Ends cs := by
  have atBlank {blanks rest : List Char} (blank : Blank blanks) (ends : Numeral.Ends rest) :
      Numeral.Ends (blanks ++ rest) := by
    cases blanks with
    | nil => exact ends
    | cons c blanks =>
        intro d first
        obtain rfl : c = d := Option.some.inj first
        rcases blank c List.mem_cons_self with rfl | rfl | rfl | rfl <;> decide
  cases spells with
  | done blank =>
      have empty : Numeral.Ends [] := nofun
      simpa using atBlank blank empty
  | @token t _ _ unit rest blank spelling others =>
      refine atBlank blank fun c first => ?_
      have closes := closed t rfl
      cases spelling with
      | comma | rightBrace | rightBracket =>
          obtain rfl := Option.some.inj first
          decide
      | _ => cases closes

/-- The tokens of a text are those that it spells, where no number runs into what
follows it. -/
theorem ofCharsWith_of_spells {ts : List Token} {cs : List Char} (spells : Spells ts cs)
    (separated : Separated ts) {fuel : Nat} (enough : cs.length ≤ fuel) :
    ofCharsWith fuel cs = ts := by
  induction spells generalizing fuel with
  | @done blanks blank =>
      obtain ⟨more, rfl⟩ := Nat.exists_eq_add_of_le enough
      have skipped := ofCharsWith_blanks blank more []
      rw [List.append_nil] at skipped
      rw [skipped]
      cases more <;> rfl
  | @token t ts blanks unit rest blank spelling others ih =>
      have solid := spelling.ne_nil
      simp only [List.length_append] at enough
      have size : 0 < unit.length := List.length_pos_iff.2 solid
      obtain ⟨more, rfl⟩ : ∃ more, fuel = blanks.length + (more + 1) :=
        ⟨fuel - blanks.length - 1, by omega⟩
      have ends (numeric : t.isNumber) : Numeral.Ends rest := by
        refine ends_of_spells others fun u first => ?_
        exact (List.isChain_cons.1 separated).1 u first numeric
      rw [ofCharsWith_blanks blank, ofCharsWith_spelling spelling ends, ih separated.tail]
      omega

theorem ofChars_of_spells {ts : List Token} {cs : List Char} (spells : Spells ts cs)
    (separated : Separated ts) : ofChars cs = ts :=
  ofCharsWith_of_spells spells separated le_rfl

end Token

end ExpiringCache.Json
