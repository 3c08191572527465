import ExpiringCache.Proofs.Text.Numeral
import ExpiringCache.Text.Quoted

/-!
# Quoted texts can be told apart

A character inside a quoted text reads back as itself, and so does what follows it
(`unquoteChar?_quoteChar`). So the end of a quoted text can be seen, and two quoted
texts are the same only if the texts are (`quoted_append_inj`), whatever they are
followed by.
-/

namespace ExpiringCache.Text

/-- What stands before a character can be seen if the character is not in it. -/
theorem takeWhile_append_stop {stop : Char} {cs : List Char} (absent : stop ∉ cs)
    (rest : List Char) : (cs ++ stop :: rest).takeWhile (· ≠ stop) = cs := by
  rw [List.takeWhile_append_of_pos]
  · simp
  · intro c member
    have other : c ≠ stop := fun same => absent (same ▸ member)
    simpa using other

/-! ## Hexadecimal digits -/

/-- The number that hexadecimal digits stand for. -/
def hexValue (cs : List Char) : Nat := cs.foldl (fun n c => n * 16 + (hexDigit? c).getD 0) 0

theorem hexDigit?_digitChar {k : Nat} (small : k < 16) : hexDigit? k.digitChar = some k := by
  decide +revert

theorem hexValue_toDigits (n : Nat) : hexValue (Nat.toDigits 16 n) = n := by
  induction n using Nat.strongRecOn with
  | ind n ih =>
      rw [Nat.toDigits_eq_if (by decide)]
      split
      next small => simp [hexValue, hexDigit?_digitChar small]
      next large =>
        have front := ih (n / 16) (by omega)
        have last := hexDigit?_digitChar (Nat.mod_lt n (by decide : 16 > 0))
        simp only [hexValue] at front
        simp only [hexValue, List.foldl_append, front, List.foldl_cons, last, List.foldl_nil,
          Option.getD_some]
        omega

theorem hexDigit?_of_mem {n : Nat} {c : Char} (member : c ∈ Nat.toDigits 16 n) :
    (hexDigit? c).isSome = true := by
  induction n using Nat.strongRecOn with
  | ind n ih =>
      rw [Nat.toDigits_eq_if (by decide)] at member
      split at member
      next small =>
        obtain rfl := List.mem_singleton.1 member
        rw [hexDigit?_digitChar small]
        rfl
      next large =>
        rcases List.mem_append.1 member with front | last
        · exact ih (n / 16) (by omega) front
        · obtain rfl := List.mem_singleton.1 last
          rw [hexDigit?_digitChar (Nat.mod_lt n (by decide))]
          rfl

theorem brace_notMem_toDigits (n : Nat) : '\x7d' ∉ Nat.toDigits 16 n := by
  intro member
  have digit := hexDigit?_of_mem member
  revert digit
  decide

/-! ## Characters -/

/-- The character that a letter stands for behind a backslash. -/
def unescape? (c : Char) : Option Char :=
  match c with
  | '"' | '\\' => some c
  | 'n' => some '\n'
  | 'r' => some '\r'
  | 't' => some '\t'
  | '0' => some '\x00'
  | _ => none

/-- Reads one character of a quoted text. There is none where the text ends. -/
def unquoteChar? : List Char → Option (Char × List Char)
  | '\\' :: 'u' :: '\x7b' :: rest =>
      let digits := rest.takeWhile (· ≠ '\x7d')
      some (Char.ofNat (hexValue digits), rest.drop (digits.length + 1))
  | '\\' :: c :: rest => (unescape? c).map (·, rest)
  | '"' :: _ => none
  | c :: rest => some (c, rest)
  | [] => none

theorem unquoteChar?_plain {c : Char} (quote : c ≠ '"') (slash : c ≠ '\\') (rest : List Char) :
    unquoteChar? (c :: rest) = some (c, rest) := by
  unfold unquoteChar?
  split
  next heq => exact absurd (List.cons.inj heq).1 slash
  next heq => exact absurd (List.cons.inj heq).1 slash
  next heq => exact absurd (List.cons.inj heq).1 quote
  next heq => rw [(List.cons.inj heq).1, (List.cons.inj heq).2]
  next heq => cases heq

theorem unquoteChar?_quoteChar (c : Char) (rest : List Char) :
    unquoteChar? ((quoteChar c).toList ++ rest) = some (c, rest) := by
  unfold quoteChar
  split
  case h_7 _ quote slash _ _ _ _ =>
    split
    next =>
      rw [Char.toString_eq_singleton, String.toList_singleton]
      exact unquoteChar?_plain quote slash rest
    next =>
      have spelt : ("\\u\x7b" ++ hexDigits c.toNat ++ "\x7d").toList ++ rest =
          '\\' :: 'u' :: '\x7b' :: (Nat.toDigits 16 c.toNat ++ '\x7d' :: rest) := by
        simp [hexDigits]
      rw [spelt, unquoteChar?, takeWhile_append_stop (brace_notMem_toDigits _), hexValue_toDigits]
      simp
  all_goals rfl

/-! ## Texts -/

theorem quoteChars_append_inj {cs ds rest rest' : List Char}
    (same : cs.flatMap (fun c => (quoteChar c).toList) ++ '"' :: rest =
      ds.flatMap (fun c => (quoteChar c).toList) ++ '"' :: rest') : cs = ds ∧ rest = rest' := by
  -- What is read first is the same on both sides.
  have read := congrArg unquoteChar? same
  induction cs generalizing ds with
  | nil =>
      cases ds with
      | nil => exact ⟨rfl, (List.cons.inj same).2⟩
      | cons d ds =>
          rw [List.flatMap_cons, List.append_assoc, unquoteChar?_quoteChar] at read
          cases read
  | cons c cs ih =>
      cases ds with
      | nil =>
          rw [List.flatMap_cons, List.append_assoc, unquoteChar?_quoteChar] at read
          cases read
      | cons d ds =>
          simp only [List.flatMap_cons, List.append_assoc, unquoteChar?_quoteChar,
            Option.some.injEq, Prod.mk.injEq] at read
          obtain ⟨rfl, others⟩ := read
          obtain ⟨rfl, rfl⟩ := ih others (congrArg unquoteChar? others)
          exact ⟨rfl, rfl⟩

theorem toList_quoted (s : String) :
    (quoted s).toList = '"' :: (s.toList.flatMap (fun c => (quoteChar c).toList) ++ ['"']) := by
  simp [quoted, String.toList_join, List.flatMap_map]

/-- Quoted texts followed by something are the same only if the texts are. -/
theorem quoted_append_inj {s t : String} {rest rest' : List Char}
    (same : (quoted s).toList ++ rest = (quoted t).toList ++ rest') : s = t ∧ rest = rest' := by
  simp only [toList_quoted, List.cons_append, List.append_assoc, List.nil_append,
    List.cons.injEq, true_and] at same
  obtain ⟨texts, rests⟩ := quoteChars_append_inj same
  exact ⟨String.toList_inj.1 texts, rests⟩

/-- So it is with texts that may be absent. -/
theorem quotedOption_append_inj {s t : Option String} {rest rest' : List Char}
    (same : (quotedOption s).toList ++ rest = (quotedOption t).toList ++ rest') :
    s = t ∧ rest = rest' := by
  cases s with
  | none =>
      cases t with
      | none => simpa [quotedOption] using same
      | some t => simp [quotedOption] at same
  | some s =>
      cases t with
      | none => simp [quotedOption] at same
      | some t =>
          simp [quotedOption] at same
          obtain ⟨rfl, rests⟩ := quoted_append_inj same
          simpa using rests

end ExpiringCache.Text
