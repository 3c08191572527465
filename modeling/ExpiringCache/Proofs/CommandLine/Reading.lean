import ExpiringCache.CommandLine.Parse
import Mathlib

/-!
# Options are read in any order

Options of the engine stand before a command, each in a word of its own with its value
behind an equals sign. Where none of them is given twice and each value is a valid one,
they are all read (`readTop_words`), and what was given does not depend on their order
(`lookup_of_perm`).
-/

namespace ExpiringCache.CommandLine

/-! ## Words -/

/-- The word that gives an option of the engine its value. -/
def Flag.word (flag : Flag) (value : String) : String :=
  if flag.takesValue then "--" ++ flag.name ++ "=" ++ value else "--" ++ flag.name

/-- Whether an option of the engine can have a value. -/
structure Flag.Takes (flag : Flag) (value : String) : Prop where
  engine : flag ∈ Flag.engine
  valid : flag.check value = .ok ()
  /-- A flag without a value is raised. -/
  raised : flag.takesValue = false → value = "true"

/-- What stands behind the name of an option. -/
def Flag.tail (flag : Flag) (value : String) : List Char :=
  if flag.takesValue then '=' :: value.toList else []

theorem toList_word (flag : Flag) (value : String) :
    (flag.word value).toList = '-' :: '-' :: (flag.name.toList ++ flag.tail value) := by
  unfold Flag.word Flag.tail
  split
  next => simp
  next => simp

theorem notMem_name (flag : Flag) : '=' ∉ flag.name.toList := by
  cases flag <;> decide

theorem exists_name (flag : Flag) : ∃ c rest, flag.name.toList = c :: rest := by
  cases flag <;> exact ⟨_, _, rfl⟩

/-- A word that begins with dashes names no command. -/
theorem ofName?_word (flag : Flag) (value : String) : Verb.ofName? (flag.word value) = none := by
  rw [Verb.ofName?, List.find?_eq_none]
  intro verb _ same
  have words : verb.name.toList = (flag.word value).toList := by rw [beq_iff_eq.1 same]
  rw [toList_word] at words
  cases verb <;> cases words

theorem word_ne_help (flag : Flag) (value : String) : (flag.word value == helpVerb) = false := by
  rw [beq_eq_false_iff_ne]
  intro same
  have words : (flag.word value).toList = helpVerb.toList := by rw [same]
  rw [toList_word] at words
  cases words

/-! ## Reading -/

namespace Level

variable {l : Level} {flag : Flag} {value : String}

theorem settle_of_settled (settled : l.pending = none) : l.settle = .ok l := by
  simp only [settle, settled]

theorem find?_name (known : flag ∈ Flag.engine) :
    (Flag.at? none).find? (·.name == flag.name) = some flag := by
  revert known
  cases flag <;> decide

theorem raise_engine (settled : l.pending = none) (known : flag ∈ Flag.engine) :
    l.raise flag = l.record flag "true" := by
  have others : flag ≠ .help ∧ flag ≠ .version := by
    revert known
    cases flag <;> decide
  rw [raise, settle_of_settled settled]
  · rfl
  · exact others.1
  · exact others.2

theorem longOption_word (settled : l.pending = none) (takes : flag.Takes value) :
    l.longOption none (flag.name.toList ++ flag.tail value) = l.record flag value := by
  have inside : ∀ c ∈ flag.name.toList, (c != '=') = true := by
    intro c member
    rw [bne_iff_ne]
    exact fun same => notMem_name flag (same ▸ member)
  have name : (flag.name.toList ++ flag.tail value).takeWhile (· != '=') = flag.name.toList := by
    rw [List.takeWhile_append_of_pos inside, Flag.tail]
    split <;> simp
  have behind : (flag.name.toList ++ flag.tail value).dropWhile (· != '=') = flag.tail value := by
    rw [List.dropWhile_append_of_pos inside, Flag.tail]
    split <;> simp
  rw [longOption, name, behind, String.ofList_toList, find?_name takes.engine]
  cases valued : flag.takesValue with
  | true =>
      simp only [Flag.tail, valued, if_true, String.ofList_toList, settle_of_settled settled]
      rfl
  | false =>
      simp [Flag.tail, valued, takes.raised valued, raise_engine settled takes.engine]

theorem record_fresh (fresh : flag ∉ l.given.map (·.1)) (takes : flag.Takes value) :
    l.record flag value = .ok { l with given := l.given ++ [(flag, value)] } := by
  have unheard : l.given.any (·.1 == flag) = false := by
    rw [List.any_eq_false]
    intro said member same
    exact fresh (List.mem_map.2 ⟨said, member, beq_iff_eq.1 same⟩)
  simp only [record, unheard, takes.valid]
  rfl

end Level

theorem readTop_word {l : Level} {flag : Flag} {value : String} (settled : l.pending = none)
    (fresh : flag ∉ l.given.map (·.1)) (takes : flag.Takes value) (rest : List String) :
    readTop (flag.word value :: rest) false l =
      readTop rest false { l with given := l.given ++ [(flag, value)] } := by
  have idle : l.awaits = false := by simp only [Level.awaits, settled]
  have read := l.longOption_word settled takes
  rw [Level.record_fresh fresh takes] at read
  obtain ⟨c, name, front⟩ := exists_name flag
  rw [front, List.cons_append] at read
  rw [readTop]
  simp only [idle, word_ne_help, ofName?_word, toList_word, front, List.cons_append, read]
  rfl

theorem readTop_words {l : Level} {options : List (Flag × String)} (settled : l.pending = none)
    (takes : ∀ option ∈ options, option.1.Takes option.2)
    (fresh : ((l.given ++ options).map (·.1)).Nodup) (rest : List String) :
    readTop (options.map (fun (flag, value) => flag.word value) ++ rest) false l =
      readTop rest false { l with given := l.given ++ options } := by
  induction options generalizing l with
  | nil => simp
  | cons option others ih =>
      obtain ⟨flag, value⟩ := option
      have unheard : flag ∉ l.given.map (·.1) := by
        rw [List.map_append, List.map_cons] at fresh
        have apart := (List.nodup_cons.1 (List.nodup_middle.1 fresh)).1
        exact fun member => apart (List.mem_append_left _ member)
      rw [List.map_cons, List.cons_append,
        readTop_word settled unheard (takes (flag, value) List.mem_cons_self)]
      have later := ih (l := { l with given := l.given ++ [(flag, value)] }) settled
        (fun option member => takes option (.tail _ member)) (by simpa using fresh)
      rw [later, List.append_assoc, List.singleton_append]

/-! ## What was given -/

theorem lookup_eq_some_iff {options : List (Flag × String)}
    (once : (options.map (·.1)).Nodup) {flag : Flag} {value : String} :
    options.lookup flag = some value ↔ (flag, value) ∈ options := by
  induction options with
  | nil => simp
  | cons option others ih =>
      obtain ⟨other, given⟩ := option
      obtain ⟨apart, once⟩ := List.nodup_cons.1 once
      rw [List.lookup_cons, List.mem_cons]
      by_cases same : flag = other
      · subst same
        have alone : (flag, value) ∉ others := fun member =>
          apart (List.mem_map_of_mem (f := (·.1)) member)
        simp [alone, eq_comm]
      · have differs : (flag == other) = false := beq_eq_false_iff_ne.2 same
        simp only [differs, ih once, Prod.mk.injEq, same, false_and, false_or]

/-- What an option was given as does not depend on the order of the options. -/
theorem lookup_of_perm {options options' : List (Flag × String)} (perm : options.Perm options')
    (once : (options'.map (·.1)).Nodup) (flag : Flag) :
    options.lookup flag = options'.lookup flag := by
  have once' : (options.map (·.1)).Nodup := (perm.map _).nodup_iff.2 once
  ext value
  rw [lookup_eq_some_iff once', lookup_eq_some_iff once, perm.mem_iff]

/-! ## Command lines -/

/-- An environment that gives no option of the engine. -/
def Unset (environment : String → Option String) : Prop :=
  ∀ flag name, Flag.setBy? flag = some name → environment name = none

theorem addVariables_of_unset {environment : String → Option String} (unset : Unset environment)
    (l : Level) (flags : List Flag) : l.addVariables environment flags = .ok [] := by
  induction flags with
  | nil => rfl
  | cons flag rest ih =>
      have silent : flag.setBy?.bind environment = none := by
        cases named : flag.setBy? with
        | none => rfl
        | some name => exact unset flag name named
      rw [Level.addVariables]
      simp only [silent, ite_self]
      exact ih

/-- Options in any order before a command that takes no arguments. -/
theorem parse_words {environment : String → Option String} (unset : Unset environment)
    {options given : List (Flag × String)} (perm : given.Perm options)
    (takes : ∀ option ∈ options, option.1.Takes option.2)
    (once : (options.map (·.1)).Nodup) :
    parse (given.map (fun (flag, value) => flag.word value) ++ [Verb.stats.name]) environment =
      .ok ⟨.stats, settingsOf (options.lookup ·)⟩ := by
  have takes' : ∀ option ∈ given, option.1.Takes option.2 := fun option member =>
    takes option (perm.mem_iff.1 member)
  have once' : (given.map (·.1)).Nodup := (perm.map _).nodup_iff.2 once
  have read : readTop (given.map (fun (flag, value) => flag.word value) ++ [Verb.stats.name])
      false {} = .ok ({ given := given }, some (.stats, [])) := by
    rw [readTop_words (l := {}) rfl takes' once']
    rfl
  have same : (fun flag => ([] ++ given ++ [] : List (Flag × String)).lookup flag) =
      fun flag => options.lookup flag := by
    funext flag
    rw [List.nil_append, List.append_nil, lookup_of_perm perm once]
  rw [parse, read]
  simp only [bind, Except.bind, readArguments, Level.settle, addVariables_of_unset unset, same]
  rfl

end ExpiringCache.CommandLine
