import Mathlib
import ExpiringCache.Text.Blank

/-!
# Trimming

To trim a text takes blanks away from its two ends until there are none. What is left is tight,
and it is what was there but for these blanks (`exists_trim`). There is only one such rest
(`trim_of_tight`), so blanks that are put in at the ends make no difference (`trim_padded`).
-/

namespace ExpiringCache.Text

variable {s t before after : String}

/-- A text of blanks only. -/
def Blank (s : String) : Prop := ∀ c ∈ s.toList, isBlank c = true

/-- A text that has no blank at its beginning and none at its end. -/
structure Tight (s : String) : Prop where
  first : ∀ c ∈ s.toList.head?, isBlank c = false
  last : ∀ c ∈ s.toList.getLast?, isBlank c = false

theorem blank_empty : Blank "" := nofun

theorem trimLeft_blank {cs ds : List Char} (blank : ∀ c ∈ cs, isBlank c = true) :
    trimLeft (cs ++ ds) = trimLeft ds :=
  List.dropWhile_append_of_pos blank

theorem trimLeft_of_first {cs : List Char} (first : ∀ c ∈ cs.head?, isBlank c = false) :
    trimLeft cs = cs := by
  cases cs with
  | nil => rfl
  | cons c cs => rw [trimLeft, List.dropWhile_cons_of_neg (by simp [first c rfl])]

theorem first_trimLeft (cs : List Char) : ∀ c ∈ (trimLeft cs).head?, isBlank c = false := by
  intro c found
  have stopped := List.head?_dropWhile_not isBlank cs
  rw [trimLeft] at found
  rw [found] at stopped
  exact stopped

/-- What is trimmed at the beginning are blanks. -/
theorem exists_trimLeft (cs : List Char) :
    ∃ before, (∀ c ∈ before, isBlank c = true) ∧ cs = before ++ trimLeft cs :=
  ⟨cs.takeWhile isBlank, fun _ member => List.mem_takeWhile_imp member,
    List.takeWhile_append_dropWhile.symm⟩

/-- A trimmed text is tight, and it is what was there but for blanks at the ends. -/
theorem exists_trim (s : String) :
    Tight (trim s) ∧
      ∃ before after, Blank before ∧ Blank after ∧ s = before ++ trim s ++ after := by
  obtain ⟨before, blank, left⟩ := exists_trimLeft s.toList
  obtain ⟨after, blank', right⟩ := exists_trimLeft (trimLeft s.toList).reverse
  have right : trimLeft s.toList = (trim s).toList ++ after.reverse := by
    rw [trim, String.toList_ofList, trimChars, trimRight, ← List.reverse_append, ← right,
      List.reverse_reverse]
  refine ⟨⟨?first, ?last⟩, .ofList before, .ofList after.reverse, ?_, ?_, ?_⟩
  case first =>
    intro c found
    apply first_trimLeft s.toList
    rw [right, List.head?_append, Option.mem_def, Option.mem_def.1 found]
    rfl
  case last =>
    intro c found
    apply first_trimLeft (trimLeft s.toList).reverse
    rw [trim, String.toList_ofList, trimChars, trimRight, List.getLast?_reverse] at found
    exact found
  · simpa [Blank] using blank
  · simpa [Blank] using blank'
  · rw [← String.toList_inj]
    simpa [← right] using left

/-- A tight text is what is left of it when blanks are put in at its ends. -/
theorem trim_of_tight (tight : Tight t) (blank : Blank before) (blank' : Blank after) :
    trim (before ++ t ++ after) = t := by
  have left : trimLeft (before ++ t ++ after).toList = trimLeft (t.toList ++ after.toList) := by
    rw [String.append_assoc, String.toList_append, trimLeft_blank blank, String.toList_append]
  have right (cs : List Char) : trimRight (cs ++ after.toList) = trimRight cs := by
    rw [trimRight, List.reverse_append, trimLeft_blank (by simpa [Blank] using blank'), trimRight]
  have whole : trimRight (trimLeft (t.toList ++ after.toList)) = t.toList := by
    cases written : t.toList with
    | nil =>
        have gone : trimLeft after.toList = [] := List.dropWhile_eq_nil_iff.2 blank'
        rw [List.nil_append, gone]
        rfl
    | cons c cs =>
        have first : ∀ d ∈ (c :: cs ++ after.toList).head?, isBlank d = false := by
          intro d found
          apply tight.first
          rw [written]
          exact found
        have last : ∀ d ∈ (c :: cs).reverse.head?, isBlank d = false := by
          rw [List.head?_reverse, ← written]
          exact tight.last
        rw [trimLeft_of_first first, right, trimRight, trimLeft_of_first last, List.reverse_reverse]
  rw [trim, trimChars, left, whole, String.ofList_toList]

/-- Blanks at the ends of a text make no difference. -/
theorem trim_padded (blank : Blank before) (blank' : Blank after) (s : String) :
    trim (before ++ s ++ after) = trim s := by
  obtain ⟨tight, first, last, blanks, blanks', split⟩ := exists_trim s
  have both {u v : String} (first : Blank u) (second : Blank v) : Blank (u ++ v) := by
    intro c member
    rw [String.toList_append] at member
    exact (List.mem_append.1 member).elim (first c) (second c)
  have around : before ++ s ++ after = (before ++ first) ++ trim s ++ (last ++ after) := by
    conv_lhs => rw [split]
    simp only [String.append_assoc]
  rw [around, trim_of_tight tight (both blank blanks) (both blanks' blank')]

theorem trim_eq_empty_iff : trim s = "" ↔ Blank s := by
  constructor
  · intro empty
    obtain ⟨-, before, after, blank, blank', split⟩ := exists_trim s
    rw [split, empty, String.append_empty]
    intro c member
    rw [String.toList_append] at member
    exact (List.mem_append.1 member).elim (blank c) (blank' c)
  · intro blank
    have tight : Tight "" := ⟨nofun, nofun⟩
    have trimmed := trim_of_tight tight blank blank_empty
    rwa [String.append_empty, String.append_empty] at trimmed

end ExpiringCache.Text
