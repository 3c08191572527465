/-!
# Lists of bindings

Looking a key up in a list of pairs. Where no key occurs twice, looking up in a
filtered list filters what was looked up (`find?_filter`).
-/

namespace ExpiringCache.Bindings

variable {κ ν : Type} [DecidableEq κ]

/-- The value that the first pair with the key carries. -/
def find? (key : κ) : List (κ × ν) → Option ν
  | [] => none
  | (k, v) :: rest => if k = key then some v else find? key rest

theorem find?_eq_none {key : κ} {l : List (κ × ν)} :
    find? key l = none ↔ key ∉ l.map (·.1) := by
  induction l with
  | nil => simp [find?]
  | cons head rest ih =>
      obtain ⟨k, v⟩ := head
      by_cases same : k = key
      · simp [find?, same]
      · simp only [find?, same, if_false, ih, List.map_cons, List.mem_cons, Ne.symm same,
          false_or]

theorem mem_of_find? {key : κ} {value : ν} {l : List (κ × ν)}
    (found : find? key l = some value) : (key, value) ∈ l := by
  induction l with
  | nil => simp [find?] at found
  | cons head rest ih =>
      obtain ⟨k, v⟩ := head
      by_cases same : k = key
      · simp only [find?, same, if_true, Option.some.injEq] at found
        simp [same, found]
      · simp only [find?, same, if_false] at found
        exact List.mem_cons_of_mem _ (ih found)

theorem find?_eq_some {key : κ} {value : ν} {l : List (κ × ν)}
    (distinct : (l.map (·.1)).Nodup) : find? key l = some value ↔ (key, value) ∈ l := by
  refine ⟨mem_of_find?, fun member => ?_⟩
  induction l with
  | nil => simp at member
  | cons head rest ih =>
      obtain ⟨k, v⟩ := head
      obtain ⟨fresh, distinct⟩ := List.nodup_cons.1 distinct
      rcases List.mem_cons.1 member with here | later
      · cases here
        simp [find?]
      · have other : k ≠ key := by
          rintro rfl
          exact fresh (List.mem_map_of_mem (f := (·.1)) later)
        simp [find?, other, ih distinct later]

theorem find?_filter (test : κ → ν → Bool) (key : κ) {l : List (κ × ν)}
    (distinct : (l.map (·.1)).Nodup) :
    find? key (l.filter fun (k, v) => test k v) = (find? key l).filter (test key) := by
  induction l with
  | nil => rfl
  | cons head rest ih =>
      obtain ⟨k, v⟩ := head
      obtain ⟨fresh, distinct⟩ := List.nodup_cons.1 distinct
      by_cases same : k = key
      · subst same
        cases selected : test k v with
        | false =>
            have absent : find? k (rest.filter fun (k, v) => test k v) = none :=
              find?_eq_none.2 fun member => fresh ((List.filter_sublist.map _).subset member)
            simp [find?, selected, absent, Option.filter]
        | true => simp [find?, selected, Option.filter]
      · cases selected : test k v <;> simp [find?, selected, same, ih distinct]

end ExpiringCache.Bindings
