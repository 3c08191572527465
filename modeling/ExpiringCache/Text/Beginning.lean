/-!
# Beginnings

Taking a given beginning off a list. `after?_eq_some_iff` says that the answer
is exactly what follows the beginning, so it is present exactly when the list
begins that way.
-/

namespace ExpiringCache.Text

variable {α : Type} [DecidableEq α]

/-- What follows `start` in a list that begins with it. -/
def after? : List α → List α → Option (List α)
  | [], l => some l
  | _ :: _, [] => none
  | a :: start, b :: l => if a = b then after? start l else none

theorem after?_eq_some_iff {start l rest : List α} :
    after? start l = some rest ↔ l = start ++ rest := by
  induction start generalizing l with
  | nil => simp [after?, eq_comm]
  | cons a start ih =>
      cases l with
      | nil => simp [after?]
      | cons b l =>
          by_cases same : a = b
          · simp [after?, same, ih]
          · simp [after?, same, Ne.symm same]

@[simp] theorem after?_append (start rest : List α) :
    after? start (start ++ rest) = some rest :=
  after?_eq_some_iff.2 rfl

/-- Whether a list begins with `start`. -/
def beginsWith (start l : List α) : Bool := (after? start l).isSome

theorem beginsWith_iff {start l : List α} :
    beginsWith start l = true ↔ ∃ rest, l = start ++ rest := by
  simp [beginsWith, Option.isSome_iff_exists, after?_eq_some_iff]

end ExpiringCache.Text
