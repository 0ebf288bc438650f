import Mathlib.Data.List.Induction

/-!
# A running best

A pass over rows keeps the best row so far, and a later row replaces it only when it is heavier.
What is left at the end is a heaviest row.
-/

namespace Strongest

variable {α : Type*} (weight : α → Nat)

def replaced (best : Option α) (row : α) : Option α :=
  match best with
  | none => some row
  | some old => if weight old < weight row then some row else some old

/-- The first of the heaviest rows. -/
def strongest (rows : List α) : Option α := rows.foldl (replaced weight) none

variable {weight} {rows : List α} {best row : α}

theorem strongest_append_singleton (rows : List α) (row : α) :
    strongest weight (rows ++ [row]) = replaced weight (strongest weight rows) row := by
  simp [strongest]

theorem strongest_eq_none : strongest weight rows = none ↔ rows = [] := by
  induction rows using List.reverseRecOn with
  | nil => simp [strongest]
  | append_singleton rows row ih =>
    rw [strongest_append_singleton]
    cases strongest weight rows with
    | none => simp [replaced]
    | some old =>
      unfold replaced
      dsimp only
      split <;> simp

theorem strongest_spec (h : strongest weight rows = some best) :
    best ∈ rows ∧ ∀ row ∈ rows, weight row ≤ weight best := by
  induction rows using List.reverseRecOn generalizing best with
  | nil => cases h
  | append_singleton rows row ih =>
    rw [strongest_append_singleton] at h
    cases hold : strongest weight rows with
    | none =>
      rw [hold] at h
      obtain rfl := Option.some.inj h
      rw [strongest_eq_none.mp hold]
      simp
    | some old =>
      obtain ⟨hmem, hle⟩ := ih hold
      rw [hold] at h
      unfold replaced at h
      dsimp only at h
      split at h
      next hlt =>
        obtain rfl := Option.some.inj h
        refine ⟨by simp, fun other hother => ?_⟩
        rcases List.mem_append.mp hother with hother | hother
        · exact Nat.le_trans (hle other hother) (Nat.le_of_lt hlt)
        · exact Nat.le_of_eq (congrArg weight (List.mem_singleton.mp hother))
      next hnlt =>
        obtain rfl := Option.some.inj h
        refine ⟨List.mem_append_left _ hmem, fun other hother => ?_⟩
        rcases List.mem_append.mp hother with hother | hother
        · exact hle other hother
        · rw [List.mem_singleton.mp hother]
          exact Nat.not_lt.mp hnlt

end Strongest
