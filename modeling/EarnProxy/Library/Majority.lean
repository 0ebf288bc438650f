import Mathlib.Data.List.Count
import Mathlib.Data.List.Perm.Basic

/-!
# Majorities

`mostCommon` counts as a dictionary with insertion order does: among the values that occur most
often it takes the one that occurs first. A value that more than half of the others agree on does
not depend on that order.
-/

namespace EarnProxy

section Majority

variable {α : Type} [DecidableEq α]

/-- The better of two values: the older one, unless the new one occurs more often. -/
def moreCommon (values : List α) (best : Option α) (value : α) : Option α :=
  match best with
  | none => some value
  | some old => if values.count old < values.count value then some value else some old

/-- The first of the values that occur most often. -/
def mostCommon (values : List α) : Option α := values.eraseDups.foldl (moreCommon values) none

/-- The most common value, if more than half of the values are equal to it. -/
def majority (values : List α) : Option α :=
  (mostCommon values).filter fun value => values.length < 2 * values.count value

/-- What a pass over some of the values has found. -/
theorem foldl_moreCommon (values : List α) :
    ∀ (seen : List α) (best : Option α), (∀ old ∈ best, old ∈ values) →
      (∀ value ∈ seen, value ∈ values) →
      ∀ result, seen.foldl (moreCommon values) best = result →
        (∀ value ∈ result, value ∈ values) ∧ (result = none ↔ best = none ∧ seen = []) ∧
          (∀ value ∈ result, ∀ other, other ∈ best ∨ other ∈ seen →
            values.count other ≤ values.count value) := by
  intro seen
  induction seen with
  | nil =>
    rintro best hbest - result rfl
    refine ⟨hbest, by simp, ?_⟩
    intro value hvalue other hother
    rcases hother with hother | hother
    · obtain rfl := Option.mem_unique hother hvalue
      exact Nat.le_refl _
    · cases hother
  | cons value seen ih =>
    rintro best hbest hseen result hresult
    rw [List.foldl_cons] at hresult
    have hvalue : value ∈ values := hseen value List.mem_cons_self
    have hstep : ∃ next, moreCommon values best value = some next ∧ next ∈ values ∧
        values.count value ≤ values.count next ∧
        ∀ old ∈ best, values.count old ≤ values.count next := by
      cases best with
      | none => exact ⟨value, rfl, hvalue, Nat.le_refl _, by simp⟩
      | some old =>
        by_cases hmore : values.count old < values.count value
        · refine ⟨value, if_pos hmore, hvalue, Nat.le_refl _, ?_⟩
          rintro _ ⟨⟩
          omega
        · refine ⟨old, if_neg hmore, hbest old rfl, by omega, ?_⟩
          rintro _ ⟨⟩
          exact Nat.le_refl _
    obtain ⟨next, hnext, hmem, hge, hbetter⟩ := hstep
    rw [hnext] at hresult
    obtain ⟨hfrom, hnone, hmost⟩ := ih (some next) (by rintro _ ⟨⟩; exact hmem)
      (fun other hother => hseen other (List.mem_cons_of_mem _ hother)) result hresult
    refine ⟨hfrom, by simpa using hnone, ?_⟩
    intro top htop other hother
    have htop_next := hmost top htop next (.inl rfl)
    rcases hother with hother | hother
    · exact Nat.le_trans (hbetter other hother) htop_next
    · rcases List.mem_cons.mp hother with rfl | hother
      · omega
      · exact hmost top htop other (.inr hother)

theorem mostCommon_spec {values : List α} {value : α} (h : mostCommon values = some value) :
    value ∈ values ∧ ∀ other, values.count other ≤ values.count value := by
  have hmem : ∀ other ∈ values.eraseDups, other ∈ values := fun other => List.mem_eraseDups.mp
  obtain ⟨hfrom, -, hmost⟩ := foldl_moreCommon values values.eraseDups none (by simp) hmem _ h
  refine ⟨hfrom value rfl, fun other => ?_⟩
  by_cases hother : other ∈ values
  · exact hmost value rfl other (.inr (List.mem_eraseDups.mpr hother))
  · rw [List.count_eq_zero_of_not_mem hother]
    exact Nat.zero_le _

theorem mostCommon_eq_none {values : List α} : mostCommon values = none ↔ values = [] := by
  have hmem : ∀ other ∈ values.eraseDups, other ∈ values := fun other => List.mem_eraseDups.mp
  obtain ⟨-, hnone, -⟩ := foldl_moreCommon values values.eraseDups none (by simp) hmem _ rfl
  rw [mostCommon, hnone]
  constructor
  · rintro ⟨-, herase⟩
    refine List.eq_nil_iff_forall_not_mem.mpr fun value hvalue => ?_
    have hkept := List.mem_eraseDups.mpr hvalue
    rw [herase] at hkept
    cases hkept
  · rintro rfl
    exact ⟨rfl, rfl⟩

/-- Two values cannot both be equal to more than half of the values. -/
theorem count_add_count_le (values : List α) {a b : α} (h : a ≠ b) :
    values.count a + values.count b ≤ values.length := by
  induction values with
  | nil => simp
  | cons value values ih =>
    rw [List.count_cons, List.count_cons, List.length_cons]
    by_cases ha : value = a
    · have hb : ¬ value = b := fun hb => h (ha.symm.trans hb)
      simp only [ha, beq_self_eq_true, if_true, beq_iff_eq] at *
      simp only [h, if_false]
      omega
    · simp only [beq_iff_eq, ha, if_false]
      split <;> omega

theorem majority_eq_some_iff {values : List α} {value : α} :
    majority values = some value ↔ values.length < 2 * values.count value := by
  unfold majority
  rw [Option.filter_eq_some_iff]
  constructor
  · rintro ⟨-, hmore⟩
    exact of_decide_eq_true hmore
  · intro hmore
    refine ⟨?_, decide_eq_true hmore⟩
    cases hcommon : mostCommon values with
    | none =>
      rw [mostCommon_eq_none.mp hcommon] at hmore
      simp at hmore
    | some other =>
      have hmost := (mostCommon_spec hcommon).2 value
      by_contra hne
      have hother : other ≠ value := fun heq => hne (congrArg some heq)
      have hboth := count_add_count_le values hother
      omega

/-- The order of the values does not matter. -/
theorem majority_perm {values values' : List α} (h : values.Perm values') :
    majority values = majority values' := by
  refine Option.ext fun value => ?_
  rw [majority_eq_some_iff, majority_eq_some_iff, h.length_eq, h.count_eq]

end Majority

end EarnProxy
