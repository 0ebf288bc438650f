import Mathlib.Data.List.MinMax
import Mathlib.Data.List.Perm.Subperm
import Mathlib.Data.List.Sort
import Mathlib.Data.Prod.Lex

/-!
# Taking turns

A batch has the first few members of a list. When the groups of the members take turns, the batch
has the first members of all groups before the second members of any, so no group gets far ahead of
a group that is not done.
-/

namespace Turns

variable {α β γ ρ : Type*} [LinearOrder β] [LinearOrder ρ]

/-! ## Batches -/

/-- The first `size` members in the order of their keys. -/
def batch (key : α → β) (size : Nat) (l : List α) : List α :=
  (l.insertionSort fun x y => key x ≤ key y).take size

section Batch

variable {key : α → β} {size : Nat} {l : List α} {x y : α}

theorem length_batch : (batch key size l).length = min size l.length := by
  unfold batch
  rw [List.length_take, List.length_insertionSort]

theorem batch_subperm : (batch key size l).Subperm l :=
  (List.take_sublist _ _).subperm.trans (List.perm_insertionSort _ l).subperm

theorem mem_of_mem_batch (h : x ∈ batch key size l) : x ∈ l := batch_subperm.subset h

/-- What is left out comes after what is taken. -/
theorem batch_le (hx : x ∈ l) (hout : x ∉ batch key size l) (hy : y ∈ batch key size l) :
    key y ≤ key x := by
  let r : α → α → Prop := fun x y => key x ≤ key y
  have htotal : Std.Total r := ⟨fun x y => le_total (key x) (key y)⟩
  have htrans : IsTrans α r := ⟨fun _ _ _ => le_trans⟩
  have hsorted : (l.insertionSort r).Pairwise r := List.pairwise_insertionSort r l
  have hsplit : (l.insertionSort r).take size ++ (l.insertionSort r).drop size =
      l.insertionSort r := List.take_append_drop _ _
  rw [← hsplit, List.pairwise_append] at hsorted
  have hmem : x ∈ (l.insertionSort r).take size ++ (l.insertionSort r).drop size := by
    rw [hsplit]
    exact (List.mem_insertionSort r).mpr hx
  rcases List.mem_append.mp hmem with hin | hdrop
  · exact absurd hin hout
  · exact hsorted.2.2 y hy x hdrop

end Batch

/-! ## Turns -/

section Turn

variable [DecidableEq γ] (group : α → γ) (order : α → β)

/-- The turn of the member among the members of its group. -/
def turn (l : List α) (x : α) : Nat :=
  (l.filter fun y => group y = group x ∧ order y ≤ order x).length

/-- Priority comes first, then the turn. -/
def turnKey (priority : α → ρ) (l : List α) (x : α) : ρ ×ₗ Nat ×ₗ β :=
  toLex (priority x, toLex (turn group order l x, order x))

variable {group order} {priority : α → ρ} {size : Nat} {l : List α} {x y : α}

theorem turn_lt (hgroup : group x = group y) (hlt : order x < order y) (hy : y ∈ l) :
    turn group order l x < turn group order l y := by
  have hsub : (l.filter fun z => group z = group x ∧ order z ≤ order x) =
      (l.filter fun z => group z = group y ∧ order z ≤ order y).filter
        fun z => group z = group x ∧ order z ≤ order x := by
    rw [List.filter_filter]
    apply List.filter_congr
    intro z _
    by_cases hz : group z = group x ∧ order z ≤ order x
    · simp [hz.1, hz.2, hgroup, hz.2.trans hlt.le]
    · simp only [hz, decide_false, Bool.false_and]
  unfold turn
  rw [hsub, List.length_filter_lt_length_iff_exists]
  refine ⟨y, List.mem_filter.mpr ⟨hy, by simp⟩, ?_⟩
  simp [hlt]

theorem batch_priority_le (hx : x ∈ l) (hout : x ∉ batch (turnKey group order priority l) size l)
    (hy : y ∈ batch (turnKey group order priority l) size l) : priority y ≤ priority x := by
  rcases Prod.Lex.toLex_le_toLex.mp (batch_le hx hout hy) with hlt | ⟨heq, -⟩
  · exact hlt.le
  · exact heq.le

theorem batch_turn_le (hx : x ∈ l) (hout : x ∉ batch (turnKey group order priority l) size l)
    (hy : y ∈ batch (turnKey group order priority l) size l) (hpriority : priority y = priority x) :
    turn group order l y ≤ turn group order l x := by
  rcases Prod.Lex.toLex_le_toLex.mp (batch_le hx hout hy) with hlt | ⟨-, hle⟩
  · exact absurd hpriority hlt.ne
  · rcases Prod.Lex.toLex_le_toLex.mp hle with hlt | ⟨heq, -⟩
    · exact hlt.le
    · exact heq.le

/-- Within a group the first ones are taken. -/
theorem batch_order_le (hx : x ∈ l) (hout : x ∉ batch (turnKey group order priority l) size l)
    (hy : y ∈ batch (turnKey group order priority l) size l) (hpriority : priority y = priority x)
    (hgroup : group y = group x) : order y ≤ order x := by
  by_contra hlt
  have hturn := turn_lt hgroup.symm (not_le.mp hlt) (mem_of_mem_batch hy)
  exact absurd (batch_turn_le hx hout hy hpriority) (not_le.mpr hturn)

/-- The members of a group in the batch are no more than the turn of the last of them. -/
theorem countP_batch_le {a : γ} {n : Nat}
    (hn : ∀ y ∈ batch (turnKey group order priority l) size l, group y = a →
      turn group order l y ≤ n) :
    (batch (turnKey group order priority l) size l).countP (fun y => group y = a) ≤ n := by
  set b := batch (turnKey group order priority l) size l with hb
  cases hlast : (b.filter fun y => group y = a).argmax order with
  | none =>
    have hempty : (b.filter fun y => group y = a) = [] := List.argmax_eq_none.mp hlast
    rw [List.countP_eq_length_filter, hempty]
    exact Nat.zero_le n
  | some last =>
    have hmem := List.argmax_mem hlast
    obtain ⟨hlastmem, hgroup⟩ := List.mem_filter.mp hmem
    have hgroup : group last = a := of_decide_eq_true hgroup
    calc b.countP (fun y => group y = a)
        ≤ b.countP (fun y => group y = group last ∧ order y ≤ order last) := by
          refine List.countP_mono_left fun y hy hya => ?_
          have hle : order y ≤ order last :=
            List.le_of_mem_argmax (List.mem_filter.mpr ⟨hy, hya⟩) hlast
          simpa [hgroup, hle] using hya
      _ ≤ l.countP (fun y => group y = group last ∧ order y ≤ order last) :=
          batch_subperm.countP_le _
      _ = turn group order l last := List.countP_eq_length_filter
      _ ≤ n := hn last hlastmem hgroup

theorem countP_le_add {p q r : α → Bool} (h : ∀ x, p x → q x ∨ r x) (l : List α) :
    l.countP p ≤ l.countP q + l.countP r := by
  induction l with
  | nil => exact Nat.zero_le _
  | cons x l ih =>
    simp only [List.countP_cons]
    have hx := h x
    split_ifs <;> grind

/-- When everything of the group that comes before `x` is in the batch, the turn of `x` is at most
one more than its group has in the batch. -/
theorem turn_le_countP {b : List α} (hnodup : (l.map order).Nodup)
    (hbefore : ∀ y ∈ l, group y = group x → order y < order x → y ∈ b) :
    turn group order l x ≤ b.countP (fun y => group y = group x) + 1 := by
  have hone : l.countP (fun y => order y = order x) ≤ 1 := by
    have hcount := List.nodup_iff_count_le_one.mp hnodup (order x)
    rwa [List.count, List.countP_map] at hcount
  have hfewer : l.countP (fun y => group y = group x ∧ order y < order x) ≤
      b.countP (fun y => group y = group x) := by
    rw [List.countP_eq_length_filter, List.countP_eq_length_filter]
    refine (List.subperm_of_subset ((List.Nodup.of_map order hnodup).filter _) ?_).length_le
    intro y hy
    obtain ⟨hmem, hy⟩ := List.mem_filter.mp hy
    obtain ⟨hgroup, hlt⟩ := of_decide_eq_true hy
    exact List.mem_filter.mpr ⟨hbefore y hmem hgroup hlt, decide_eq_true hgroup⟩
  have hsum : turn group order l x ≤
      l.countP (fun y => group y = group x ∧ order y < order x) +
        l.countP (fun y => order y = order x) := by
    unfold turn
    rw [← List.countP_eq_length_filter]
    refine countP_le_add (fun y hy => ?_) l
    obtain ⟨hgroup, hle⟩ := of_decide_eq_true hy
    rcases hle.lt_or_eq with hlt | heq
    · exact .inl (decide_eq_true ⟨hgroup, hlt⟩)
    · exact .inr (decide_eq_true heq)
  omega

/-- No group gets more than one member ahead of a group that has been left with some. -/
theorem batch_fair (hnodup : (l.map order).Nodup)
    (hpriority : ∀ y ∈ l, ∀ z ∈ l, priority y = priority z) (hx : x ∈ l)
    (hout : x ∉ batch (turnKey group order priority l) size l) (a : γ) :
    (batch (turnKey group order priority l) size l).countP (fun y => group y = a) ≤
      (batch (turnKey group order priority l) size l).countP (fun y => group y = group x) + 1 := by
  classical
  set b := batch (turnKey group order priority l) size l with hb
  -- the first one of the group that has been left out
  let out := l.filter fun y => y ∉ b ∧ group y = group x
  cases hfirst : out.argmin order with
  | none =>
    have hempty : out = [] := List.argmin_eq_none.mp hfirst
    have hmem : x ∈ out := List.mem_filter.mpr ⟨hx, by simp [hout]⟩
    rw [hempty] at hmem
    cases hmem
  | some first =>
    obtain ⟨hmem, hfirstout⟩ := List.mem_filter.mp (List.argmin_mem hfirst)
    obtain ⟨hfirstout, hgroup⟩ := of_decide_eq_true hfirstout
    have hturn : turn group order l first ≤ b.countP (fun y => group y = group first) + 1 := by
      refine turn_le_countP hnodup fun y hy hygroup hlt => ?_
      by_contra hyout
      have hle : order first ≤ order y := by
        refine List.le_of_mem_argmin (List.mem_filter.mpr ⟨hy, ?_⟩) hfirst
        exact decide_eq_true ⟨hyout, hygroup.trans hgroup⟩
      exact absurd hlt (not_lt.mpr hle)
    rw [hgroup] at hturn
    refine (countP_batch_le fun y hy _ => ?_).trans hturn
    exact batch_turn_le hmem hfirstout hy (hpriority y (mem_of_mem_batch hy) first hmem)

end Turn

end Turns
