import Mathlib.Algebra.Order.Ring.Nat
import Mathlib.Data.Int.Interval
import Mathlib.Data.List.Sort
import Mathlib.Data.Prod.Lex
import Mathlib.Order.Interval.Finset.Basic

/-!
# Unions of intervals

Half-open intervals are sorted and merged in one pass. The merged intervals are apart and cover the
same points, so the points of the union can be counted interval by interval.
-/

namespace IntervalUnion

variable {α : Type*} [LinearOrder α]

/-- The point lies in one of the intervals. -/
def Covers (spans : List (α × α)) (x : α) : Prop := ∃ s ∈ spans, s.1 ≤ x ∧ x < s.2

@[simp] theorem not_covers_nil (x : α) : ¬ Covers [] x := by simp [Covers]

@[simp] theorem covers_cons {s : α × α} {spans : List (α × α)} {x : α} :
    Covers (s :: spans) x ↔ (s.1 ≤ x ∧ x < s.2) ∨ Covers spans x := by
  simp [Covers]

/-- One step of the pass: an interval that begins before the last merged one is over extends it. The
last merged interval stands first. -/
def absorb (merged : List (α × α)) (span : α × α) : List (α × α) :=
  match merged with
  | [] => [span]
  | last :: rest =>
    if span.1 ≤ last.2 then (last.1, max last.2 span.2) :: rest else span :: last :: rest

theorem absorb_inside {last span : α × α} (rest : List (α × α)) (h : span.1 ≤ last.2) :
    absorb (last :: rest) span = (last.1, max last.2 span.2) :: rest := if_pos h

theorem absorb_behind {last span : α × α} (rest : List (α × α)) (h : last.2 < span.1) :
    absorb (last :: rest) span = span :: last :: rest := if_neg (not_le.mpr h)

/-- The pass over the sorted intervals, the last one first. -/
def merge (spans : List (α × α)) : List (α × α) :=
  (spans.insertionSort fun s t => toLex s ≤ toLex t).foldl absorb []

/-- Intervals that are not empty and do not touch, the last one first. -/
structure Merged (merged : List (α × α)) : Prop where
  positive : ∀ s ∈ merged, s.1 < s.2
  apart : merged.Pairwise fun later earlier => earlier.2 < later.1

theorem Merged.nil : Merged ([] : List (α × α)) := ⟨by simp, .nil⟩

theorem Merged.singleton {s : α × α} (h : s.1 < s.2) : Merged [s] := ⟨by simpa using h, by simp⟩

section Absorb

variable {merged spans : List (α × α)} {span last : α × α}

theorem absorb_merged (h : Merged merged) (hspan : span.1 < span.2) :
    Merged (absorb merged span) := by
  cases merged with
  | nil => exact ⟨by simpa [absorb] using hspan, by simp [absorb]⟩
  | cons last rest =>
    obtain ⟨hlast, hrest⟩ := List.forall_mem_cons.mp h.positive
    obtain ⟨hbefore, hapart⟩ := List.pairwise_cons.mp h.apart
    rcases le_or_gt span.1 last.2 with hinside | hbehind
    · rw [absorb_inside rest hinside]
      refine ⟨List.forall_mem_cons.mpr ⟨hlast.trans_le (le_max_left _ _), hrest⟩, ?_⟩
      exact List.pairwise_cons.mpr ⟨hbefore, hapart⟩
    · rw [absorb_behind rest hbehind]
      refine ⟨List.forall_mem_cons.mpr ⟨hspan, h.positive⟩, List.pairwise_cons.mpr ⟨?_, h.apart⟩⟩
      intro earlier hearlier
      rcases List.mem_cons.mp hearlier with rfl | hearlier
      · exact hbehind
      · exact (hbefore earlier hearlier).trans (hlast.trans hbehind)

/-- Nothing is lost or gained when the intervals come in the order of their starts. -/
theorem covers_absorb (hstart : ∀ last ∈ merged.head?, last.1 ≤ span.1) (x : α) :
    Covers (absorb merged span) x ↔ Covers merged x ∨ (span.1 ≤ x ∧ x < span.2) := by
  cases merged with
  | nil => simp [absorb]
  | cons last rest =>
    have hle : last.1 ≤ span.1 := hstart last (by simp)
    rcases le_or_gt span.1 last.2 with hinside | hbehind
    · rw [absorb_inside rest hinside, covers_cons, covers_cons]
      constructor
      · rintro (⟨hfrom, hbelow⟩ | hrest)
        · by_cases hx : x < last.2
          · exact .inl (.inl ⟨hfrom, hx⟩)
          · have hbelow' : x < span.2 := (lt_max_iff.mp hbelow).resolve_left hx
            exact .inr ⟨hinside.trans (not_lt.mp hx), hbelow'⟩
        · exact .inl (.inr hrest)
      · rintro ((⟨hfrom, hbelow⟩ | hrest) | ⟨hfrom, hbelow⟩)
        · exact .inl ⟨hfrom, lt_max_of_lt_left hbelow⟩
        · exact .inr hrest
        · exact .inl ⟨hle.trans hfrom, lt_max_of_lt_right hbelow⟩
    · rw [absorb_behind rest hbehind, covers_cons, or_comm]

theorem head_absorb (hstart : ∀ last ∈ merged.head?, last.1 ≤ span.1) :
    ∀ last ∈ (absorb merged span).head?, last.1 ≤ span.1 := by
  cases merged with
  | nil => simp [absorb]
  | cons last rest =>
    have hle : last.1 ≤ span.1 := hstart last (by simp)
    rcases le_or_gt span.1 last.2 with hinside | hbehind
    · simp [absorb_inside rest hinside, hle]
    · simp [absorb_behind rest hbehind]

theorem foldl_absorb (hsorted : spans.Pairwise fun s t => s.1 ≤ t.1)
    (hpositive : ∀ s ∈ spans, s.1 < s.2) (h : Merged merged)
    (hstart : ∀ last ∈ merged.head?, ∀ s ∈ spans, last.1 ≤ s.1) :
    Merged (spans.foldl absorb merged) ∧
      ∀ x, Covers (spans.foldl absorb merged) x ↔ Covers merged x ∨ Covers spans x := by
  induction spans generalizing merged with
  | nil => simpa using h
  | cons span spans ih =>
    obtain ⟨hfirst, hsorted⟩ := List.pairwise_cons.mp hsorted
    obtain ⟨hspan, hpositive⟩ := List.forall_mem_cons.mp hpositive
    have hhead : ∀ last ∈ merged.head?, last.1 ≤ span.1 := fun last hlast =>
      hstart last hlast span List.mem_cons_self
    have hnext : ∀ last ∈ (absorb merged span).head?, ∀ s ∈ spans, last.1 ≤ s.1 :=
      fun last hlast s hs => (head_absorb hhead last hlast).trans (hfirst s hs)
    obtain ⟨hmerged, hcovers⟩ := ih hsorted hpositive (absorb_merged h hspan) hnext
    refine ⟨hmerged, fun x => ?_⟩
    rw [List.foldl_cons, hcovers, covers_absorb hhead, covers_cons, or_assoc]

end Absorb

section Merge

variable {spans : List (α × α)}

theorem sorted_starts (spans : List (α × α)) :
    (spans.insertionSort fun s t => toLex s ≤ toLex t).Pairwise fun s t => s.1 ≤ t.1 := by
  refine (List.pairwise_insertionSort (fun s t : α × α => toLex s ≤ toLex t) spans).imp ?_
  intro s t hle
  rcases (Prod.Lex.le_iff ..).mp hle with hlt | ⟨heq, -⟩
  · exact hlt.le
  · exact heq.le

theorem merge_spec (hpositive : ∀ s ∈ spans, s.1 < s.2) :
    Merged (merge spans) ∧ ∀ x, Covers (merge spans) x ↔ Covers spans x := by
  have hmem : ∀ s, s ∈ spans.insertionSort (fun s t => toLex s ≤ toLex t) ↔ s ∈ spans :=
    fun s => List.mem_insertionSort _
  obtain ⟨hmerged, hcovers⟩ := foldl_absorb (sorted_starts spans)
    (fun s hs => hpositive s ((hmem s).mp hs)) Merged.nil (by simp)
  refine ⟨hmerged, fun x => (hcovers x).trans ?_⟩
  simp [Covers]

/-- The ends of the merged intervals are ends of the intervals. -/
theorem merge_ends {P : α → Prop} (h : ∀ s ∈ spans, P s.1 ∧ P s.2) :
    ∀ s ∈ merge spans, P s.1 ∧ P s.2 := by
  unfold merge
  have hsorted : ∀ s ∈ spans.insertionSort (fun s t => toLex s ≤ toLex t), P s.1 ∧ P s.2 :=
    fun s hs => h s ((List.mem_insertionSort _).mp hs)
  have hnil : ∀ s ∈ ([] : List (α × α)), P s.1 ∧ P s.2 := fun s hs => nomatch hs
  refine List.foldlRecOn (motive := fun merged => ∀ s ∈ merged, P s.1 ∧ P s.2) _ absorb hnil ?_
  intro merged hmerged span hspan
  cases merged with
  | nil => simpa [absorb] using hsorted span hspan
  | cons last rest =>
    obtain ⟨hlast, hrest⟩ := List.forall_mem_cons.mp hmerged
    rcases le_or_gt span.1 last.2 with hinside | hbehind
    · rw [absorb_inside rest hinside]
      refine List.forall_mem_cons.mpr ⟨⟨hlast.1, ?_⟩, hrest⟩
      rcases max_choice last.2 span.2 with hmax | hmax
      · rw [hmax]
        exact hlast.2
      · rw [hmax]
        exact (hsorted span hspan).2
    · rw [absorb_behind rest hbehind]
      exact List.forall_mem_cons.mpr ⟨hsorted span hspan, hmerged⟩

/-- Every covered point comes before the end of the last merged interval. -/
theorem Merged.lt_last {merged : List (α × α)} (h : Merged merged) {last : α × α}
    (hlast : last ∈ merged.head?) {x : α} (hx : Covers merged x) : x < last.2 := by
  obtain ⟨s, hs, -, hbelow⟩ := hx
  cases merged with
  | nil => simp at hs
  | cons first rest =>
    obtain rfl : first = last := by simpa using hlast
    rcases List.mem_cons.mp hs with rfl | hs
    · exact hbelow
    · have hapart := (List.pairwise_cons.mp h.apart).1 s hs
      exact hbelow.trans (hapart.trans (h.positive first List.mem_cons_self))

end Merge

/-! ## Counting -/

section Points

variable [LocallyFiniteOrder α]

/-- The points that the intervals cover. -/
def points (spans : List (α × α)) : Finset α :=
  spans.foldr (fun s covered => Finset.Ico s.1 s.2 ∪ covered) ∅

theorem mem_points {spans : List (α × α)} {x : α} : x ∈ points spans ↔ Covers spans x := by
  induction spans with
  | nil => simp [points]
  | cons s spans ih =>
    have hcons : points (s :: spans) = Finset.Ico s.1 s.2 ∪ points spans := rfl
    rw [hcons, Finset.mem_union, Finset.mem_Ico, ih, covers_cons]

/-- Merged intervals are counted one by one. -/
theorem Merged.card_points {merged : List (α × α)} (h : Merged merged) :
    (points merged).card = (merged.map fun s => (Finset.Ico s.1 s.2).card).sum := by
  induction merged with
  | nil => rfl
  | cons last rest ih =>
    obtain ⟨hbefore, hapart⟩ := List.pairwise_cons.mp h.apart
    obtain ⟨-, hpositive⟩ := List.forall_mem_cons.mp h.positive
    have hdisjoint : Disjoint (Finset.Ico last.1 last.2) (points rest) := by
      refine Finset.disjoint_left.mpr fun x hx hrest => ?_
      obtain ⟨s, hs, -, hbelow⟩ := mem_points.mp hrest
      exact absurd (hbelow.trans (hbefore s hs)) (not_lt.mpr (Finset.mem_Ico.mp hx).1)
    have hcons : points (last :: rest) = Finset.Ico last.1 last.2 ∪ points rest := rfl
    rw [hcons, Finset.card_union_of_disjoint hdisjoint, ih ⟨hpositive, hapart⟩, List.map_cons,
      List.sum_cons]

end Points

/-! ## Counting the intervals -/

section Firsts

/-- The first points of the maximal intervals of a set of integers. -/
def firsts (set : Finset ℤ) : Finset ℤ := set.filter fun x => x - 1 ∉ set

variable {merged : List (ℤ × ℤ)} {s t : ℤ × ℤ}

theorem Merged.apart_of_ne (h : Merged merged) (hs : s ∈ merged) (ht : t ∈ merged) (hne : s ≠ t) :
    s.2 < t.1 ∨ t.2 < s.1 := by
  have hsymm : Std.Symm fun s t : ℤ × ℤ => s.2 < t.1 ∨ t.2 < s.1 := ⟨fun _ _ => Or.symm⟩
  exact (h.apart.imp (S := fun s t => s.2 < t.1 ∨ t.2 < s.1) fun hlt => .inr hlt).forall hs ht hne

theorem Merged.mem_firsts (h : Merged merged) {x : ℤ} :
    x ∈ firsts (points merged) ↔ ∃ s ∈ merged, s.1 = x := by
  rw [firsts, Finset.mem_filter, mem_points, mem_points]
  constructor
  · rintro ⟨⟨s, hs, hfrom, hbelow⟩, hbefore⟩
    refine ⟨s, hs, hfrom.antisymm (not_lt.mp fun hlt => hbefore ⟨s, hs, ?_⟩)⟩
    exact ⟨by omega, by omega⟩
  · rintro ⟨s, hs, rfl⟩
    have hpositive : s.1 < s.2 := h.positive s hs
    refine ⟨⟨s, hs, le_rfl, hpositive⟩, ?_⟩
    rintro ⟨t, ht, hfrom, hbelow⟩
    have hne : s ≠ t := by
      rintro rfl
      omega
    rcases h.apart_of_ne hs ht hne with hlt | hlt <;> omega

/-- The merged intervals are the maximal intervals of what they cover. -/
theorem Merged.card_firsts (h : Merged merged) : (firsts (points merged)).card = merged.length := by
  have hnodup : (merged.map Prod.fst).Nodup := by
    refine List.pairwise_map.mpr (h.apart.imp_of_mem fun {s t} _ ht hlt => ?_)
    have hpositive : t.1 < t.2 := h.positive t ht
    omega
  have hfirsts : firsts (points merged) = (merged.map Prod.fst).toFinset := by
    ext x
    simp [h.mem_firsts]
  rw [hfirsts, List.toFinset_card_of_nodup hnodup, List.length_map]

end Firsts

end IntervalUnion
