import Mathlib.Logic.Function.Basic
import EarnProxy.Library.History

/-!
# Two overlapping requests

A request reads the shared state once and later writes to it, from what it has read, in a second
transaction. Two requests that overlap both write from the initial state, so the later writer may
undo the earlier one. Whether it does is decided when it writes: `complete_iff` reduces
serializability to a condition on each write.
-/

namespace Overlap

open History

/-- The two transactions of a request. -/
structure Request (σ ρ : Type*) where
  read : σ → ρ
  write : ρ → σ → σ

inductive Stage (ρ : Type*) where
  | ready
  | holding (seen : ρ)
  | done
  deriving DecidableEq

inductive Side where
  | left | right
  deriving DecidableEq, Repr

def Side.other : Side → Side
  | .left => .right
  | .right => .left

inductive Access where
  | read (side : Side)
  | write (side : Side)
  deriving DecidableEq, Repr

structure Config (σ ρ : Type*) where
  shared : σ
  stage : Side → Stage ρ := fun _ => .ready

variable {σ ρ τ : Type*}

/-- The request without interference. -/
def Request.run (q : Request σ ρ) (s : σ) : σ := q.write (q.read s) s

def Config.Complete (c : Config σ ρ) : Prop := ∀ side, c.stage side = .done

section Requests

variable (q : Side → Request σ ρ)

def Config.next (c : Config σ ρ) : Access → Option (Config σ ρ)
  | .read side =>
    match c.stage side with
    | .ready => some { c with
        stage := Function.update c.stage side (.holding ((q side).read c.shared)) }
    | _ => none
  | .write side =>
    match c.stage side with
    | .holding seen => some {
        shared := (q side).write seen c.shared
        stage := Function.update c.stage side .done }
    | _ => none

/-- The accesses of `h`, newest first, lead from `s₀` to `c`. -/
def Runs (s₀ : σ) (h : List (Access × Config σ ρ)) (c : Config σ ρ) : Prop :=
  Run (fun c a c' => c.next q a = some c') { shared := s₀ } h c

/-- As far as `view` shows, `s` is what one request after the other makes of `s₀`. -/
def Serial (view : σ → τ) (s₀ s : σ) : Prop :=
  ∃ side, view s = view ((q side.other).run ((q side).run s₀))

/-- The writing request meets `C` with what it has read, in the state that it writes to. -/
def WritesMeet (C : Side → ρ → σ → Prop) (c : Config σ ρ) (a : Access) : Prop :=
  ∀ side seen, a = .write side → c.stage side = .holding seen → C side seen c.shared

instance (C : Side → ρ → σ → Prop) [∀ side seen s, Decidable (C side seen s)] (c : Config σ ρ) :
    ∀ a, Decidable (WritesMeet C c a)
  | .read _ => .isTrue (by simp [WritesMeet])
  | .write side =>
    match hstage : c.stage side with
    | .ready => .isTrue (by grind [WritesMeet])
    | .holding seen => decidable_of_iff (C side seen c.shared) (by grind [WritesMeet])
    | .done => .isTrue (by grind [WritesMeet])

variable {q}

@[simp] theorem Side.other_other (side : Side) : side.other.other = side := by cases side <;> rfl

@[simp] theorem Side.other_ne (side : Side) : side.other ≠ side := by cases side <;> decide

theorem Side.eq_or_other (side side' : Side) : side' = side ∨ side' = side.other := by
  cases side <;> cases side' <;> simp [Side.other]

/-- What has been read and written so far, and whether every write met `C`. -/
inductive Progress (q : Side → Request σ ρ) (C : Side → ρ → σ → Prop) (view : σ → τ) (s₀ : σ)
    (met : Prop) : Config σ ρ → Prop where
  | reading {stage : Side → Stage ρ} (hmet : met)
      (hstage : ∀ side, stage side = .ready ∨ stage side = .holding ((q side).read s₀)) :
      Progress q C view s₀ met ⟨s₀, stage⟩
  | written {stage : Side → Stage ρ} (side : Side) (hmet : met) (hdone : stage side = .done)
      (hother : stage side.other = .ready ∨ ∃ s, (s = s₀ ∨ s = (q side).run s₀) ∧
        stage side.other = .holding ((q side.other).read s)) :
      Progress q C view s₀ met ⟨(q side).run s₀, stage⟩
  | complete {c : Config σ ρ} (hdone : c.Complete) (hiff : met ↔ Serial q view s₀ c.shared) :
      Progress q C view s₀ met c

variable {C : Side → ρ → σ → Prop} {view : σ → τ} {s₀ : σ} {met met' : Prop} {c c' : Config σ ρ}
  {a : Access}

/-- A read meets every condition on writes. -/
theorem Progress.read {side : Side} (hp : Progress q C view s₀ met c)
    (hnext : c.next q (.read side) = some c') (hmet : met' ↔ met) :
    Progress q C view s₀ met' c' := by
  cases hp with
  | @reading stage hm hstage =>
    simp only [Config.next] at hnext
    split at hnext
    · obtain rfl := Option.some.inj hnext
      refine .reading (hmet.mpr hm) fun side' => ?_
      by_cases hside : side' = side
      · subst hside
        simp
      · simpa [hside] using hstage side'
    · cases hnext
  | @written stage first hm hdone hother =>
    rcases first.eq_or_other side with rfl | rfl
    · simp [Config.next, hdone] at hnext
    · simp only [Config.next] at hnext
      split at hnext
      · obtain rfl := Option.some.inj hnext
        refine .written first (hmet.mpr hm) ?_ (.inr ⟨_, .inr rfl, by simp⟩)
        rw [Function.update_of_ne (Side.other_ne first).symm]
        exact hdone
      · cases hnext
  | complete hdone => simp [Config.next, hdone side] at hnext

/-- The write of one request, when `C` says of a late write whether it leaves a serial state. -/
theorem Progress.write {side : Side} (hfresh : ∀ side s, C side ((q side).read s) s)
    (hlate : ∀ side, C side.other ((q side.other).read s₀) ((q side).run s₀) ↔
      Serial q view s₀ ((q side.other).write ((q side.other).read s₀) ((q side).run s₀)))
    (hp : Progress q C view s₀ met c) (hnext : c.next q (.write side) = some c')
    (hmet : met' ↔ WritesMeet C c (.write side) ∧ met) : Progress q C view s₀ met' c' := by
  simp only [Config.next] at hnext
  split at hnext
  case h_2 => cases hnext
  case h_1 seen hseen =>
    obtain rfl := Option.some.inj hnext
    have hmeets : WritesMeet C c (.write side) ↔ C side seen c.shared := by
      grind [WritesMeet]
    rw [hmeets] at hmet
    cases hp with
    | @reading stage hm hstage =>
      have hread : seen = (q side).read s₀ := by grind
      subst hread
      refine .written side (hmet.mpr ⟨hfresh side s₀, hm⟩) (by simp) ?_
      rcases hstage side.other with hother | hother
      · exact .inl (by simpa using hother)
      · exact .inr ⟨s₀, .inl rfl, by simpa using hother⟩
    | @written stage first hm hdone hother =>
      have hside : side = first.other := by
        rcases first.eq_or_other side with rfl | rfl
        · simp [hdone] at hseen
        · rfl
      subst hside
      refine .complete (fun side => ?_) ?_
      · rcases first.eq_or_other side with rfl | rfl
        · simpa [(Side.other_ne _).symm] using hdone
        · simp
      · obtain ⟨s, hs, hholding⟩ : ∃ s, (s = s₀ ∨ s = (q first).run s₀) ∧
            seen = (q first.other).read s := by grind
        subst hholding
        rw [hmet, and_iff_left hm]
        rcases hs with rfl | rfl
        · exact hlate first
        · exact iff_of_true (hfresh _ _) ⟨first, rfl⟩
    | complete hdone => simp [hdone side] at hseen

/-- A complete run of two requests leaves a serial state exactly when every write met `C`, for a
`C` that decides this for the two orders in which both requests read first. -/
theorem complete_iff {h : List (Access × Config σ ρ)}
    (hfresh : ∀ side s, C side ((q side).read s) s)
    (hlate : ∀ side, C side.other ((q side.other).read s₀) ((q side).run s₀) ↔
      Serial q view s₀ ((q side.other).write ((q side.other).read s₀) ((q side).run s₀)))
    (run : Runs q s₀ h c) (hdone : c.Complete) :
    Throughout (WritesMeet C) { shared := s₀ } h ↔ Serial q view s₀ c.shared := by
  have hp : Progress q C view s₀ (Throughout (WritesMeet C) { shared := s₀ } h) c := by
    refine run.invariant (I := fun h c => Progress q C view s₀ (Throughout _ _ h) c)
      (.reading trivial fun _ => .inl rfl) fun h c a c' run hp hnext => ?_
    have hmet : Throughout (WritesMeet C) { shared := s₀ } ((a, c') :: h) ↔
        WritesMeet C c a ∧ Throughout (WritesMeet C) { shared := s₀ } h := by
      rw [← run.current_eq]
      rfl
    cases a with
    | read side => exact hp.read hnext (hmet.trans (and_iff_right (by simp [WritesMeet])))
    | write side => exact hp.write hfresh hlate hnext hmet
  cases hp with
  | @reading stage _ hstage =>
    have hleft : stage .left = .done := hdone .left
    grind
  | @written stage side _ _ hother =>
    have hside : stage side.other = .done := hdone side.other
    grind
  | complete _ hiff => exact hiff

end Requests

end Overlap
