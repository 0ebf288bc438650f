import Mathlib.Data.List.Induction
import Mathlib.Tactic.Tauto
import Mathlib.Order.Basic

/-!
# Runs of timed transition systems

A history lists the events of a run with the state each one left behind, newest first. A state
is in force from its own event until the next one, so a fact about an instant is a fact about
the state in force at that instant. `Run.invariant` packages the induction over runs once.
-/

namespace History

variable {σ ε : Type*}

/-- `Run step s₀ h s`: from `s₀` the events of `h` lead to `s`. -/
inductive Run (step : σ → ε → σ → Prop) (s₀ : σ) : List (ε × σ) → σ → Prop where
  | nil : Run step s₀ [] s₀
  | snoc {h : List (ε × σ)} {s : σ} {e : ε} {s' : σ} :
      Run step s₀ h s → step s e s' → Run step s₀ ((e, s') :: h) s'

/-- What holds at the start and is kept by every step holds of every run. -/
theorem Run.invariant {step : σ → ε → σ → Prop} {s₀ : σ} {I : List (ε × σ) → σ → Prop}
    (base : I [] s₀)
    (keep : ∀ h s e s', Run step s₀ h s → I h s → step s e s' → I ((e, s') :: h) s')
    {h : List (ε × σ)} {s : σ} (run : Run step s₀ h s) : I h s := by
  induction run with
  | nil => exact base
  | snoc run hstep ih => exact keep _ _ _ _ run ih hstep

/-- An invariant of states alone. -/
theorem Run.always {step : σ → ε → σ → Prop} {s₀ : σ} {P : σ → Prop} (base : P s₀)
    (keep : ∀ s e s', P s → step s e s' → P s') {h : List (ε × σ)} {s : σ}
    (run : Run step s₀ h s) : P s :=
  run.invariant (I := fun _ s => P s) base fun _ s e s' _ hs => keep s e s' hs

theorem Run.mono {step step' : σ → ε → σ → Prop} {s₀ : σ}
    (weaken : ∀ s e s', step s e s' → step' s e s') {h : List (ε × σ)} {s : σ}
    (run : Run step s₀ h s) : Run step' s₀ h s := by
  induction run with
  | nil => exact .nil
  | snoc _ hstep ih => exact .snoc ih (weaken _ _ _ hstep)

/-- Every state a history records ends a run of its own. -/
theorem Run.recorded {step : σ → ε → σ → Prop} {s₀ : σ} {h : List (ε × σ)} {s : σ}
    (run : Run step s₀ h s) {x : ε × σ} (hx : x ∈ h) : ∃ h', Run step s₀ h' x.2 := by
  induction run with
  | nil => simp at hx
  | snoc run hstep ih =>
    rcases List.mem_cons.mp hx with rfl | hx
    · exact ⟨_, run.snoc hstep⟩
    · exact ih hx

/-- A run is a run up to some state and a run from there. -/
theorem Run.split {step : σ → ε → σ → Prop} {s₀ s : σ} {later h : List (ε × σ)}
    (run : Run step s₀ (later ++ h) s) : ∃ s', Run step s₀ h s' ∧ Run step s' later s := by
  induction later generalizing s with
  | nil => exact ⟨s, run, .nil⟩
  | cons x later ih =>
    cases run with
    | snoc run hstep =>
      obtain ⟨s', hrun, hlater⟩ := ih run
      exact ⟨s', hrun, hlater.snoc hstep⟩

/-- The state a history ends in. -/
def current (s₀ : σ) (h : List (ε × σ)) : σ := (h.head?.map Prod.snd).getD s₀

theorem Run.current_eq {step : σ → ε → σ → Prop} {s₀ : σ} {h : List (ε × σ)} {s : σ}
    (run : Run step s₀ h s) : current s₀ h = s := by
  cases run <;> rfl

/-- The run has been in the state. -/
def Visited (s₀ : σ) (h : List (ε × σ)) (s : σ) : Prop := s = s₀ ∨ ∃ x ∈ h, x.2 = s

theorem Visited.later {s₀ s : σ} {h : List (ε × σ)} (hs : Visited s₀ h s) (x : ε × σ) :
    Visited s₀ (x :: h) s := by
  rcases hs with hs | ⟨y, hy, hs⟩
  · exact .inl hs
  · exact .inr ⟨y, List.mem_cons_of_mem _ hy, hs⟩

theorem Run.visited {step : σ → ε → σ → Prop} {s₀ : σ} {h : List (ε × σ)} {s : σ}
    (run : Run step s₀ h s) : Visited s₀ h s := by
  cases run with
  | nil => exact .inl rfl
  | snoc => exact .inr ⟨_, List.mem_cons_self, rfl⟩

section Abides

variable (C : List (ε × σ) → σ → ε → Prop) (s₀ : σ)

/-- Every event meets `C`, which may depend on the history before it and on the state it was taken
in. -/
def Abides : List (ε × σ) → Prop
  | [] => True
  | (e, _) :: h => C h (current s₀ h) e ∧ Abides h

instance Abides.decidable [∀ h s e, Decidable (C h s e)] : ∀ h, Decidable (Abides C s₀ h)
  | [] => inferInstanceAs (Decidable True)
  | (e, _) :: h =>
    have := Abides.decidable h
    inferInstanceAs (Decidable (C h (current s₀ h) e ∧ Abides C s₀ h))

variable {C s₀}

theorem Abides.head {step : σ → ε → σ → Prop} {h : List (ε × σ)} {s s' : σ} {e : ε}
    (hC : Abides C s₀ ((e, s') :: h)) (run : Run step s₀ h s) : C h s e :=
  run.current_eq ▸ hC.1

end Abides

section Throughout

variable (C : σ → ε → Prop) (s₀ : σ)

/-- Every event meets `C` in the state it was taken in. -/
def Throughout (h : List (ε × σ)) : Prop := Abides (fun _ => C) s₀ h

instance Throughout.decidable [∀ s e, Decidable (C s e)] (h : List (ε × σ)) :
    Decidable (Throughout C s₀ h) :=
  inferInstanceAs (Decidable (Abides _ _ _))

variable {C s₀}

theorem Throughout.head {step : σ → ε → σ → Prop} {h : List (ε × σ)} {s s' : σ} {e : ε}
    (hC : Throughout C s₀ ((e, s') :: h)) (run : Run step s₀ h s) : C s e :=
  Abides.head hC run

theorem Run.throughout {step : σ → ε → σ → Prop} {h : List (ε × σ)} {s : σ}
    (run : Run step s₀ h s) (hC : Throughout C s₀ h) :
    Run (fun s e s' => step s e s' ∧ C s e) s₀ h s := by
  induction run with
  | nil => exact .nil
  | snoc run hstep ih => exact .snoc (ih hC.2) ⟨hstep, Throughout.head hC run⟩

/-- What holds at the start and is kept by the steps that meet `C` holds of every state of a run
whose events all meet it. -/
theorem Run.throughout_visited {step : σ → ε → σ → Prop} {h : List (ε × σ)} {s : σ}
    (run : Run step s₀ h s) (hC : Throughout C s₀ h) {P : σ → Prop} (base : P s₀)
    (keep : ∀ s e s', P s → step s e s' → C s e → P s') : ∀ x, Visited s₀ h x → P x := by
  induction run with
  | nil =>
    rintro x (rfl | ⟨_, hx, _⟩)
    · exact base
    · cases hx
  | @snoc h s e s' run hstep ih =>
    rintro x (rfl | ⟨y, hy, rfl⟩)
    · exact base
    rcases List.mem_cons.mp hy with rfl | hy
    · exact keep s e s' (ih hC.2 s run.visited) hstep (Throughout.head hC run)
    · exact ih hC.2 y.2 (.inr ⟨y, hy, rfl⟩)

end Throughout

section Sometime

variable (C : σ → ε → Prop) (s₀ : σ)

/-- Some event met `C` in the state it was taken in. -/
def Sometime : List (ε × σ) → Prop
  | [] => False
  | (e, _) :: h => C (current s₀ h) e ∨ Sometime h

instance Sometime.decidable [∀ s e, Decidable (C s e)] : ∀ h, Decidable (Sometime C s₀ h)
  | [] => inferInstanceAs (Decidable False)
  | (e, _) :: h =>
    have := Sometime.decidable h
    inferInstanceAs (Decidable (C (current s₀ h) e ∨ Sometime C s₀ h))

variable {C s₀}

theorem Sometime.imp {C' : σ → ε → Prop} {h : List (ε × σ)} (hC : Sometime C s₀ h)
    (himp : ∀ x ∈ h, ∀ s, C s x.1 → C' s x.1) : Sometime C' s₀ h := by
  induction h with
  | nil => exact hC
  | cons x h ih =>
    rcases hC with hC | hC
    · exact .inl (himp x (by simp) _ hC)
    · exact .inr (ih hC fun y hy => himp y (List.mem_cons_of_mem _ hy))

/-- The event that met `C` is one of those that all meet `D`. -/
theorem Sometime.and_throughout {D : σ → ε → Prop} {h : List (ε × σ)} (hC : Sometime C s₀ h)
    (hD : Throughout D s₀ h) : Sometime (fun s e => C s e ∧ D s e) s₀ h := by
  induction h with
  | nil => exact hC
  | cons x h ih =>
    rcases hC with hC | hC
    · exact .inl ⟨hC, hD.1⟩
    · exact .inr (ih hC hD.2)

theorem Sometime.now {step : σ → ε → σ → Prop} {h : List (ε × σ)} {s s' : σ} {e : ε}
    (run : Run step s₀ h s) (hC : C s e) : Sometime C s₀ ((e, s') :: h) :=
  .inl (run.current_eq.symm ▸ hC)

end Sometime

section Occurrences

variable (C : σ → ε → Prop) [∀ s e, Decidable (C s e)] (s₀ : σ)

/-- How many events met `C` in the state they were taken in. -/
def occurrences : List (ε × σ) → Nat
  | [] => 0
  | (e, _) :: h => (if C (current s₀ h) e then 1 else 0) + occurrences h

variable {C s₀}

theorem Run.occurrences_snoc {step : σ → ε → σ → Prop} {h : List (ε × σ)} {s s' : σ} {e : ε}
    (run : Run step s₀ h s) :
    occurrences C s₀ ((e, s') :: h) = (if C s e then 1 else 0) + occurrences C s₀ h := by
  rw [occurrences, run.current_eq]

theorem occurrences_eq_zero {h : List (ε × σ)} :
    occurrences C s₀ h = 0 ↔ ¬ Sometime C s₀ h := by
  induction h with
  | nil => simp [occurrences, Sometime]
  | cons x h ih =>
    by_cases hx : C (current s₀ h) x.1 <;> simp [occurrences, Sometime, hx, ih]

end Occurrences

section Replay

variable (next : σ → ε → σ)

/-- The history of a deterministic system that takes the events in order, oldest first. -/
def replay (s₀ : σ) (events : List ε) : List (ε × σ) :=
  events.foldl (fun h e => (e, next (current s₀ h) e) :: h) []

theorem run_replay (s₀ : σ) (events : List ε) :
    Run (fun s e s' => next s e = s') s₀ (replay next s₀ events)
      (current s₀ (replay next s₀ events)) := by
  induction events using List.reverseRecOn with
  | nil => exact .nil
  | append_singleton events e ih =>
    have hreplay : replay next s₀ (events ++ [e]) =
        (e, next (current s₀ (replay next s₀ events)) e) :: replay next s₀ events := by
      simp [replay]
    rw [hreplay]
    exact ih.snoc rfl

/-- A system that refuses some events takes those that it accepts. -/
theorem run_replay_accepted {next : σ → ε → Option σ} {s₀ : σ} {events : List ε}
    (haccepts : Throughout (fun s e => (next s e).isSome) s₀
      (replay (fun s e => (next s e).getD s) s₀ events)) :
    Run (fun s e s' => next s e = some s') s₀ (replay (fun s e => (next s e).getD s) s₀ events)
      (current s₀ (replay (fun s e => (next s e).getD s) s₀ events)) := by
  refine ((run_replay _ s₀ events).throughout haccepts).mono ?_
  rintro s e s' ⟨rfl, hsome⟩
  obtain ⟨s', hs'⟩ := Option.isSome_iff_exists.mp hsome
  simp [hs']

end Replay

section Timed

variable {T : Type*} [Preorder T] (time : ε → T)

/-- Event times never decrease. -/
def Chronological (h : List (ε × σ)) : Prop :=
  h.Pairwise fun later earlier => time earlier.1 ≤ time later.1

/-- At instant `τ` the state in force satisfied `P`. A state is in force from its event on, until
the next event. -/
def Held (P : σ → Prop) : List (ε × σ) → T → Prop
  | [], _ => False
  | (e, s) :: h, τ => (time e ≤ τ ∧ P s) ∨ (τ < time e ∧ Held P h τ)

instance [DecidableLE T] (h : List (ε × σ)) : Decidable (Chronological time h) :=
  inferInstanceAs (Decidable (h.Pairwise _))

instance Held.decidable [DecidableLE T] [DecidableLT T] (P : σ → Prop) [DecidablePred P] :
    ∀ (h : List (ε × σ)) (τ : T), Decidable (Held time P h τ)
  | [], _ => inferInstanceAs (Decidable False)
  | (e, s) :: h, τ =>
    have := Held.decidable P h τ
    inferInstanceAs (Decidable ((time e ≤ τ ∧ P s) ∨ (τ < time e ∧ Held time P h τ)))

variable {time}

theorem Chronological.tail {x : ε × σ} {h : List (ε × σ)} (hc : Chronological time (x :: h)) :
    Chronological time h := (List.pairwise_cons.mp hc).2

theorem Chronological.le {x y : ε × σ} {h : List (ε × σ)} (hc : Chronological time (x :: h))
    (hy : y ∈ h) : time y.1 ≤ time x.1 := (List.pairwise_cons.mp hc).1 y hy

@[simp] theorem not_held_nil {P : σ → Prop} {τ : T} : ¬ Held time P [] τ := id

theorem held_cons {P : σ → Prop} {h : List (ε × σ)} {e : ε} {s : σ} {τ : T} :
    Held time P ((e, s) :: h) τ ↔ (time e ≤ τ ∧ P s) ∨ (τ < time e ∧ Held time P h τ) := Iff.rfl

/-- A fact about the recorded states carries over to the instants at which they were in force. -/
theorem Held.imp {P Q : σ → Prop} {h : List (ε × σ)} {τ : T} (hPQ : ∀ x ∈ h, P x.2 → Q x.2)
    (hτ : Held time P h τ) : Held time Q h τ := by
  induction h with
  | nil => exact hτ
  | cons x h ih =>
    rcases hτ with ⟨hle, hP⟩ | ⟨hlt, hτ⟩
    · exact .inl ⟨hle, hPQ x (by simp) hP⟩
    · exact .inr ⟨hlt, ih (fun y hy => hPQ y (List.mem_cons_of_mem _ hy)) hτ⟩

theorem held_or {P Q : σ → Prop} {h : List (ε × σ)} {τ : T} :
    Held time (fun s => P s ∨ Q s) h τ ↔ Held time P h τ ∨ Held time Q h τ := by
  induction h with
  | nil => simp
  | cons x h ih =>
    obtain ⟨e, s⟩ := x
    simp only [held_cons, ih]
    tauto

theorem held_and {P Q : σ → Prop} {h : List (ε × σ)} {τ : T} :
    Held time (fun s => P s ∧ Q s) h τ ↔ Held time P h τ ∧ Held time Q h τ := by
  induction h with
  | nil => simp
  | cons x h ih =>
    obtain ⟨e, s⟩ := x
    simp only [held_cons, ih]
    constructor
    · tauto
    · rintro ⟨⟨hle, hP⟩ | ⟨hlt, hP⟩, ⟨hle', hQ⟩ | ⟨hlt', hQ⟩⟩
      · exact .inl ⟨hle, hP, hQ⟩
      · exact absurd hle (not_le_of_gt hlt')
      · exact absurd hle' (not_le_of_gt hlt)
      · exact .inr ⟨hlt, hP, hQ⟩

/-- The state in force is one the history recorded. -/
theorem Held.exists_mem {P : σ → Prop} {h : List (ε × σ)} {τ : T} (hτ : Held time P h τ) :
    ∃ x ∈ h, time x.1 ≤ τ ∧ P x.2 := by
  induction h with
  | nil => exact hτ.elim
  | cons x h ih =>
    rcases hτ with ⟨hle, hP⟩ | ⟨_, hτ⟩
    · exact ⟨x, by simp, hle, hP⟩
    · obtain ⟨y, hy, hle, hP⟩ := ih hτ
      exact ⟨y, List.mem_cons_of_mem _ hy, hle, hP⟩

end Timed

end History
