import Mathlib.Logic.Relation

/-!
# What a transaction does to a state

A transaction is an `Except` computation that carries the state along. `Does R raises s x out`
says two things at once about a computation started in `s`: the state it returns is related to `s`,
and an error it raises is explained by a state it could have reached. With an invariant that `R`
keeps and that no explanation of an error satisfies, the error is impossible.
-/

universe u

namespace Transaction

variable {σ α β : Type u} {ε : Type*} {R Q T : σ → σ → Prop} {raises : σ → ε → Prop} {s : σ}

/-- From `s` the computation `x` ends in a state `out` finds in its value. -/
inductive Does (R : σ → σ → Prop) (raises : σ → ε → Prop) (s : σ) :
    Except ε α → (α → σ) → Prop where
  | ok {a : α} {out : α → σ} : R s (out a) → Does R raises s (.ok a) out
  | error {e : ε} {out : α → σ} {s' : σ} : R s s' → raises s' e → Does R raises s (.error e) out

/-- A sequence succeeds when both parts do. -/
theorem ok_of_bind {x : Except ε α} {f : α → Except ε β} {b : β} (h : x >>= f = .ok b) :
    ∃ a, x = .ok a ∧ f a = .ok b := by
  cases x with
  | error e => cases h
  | ok a => exact ⟨a, rfl, h⟩

/-- A sequence that starts with a check succeeds when the check passes. -/
theorem ok_of_check {p : Prop} [Decidable p] {e : ε} {f : PUnit → Except ε α} {a : α}
    (h : (if p then throw e >>= f else f ⟨⟩) = .ok a) : ¬ p ∧ f ⟨⟩ = .ok a := by
  split at h
  · cases h
  · exact ⟨‹_›, h⟩

theorem ok_of_map {x : Except ε α} {f : α → β} {b : β} (h : f <$> x = .ok b) :
    ∃ a, x = .ok a ∧ f a = b := by
  cases x with
  | error e => cases h
  | ok a => exact ⟨a, rfl, Except.ok.inj h⟩

/-- A loop that succeeds; `I l s` holds while the elements of `l` are still to be visited. -/
theorem ok_of_foldlM {ι : Type*} {I : List ι → σ → Prop} {f : σ → ι → Except ε σ}
    (visit : ∀ a l s s', I (a :: l) s → f s a = .ok s' → I l s') (l : List ι) :
    ∀ s s', I l s → l.foldlM f s = .ok s' → I [] s' := by
  induction l with
  | nil =>
    intro s s' hI h
    exact Except.ok.inj h ▸ hI
  | cons a l ih =>
    intro s s' hI h
    rw [List.foldlM_cons] at h
    obtain ⟨s₁, h₁, h₂⟩ := ok_of_bind h
    exact ih s₁ s' (visit a l s s₁ hI h₁) h₂

theorem Does.of_ok {x : Except ε α} {a : α} {out : α → σ} (h : Does R raises s x out)
    (hx : x = .ok a) : R s (out a) := by
  subst hx
  cases h with
  | ok h => exact h

theorem Does.of_error {x : Except ε α} {e : ε} {out : α → σ} (h : Does R raises s x out)
    (hx : x = .error e) : ∃ s', R s s' ∧ raises s' e := by
  subst hx
  cases h with
  | error hs' he => exact ⟨_, hs', he⟩

/-- A computation that starts after a step of its own. -/
theorem Does.after {s₁ : σ} {x : Except ε α} {out : α → σ} (hx : Does Q raises s₁ x out)
    (comp : ∀ s', Q s₁ s' → R s s') : Does R raises s x out := by
  cases hx with
  | ok h => exact .ok (comp _ h)
  | error hs' he => exact .error (comp _ hs') he

theorem Does.mono {x : Except ε α} {out : α → σ} (hx : Does Q raises s x out)
    (hR : ∀ s', Q s s' → R s s') : Does R raises s x out :=
  hx.after hR

/-- Two computations in a row: their relations compose. -/
theorem Does.bind {x : Except ε α} {f : α → Except ε β} {out : α → σ} {out' : β → σ}
    (hx : Does Q raises s x out) (hf : ∀ a, x = .ok a → Does T raises (out a) (f a) out')
    (left : ∀ s', Q s s' → R s s') (comp : ∀ s' s'', Q s s' → T s' s'' → R s s'') :
    Does R raises s (x >>= f) out' := by
  cases hx with
  | error hs' he => exact .error (left _ hs') he
  | ok h => exact (hf _ rfl).after fun s'' => comp _ s'' h

/-- The first computation is judged together with what follows it, from the start of both. -/
theorem Does.bind_whole {x : Except ε α} {f : α → Except ε β} {out : β → σ}
    (herror : ∀ e, x = .error e → ∃ s', R s s' ∧ raises s' e)
    (hok : ∀ a, x = .ok a → Does R raises s (f a) out) : Does R raises s (x >>= f) out := by
  cases x with
  | error e =>
    obtain ⟨s', hs', he⟩ := herror e rfl
    exact .error hs' he
  | ok a => exact hok a rfl

/-- `Does.bind` for one transitive relation. -/
theorem Does.seq {x : Except ε α} {f : α → Except ε β} {out : α → σ} {out' : β → σ}
    (hx : Does R raises s x out) (trans : ∀ a b c, R a b → R b c → R a c)
    (hf : ∀ a, x = .ok a → Does R raises (out a) (f a) out') : Does R raises s (x >>= f) out' :=
  hx.bind hf (fun _ h => h) fun s' s'' => trans s s' s''

theorem Does.map {x : Except ε α} {g : α → β} {out : β → σ}
    (hx : Does R raises s x fun a => out (g a)) : Does R raises s (g <$> x) out := by
  cases hx with
  | ok h => exact .ok h
  | error hs' he => exact .error hs' he

theorem Does.ite {p : Prop} [Decidable p] {x y : Except ε α} {out : α → σ}
    (hx : p → Does R raises s x out) (hy : ¬ p → Does R raises s y out) :
    Does R raises s (if p then x else y) out := by
  split
  · exact hx ‹_›
  · exact hy ‹_›

/-- A loop over a list. `I l s` holds while the elements of `l` are still to be visited. -/
theorem Does.foldlM {ι : Type*} {I : List ι → σ → Prop} {f : σ → ι → Except ε σ} (refl : ∀ s, R s s)
    (trans : ∀ a b c, R a b → R b c → R a c)
    (visit : ∀ a l s, I (a :: l) s →
      Does R raises s (f s a) id ∧ ∀ s', f s a = .ok s' → I l s') (l : List ι) :
    ∀ s, I l s → Does R raises s (l.foldlM f s) id := by
  induction l with
  | nil => intro s _; exact .ok (refl s)
  | cons a l ih =>
    intro s hI
    obtain ⟨hdoes, hnext⟩ := visit a l s hI
    rw [List.foldlM_cons]
    exact hdoes.seq trans fun s' hs' => ih s' (hnext s' hs')

end Transaction
