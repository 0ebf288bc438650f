import Mathlib.Data.Set.Basic
import EarnProxy.Library.History

/-!
# Fencing tokens

A row is claimed by writing a fresh token into it, and whoever acts for the claim must find the
token still there. As long as every token is written once, a token that a row has lost never comes
back, and the content of the row has not changed while the row keeps the token.
-/

namespace Fencing

variable {κ τ δ : Type*}

/-- The rows of a table by key, each with its content and the token that holds it, and the tokens
handed out so far. -/
structure Board (κ τ δ : Type*) where
  issued : Set τ
  holder : κ → Option τ
  content : κ → δ

/-- A step hands out tokens and takes them away. A row has a token after the step because it had it
before, with the same content, or because the token is fresh. -/
structure Board.Step (b b' : Board κ τ δ) : Prop where
  issued : b.issued ⊆ b'.issued
  holds : ∀ k t, b'.holder k = some t → t ∈ b'.issued ∧
    (t ∈ b.issued → b.holder k = some t ∧ b'.content k = b.content k)

namespace Board.Step

variable {b b' b'' : Board κ τ δ}

theorem refl (h : ∀ k t, b.holder k = some t → t ∈ b.issued) : b.Step b :=
  ⟨subset_rfl, fun k t ht => ⟨h k t ht, fun _ => ⟨ht, rfl⟩⟩⟩

theorem trans (h : b.Step b') (h' : b'.Step b'') : b.Step b'' where
  issued := h.issued.trans h'.issued
  holds := by
    intro k t ht
    obtain ⟨hissued, hkept⟩ := h'.holds k t ht
    refine ⟨hissued, fun hold => ?_⟩
    obtain ⟨ht', hcontent'⟩ := hkept (h.issued hold)
    obtain ⟨ht₀, hcontent⟩ := (h.holds k t ht').2 hold
    exact ⟨ht₀, hcontent'.trans hcontent⟩

/-- A token that the row has lost stays lost. -/
theorem lost (h : b.Step b') {k : κ} {t : τ} (ht : t ∈ b.issued) (hlost : b.holder k ≠ some t) :
    b'.holder k ≠ some t :=
  fun hk => hlost ((h.holds k t hk).2 ht).1

end Board.Step

/-- After an event that takes the token away, the row never has it again. -/
theorem Board.lost_for_good {σ ε : Type*} {step : σ → ε → σ → Prop} {s₀ : σ}
    {B : σ → Board κ τ δ} {C : σ → ε → Prop} {k : κ} {t : τ}
    (hstep : ∀ h s e s', History.Run step s₀ h s → step s e s' → (B s).Step (B s'))
    (htakes : ∀ h s e s', History.Run step s₀ h s → step s e s' → C s e →
      t ∈ (B s').issued ∧ (B s').holder k ≠ some t)
    {h : List (ε × σ)} {s : σ} (run : History.Run step s₀ h s)
    (htaken : History.Sometime C s₀ h) : t ∈ (B s).issued ∧ (B s).holder k ≠ some t := by
  refine run.invariant (I := fun h s => History.Sometime C s₀ h →
    t ∈ (B s).issued ∧ (B s).holder k ≠ some t) nofun ?_ htaken
  rintro h s e s' hrun hI hnext (hnow | hearlier)
  · exact htakes h s e s' hrun hnext (hrun.current_eq ▸ hnow)
  · obtain ⟨hissued, hlost⟩ := hI hearlier
    have hboard := hstep h s e s' hrun hnext
    exact ⟨hboard.issued hissued, hboard.lost hissued hlost⟩

/-- Row `k` holds the token `t` only with the content `c`. -/
structure Board.Binds (b : Board κ τ δ) (k : κ) (t : τ) (c : δ) : Prop where
  issued : t ∈ b.issued
  content : b.holder k = some t → b.content k = c

/-- What was read together with a token stays true as long as the row has the token. -/
theorem Board.Binds.step {b b' : Board κ τ δ} {k : κ} {t : τ} {c : δ} (h : b.Binds k t c)
    (hstep : b.Step b') : b'.Binds k t c where
  issued := hstep.issued h.issued
  content := by
    intro hk
    obtain ⟨ht, hcontent⟩ := (hstep.holds k t hk).2 h.issued
    exact hcontent.trans (h.content ht)

end Fencing
