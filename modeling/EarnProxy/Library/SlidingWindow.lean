import Mathlib.Data.List.Count
import Mathlib.Order.Basic

/-!
# Sliding windows

A limiter with a budget for each key and one for all keys. An event is recent for as long as the
width of the window after it. The log has the admitted events, newest first.
-/

namespace SlidingWindow

variable {ε κ τ : Type*} [Preorder τ] [DecidableLT τ] [Add τ]

/-- What an admission is measured by. -/
structure Limiter (ε κ τ : Type*) where
  time : ε → τ
  key : ε → κ
  width : τ
  keyMax : Nat
  totalMax : Nat

variable (l : Limiter ε κ τ)

/-- The events whose window is still open. -/
def Limiter.recent (now : τ) (log : List ε) : List ε := log.filter fun e => now < l.time e + l.width

/-- The events of the set have their windows open at each other's times. -/
def Limiter.Narrow (q : ε → Prop) : Prop :=
  ∀ e e', q e → q e' → l.time e ≤ l.time e' → l.time e' < l.time e + l.width

variable {l} {log : List ε} {now now' : τ}

/-- What has been pruned is not missed later. -/
theorem Limiter.recent_recent (h : now ≤ now') :
    l.recent now' (l.recent now log) = l.recent now' log := by
  unfold recent
  rw [List.filter_filter]
  apply List.filter_congr
  intro e _
  by_cases hopen : now' < l.time e + l.width
  · simp [hopen, h.trans_lt hopen]
  · simp [hopen]

theorem Limiter.recent_eq_self (h : ∀ e ∈ log, now < l.time e + l.width) :
    l.recent now log = log := by
  unfold recent
  rw [List.filter_eq_self]
  exact fun e he => decide_eq_true (h e he)

/-- The newest event of a narrow set is admitted while the others are recent. -/
theorem Limiter.countP_le_recent {q : ε → Prop} [DecidablePred q] (hq : l.Narrow q) {e : ε}
    (he : q e) (hle : ∀ e' ∈ log, l.time e' ≤ l.time e) (p : ε → Bool) :
    log.countP (fun e' => p e' && decide (q e')) ≤ (l.recent (l.time e) log).countP p := by
  unfold recent
  rw [List.countP_filter]
  apply List.countP_mono_left
  intro e' hmem hboth
  rw [Bool.and_eq_true, decide_eq_true_eq] at hboth
  rw [Bool.and_eq_true, decide_eq_true_eq]
  exact ⟨hboth.1, hq e' e hboth.2 he (hle e' hmem)⟩

section Log

variable (l) [DecidableEq κ]

/-- Both budgets have room for the event. -/
def Limiter.HasRoom (log : List ε) (e : ε) : Prop :=
  (l.recent (l.time e) log).length < l.totalMax ∧
    (l.recent (l.time e) log).countP (l.key · = l.key e) < l.keyMax

instance (log : List ε) (e : ε) : Decidable (l.HasRoom log e) := inferInstanceAs (Decidable (_ ∧ _))

/-- Every event of the log has been admitted into the log before it. -/
inductive Limiter.Log : List ε → Prop where
  | nil : Log []
  | cons {log : List ε} {e : ε} : Log log → (∀ e' ∈ log, l.time e' ≤ l.time e) → l.HasRoom log e →
      Log (e :: log)

variable {l}

/-- A budget bounds every narrow set, when each event that it covers has found room in it. -/
theorem Limiter.Log.countP_le {q : ε → Prop} [DecidablePred q] (hq : l.Narrow q) (p : ε → Bool)
    (cap : Nat)
    (hcap : ∀ log e, l.HasRoom log e → p e = true → (l.recent (l.time e) log).countP p < cap)
    (hlog : l.Log log) : log.countP (fun e => p e && decide (q e)) ≤ cap := by
  induction hlog with
  | nil => simp
  | @cons log e hlog hle hroom ih =>
    by_cases hcovered : (p e && decide (q e)) = true
    · have hboth := hcovered
      rw [Bool.and_eq_true, decide_eq_true_eq] at hboth
      have hrecent := countP_le_recent hq hboth.2 hle p
      have hlt := hcap log e hroom hboth.1
      have hcount := List.countP_cons_of_pos (p := fun e => p e && decide (q e)) (l := log) hcovered
      omega
    · have hcount := List.countP_cons_of_neg (p := fun e => p e && decide (q e)) (l := log) hcovered
      omega

theorem Limiter.Log.total_le {q : ε → Prop} [DecidablePred q] (hq : l.Narrow q)
    (hlog : l.Log log) : log.countP (fun e => decide (q e)) ≤ l.totalMax := by
  have h := hlog.countP_le hq (fun _ => true) l.totalMax fun log e hroom _ => by
    simpa using hroom.1
  simpa using h

theorem Limiter.Log.key_le {q : ε → Prop} [DecidablePred q] (hq : l.Narrow q) (k : κ)
    (hlog : l.Log log) : log.countP (fun e => decide (l.key e = k) && decide (q e)) ≤ l.keyMax := by
  refine hlog.countP_le hq (fun e => decide (l.key e = k)) l.keyMax fun log e hroom hkey => ?_
  rw [decide_eq_true_eq] at hkey
  subst hkey
  exact hroom.2

end Log

end SlidingWindow
