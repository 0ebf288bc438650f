import EarnProxy.Library.History
import EarnProxy.LowerCase
import Mathlib.Algebra.BigOperators.Group.Finset.Basic
import Mathlib.Algebra.BigOperators.Group.Finset.Piecewise
import Mathlib.Algebra.Order.BigOperators.Group.Finset

/-!
# `CheckRunner.provider_slot`

A thread reads the limit, takes the semaphore of its host under `_provider_lock` and then a permit
of it. When the limit has changed in between, the host gets a new semaphore, and the threads of the
old one keep their permits.
-/

namespace EarnProxy.ProviderSlots

/-- A semaphore with the limit that it was made for. -/
structure Semaphore where
  limit : Nat
  permits : Nat
  deriving DecidableEq, Repr

/-- How far a thread is in `provider_slot`; a semaphore is named by its place. -/
inductive Phase where
  | reads (key : List Char) (limit : Nat)
  | waits (key : List Char) (semaphore : Nat)
  | inside (key : List Char) (semaphore : Nat)
  | left
  deriving DecidableEq, Repr

structure State where
  perHostConcurrency : Int := 2
  /-- Every semaphore that was ever made. -/
  semaphores : List Semaphore := []
  /-- `_provider_slots`, the newest entry of a key first. -/
  providerSlots : List (List Char × Nat) := []
  calls : List Phase := []
  deriving DecidableEq, Repr

inductive Act where
  | refreshSettings (stored : Option Int)
  | enter (host : List Char)
  | lookup (call : Nat)
  | acquire (call : Nat)
  | release (call : Nat)
  deriving DecidableEq, Repr

/-- `health_per_host_concurrency` of `checker_settings`; `none` is a stored text that `int`
refuses. -/
def boundedSetting (stored : Option Int) : Int := max 1 (min 3 (stored.getD 2))

/-- `limit` of `provider_slot`. -/
def State.limit (s : State) : Nat := (max 1 (min 3 s.perHostConcurrency)).toNat

/-- The section under `_provider_lock`. -/
def lookup (s : State) (call : Nat) (key : List Char) (limit : Nat) : State :=
  match s.providerSlots.lookup key with
  | some n =>
    if s.semaphores[n]?.map Semaphore.limit = some limit then
      { s with calls := s.calls.set call (.waits key n) }
    else made
  | none => made
where
  made : State :=
    { s with
      semaphores := s.semaphores ++ [⟨limit, limit⟩]
      providerSlots := (key, s.semaphores.length) :: s.providerSlots
      calls := s.calls.set call (.waits key s.semaphores.length) }

variable (lowercase : Text.LowerCase)

/-- `key` of `provider_slot`. -/
def providerKey (host : List Char) : List Char := lowercase.lower (Text.stripChars host)

/-- One step of a thread or of the settings. A thread that waits goes on when a permit is free. -/
def State.next (s : State) : Act → Option State
  | .refreshSettings stored => some { s with perHostConcurrency := boundedSetting stored }
  | .enter host => some { s with calls := s.calls ++ [.reads (providerKey lowercase host) s.limit] }
  | .lookup call =>
    match s.calls[call]? with
    | some (.reads key limit) => some (lookup s call key limit)
    | _ => none
  | .acquire call =>
    match s.calls[call]? with
    | some (.waits key n) =>
      match s.semaphores[n]? with
      | some semaphore =>
        if semaphore.permits = 0 then none
        else some { s with
          semaphores := s.semaphores.set n { semaphore with permits := semaphore.permits - 1 }
          calls := s.calls.set call (.inside key n) }
      | none => none
    | _ => none
  | .release call =>
    match s.calls[call]? with
    | some (.inside _ n) =>
      match s.semaphores[n]? with
      | some semaphore => some { s with
          semaphores := s.semaphores.set n { semaphore with permits := semaphore.permits + 1 }
          calls := s.calls.set call .left }
      | none => none
    | _ => none

def Step (s : State) (a : Act) (s' : State) : Prop := s.next lowercase a = some s'

/-- The steps of `h`, newest first, lead from a new `CheckRunner` to `s`. -/
def Runs (h : List (Act × State)) (s : State) : Prop := History.Run (Step lowercase) {} h s

def Phase.isInside (key : List Char) : Phase → Bool
  | .inside key' _ => key' = key
  | _ => false

/-- The threads inside `provider_slot` for a host. -/
def inside (s : State) (key : List Char) : Nat := s.calls.countP (Phase.isInside key)

/-- The threads of a host that wait for a semaphore or have a permit of it. -/
def users (s : State) (key : List Char) (n : Nat) : Nat :=
  s.calls.count (.waits key n) + s.calls.count (.inside key n)

/-- The limit of a semaphore. -/
def State.limitOf (s : State) (n : Nat) : Nat := (s.semaphores[n]?.map Semaphore.limit).getD 0

/-- The threads of a host that a semaphore may let in at once. -/
def share (s : State) (key : List Char) (n : Nat) : Nat := min (s.limitOf n) (users s key n)

/-- The threads of a host that the semaphores made so far may let in at once. -/
def outstanding (s : State) (key : List Char) : Nat :=
  ∑ n ∈ Finset.range s.semaphores.length, share s key n

/-- The limit of the semaphore that a host has. -/
def State.currentLimit (s : State) (key : List Char) : Option Nat :=
  (s.providerSlots.lookup key).bind fun n => s.semaphores[n]?.map Semaphore.limit

/-- A lookup that makes a semaphore leaves room for the threads of the older ones. -/
def Act.LeavesRoom (s : State) : Act → Prop
  | .lookup call =>
    match s.calls[call]? with
    | some (.reads key limit) => s.currentLimit key = some limit ∨ outstanding s key + limit ≤ 3
    | _ => True
  | _ => True

instance (s : State) (a : Act) : Decidable (a.LeavesRoom s) := by
  cases a <;> unfold Act.LeavesRoom <;> dsimp only <;> try infer_instance
  split <;> infer_instance

/-- Once a thread has entered, the setting stays as it is. -/
def Act.KeepsSetting (s : State) : Act → Prop
  | .refreshSettings stored => s.calls ≠ [] → boundedSetting stored = s.perHostConcurrency
  | _ => True

instance (s : State) (a : Act) : Decidable (a.KeepsSetting s) := by
  cases a <;> unfold Act.KeepsSetting <;> infer_instance

/-! ## One step -/

/-- What a step does. -/
inductive Moves (s : State) : Act → State → Prop where
  | refresh (stored : Option Int) :
      Moves s (.refreshSettings stored) { s with perHostConcurrency := boundedSetting stored }
  | enter (host : List Char) :
      Moves s (.enter host)
        { s with calls := s.calls ++ [.reads (providerKey lowercase host) s.limit] }
  | join {call n : Nat} {key : List Char} {semaphore : Semaphore}
      (reads : s.calls[call]? = some (.reads key semaphore.limit))
      (entry : s.providerSlots.lookup key = some n) (made : s.semaphores[n]? = some semaphore) :
      Moves s (.lookup call) { s with calls := s.calls.set call (.waits key n) }
  | make {call limit : Nat} {key : List Char} (reads : s.calls[call]? = some (.reads key limit))
      (changed : s.currentLimit key ≠ some limit) :
      Moves s (.lookup call) (lookup.made s call key limit)
  | acquire {call n : Nat} {key : List Char} {semaphore : Semaphore}
      (waits : s.calls[call]? = some (.waits key n)) (made : s.semaphores[n]? = some semaphore)
      (free : semaphore.permits ≠ 0) :
      Moves s (.acquire call) { s with
        semaphores := s.semaphores.set n { semaphore with permits := semaphore.permits - 1 }
        calls := s.calls.set call (.inside key n) }
  | release {call n : Nat} {key : List Char} {semaphore : Semaphore}
      (holds : s.calls[call]? = some (.inside key n)) (made : s.semaphores[n]? = some semaphore) :
      Moves s (.release call) { s with
        semaphores := s.semaphores.set n { semaphore with permits := semaphore.permits + 1 }
        calls := s.calls.set call .left }

theorem moves_of_step {s s' : State} {a : Act} (hstep : Step lowercase s a s') :
    Moves lowercase s a s' := by
  unfold Step State.next at hstep
  cases a with
  | refreshSettings stored =>
    obtain rfl := Option.some.inj hstep
    exact .refresh stored
  | enter host =>
    obtain rfl := Option.some.inj hstep
    exact .enter host
  | lookup call =>
    dsimp only at hstep
    split at hstep
    swap
    · cases hstep
    rename_i key limit hreads
    obtain rfl := Option.some.inj hstep
    unfold lookup
    split
    · rename_i n hentry
      split
      · rename_i hlimit
        obtain ⟨semaphore, hmade, rfl⟩ := Option.map_eq_some_iff.mp hlimit
        exact .join hreads hentry hmade
      · rename_i hlimit
        refine .make hreads ?_
        rwa [State.currentLimit, hentry, Option.bind_some]
    · rename_i hentry
      refine .make hreads ?_
      rw [State.currentLimit, hentry, Option.bind_none]
      exact (Option.some_ne_none limit).symm
  | acquire call =>
    dsimp only at hstep
    split at hstep
    swap
    · cases hstep
    rename_i key n hwaits
    split at hstep
    swap
    · cases hstep
    rename_i semaphore hmade
    split at hstep
    · cases hstep
    rename_i hfree
    obtain rfl := Option.some.inj hstep
    exact .acquire hwaits hmade hfree
  | release call =>
    dsimp only at hstep
    split at hstep
    swap
    · cases hstep
    rename_i key n hholds
    split at hstep
    swap
    · cases hstep
    rename_i semaphore hmade
    obtain rfl := Option.some.inj hstep
    exact .release hholds hmade

/-- Where a call moves from one phase to another. -/
theorem countP_move {calls : List Phase} {call : Nat} {c : Phase} (h : calls[call]? = some c)
    (c' : Phase) (p : Phase → Bool) : (calls.set call c').countP p + (if p c then 1 else 0) =
      calls.countP p + if p c' then 1 else 0 := by
  obtain ⟨hlt, rfl⟩ := List.getElem?_eq_some_iff.mp h
  have hle : (if p calls[call] then 1 else 0) ≤ calls.countP p := by
    split
    · rename_i hp
      exact List.countP_pos_iff.mpr ⟨_, List.getElem_mem hlt, hp⟩
    · exact Nat.zero_le _
  rw [List.countP_set hlt]
  omega

theorem count_move {calls : List Phase} {call : Nat} {c : Phase} (h : calls[call]? = some c)
    (c' d : Phase) : (calls.set call c').count d + (if c = d then 1 else 0) =
      calls.count d + if c' = d then 1 else 0 := by
  have hmove := countP_move h c' (· == d)
  simp only [beq_iff_eq] at hmove
  exact hmove

/-! ## The permits -/

def Phase.holds (n : Nat) : Phase → Bool
  | .inside _ n' => n' = n
  | _ => false

/-- A call refers to a semaphore. -/
def Phase.Uses (key : List Char) (n : Nat) (c : Phase) : Prop :=
  c = .waits key n ∨ c = .inside key n

/-- Permits are free or held, and every semaphore that is referred to was made. -/
structure Good (s : State) : Prop where
  permits : ∀ n semaphore, s.semaphores[n]? = some semaphore →
    semaphore.permits + s.calls.countP (Phase.holds n) = semaphore.limit
  used : ∀ c ∈ s.calls, ∀ key n, c.Uses key n → n < s.semaphores.length
  entries : ∀ key n, s.providerSlots.lookup key = some n → n < s.semaphores.length

theorem forall_mem_move {P : Phase → Prop} {calls : List Phase} {call : Nat} {c' : Phase}
    (h : ∀ c ∈ calls, P c) (hc' : P c') : ∀ c ∈ calls.set call c', P c := by
  intro c hc
  rcases List.mem_or_eq_of_mem_set hc with hc | rfl
  · exact h c hc
  · exact hc'

/-- A permit changes hands between a semaphore and a call. -/
theorem Good.exchange {s : State} (h : Good s) {call n permits : Nat} {c c' : Phase}
    {semaphore : Semaphore} (hc : s.calls[call]? = some c)
    (hmade : s.semaphores[n]? = some semaphore) (hother : ∀ n', n' ≠ n → c'.holds n' = c.holds n')
    (hsum : permits + (if c'.holds n then 1 else 0) =
      semaphore.permits + if c.holds n then 1 else 0)
    (huses : ∀ key n, c'.Uses key n → n < s.semaphores.length) :
    Good { s with
      semaphores := s.semaphores.set n { semaphore with permits := permits }
      calls := s.calls.set call c' } := by
  refine ⟨fun n' semaphore' hmade' => ?_, ?_, ?_⟩
  · have hmove := countP_move hc c' (Phase.holds n')
    dsimp only at hmade' ⊢
    by_cases hn : n' = n
    · subst hn
      rw [List.getElem?_set_self (List.getElem?_eq_some_iff.mp hmade).1] at hmade'
      obtain rfl := Option.some.inj hmade'
      have hpermits := h.permits n' semaphore hmade
      dsimp only
      omega
    · rw [List.getElem?_set_ne (Ne.symm hn)] at hmade'
      have hpermits := h.permits n' semaphore' hmade'
      rw [hother n' hn] at hmove
      omega
  · dsimp only
    rw [List.length_set]
    exact forall_mem_move h.used huses
  · dsimp only
    rw [List.length_set]
    exact h.entries

theorem Good.step {s s' : State} {a : Act} (h : Good s) (hstep : Step lowercase s a s') :
    Good s' := by
  cases moves_of_step lowercase hstep with
  | refresh stored => exact ⟨h.permits, h.used, h.entries⟩
  | enter host =>
    refine ⟨fun n semaphore hmade => ?_, fun c hc key n huses => ?_, h.entries⟩
    · have hpermits := h.permits n semaphore hmade
      dsimp only
      rw [List.countP_append]
      simpa [Phase.holds] using hpermits
    · rcases List.mem_append.mp hc with hc | hc
      · exact h.used c hc key n huses
      · rw [List.mem_singleton.mp hc] at huses
        rcases huses with huses | huses <;> cases huses
  | @join call n key semaphore reads entry made =>
    have hlt := (List.getElem?_eq_some_iff.mp made).1
    refine ⟨fun n' semaphore' hmade => ?_, ?_, h.entries⟩
    · have hpermits := h.permits n' semaphore' hmade
      have hmove := countP_move reads (.waits key n) (Phase.holds n')
      simp only [Phase.holds, Bool.false_eq_true, if_false, Nat.add_zero] at hmove
      dsimp only
      rwa [hmove]
    · refine forall_mem_move h.used fun key' n' huses => ?_
      rcases huses with huses | huses <;> cases huses
      exact hlt
  | @make call limit key reads changed =>
    have hnone : s.calls.countP (Phase.holds s.semaphores.length) = 0 := by
      refine List.countP_eq_zero.mpr fun c hc hholds => ?_
      cases c with
      | inside key' n =>
        have := h.used _ hc key' n (.inr rfl)
        have hn : n = s.semaphores.length := by simpa [Phase.holds] using hholds
        omega
      | _ => cases hholds
    refine ⟨fun n semaphore hmade => ?_, ?_, fun key' n hentry => ?_⟩
    · have hmove := countP_move reads (.waits key s.semaphores.length) (Phase.holds n)
      simp only [Phase.holds, Bool.false_eq_true, if_false, Nat.add_zero] at hmove
      simp only [lookup.made] at hmade ⊢
      rw [hmove]
      rcases Nat.lt_trichotomy n s.semaphores.length with hlt | rfl | hgt
      · rw [List.getElem?_append_left hlt] at hmade
        exact h.permits n semaphore hmade
      · rw [List.getElem?_concat_length] at hmade
        obtain rfl := Option.some.inj hmade
        exact congrArg (limit + ·) hnone
      · rw [List.getElem?_eq_none (by simp; omega)] at hmade
        cases hmade
    · simp only [lookup.made, List.length_append, List.length_singleton]
      refine forall_mem_move (fun c hc key' n huses => ?_) fun key' n huses => ?_
      · exact Nat.lt_succ_of_lt (h.used c hc key' n huses)
      · rcases huses with huses | huses <;> cases huses
        exact Nat.lt_succ_self _
    · simp only [lookup.made, List.lookup_cons, List.length_append,
        List.length_singleton] at hentry ⊢
      split at hentry
      · rw [← Option.some.inj hentry]
        exact Nat.lt_succ_self _
      · exact Nat.lt_succ_of_lt (h.entries key' n hentry)
  | @acquire call n key semaphore waits made free =>
    refine h.exchange waits made (fun n' hne => ?_) ?_ fun key' n' huses => ?_
    · simp [Phase.holds, Ne.symm hne]
    · simp [Phase.holds]
      omega
    · rcases huses with huses | huses <;> cases huses
      exact (List.getElem?_eq_some_iff.mp made).1
  | @release call n key semaphore holds made =>
    refine h.exchange holds made (fun n' hne => ?_) ?_ fun key' n' huses => ?_
    · simp [Phase.holds, Ne.symm hne]
    · simp [Phase.holds]
    · rcases huses with huses | huses <;> cases huses

theorem Good.initial : Good {} := ⟨by simp, by simp, by simp⟩

/-! ## Room for a host -/

/-- The semaphore that a host has counts in full, and an older one as far as it is used. -/
def reserve (s : State) (key : List Char) : Nat :=
  ∑ n ∈ Finset.range s.semaphores.length,
    if s.providerSlots.lookup key = some n then s.limitOf n else share s key n

theorem countP_inside {key : List Char} {calls : List Phase} {made : Nat}
    (h : ∀ n, .inside key n ∈ calls → n < made) :
    calls.countP (Phase.isInside key) =
      ∑ n ∈ Finset.range made, calls.count (.inside key n) := by
  induction calls with
  | nil => simp
  | cons c calls ih =>
    have ih := ih fun n hn => h n (List.mem_cons_of_mem c hn)
    have hone : (if c.isInside key then 1 else 0) =
        ∑ n ∈ Finset.range made, if c = .inside key n then 1 else 0 := by
      cases c with
      | inside key' n =>
        by_cases hkey : key' = key
        · subst hkey
          have hn := h n List.mem_cons_self
          simp [Phase.isInside, Finset.sum_ite_eq, hn]
        · simp [Phase.isInside, hkey]
      | _ => simp [Phase.isInside]
    simp only [List.countP_cons, List.count_cons, beq_iff_eq, Finset.sum_add_distrib]
    rw [ih]
    exact congrArg _ hone

theorem inside_le_reserve {s : State} (h : Good s) (key : List Char) :
    inside s key ≤ reserve s key := by
  have hsum : inside s key =
      ∑ n ∈ Finset.range s.semaphores.length, s.calls.count (.inside key n) :=
    countP_inside fun n hmem => h.used _ hmem key n (.inr rfl)
  rw [hsum]
  refine Finset.sum_le_sum fun n hn => ?_
  obtain ⟨semaphore, hmade⟩ : ∃ semaphore, s.semaphores[n]? = some semaphore :=
    ⟨_, List.getElem?_eq_getElem (Finset.mem_range.mp hn)⟩
  have hlimit : s.limitOf n = semaphore.limit := by rw [State.limitOf, hmade]; rfl
  have hholds : s.calls.count (.inside key n) ≤ s.calls.countP (Phase.holds n) := by
    refine List.countP_mono_left fun c _ hc => ?_
    obtain rfl := eq_of_beq hc
    simp [Phase.holds]
  have hpermits := h.permits n semaphore hmade
  split
  · omega
  · refine le_min (by omega) ?_
    unfold users
    omega

theorem reserve_le {s s' : State} {key : List Char}
    (hmade : s'.semaphores.length = s.semaphores.length) (hlimit : ∀ n, s'.limitOf n = s.limitOf n)
    (hentries : s'.providerSlots = s.providerSlots)
    (husers : ∀ n, s.providerSlots.lookup key ≠ some n → users s' key n ≤ users s key n) :
    reserve s' key ≤ reserve s key := by
  unfold reserve
  rw [hmade, hentries]
  refine Finset.sum_le_sum fun n _ => ?_
  split
  · rw [hlimit]
  · rename_i hn
    rw [share, share, hlimit]
    exact min_le_min le_rfl (husers n hn)

instance (key : List Char) (n : Nat) (c : Phase) : Decidable (c.Uses key n) :=
  inferInstanceAs (Decidable (_ ∨ _))

theorem users_move {s : State} {call : Nat} {c : Phase} (h : s.calls[call]? = some c) (c' : Phase)
    (key : List Char) (n : Nat) (semaphores : List Semaphore) (entries : List (List Char × Nat)) :
    users { s with
        semaphores := semaphores, providerSlots := entries, calls := s.calls.set call c' }
      key n + (if c.Uses key n then 1 else 0) = users s key n + if c'.Uses key n then 1 else 0 := by
  have hwaits := count_move h c' (.waits key n)
  have hinside := count_move h c' (.inside key n)
  have hsplit (d : Phase) : (if d.Uses key n then 1 else 0) =
      (if d = .waits key n then 1 else 0) + if d = .inside key n then 1 else 0 := by
    unfold Phase.Uses
    by_cases hd : d = .waits key n
    · simp [hd]
    · simp [hd]
  unfold users
  dsimp only
  rw [hsplit c, hsplit c']
  omega

/-- The limit of a semaphore stays. -/
theorem limitOf_exchange {s : State} {n permits : Nat} {semaphore : Semaphore} {calls : List Phase}
    (hmade : s.semaphores[n]? = some semaphore) (n' : Nat) :
    { s with
      semaphores := s.semaphores.set n { semaphore with permits := permits }
      calls := calls }.limitOf n' = s.limitOf n' := by
  unfold State.limitOf
  dsimp only
  by_cases hn : n' = n
  · subst hn
    rw [List.getElem?_set_self (List.getElem?_eq_some_iff.mp hmade).1, hmade]
    rfl
  · rw [List.getElem?_set_ne (Ne.symm hn)]

theorem exchange_reserve {s : State} {call n permits : Nat} {key : List Char} {c c' : Phase}
    {semaphore : Semaphore} (hc : s.calls[call]? = some c)
    (hmade : s.semaphores[n]? = some semaphore) (huses : ∀ n, c'.Uses key n → c.Uses key n) :
    reserve { s with
      semaphores := s.semaphores.set n { semaphore with permits := permits }
      calls := s.calls.set call c' } key ≤ reserve s key := by
  refine reserve_le (List.length_set ..) (limitOf_exchange hmade) rfl fun n' _ => ?_
  · have hmove := users_move hc c' key n' (s.semaphores.set n { semaphore with permits := permits })
      s.providerSlots
    have hle : (if c'.Uses key n' then 1 else 0) ≤ if c.Uses key n' then 1 else 0 := by
      split
      · rename_i hn'
        rw [if_pos (huses n' hn')]
      · exact Nat.zero_le _
    omega

section

variable {s : State} {call limit : Nat} {key : List Char}

theorem limitOf_made {n : Nat} (hn : n < s.semaphores.length) :
    (lookup.made s call key limit).limitOf n = s.limitOf n := by
  unfold State.limitOf lookup.made
  dsimp only
  rw [List.getElem?_append_left hn]

theorem users_made (hreads : s.calls[call]? = some (.reads key limit)) (key' : List Char) {n : Nat}
    (hn : key = key' → n ≠ s.semaphores.length) :
    users (lookup.made s call key limit) key' n = users s key' n := by
  have hmove := users_move hreads (.waits key s.semaphores.length) key' n
    (s.semaphores ++ [⟨limit, limit⟩]) ((key, s.semaphores.length) :: s.providerSlots)
  have hreads' : ¬ (Phase.reads key limit).Uses key' n := by
    rintro (huses | huses) <;> cases huses
  have hwaits : ¬ (Phase.waits key s.semaphores.length).Uses key' n := by
    rintro (huses | huses) <;> cases huses
    exact hn rfl rfl
  rw [if_neg hreads', if_neg hwaits] at hmove
  exact hmove

/-- A new semaphore counts in full, beside the older ones. -/
theorem reserve_made_self (hreads : s.calls[call]? = some (.reads key limit)) :
    reserve (lookup.made s call key limit) key = outstanding s key + limit := by
  have hentry : (lookup.made s call key limit).providerSlots.lookup key =
      some s.semaphores.length := by
    simp [lookup.made]
  have hlength : (lookup.made s call key limit).semaphores.length = s.semaphores.length + 1 :=
    List.length_append
  have hlimit : (lookup.made s call key limit).limitOf s.semaphores.length = limit := by
    simp [State.limitOf, lookup.made]
  unfold reserve outstanding
  rw [hlength, Finset.sum_range_succ, hentry, if_pos rfl, hlimit]
  congr 1
  refine Finset.sum_congr rfl fun n hn => ?_
  have hn := Finset.mem_range.mp hn
  rw [if_neg fun h => absurd (Option.some.inj h) (by omega), share, share, limitOf_made hn,
    users_made hreads key fun _ => by omega]

/-- Another host is not concerned. -/
theorem reserve_made_other (h : Good s) (hreads : s.calls[call]? = some (.reads key limit))
    {other : List Char} (hne : other ≠ key) :
    reserve (lookup.made s call key limit) other = reserve s other := by
  have hentry : (lookup.made s call key limit).providerSlots.lookup other =
      s.providerSlots.lookup other := by
    have hbeq : (other == key) = false := beq_eq_false_iff_ne.mpr hne
    simp [lookup.made, List.lookup_cons, hbeq]
  have hlength : (lookup.made s call key limit).semaphores.length = s.semaphores.length + 1 :=
    List.length_append
  have hnone : users s other s.semaphores.length = 0 := by
    have hcount {c : Phase} (huses : c.Uses other s.semaphores.length) : s.calls.count c = 0 :=
      List.count_eq_zero.mpr fun hmem => absurd (h.used c hmem other _ huses) (by omega)
    unfold users
    rw [hcount (.inl rfl), hcount (.inr rfl)]
  unfold reserve
  rw [hlength, Finset.sum_range_succ, hentry,
    if_neg fun hlookup => absurd (h.entries other _ hlookup) (by omega),
    share, users_made hreads other fun heq => absurd heq.symm hne, hnone, Nat.min_zero,
    Nat.add_zero]
  refine Finset.sum_congr rfl fun n hn => ?_
  rw [share, share, limitOf_made (Finset.mem_range.mp hn),
    users_made hreads other fun heq => absurd heq.symm hne]

end

/-- A step that leaves room keeps every host at three. -/
theorem reserve_step {s s' : State} {a : Act} (h : Good s) (hstep : Step lowercase s a s')
    (hroom : a.LeavesRoom s) (hle : ∀ key, reserve s key ≤ 3) (key : List Char) :
    reserve s' key ≤ 3 := by
  cases moves_of_step lowercase hstep with
  | refresh stored => exact hle key
  | enter host =>
    have hreserve : reserve { s with
        calls := s.calls ++ [.reads (providerKey lowercase host) s.limit] } key ≤
          reserve s key := by
      refine reserve_le rfl (fun _ => rfl) rfl fun n _ => ?_
      unfold users
      dsimp only
      rw [List.count_append, List.count_append]
      simp
    exact hreserve.trans (hle key)
  | @join call n key' semaphore reads entry made =>
    have hreserve : reserve { s with calls := s.calls.set call (.waits key' n) } key ≤
        reserve s key := by
      refine reserve_le rfl (fun _ => rfl) rfl fun n' hn' => ?_
      have hmove := users_move reads (.waits key' n) key n' s.semaphores s.providerSlots
      have hother : ¬ (Phase.waits key' n).Uses key n' := by
        rintro (huses | huses) <;> cases huses
        exact hn' entry
      rw [if_neg hother] at hmove
      omega
    exact hreserve.trans (hle key)
  | @make call limit key' reads changed =>
    by_cases hkey : key = key'
    · subst hkey
      rw [reserve_made_self reads]
      unfold Act.LeavesRoom at hroom
      dsimp only at hroom
      rw [reads] at hroom
      exact hroom.resolve_left changed
    · rw [reserve_made_other h reads hkey]
      exact hle key
  | @acquire call n key' semaphore waits made free =>
    refine le_trans ?_ (hle key)
    refine exchange_reserve waits made (fun n' => ?_)
    unfold Phase.Uses
    simp
  | @release call n key' semaphore holds made =>
    refine le_trans ?_ (hle key)
    refine exchange_reserve holds made (fun n' => ?_)
    unfold Phase.Uses
    simp

/-! ## A setting that stays -/

/-- Since the first thread has entered, the setting is what every semaphore was made for. -/
structure Constant (s : State) : Prop where
  setting : 1 ≤ s.perHostConcurrency ∧ s.perHostConcurrency ≤ 3
  idle : s.calls = [] → s.semaphores = []
  reads : ∀ c ∈ s.calls, ∀ key limit, c = .reads key limit → limit = s.limit
  limits : ∀ semaphore ∈ s.semaphores, semaphore.limit = s.limit
  current : ∀ c ∈ s.calls, ∀ key n, c.Uses key n → s.providerSlots.lookup key = some n

theorem boundedSetting_range (stored : Option Int) :
    1 ≤ boundedSetting stored ∧ boundedSetting stored ≤ 3 := by
  unfold boundedSetting
  omega

theorem Constant.exchange {s : State} (h : Constant s) {call n permits : Nat} {c c' : Phase}
    {semaphore : Semaphore} (hc : s.calls[call]? = some c)
    (hmade : s.semaphores[n]? = some semaphore) (hreads : ∀ key limit, c' ≠ .reads key limit)
    (huses : ∀ key n, c'.Uses key n → c.Uses key n) :
    Constant { s with
      semaphores := s.semaphores.set n { semaphore with permits := permits }
      calls := s.calls.set call c' } where
  setting := h.setting
  idle := fun hnil => by
    dsimp only at hnil ⊢
    rw [h.idle ((List.set_eq_nil_iff ..).mp hnil), List.set_nil]
  reads := forall_mem_move h.reads fun key limit heq => absurd heq (hreads key limit)
  limits := fun semaphore' hmem => by
    rcases List.mem_or_eq_of_mem_set hmem with hmem | rfl
    · exact h.limits semaphore' hmem
    · exact h.limits semaphore (List.mem_of_getElem? hmade)
  current := forall_mem_move h.current fun key n hn =>
    h.current c (List.mem_of_getElem? hc) key n (huses key n hn)

theorem Constant.step {s s' : State} {a : Act} (hgood : Good s) (h : Constant s)
    (hstep : Step lowercase s a s') (hkeeps : a.KeepsSetting s) : Constant s' := by
  cases moves_of_step lowercase hstep with
  | refresh stored =>
    unfold Act.KeepsSetting at hkeeps
    by_cases hcalls : s.calls = []
    · have hsemaphores := h.idle hcalls
      refine ⟨boundedSetting_range stored, fun _ => hsemaphores, ?_, ?_, ?_⟩ <;> dsimp only
      · simp [hcalls]
      · simp [hsemaphores]
      · simp [hcalls]
    · rw [hkeeps hcalls]
      exact h
  | enter host =>
    refine ⟨h.setting, fun hnil => by simp at hnil, fun c hc key limit heq => ?_, h.limits,
      fun c hc key n huses => ?_⟩
    · rcases List.mem_append.mp hc with hc | hc
      · exact h.reads c hc key limit heq
      · rw [List.mem_singleton.mp hc] at heq
        cases heq
        rfl
    · rcases List.mem_append.mp hc with hc | hc
      · exact h.current c hc key n huses
      · rw [List.mem_singleton.mp hc] at huses
        rcases huses with huses | huses <;> cases huses
  | @join call n key semaphore reads entry made =>
    refine ⟨h.setting, fun hnil => h.idle ((List.set_eq_nil_iff ..).mp hnil), ?_, h.limits, ?_⟩
    · exact forall_mem_move h.reads fun key limit heq => by cases heq
    · refine forall_mem_move h.current fun key' n' huses => ?_
      rcases huses with huses | huses <;> cases huses
      exact entry
  | @make call limit key reads changed =>
    have hmem := List.mem_of_getElem? reads
    obtain rfl := h.reads _ hmem key limit rfl
    -- every semaphore has that limit, so the host has none
    have hnone : s.providerSlots.lookup key = none := by
      by_contra hentry
      obtain ⟨n, hentry⟩ := Option.ne_none_iff_exists'.mp hentry
      have hmade := List.getElem?_eq_getElem (hgood.entries key n hentry)
      refine changed ?_
      rw [State.currentLimit, hentry, Option.bind_some, hmade, Option.map_some,
        h.limits _ (List.getElem_mem _)]
    refine ⟨h.setting, fun hnil => ?_, ?_, fun semaphore hsemaphore => ?_, ?_⟩
    · rw [(List.set_eq_nil_iff ..).mp hnil] at hmem
      cases hmem
    · exact forall_mem_move h.reads fun key limit heq => by cases heq
    · rcases List.mem_append.mp hsemaphore with hsemaphore | hsemaphore
      · exact h.limits semaphore hsemaphore
      · rw [List.mem_singleton.mp hsemaphore]
        rfl
    · refine forall_mem_move (fun c hc key' n huses => ?_) fun key' n huses => ?_
      · have hentry := h.current c hc key' n huses
        have hne : (key' == key) = false := beq_eq_false_iff_ne.mpr fun heq => by
          rw [heq, hnone] at hentry
          cases hentry
        simp only [lookup.made, List.lookup_cons, hne]
        exact hentry
      · rcases huses with huses | huses <;> cases huses
        simp [lookup.made]
  | @acquire call n key semaphore waits made free =>
    refine h.exchange waits made (fun _ _ heq => by cases heq) fun key' n' huses => ?_
    rcases huses with huses | huses <;> cases huses
    exact .inl rfl
  | @release call n key semaphore holds made =>
    refine h.exchange holds made (fun _ _ heq => by cases heq) fun key' n' huses => ?_
    rcases huses with huses | huses <;> cases huses

theorem Constant.initial : Constant {} :=
  ⟨by decide, fun _ => rfl, by simp, by simp, by simp⟩

/-- The threads of a host have permits of one semaphore. -/
theorem Constant.inside_le {s : State} (hgood : Good s) (h : Constant s) (key : List Char) :
    (inside s key : Int) ≤ s.perHostConcurrency := by
  have hlimit : (s.limit : Int) = s.perHostConcurrency := by
    have := h.setting
    unfold State.limit
    omega
  rw [← hlimit, Int.ofNat_le]
  by_cases hnone : inside s key = 0
  · omega
  obtain ⟨c, hc, hinside⟩ := List.countP_pos_iff.mp (Nat.pos_of_ne_zero hnone)
  cases c with
  | inside key' n =>
    obtain rfl : key' = key := by simpa [Phase.isInside] using hinside
    have hn := h.current _ hc key' n (.inr rfl)
    have hmade := List.getElem?_eq_getElem (hgood.entries key' n hn)
    have hpermits := hgood.permits n _ hmade
    have hle : inside s key' ≤ s.calls.countP (Phase.holds n) := by
      refine List.countP_mono_left fun d hd hinside => ?_
      cases d with
      | inside key'' m =>
        obtain rfl : key'' = key' := by simpa [Phase.isInside] using hinside
        have hm := h.current _ hd key'' m (.inr rfl)
        have heq : n = m := Option.some.inj (hn.symm.trans hm)
        simp [Phase.holds, heq]
      | _ => cases hinside
    have hall := h.limits _ (List.getElem_mem (hgood.entries key' n hn))
    omega
  | _ => cases hinside

/-! ## A lookup that leaves no room -/

/-- A semaphore is for one host, and a call that has read the limit may be made again. -/
structure Traceable (s : State) : Prop where
  reads : ∀ c ∈ s.calls, ∀ key limit, c = .reads key limit →
    1 ≤ limit ∧ limit ≤ 3 ∧ ∃ host, providerKey lowercase host = key
  owner : ∃ owner : Nat → List Char,
    (∀ key n, s.providerSlots.lookup key = some n → owner n = key) ∧
    ∀ c ∈ s.calls, ∀ key n, c.Uses key n → owner n = key

theorem Traceable.exchange {s : State} (h : Traceable lowercase s) {call n permits : Nat}
    {c c' : Phase} {semaphore : Semaphore} (hc : s.calls[call]? = some c)
    (hreads : ∀ key limit, c' ≠ .reads key limit) (huses : ∀ key n, c'.Uses key n → c.Uses key n) :
    Traceable lowercase { s with
      semaphores := s.semaphores.set n { semaphore with permits := permits }
      calls := s.calls.set call c' } where
  reads := forall_mem_move h.reads fun key limit heq => absurd heq (hreads key limit)
  owner := by
    obtain ⟨owner, hentries, hcalls⟩ := h.owner
    exact ⟨owner, hentries, forall_mem_move hcalls fun key n hn =>
      hcalls c (List.mem_of_getElem? hc) key n (huses key n hn)⟩

theorem Traceable.step {s s' : State} {a : Act} (hgood : Good s) (h : Traceable lowercase s)
    (hstep : Step lowercase s a s') : Traceable lowercase s' := by
  obtain ⟨owner, hentries, hcalls⟩ := h.owner
  cases moves_of_step lowercase hstep with
  | refresh stored => exact ⟨h.reads, h.owner⟩
  | enter host =>
    refine ⟨fun c hc key limit heq => ?_, owner, hentries, fun c hc key n huses => ?_⟩
    · rcases List.mem_append.mp hc with hc | hc
      · exact h.reads c hc key limit heq
      · rw [List.mem_singleton.mp hc] at heq
        cases heq
        refine ⟨?_, ?_, host, rfl⟩ <;> unfold State.limit <;> omega
    · rcases List.mem_append.mp hc with hc | hc
      · exact hcalls c hc key n huses
      · rw [List.mem_singleton.mp hc] at huses
        rcases huses with huses | huses <;> cases huses
  | @join call n key semaphore reads entry made =>
    refine ⟨forall_mem_move h.reads (fun key limit heq => by cases heq), owner, hentries, ?_⟩
    refine forall_mem_move hcalls fun key' n' huses => ?_
    rcases huses with huses | huses <;> cases huses
    exact hentries key n entry
  | @make call limit key reads changed =>
    refine ⟨forall_mem_move h.reads (fun key limit heq => by cases heq),
      Function.update owner s.semaphores.length key, fun key' n hentry => ?_, ?_⟩
    · simp only [lookup.made, List.lookup_cons] at hentry
      split at hentry
      · rename_i heq
        rw [← Option.some.inj hentry, Function.update_self]
        exact (eq_of_beq heq).symm
      · rw [Function.update_of_ne (Nat.ne_of_lt (hgood.entries key' n hentry))]
        exact hentries key' n hentry
    · refine forall_mem_move (fun c hc key' n huses => ?_) fun key' n huses => ?_
      · rw [Function.update_of_ne (Nat.ne_of_lt (hgood.used c hc key' n huses))]
        exact hcalls c hc key' n huses
      · rcases huses with huses | huses <;> cases huses
        exact Function.update_self ..
  | @acquire call n key semaphore waits made free =>
    refine h.exchange lowercase waits (fun _ _ heq => by cases heq) fun key' n' huses => ?_
    rcases huses with huses | huses <;> cases huses
    exact .inl rfl
  | @release call n key semaphore holds made =>
    refine h.exchange lowercase holds (fun _ _ heq => by cases heq) fun key' n' huses => ?_
    rcases huses with huses | huses <;> cases huses

theorem Runs.good {h : List (Act × State)} {s : State} (run : Runs lowercase h s) :
    Good s ∧ Traceable lowercase s :=
  History.Run.always (P := fun s => Good s ∧ Traceable lowercase s)
    ⟨Good.initial, by simp, fun _ => [], by simp, by simp⟩
    (fun _ _ _ hs hstep => ⟨hs.1.step lowercase hstep, hs.2.step lowercase hs.1 hstep⟩) run

def Phase.isWaiting : Phase → Bool
  | .waits _ _ => true
  | _ => false

/-- No call can go on, so every semaphore has let in what it may. -/
theorem outstanding_le_inside {s : State} (hgood : Good s) (htrace : Traceable lowercase s)
    (hstuck : ∀ (call : Nat) (key : List Char) (n : Nat) (semaphore : Semaphore),
      s.calls[call]? = some (.waits key n) → s.semaphores[n]? = some semaphore →
        semaphore.permits = 0) (key : List Char) :
    outstanding s key ≤ inside s key := by
  obtain ⟨owner, -, howner⟩ := htrace.owner
  have hsum : inside s key =
      ∑ n ∈ Finset.range s.semaphores.length, s.calls.count (.inside key n) :=
    countP_inside fun n hmem => hgood.used _ hmem key n (.inr rfl)
  rw [hsum]
  refine Finset.sum_le_sum fun n hn => ?_
  obtain ⟨semaphore, hmade⟩ : ∃ semaphore, s.semaphores[n]? = some semaphore :=
    ⟨_, List.getElem?_eq_getElem (Finset.mem_range.mp hn)⟩
  by_cases hwaits : s.calls.count (.waits key n) = 0
  · refine min_le_of_right_le ?_
    unfold users
    omega
  · have hmem := List.count_pos_iff.mp (Nat.pos_of_ne_zero hwaits)
    obtain ⟨call, hcall⟩ := List.getElem?_of_mem hmem
    have hfull := hgood.permits n semaphore hmade
    rw [hstuck call key n semaphore hcall hmade] at hfull
    have hlimit : s.limitOf n = semaphore.limit := by rw [State.limitOf, hmade]; rfl
    -- the permits are held by threads of this host
    have hholds : s.calls.countP (Phase.holds n) ≤ s.calls.count (.inside key n) := by
      refine List.countP_mono_left fun d hd hholds => ?_
      cases d with
      | inside key' m =>
        obtain rfl : m = n := by simpa [Phase.holds] using hholds
        have hkey : key' = key :=
          (howner _ hd key' m (.inr rfl)).symm.trans (howner _ hmem key m (.inl rfl))
        simp [hkey]
      | _ => cases hholds
    refine min_le_of_left_le ?_
    omega

/-- The threads that can go on do. -/
theorem saturate {h : List (Act × State)} {s : State} (run : Runs lowercase h s) :
    ∃ later t, Runs lowercase (later ++ h) t ∧ t.semaphores.length = s.semaphores.length ∧
      (∀ n, t.limitOf n = s.limitOf n) ∧ (∀ key n, users t key n = users s key n) ∧
      ∀ key, outstanding t key ≤ inside t key := by
  induction hm : s.calls.countP Phase.isWaiting using Nat.strongRecOn generalizing h s with
  | _ m ih =>
    subst hm
    obtain ⟨hgood, htrace⟩ := run.good lowercase
    by_cases hfree : ∃ (call : Nat) (key : List Char) (n : Nat) (semaphore : Semaphore),
        s.calls[call]? = some (.waits key n) ∧ s.semaphores[n]? = some semaphore ∧
          semaphore.permits ≠ 0
    · obtain ⟨call, key, n, semaphore, hwaits, hmade, hpermits⟩ := hfree
      have hstep : Step lowercase s (.acquire call) { s with
          semaphores := s.semaphores.set n { semaphore with permits := semaphore.permits - 1 }
          calls := s.calls.set call (.inside key n) } := by
        unfold Step State.next
        dsimp only
        rw [hwaits]
        dsimp only
        rw [hmade]
        exact if_neg hpermits
      have hmove := countP_move hwaits (.inside key n) Phase.isWaiting
      simp only [Phase.isWaiting, if_true, Bool.false_eq_true, if_false, Nat.add_zero] at hmove
      obtain ⟨later, t, hrun, hlength, hlimit, husers, hle⟩ :=
        ih _ (by dsimp only; omega) (run.snoc hstep) rfl
      refine ⟨later ++ [(.acquire call, _)], t, by rwa [List.append_assoc], ?_, fun n' => ?_,
        fun key' n' => ?_, hle⟩
      · rw [hlength, List.length_set]
      · rw [hlimit, limitOf_exchange hmade]
      · rw [husers]
        have hmove := users_move hwaits (.inside key n) key' n'
          (s.semaphores.set n { semaphore with permits := semaphore.permits - 1 }) s.providerSlots
        have huses : (Phase.inside key n).Uses key' n' ↔ (Phase.waits key n).Uses key' n' := by
          unfold Phase.Uses
          simp
        simp only [huses] at hmove
        exact Nat.add_right_cancel hmove
    · refine ⟨[], s, run, rfl, fun _ => rfl, fun _ _ => rfl,
        outstanding_le_inside lowercase hgood htrace ?_⟩
      intro call key n semaphore hwaits hmade
      by_contra hpermits
      exact hfree ⟨call, key, n, semaphore, hwaits, hmade, hpermits⟩

/-- More threads of a host may come to the semaphore that it has. -/
theorem join_more {h : List (Act × State)} {s : State} (run : Runs lowercase h s) {host : List Char}
    {n : Nat} {semaphore : Semaphore} (hmade : s.semaphores[n]? = some semaphore)
    (hentry : s.providerSlots.lookup (providerKey lowercase host) = some n)
    (hlimit : s.limit = semaphore.limit) (m : Nat) :
    ∃ later t, Runs lowercase (later ++ h) t ∧ t.semaphores = s.semaphores ∧
      t.providerSlots = s.providerSlots ∧ t.perHostConcurrency = s.perHostConcurrency ∧
      users t (providerKey lowercase host) n = users s (providerKey lowercase host) n + m ∧
      ∀ n', n' ≠ n →
        users t (providerKey lowercase host) n' = users s (providerKey lowercase host) n' := by
  induction m with
  | zero => exact ⟨[], s, run, rfl, rfl, rfl, rfl, fun _ _ => rfl⟩
  | succ m ih =>
    obtain ⟨later, t, hrun, hsemaphores, hentries, hsetting, husers, hother⟩ := ih
    have htlimit : t.limit = semaphore.limit := by
      rw [← hlimit, State.limit, State.limit, hsetting]
    let entered : State :=
      { t with calls := t.calls ++ [.reads (providerKey lowercase host) semaphore.limit] }
    have hreads : entered.calls[t.calls.length]? =
        some (.reads (providerKey lowercase host) semaphore.limit) := List.getElem?_concat_length
    have henter : Step lowercase t (.enter host) entered := by
      unfold Step State.next
      dsimp only
      rw [htlimit]
    have hlookup : Step lowercase entered (.lookup t.calls.length) { entered with
        calls := entered.calls.set t.calls.length (.waits (providerKey lowercase host) n) } := by
      have hentry' : entered.providerSlots.lookup (providerKey lowercase host) = some n := by
        rw [← hentry, ← hentries]
      have hmade' : entered.semaphores[n]? = some semaphore := by rw [← hmade, ← hsemaphores]
      unfold Step State.next
      dsimp only
      rw [hreads]
      dsimp only
      unfold lookup
      rw [hentry']
      dsimp only
      rw [hmade', Option.map_some, if_pos rfl]
    have hmove (n' : Nat) := users_move hreads (.waits (providerKey lowercase host) n)
      (providerKey lowercase host) n' entered.semaphores entered.providerSlots
    have hentered (n' : Nat) : users entered (providerKey lowercase host) n' =
        users t (providerKey lowercase host) n' := by
      unfold users
      dsimp only [entered]
      rw [List.count_append, List.count_append]
      simp
    have hnone (n' : Nat) : ¬ (Phase.reads (providerKey lowercase host) semaphore.limit).Uses
        (providerKey lowercase host) n' := by
      rintro (huses | huses) <;> cases huses
    refine ⟨_ :: _ :: later, _, (hrun.snoc henter).snoc hlookup, hsemaphores, hentries, hsetting,
      ?_,
      fun n' hn' => ?_⟩
    · have hmove := hmove n
      rw [if_neg (hnone n), if_pos (.inl rfl), hentered, husers] at hmove
      exact hmove
    · have hmove := hmove n'
      have hwaits : ¬ (Phase.waits (providerKey lowercase host) n).Uses
          (providerKey lowercase host) n' := by
        rintro (huses | huses) <;> cases huses
        exact hn' rfl
      rw [if_neg (hnone n'), if_neg hwaits, hentered, hother n' hn'] at hmove
      exact hmove

/-- A lookup that leaves no room can be followed by more than three threads inside. -/
theorem overfull_of_no_room {h : List (Act × State)} {s s' : State} {call : Nat}
    (run : Runs lowercase h s) (hstep : Step lowercase s (.lookup call) s')
    (hroom : ¬ (Act.lookup call).LeavesRoom s) :
    ∃ later t key, Runs lowercase (later ++ (.lookup call, s') :: h) t ∧ 3 < inside t key := by
  obtain ⟨hgood, htrace⟩ := run.good lowercase
  have hrun' := run.snoc hstep
  cases moves_of_step lowercase hstep with
  | @join call n key semaphore reads entry made =>
    refine absurd ?_ hroom
    unfold Act.LeavesRoom
    dsimp only
    rw [reads]
    refine .inl ?_
    rw [State.currentLimit, entry, Option.bind_some, made]
    rfl
  | @make call limit key reads changed =>
    have hover : 3 < outstanding s key + limit := by
      by_contra hle
      refine hroom ?_
      unfold Act.LeavesRoom
      dsimp only
      rw [reads]
      exact .inr (by omega)
    obtain ⟨hpos, hle, host, rfl⟩ := htrace.reads _ (List.mem_of_getElem? reads) key limit rfl
    -- the setting is brought back to the limit that the call has read
    have hrefresh : Step lowercase (lookup.made s call (providerKey lowercase host) limit)
        (.refreshSettings (some limit)) { lookup.made s call (providerKey lowercase host) limit with
          perHostConcurrency := boundedSetting (some limit) } := rfl
    have hsetting : ({ lookup.made s call (providerKey lowercase host) limit with
        perHostConcurrency := boundedSetting (some limit) } : State).limit = limit := by
      unfold State.limit boundedSetting
      dsimp only
      rw [Option.getD_some]
      omega
    have hmade :
        (lookup.made s call (providerKey lowercase host) limit).semaphores[s.semaphores.length]? =
        some ⟨limit, limit⟩ := List.getElem?_concat_length
    have hentry : (lookup.made s call (providerKey lowercase host) limit).providerSlots.lookup
        (providerKey lowercase host) = some s.semaphores.length := by
      simp [lookup.made]
    obtain ⟨later, t, hjoined, hsemaphores, -, -, husers, hother⟩ :=
      join_more lowercase (hrun'.snoc hrefresh) hmade hentry hsetting limit
    obtain ⟨later', t', hrun, hlength, hlimits, husers', hinside⟩ := saturate lowercase hjoined
    refine ⟨later' ++ later ++ [(.refreshSettings (some limit), _)], t', providerKey lowercase host,
      by simpa using hrun, lt_of_lt_of_le ?_ (hinside _)⟩
    refine lt_of_lt_of_le hover ?_
    have hlimit (n : Nat) : t'.limitOf n =
        (lookup.made s call (providerKey lowercase host) limit).limitOf n := by
      rw [hlimits, State.limitOf, State.limitOf, hsemaphores]
    have hlength' : t'.semaphores.length = s.semaphores.length + 1 := by
      rw [hlength, hsemaphores]
      exact List.length_append
    unfold outstanding
    rw [hlength', Finset.sum_range_succ]
    refine Nat.add_le_add (Finset.sum_le_sum fun n hn => ?_) (le_min ?_ ?_)
    · have hn := Finset.mem_range.mp hn
      have hsame : users t' (providerKey lowercase host) n =
          users s (providerKey lowercase host) n := by
        rw [husers', hother n (by omega)]
        exact users_made reads (providerKey lowercase host) fun _ => by omega
      rw [share, share, hlimit, limitOf_made hn, hsame]
    · rw [hlimit, State.limitOf, hmade]
      exact le_rfl
    · rw [husers', husers]
      omega


/-! ## Every run -/

/-- At most three threads are inside for a host as long as new semaphores leave room for the older
ones, and a run in which one does not can go on to more. While the setting stays, no more than it
says are inside. -/
theorem provider_slot_bound {h : List (Act × State)} {s : State} (run : Runs lowercase h s) :
    (History.Throughout (fun s a => a.LeavesRoom s) {} h →
      ∀ x, History.Visited {} h x → ∀ key, inside x key ≤ 3) ∧
    (∀ call s', Step lowercase s (.lookup call) s' → ¬ (Act.lookup call).LeavesRoom s →
      ∃ later t key, Runs lowercase (later ++ (.lookup call, s') :: h) t ∧ 3 < inside t key) ∧
    (History.Throughout (fun s a => a.KeepsSetting s) {} h →
      ∀ x, History.Visited {} h x → ∀ key, (inside x key : Int) ≤ x.perHostConcurrency) := by
  refine ⟨fun hroom x hx key => ?_,
    fun call s' hstep hroom => overfull_of_no_room lowercase run hstep hroom,
    fun hkeeps x hx key => ?_⟩
  · have hinvariant := History.Run.throughout_visited run hroom
      (P := fun s => Good s ∧ ∀ key, reserve s key ≤ 3) ⟨Good.initial, fun _ => Nat.zero_le 3⟩
      (fun s a s' hs hstep hroom =>
        ⟨hs.1.step lowercase hstep, reserve_step lowercase hs.1 hstep hroom hs.2⟩)
      x hx
    exact (inside_le_reserve hinvariant.1 key).trans (hinvariant.2 key)
  · have hinvariant := History.Run.throughout_visited run hkeeps
      (P := fun s => Good s ∧ Constant s) ⟨Good.initial, Constant.initial⟩
      (fun s a s' hs hstep hkeeps =>
        ⟨hs.1.step lowercase hstep, hs.2.step lowercase hs.1 hstep hkeeps⟩)
      x hx
    exact hinvariant.2.inside_le hinvariant.1 key

namespace Schedule

instance (s : State) (a : Act) (s' : State) : Decidable (Step lowercase s a s') :=
  inferInstanceAs (Decidable (_ = _))

def history (acts : List Act) : List (Act × State) :=
  History.replay (fun s a => (s.next Text.lowering a).getD s) {} acts

theorem runs (acts : List Act)
    (haccepts : History.Throughout (fun s a => (s.next Text.lowering a).isSome) {} (history acts)) :
    Runs Text.lowering (history acts) (History.current {} (history acts)) :=
  History.run_replay_accepted haccepts

/-- A thread comes in. -/
def comeIn (call : Nat) : List Act :=
  [.enter " Proxy.Example".toList, .lookup call, .acquire call]

/-- The setting is lowered once one of two threads has left. -/
def lowered : List Act :=
  comeIn 0 ++ comeIn 1 ++ [.release 0, .refreshSettings (some 1)] ++ comeIn 2

/-- The setting is raised while two threads are inside. -/
def raised : List Act :=
  comeIn 0 ++ comeIn 1 ++ [.refreshSettings (some 3)] ++ comeIn 2 ++ comeIn 3 ++ comeIn 4

end Schedule

open Schedule in
theorem provider_slot_bound_lowered :
    inside (History.current {} (history lowered)) "proxy.example".toList = 2 ∧
    ∀ x, History.Visited {} (history lowered) x → ∀ key, inside x key ≤ 3 :=
  ⟨by decide, (provider_slot_bound Text.lowering (runs lowered (by decide))).1 (by decide)⟩

/-- The threads of the old semaphore and of the new one are inside at once. -/
theorem five_inside_raised :
    ∃ (h : List (Act × State)) (s : State), Runs Text.lowering h s ∧
      inside s "proxy.example".toList = 5 :=
  ⟨_, _, Schedule.runs Schedule.raised (by decide), by decide⟩

end EarnProxy.ProviderSlots
