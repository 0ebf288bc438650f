import EarnProxy.Relay.CheckJobs

/-!
# `start_check` of the relay

`start_check` takes `JOB_LOCK` twice: once to look for a running job, and once more to register its
own. The thread of a job takes the lock twice when it is done: once for the warning that no proxy
was live, and once for the final status. The requests and the threads take the lock in any order.
-/

namespace EarnProxy.Relay.StartCheck

inductive JobStatus where
  | running | warning | stopped | done
  deriving DecidableEq, Repr

/-- An entry of `JOBS`, without its counts. -/
structure Entry where
  id : Nat
  ids : List Nat
  status : JobStatus := .running
  stopRequested : Bool := false
  deriving DecidableEq, Repr

/-- A call of `start_check` that has found no running job. -/
structure Waiting where
  call : Nat
  ids : List Nat
  deriving DecidableEq, Repr

/-- The thread of a job that is not done; `reported` is whether it has passed the warning. -/
structure Worker where
  jobId : Nat
  reported : Bool := false
  deriving DecidableEq, Repr

structure State where
  jobs : List Entry := []
  waiting : List Waiting := []
  workers : List Worker := []
  /-- What the calls have returned; `none` is the empty text. -/
  answers : List (Nat × Option Nat) := []
  deriving DecidableEq, Repr

inductive Act where
  | look (call : Nat) (ids : List Nat)
  | register (call jobId : Nat)
  | stopJob (jobId : Nat)
  | report (jobId : Nat) (statuses : List String)
  | finish (jobId : Nat)
  deriving DecidableEq, Repr

/-- `active_job_id`. -/
def activeJobId (jobs : List Entry) : Option Nat :=
  (jobs.find? fun j => j.status = .running).map Entry.id

/-- `start_check` up to its second `with JOB_LOCK`. -/
def look (s : State) (call : Nat) (ids : List Nat) : State :=
  if ids = [] then { s with answers := s.answers ++ [(call, none)] }
  else
    match activeJobId s.jobs with
    | some current => { s with answers := s.answers ++ [(call, some current)] }
    | none => { s with waiting := s.waiting ++ [⟨call, ids⟩] }

/-- The rest of `start_check`. The ids of `uuid4` are fresh. -/
def register (s : State) (call jobId : Nat) : Option State :=
  match Table.lookup Waiting.call call s.waiting with
  | none => none
  | some w =>
    if jobId ∈ s.jobs.map Entry.id then none
    else some {
      jobs := s.jobs ++ [{ id := jobId, ids := w.ids }]
      waiting := s.waiting.filter fun w => decide (w.call ≠ call)
      workers := s.workers ++ [{ jobId }]
      answers := s.answers ++ [(call, some jobId)] }

/-- `stop_job`. -/
def stopJob (s : State) (jobId : Nat) : State :=
  { s with
    jobs := Table.update (fun j => j.id = jobId ∧ j.status = .running)
      (fun j => { j with stopRequested := true }) s.jobs }

/-- The end of `run_check_ids`, for the statuses of the results that it has. -/
def report (s : State) (jobId : Nat) (statuses : List String) : Option State :=
  if ⟨jobId, false⟩ ∈ s.workers then
    some { s with
      jobs :=
        if statuses ≠ [] ∧ ¬ statuses.any isUsableStatus then
          Table.update (fun j => j.id = jobId) (fun j => { j with status := .warning }) s.jobs
        else s.jobs
      workers := Table.update (fun w => w.jobId = jobId) (fun w => { w with reported := true })
        s.workers }
  else none

/-- The status that a job ends with. -/
def Entry.finished (j : Entry) : Entry :=
  if j.stopRequested then { j with status := .stopped }
  else if j.status ≠ .warning then { j with status := .done }
  else j

/-- The last `with JOB_LOCK` of `run_check_ids`. -/
def finish (s : State) (jobId : Nat) : Option State :=
  if ⟨jobId, true⟩ ∈ s.workers then
    some { s with
      jobs := Table.update (fun j => j.id = jobId) Entry.finished s.jobs
      workers := s.workers.filter fun w => decide (w.jobId ≠ jobId) }
  else none

/-- One section under `JOB_LOCK`; every call has a number of its own. -/
def State.next (s : State) : Act → Option State
  | .look call ids =>
    if call ∈ s.waiting.map Waiting.call ∨ call ∈ s.answers.map Prod.fst then none
    else some (look s call ids)
  | .register call jobId => register s call jobId
  | .stopJob jobId => some (stopJob s jobId)
  | .report jobId statuses => report s jobId statuses
  | .finish jobId => finish s jobId

def Step (s : State) (a : Act) (s' : State) : Prop := s.next a = some s'

instance (s : State) (a : Act) (s' : State) : Decidable (Step s a s') :=
  inferInstanceAs (Decidable (_ = _))

/-- The sections of `h`, newest first, lead from an empty `JOBS` to `s`. -/
def Runs (h : List (Act × State)) (s : State) : Prop := History.Run Step {} h s

def runningJobs (s : State) : Nat := s.jobs.countP fun j => j.status = .running

/-- At every moment one job runs at most, and a call that has rows to check returns the job that
runs when it looks. -/
structure OneCheck (h : List (Act × State)) : Prop where
  running_le : ∀ x, History.Visited {} h x → runningJobs x ≤ 1
  returns : ∀ x, History.Visited {} h x → ∀ call ids x', Step x (.look call ids) x' → ids ≠ [] →
    ∀ j ∈ x.jobs, j.status = .running → (call, some j.id) ∈ x'.answers

/-- No job is registered while another one runs. -/
def Act.FindsIdle (s : State) : Act → Prop
  | .register _ _ => activeJobId s.jobs = none
  | _ => True

instance (s : State) (a : Act) : Decidable (a.FindsIdle s) := by
  cases a <;> unfold Act.FindsIdle <;> infer_instance

/-! ## One section -/

theorem activeJobId_eq_none {jobs : List Entry} :
    activeJobId jobs = none ↔ (jobs.countP fun j => j.status = .running) = 0 := by
  unfold activeJobId
  rw [Option.map_eq_none_iff, List.find?_eq_none, List.countP_eq_zero]

/-- An update that starts no job. -/
theorem countP_update_le {p : Entry → Prop} [DecidablePred p] {f : Entry → Entry}
    (hf : ∀ j, (f j).status = .running → j.status = .running) (jobs : List Entry) :
    (Table.update p f jobs).countP (fun j => j.status = .running) ≤
      jobs.countP fun j => j.status = .running := by
  unfold Table.update
  rw [List.countP_map]
  refine List.countP_mono_left fun j _ hj => ?_
  simp only [Function.comp_apply, decide_eq_true_eq] at hj ⊢
  split at hj
  · exact hf j hj
  · exact hj

theorem Entry.running_of_finished {j : Entry} (h : j.finished.status = .running) :
    j.status = .running := by
  unfold Entry.finished at h
  split_ifs at h
  exact h

/-- A registration adds one running job. -/
theorem register_running {s s' : State} {call jobId : Nat}
    (hstep : Step s (.register call jobId) s') : runningJobs s' = runningJobs s + 1 := by
  unfold Step State.next at hstep
  simp only [register] at hstep
  split at hstep
  · cases hstep
  split at hstep
  · cases hstep
  obtain rfl := Option.some.inj hstep
  unfold runningJobs
  rw [List.countP_append]
  rfl

/-- Nothing else adds a running job. -/
theorem step_running_le {s s' : State} {a : Act} (hstep : Step s a s')
    (hother : ∀ call jobId, a ≠ .register call jobId) : runningJobs s' ≤ runningJobs s := by
  unfold Step State.next at hstep
  cases a with
  | look call ids =>
    simp only at hstep
    split at hstep
    · cases hstep
    · obtain rfl := Option.some.inj hstep
      unfold look
      split_ifs
      · exact le_rfl
      · split <;> exact le_rfl
  | register call jobId => exact absurd rfl (hother call jobId)
  | stopJob jobId =>
    obtain rfl := Option.some.inj hstep
    exact countP_update_le (f := fun j => { j with stopRequested := true }) (fun _ h => h) s.jobs
  | report jobId statuses =>
    simp only [report] at hstep
    split at hstep
    · obtain rfl := Option.some.inj hstep
      unfold runningJobs
      dsimp only
      split
      · exact countP_update_le (fun _ h => by cases h) _
      · exact le_rfl
    · cases hstep
  | finish jobId =>
    simp only [finish] at hstep
    split at hstep
    · obtain rfl := Option.some.inj hstep
      exact countP_update_le (fun _ h => Entry.running_of_finished h) _
    · cases hstep

/-- A call that looks while one job runs returns that job. -/
theorem look_returns {s s' : State} {call : Nat} {ids : List Nat}
    (hstep : Step s (.look call ids) s')
    (hids : ids ≠ []) (hone : runningJobs s ≤ 1) {j : Entry} (hj : j ∈ s.jobs)
    (hrunning : j.status = .running) : (call, some j.id) ∈ s'.answers := by
  have hactive : activeJobId s.jobs = some j.id := by
    cases hfind : s.jobs.find? fun j => j.status = .running with
    | none => exact absurd hrunning (by simpa using List.find?_eq_none.mp hfind j hj)
    | some k =>
      have hk : k.status = .running := by simpa using List.find?_some hfind
      have hlength : (s.jobs.filter fun j => j.status = .running).length ≤ 1 := by
        rwa [← List.countP_eq_length_filter]
      have hmem : ∀ i ∈ s.jobs, i.status = .running →
          i ∈ s.jobs.filter fun j => j.status = .running := fun i hi hr =>
        List.mem_filter.mpr ⟨hi, decide_eq_true hr⟩
      have heq : k = j := by
        obtain ⟨i, hi⟩ := List.length_eq_one_iff.mp
          (le_antisymm hlength (List.length_pos_of_mem (hmem j hj hrunning)))
        have hk' := hmem k (List.mem_of_find?_eq_some hfind) hk
        have hj' := hmem j hj hrunning
        rw [hi, List.mem_singleton] at hk' hj'
        rw [hk', hj']
      unfold activeJobId
      rw [hfind, heq]
      rfl
  unfold Step State.next at hstep
  simp only at hstep
  split at hstep
  · cases hstep
  · obtain rfl := Option.some.inj hstep
    unfold look
    rw [if_neg hids, hactive]
    simp

/-! ## Every run -/

/-- A registration that finds no running job leaves one. -/
theorem running_le_step {s s' : State} {a : Act} (hone : runningJobs s ≤ 1) (hstep : Step s a s')
    (hfinds : a.FindsIdle s) : runningJobs s' ≤ 1 := by
  cases a with
  | register call jobId =>
    have hnone : runningJobs s = 0 := activeJobId_eq_none.mp hfinds
    have hadded := register_running hstep
    omega
  | _ => exact (step_running_le hstep (by rintro _ _ ⟨⟩)).trans hone

/-- One check runs at a time exactly when no registration comes in between the sections of another
call. -/
theorem one_check_iff {h : List (Act × State)} {s : State} (run : Runs h s) :
    OneCheck h ↔ History.Throughout (fun s a => a.FindsIdle s) {} h := by
  constructor
  · intro hone
    have hle := hone.running_le
    clear hone
    induction run with
    | nil => exact trivial
    | @snoc h s a s' run hstep ih =>
      refine ⟨?_, ih fun x hx => hle x (hx.later _)⟩
      rw [run.current_eq]
      cases a with
      | register call jobId =>
        have hadded := register_running hstep
        have hlast := hle s' (run.snoc hstep).visited
        exact activeJobId_eq_none.mpr (show runningJobs s = 0 by omega)
      | _ => exact trivial
  · intro hidle
    have hle : ∀ x, History.Visited {} h x → runningJobs x ≤ 1 :=
      History.Run.throughout_visited run hidle (P := fun s => runningJobs s ≤ 1) (Nat.zero_le 1)
        fun _ _ _ => running_le_step
    exact ⟨hle, fun x hx call ids x' hstep hids j hj hrunning =>
      look_returns hstep hids (hle x hx) hj hrunning⟩

namespace Interleaving

def history (acts : List Act) : List (Act × State) :=
  History.replay (fun s a => (s.next a).getD s) {} acts

theorem runs (acts : List Act)
    (haccepts : History.Throughout (fun s a => (s.next a).isSome) {} (history acts)) :
    Runs (history acts) (History.current {} (history acts)) :=
  History.run_replay_accepted haccepts

/-- A job is stopped and ends; another call looks before and one after that. -/
def oneByOne : List Act :=
  [.look 1 [7, 8], .register 1 100, .look 2 [7], .stopJob 100, .report 100 [], .finish 100,
    .look 3 [9], .register 3 101]

/-- Two calls look before either of them registers its job. -/
def atOnce : List Act := [.look 1 [7], .look 2 [8], .register 1 100, .register 2 101]

end Interleaving

open Interleaving in
theorem one_check_oneByOne : OneCheck (history oneByOne) :=
  (one_check_iff (runs oneByOne (by decide))).mpr (by decide)

/-- Two calls at once start two jobs. -/
theorem two_checks_atOnce :
    ∃ (h : List (Act × State)) (s : State), Runs h s ∧ runningJobs s = 2 ∧ ¬ OneCheck h := by
  refine ⟨_, _, Interleaving.runs Interleaving.atOnce (by decide), by decide, fun hone => ?_⟩
  have hle :=
    hone.running_le _ (History.Run.visited (Interleaving.runs Interleaving.atOnce (by decide)))
  exact absurd hle (by decide)

end EarnProxy.Relay.StartCheck
