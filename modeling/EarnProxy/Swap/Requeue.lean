import EarnProxy.Swap.Fence
import EarnProxy.Swap.Lineage
import EarnProxy.Swap.Migration

/-!
# `retry_swap` and `request_manual_swap`

A closed job that is put back is active again. The index on the active jobs of an assignment refuses
it when another job of its assignment has become active in the meantime, and the two functions let
that error through, as the guards of `request_manual_swap` do with that of an expiry.
-/

namespace EarnProxy.Swap

/-- No assignment has two active jobs. -/
def OneActive (jobs : List Job) : Prop :=
  ∀ j ∈ jobs, ∀ j' ∈ jobs, j.state.Active → j'.state.Active → ∀ a, j.oldAssignmentId = some a →
    j'.oldAssignmentId = some a → j = j'

/-- The job is put back, or the request is refused with an error that its callers handle. -/
def Requeues (db : Db) (jobId : Nat) (left : Db × Option SwapError) : Prop :=
  match left.2 with
  | none => (∃ j ∈ left.1.jobs, j.id = jobId ∧ j.state = .pending) ∧ OneActive left.1.jobs
  | some (.lookupError _) | some (.valueError _) => left.1.jobs = db.jobs
  | some _ => False

/-- The job is closed, and another job of its assignment is active. -/
def Superseded (jobs : List Job) (jobId : Nat) : Prop :=
  ∃ j ∈ jobs, j.id = jobId ∧ (j.state = .failed ∨ j.state = .blocked ∨ j.state = .canceled) ∧
    ∃ j' ∈ jobs, j'.state.Active ∧ ∃ a, j.oldAssignmentId = some a ∧ j'.oldAssignmentId = some a

/-- The workers are not paused, and the guards pass for the assignment of the job. -/
def ManualReady (db : Db) (jobId : Nat) (current : Timestamp) : Prop :=
  ¬ db.settings.swapWorkerPaused ∧ ∃ job, db.job? jobId = some job ∧ ∃ decision,
    SwapDecision.forSubscription db job.subscriptionId current
      (max 1 (db.settings.eligibleThreshold.read 1000)) job.oldAssignmentId (some jobId) =
        .ok decision ∧
    decision.allowed ∧ decision.assignmentId = job.oldAssignmentId

/-- The guards are asked, and raise the error of an expiry. -/
def ManualRaises (db : Db) (jobId : Nat) : Prop :=
  ¬ db.settings.swapWorkerPaused ∧ ∃ job, db.job? jobId = some job ∧
    job.state ∈ [JobState.pending, .failed, .blocked, .canceled] ∧
      db.ExpiryRaises job.subscriptionId

variable {db : Db} {jobs : List Job} {job : Job} {jobId : Nat} {current wall : Timestamp}

/-! ## The index -/

theorem filter_update_of_neither {p : Job → Prop} [DecidablePred p] {f : Job → Job} {q : Job → Bool}
    (h : ∀ r ∈ jobs, p r → q r = false ∧ q (f r) = false) :
    (Table.update p f jobs).filter q = jobs.filter q := by
  induction jobs with
  | nil => rfl
  | cons r jobs ih =>
    have hrest : (Table.update p f jobs).filter q = jobs.filter q :=
      ih fun r' hr' => h r' (List.mem_cons_of_mem _ hr')
    change ((if p r then f r else r) :: Table.update p f jobs).filter q = _
    split
    next hp =>
      obtain ⟨hr, hf⟩ := h r List.mem_cons_self hp
      rw [List.filter_cons_of_neg (by simp [hf]), List.filter_cons_of_neg (by simp [hr]), hrest]
    next => simp only [List.filter_cons, hrest]

theorem OneActive.of_unique (h : JobsUnique jobs) : OneActive jobs :=
  fun _ hj _ hj' hstate hstate' _ hold hold' => h.eq_of_active hj hj' hstate hstate' hold hold'

/-- The states from which a job can be put back. -/
theorem restartable_cases (h : job.state ∈ [JobState.pending, .failed, .blocked, .canceled]) :
    job.state = .pending ∨ job.state = .failed ∨ job.state = .blocked ∨ job.state = .canceled := by
  simpa using h

theorem not_mutation_of_restartable
    (h : job.state ∈ [JobState.pending, .failed, .blocked, .canceled]) : ¬ job.state.Mutation := by
  rcases restartable_cases h with h | h | h | h <;> rw [h] <;> decide

variable (current) in
/-- The indexes accept a job that is put back, unless it is superseded. -/
theorem restarted_unique_iff (hids : Table.Keyed Job.id jobs) (hunique : JobsUnique jobs)
    (hjob : job ∈ jobs) (hstate : job.state ∈ [JobState.pending, .failed, .blocked, .canceled])
    (reason : JobReason) :
    JobsUnique (Table.update (fun j => j.id = job.id) (fun j => j.restarted reason current) jobs) ↔
      ¬ Superseded jobs job.id := by
  have hself : ∀ r ∈ jobs, r.id = job.id → r = job := fun r hr => hids.eq hr hjob
  have hpending : (job.restarted reason current).state.Active := .inl (.inl rfl)
  constructor
  · rintro hafter ⟨j, hj, hid, hclosed, j', hj', hactive, a, hold, hold'⟩
    obtain rfl := hself j hj hid
    have hne : j'.id ≠ j.id := by
      intro heq
      obtain rfl := hself j' hj' heq
      rcases hclosed with h | h | h <;> rw [h] at hactive <;> revert hactive <;> decide
    have hnew : j.restarted reason current ∈
        Table.update (fun r => r.id = j.id) (fun r => r.restarted reason current) jobs :=
      Table.mem_update.mpr ⟨j, hj, if_pos rfl⟩
    have hother :
        j' ∈ Table.update (fun r => r.id = j.id) (fun r => r.restarted reason current) jobs :=
      Table.mem_update.mpr ⟨j', hj', if_neg hne⟩
    have heq := hafter.eq_of_active hnew hother hpending hactive hold hold'
    exact hne (congrArg Job.id heq).symm
  · intro hfree
    have hafter : Table.Keyed Job.id
        (Table.update (fun j => j.id = job.id) (fun j => j.restarted reason current) jobs) :=
      hids.map fun r _ => by split <;> rfl
    -- Any other active job of the assignment would supersede the job, or share it before.
    have halone : ∀ r ∈ jobs, r.id ≠ job.id → r.state.Active → ∀ a, job.oldAssignmentId = some a →
        r.oldAssignmentId ≠ some a := by
      intro r hr hne hactive a hold hold'
      rcases restartable_cases hstate with hclosed | hclosed
      · have hjobActive : job.state.Active := hclosed ▸ .inl (.inl rfl)
        exact hne (congrArg Job.id (hunique.eq_of_active hr hjob hactive hjobActive hold' hold))
      · exact hfree ⟨job, hjob, rfl, hclosed, r, hr, hactive, a, hold, hold'⟩
    constructor
    · apply keys_nodup hafter
      intro j hj j' hj' hactive hactive' a hold hold'
      obtain ⟨r, hr, rfl⟩ := Table.mem_update.mp hj
      obtain ⟨r', hr', rfl⟩ := Table.mem_update.mp hj'
      by_cases hid : r.id = job.id <;> by_cases hid' : r'.id = job.id
      · rw [hself r hr hid, hself r' hr' hid']
      · rw [if_pos hid] at hold
        rw [if_neg hid'] at hactive' hold'
        obtain rfl := hself r hr hid
        exact absurd hold' (halone r' hr' hid' hactive' a hold)
      · rw [if_neg hid] at hactive hold
        rw [if_pos hid'] at hold'
        obtain rfl := hself r' hr' hid'
        exact absurd hold (halone r hr hid hactive a hold')
      · rw [if_neg hid] at hactive hold ⊢
        rw [if_neg hid'] at hactive' hold' ⊢
        exact hunique.eq_of_active hr hr' hactive hactive' hold hold'
    · unfold mutationKeys
      rw [filter_update_of_neither fun r hr hid => ?_]
      · exact hunique.2
      · rw [hself r hr hid]
        exact ⟨decide_eq_false (not_mutation_of_restartable hstate), rfl⟩

/-! ## The two requests -/

variable (current) in
theorem requeues_update (hids : Table.Keyed Job.id db.jobs) (hunique : JobsUnique db.jobs)
    (hjob : job ∈ db.jobs) (hstate : job.state ∈ [JobState.pending, .failed, .blocked, .canceled])
    (reason : JobReason) {db₀ : Db} {left : Db × Option SwapError}
    (hleft :
      left = match db.updateJobs (fun j => j.id = job.id) fun j => j.restarted reason current with
      | .ok db' => (db', none)
      | .error error => (db, some error)) :
    Requeues db₀ job.id left ↔ ¬ Superseded db.jobs job.id := by
  rw [← restarted_unique_iff current hids hunique hjob hstate reason]
  subst hleft
  unfold Db.updateJobs Db.writeJobs
  split
  next db' hok =>
    split at hok
    next hafter =>
      cases hok
      refine ⟨fun _ => hafter, fun _ => ⟨⟨job.restarted reason current, ?_, rfl, rfl⟩, ?_⟩⟩
      · exact Table.mem_update.mpr ⟨job, hjob, if_pos rfl⟩
      · exact .of_unique hafter
    next => cases hok
  next error herror =>
    split at herror
    next => cases herror
    next hrefused =>
      cases herror
      exact ⟨False.elim, fun hafter => hrefused hafter⟩

theorem superseded_closed (hids : Table.Keyed Job.id db.jobs) (hjob : db.job? jobId = some job)
    (h : Superseded db.jobs jobId) :
    job.state = .failed ∨ job.state = .blocked ∨ job.state = .canceled := by
  obtain ⟨hmem, hid⟩ := job?_mem hjob
  obtain ⟨j, hj, hjid, hclosed, -⟩ := h
  rwa [← hids.eq hj hmem (hjid.trans hid.symm)]

theorem not_superseded_of_missing (hjob : db.job? jobId = none) : ¬ Superseded db.jobs jobId := by
  rintro ⟨j, hj, hid, -⟩
  exact Table.lookup_eq_none.mp hjob j hj hid

theorem retrySwap_requeues_iff (hids : Table.Keyed Job.id db.jobs) (hunique : JobsUnique db.jobs)
    {db₀ : Db} (hsame : db.jobs = db₀.jobs) :
    Requeues db₀ jobId (match retrySwap db jobId current with
      | .ok db' => (db', none)
      | .error error => (db, some error)) ↔ ¬ Superseded db.jobs jobId := by
  cases hjob : db.job? jobId with
  | none =>
    simp only [retrySwap, hjob]
    exact ⟨fun _ => not_superseded_of_missing hjob, fun _ => hsame⟩
  | some job =>
    obtain ⟨hmem, rfl⟩ := job?_mem hjob
    by_cases hclosed : job.state ∈ [JobState.failed, .blocked, .canceled]
    · refine requeues_update current hids hunique hmem (List.mem_cons_of_mem _ hclosed)
        .manualRetry ?_
      simp only [retrySwap, hjob, hclosed, not_true_eq_false, if_false]
    · have hresult : retrySwap db job.id current =
          .error (.valueError "Swap job is not retryable") := by
        simp only [retrySwap, hjob, hclosed, not_false_eq_true, if_true]
        rfl
      rw [hresult]
      refine ⟨fun _ hsuperseded => hclosed ?_, fun _ => hsame⟩
      simpa using superseded_closed hids hjob hsuperseded

/-- The checks of `request_manual_swap` in a job that is there, while the workers are not paused. -/
theorem requestManualSwap_of_job (hpaused : ¬ db.settings.swapWorkerPaused)
    (hjob : db.job? jobId = some job) :
    requestManualSwap db jobId current =
      if job.state ∉ [JobState.pending, .failed, .blocked, .canceled] then
        .error (.valueError "Swap job is not available for manual execution")
      else SwapDecision.forSubscription db job.subscriptionId current
          (max 1 (db.settings.eligibleThreshold.read 1000)) job.oldAssignmentId (some jobId) >>=
        fun decision =>
          if ¬ decision.allowed ∨ decision.assignmentId ≠ job.oldAssignmentId then
            .error (.valueError ("Swap guards no longer pass: " ++ decision.reason.code))
          else db.updateJobs (fun j => j.id = jobId) fun j =>
            j.restarted .manualRequested current := by
  unfold requestManualSwap
  rw [if_neg hpaused]
  simp only [hjob]
  split
  · rfl
  · refine congrArg (_ >>= ·) (funext fun decision => ?_)
    split <;> rfl

theorem requestManualSwap_requeues_iff (hids : Table.Keyed Job.id db.jobs)
    (hunique : JobsUnique db.jobs) {db₀ : Db} (hsame : db.jobs = db₀.jobs) :
    Requeues db₀ jobId (match requestManualSwap db jobId current with
      | .ok db' => (db', none)
      | .error error => (db, some error)) ↔
      ¬ (Superseded db.jobs jobId ∧ ManualReady db jobId current) ∧ ¬ ManualRaises db jobId := by
  by_cases hpaused : db.settings.swapWorkerPaused
  · have hresult : requestManualSwap db jobId current =
        .error (.valueError "Swap worker is paused") := by
      rw [requestManualSwap, if_pos hpaused]
      rfl
    rw [hresult]
    exact ⟨fun _ => ⟨fun h => h.2.1 hpaused, fun h => h.1 hpaused⟩, fun _ => hsame⟩
  cases hjob : db.job? jobId with
  | none =>
    have hresult : requestManualSwap db jobId current =
        .error (.lookupError "Swap job not found") := by
      rw [requestManualSwap, if_neg hpaused]
      simp only [hjob]
      rfl
    rw [hresult]
    refine ⟨fun _ => ⟨fun h => not_superseded_of_missing hjob h.1, ?_⟩, fun _ => hsame⟩
    rintro ⟨-, job, hrow, -⟩
    cases hjob.symm.trans hrow
  | some job =>
    obtain ⟨hmem, rfl⟩ := job?_mem hjob
    have hrow : ∀ row, db.job? job.id = some row → row = job :=
      fun row h => Option.some.inj (h.symm.trans hjob)
    rw [requestManualSwap_of_job hpaused hjob]
    by_cases hstate : job.state ∈ [JobState.pending, .failed, .blocked, .canceled]
    · rw [if_neg (not_not.mpr hstate)]
      rcases SwapDecision.forSubscription_cases db job.subscriptionId current
        (max 1 (db.settings.eligibleThreshold.read 1000)) job.oldAssignmentId (some job.id) with
        ⟨hraises, herror⟩ | ⟨hraises, decision, hdecision⟩
      · rw [herror]
        exact ⟨False.elim, fun h => h.2 ⟨hpaused, job, hjob, hstate, hraises⟩⟩
      · rw [hdecision]
        dsimp only [bind, Except.bind]
        have hquiet : ¬ ManualRaises db job.id := by
          rintro ⟨-, row, hsome, -, h⟩
          exact hraises (hrow row hsome ▸ h)
        by_cases hpass : decision.allowed ∧ decision.assignmentId = job.oldAssignmentId
        · have hready : ManualReady db job.id current :=
            ⟨hpaused, job, hjob, decision, hdecision, hpass⟩
          rw [if_neg (by simp [hpass.1, hpass.2]),
            requeues_update current hids hunique hmem hstate .manualRequested rfl]
          exact ⟨fun h => ⟨fun hboth => h hboth.1, hquiet⟩, fun h hbusy => h.1 ⟨hbusy, hready⟩⟩
        · have hunready : ¬ ManualReady db job.id current := by
            rintro ⟨-, row, hsome, decision', hdecision', hpass'⟩
            rw [hrow row hsome, hdecision] at hdecision'
            obtain rfl := Except.ok.inj hdecision'
            exact hpass (hrow row hsome ▸ hpass')
          rw [if_pos (not_and_or.mp hpass)]
          exact ⟨fun _ => ⟨fun h => hunready h.2, hquiet⟩, fun _ => hsame⟩
    · rw [if_pos hstate]
      refine ⟨fun _ => ⟨fun h => hstate (List.mem_cons_of_mem _ ?_), ?_⟩, fun _ => hsame⟩
      · simpa using superseded_closed hids hjob h.1
      · rintro ⟨-, row, hsome, h, -⟩
        exact hstate (hrow row hsome ▸ h)

/-- `ensure_proxiware_swap_schema` finds no job to move in a table with both indexes. -/
theorem ensureProxiwareSwapSchema_jobs (hunique : JobsUnique db.jobs) (wall : Timestamp) :
    (ensureProxiwareSwapSchema db wall).jobs = db.jobs := by
  unfold ensureProxiwareSwapSchema
  split
  · exact migrateJobs_eq hunique wall
  · rfl

/-- In every reachable state, `retry_swap` requeues or refuses exactly the jobs that are not
superseded, and `request_manual_swap` all but the superseded ones that its guards let through and
those whose expiry the guards cannot read. -/
theorem requeues_iff {db₀ : Db} {s : State} {h : List (Event × State)} (fresh : db₀.Fresh)
    (run : History.Run Step { db := db₀ } h s) (jobId : Nat) (wall current : Timestamp) :
    (Requeues s.db jobId (s.db.serve wall fun db => retrySwap db jobId current) ↔
      ¬ Superseded s.db.jobs jobId) ∧
    (Requeues s.db jobId (s.db.serve wall fun db => requestManualSwap db jobId current) ↔
      ¬ (Superseded s.db.jobs jobId ∧
        ManualReady (ensureProxiwareSwapSchema s.db wall) jobId current) ∧
      ¬ ManualRaises (ensureProxiwareSwapSchema s.db wall) jobId) := by
  have hs := run_constrained fresh.toConstrained run
  have hsame := ensureProxiwareSwapSchema_jobs hs.jobsUnique wall
  have hids : Table.Keyed Job.id (ensureProxiwareSwapSchema s.db wall).jobs :=
    hsame.symm ▸ hs.jobIds
  have hunique : JobsUnique (ensureProxiwareSwapSchema s.db wall).jobs := hsame.symm ▸ hs.jobsUnique
  rw [← hsame]
  constructor
  · exact retrySwap_requeues_iff hids hunique hsame
  · exact requestManualSwap_requeues_iff hids hunique hsame

open EarnProxy.Swap.Scenario in
/-- A job is canceled, and its assignment is queued again. -/
def queuedAgain : List Event :=
  [second 10 (subscription [risky "old" "192.0.2.1"]), shown "d-1" "192.0.2.1:8000" 11,
    second 12 (.configure { autoSwap := true }), second 13 (.queue 1000 [(1, 1)]),
    second 14 (.cancel 1), second 15 (.queue 1000 [(1, 1)])]

theorem queuedAgain_runs : History.Run Step { db := {} } (Db.history {} queuedAgain)
    (Db.after {} queuedAgain) :=
  History.run_replay_accepted (by decide +kernel)

theorem requeues_iff_queuedAgain :
    Requeues (Db.after {} queuedAgain).db 1
        ((Db.after {} queuedAgain).db.serve (seconds 16) fun db => retrySwap db 1 (seconds 16)) ↔
      ¬ Superseded (Db.after {} queuedAgain).db.jobs 1 :=
  (requeues_iff empty_fresh queuedAgain_runs 1 (seconds 16) (seconds 16)).1

/-- The error of the index reaches the callers of both requests. -/
theorem requeue_integrityError :
    let s := Db.after {} queuedAgain
    History.Run Step { db := {} } (Db.history {} queuedAgain) s ∧
      (s.db.serve (seconds 16) fun db => retrySwap db 1 (seconds 16)).2 = some .integrityError ∧
      (s.db.serve (seconds 16) fun db => requestManualSwap db 1 (seconds 16)).2 =
        some .integrityError ∧
      ¬ Requeues s.db 1 (s.db.serve (seconds 16) fun db => retrySwap db 1 (seconds 16)) ∧
      ¬ Requeues s.db 1
        (s.db.serve (seconds 16) fun db => requestManualSwap db 1 (seconds 16)) := by
  have hretry : ((Db.after {} queuedAgain).db.serve (seconds 16) fun db =>
      retrySwap db 1 (seconds 16)).2 = some .integrityError := by decide +kernel
  have hmanual : ((Db.after {} queuedAgain).db.serve (seconds 16) fun db =>
      requestManualSwap db 1 (seconds 16)).2 = some .integrityError := by decide +kernel
  refine ⟨queuedAgain_runs, hretry, hmanual, ?_, ?_⟩
  · unfold Requeues
    rw [hretry]
    exact not_false
  · unfold Requeues
    rw [hmanual]
    exact not_false

end EarnProxy.Swap
