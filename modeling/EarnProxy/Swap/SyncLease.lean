import EarnProxy.Swap.SyncRuns

/-!
# One writer of the inventory

A run is claimed at most once and is never taken up again after it ended, so its lease needs no
fencing beyond the checks inside the transactions: a transaction that commits has found the run
running, and there is at most one running run.
-/

namespace EarnProxy.Swap

/-- The run is over. -/
def SyncRun.Finished (r : SyncRun) : Prop := r.status ≠ .queued ∧ r.status ≠ .running

/-- A run later in its life, other than by a claim. `W` are the runs that succeed meanwhile. -/
structure SyncRun.Ages (W : Nat → Prop) (r r' : SyncRun) : Prop where
  id : r'.id = r.id
  running : r'.status = .running → r.status = .running
  finished : r.Finished → r'.status = r.status
  success : r'.status = .success → r.status = .success ∨ W r.id

/-- The same runs, later. -/
def RunsKept (W : Nat → Prop) (runs runs' : List SyncRun) : Prop :=
  ∃ φ : SyncRun → SyncRun, runs' = runs.map φ ∧ ∀ r : SyncRun, r.Ages W (φ r)

/-- What one action does to the runs. -/
inductive RunsEffect (W : Nat → Prop) (runs : List SyncRun) : List SyncRun → Prop where
  | kept {runs' : List SyncRun} : RunsKept W runs runs' → RunsEffect W runs runs'
  | queued {row : SyncRun} (fresh : row.id = Table.nextKey SyncRun.id runs)
      (status : row.status = .queued) : RunsEffect W runs (runs ++ [row])
  /-- A queued run is claimed while no run is running. -/
  | claimed {runs₁ : List SyncRun} {i : Nat} {f : SyncRun → SyncRun}
      (expired : RunsKept W runs runs₁) (alone : ∀ r ∈ runs₁, r.status ≠ .running)
      (was : ∀ r ∈ runs₁, r.id = i → r.status = .queued)
      (is : ∀ r, (f r).id = r.id ∧ (f r).status = .running) :
      RunsEffect W runs (Table.update (fun r => r.id = i) f runs₁)
  | created {runs₁ : List SyncRun} {row : SyncRun} (expired : RunsKept W runs runs₁)
      (alone : ∀ r ∈ runs₁, r.status ≠ .running) (fresh : row.id = Table.nextKey SyncRun.id runs₁)
      (status : row.status = .running) : RunsEffect W runs (runs₁ ++ [row])

section Kept

variable {W : Nat → Prop} {runs runs' runs'' : List SyncRun}

theorem SyncRun.Ages.refl (r : SyncRun) : r.Ages W r := ⟨rfl, fun h => h, fun _ => rfl, .inl⟩

theorem SyncRun.Ages.trans {r r' r'' : SyncRun} (h : r.Ages W r') (h' : r'.Ages W r'') :
    r.Ages W r'' where
  id := h'.id.trans h.id
  running := fun hr => h.running (h'.running hr)
  finished := fun hf => by
    have hf' : r'.Finished := by
      unfold SyncRun.Finished at hf ⊢
      rwa [h.finished hf]
    exact (h'.finished hf').trans (h.finished hf)
  success := fun hs => by
    rcases h'.success hs with hs' | hw
    · exact h.success hs'
    · exact .inr (h.id ▸ hw)

theorem RunsKept.refl (runs : List SyncRun) : RunsKept W runs runs := ⟨id, by simp, .refl⟩

theorem RunsKept.trans (h : RunsKept W runs runs') (h' : RunsKept W runs' runs'') :
    RunsKept W runs runs'' := by
  obtain ⟨φ, rfl, hφ⟩ := h
  obtain ⟨φ', rfl, hφ'⟩ := h'
  exact ⟨φ' ∘ φ, by simp, fun r => (hφ r).trans (hφ' _)⟩

theorem RunsKept.update {p : SyncRun → Prop} [DecidablePred p] {f : SyncRun → SyncRun}
    (h : ∀ r, p r → r.Ages W (f r)) (runs : List SyncRun) :
    RunsKept W runs (Table.update p f runs) := by
  refine ⟨fun r => if p r then f r else r, rfl, fun r => ?_⟩
  by_cases hp : p r
  · simpa [hp] using h r hp
  · simpa [hp] using SyncRun.Ages.refl r

/-- Columns other than the id and the status do not matter. -/
theorem RunsKept.columns {p : SyncRun → Prop} [DecidablePred p] {f : SyncRun → SyncRun}
    (h : ∀ r, (f r).id = r.id ∧ (f r).status = r.status) (runs : List SyncRun) :
    RunsKept W runs (Table.update p f runs) := by
  refine RunsKept.update (fun r _ => ?_) runs
  obtain ⟨hid, hstatus⟩ := h r
  exact ⟨hid, fun hr => hstatus ▸ hr, fun _ => hstatus, fun hs => .inl (hstatus ▸ hs)⟩

/-- The holder of the lease ends the run. -/
theorem RunsKept.held {runId : Nat} {token : String} {f : SyncRun → SyncRun}
    (hid : ∀ r, (f r).id = r.id) (hend : ∀ r, (f r).status ≠ .running)
    (hsuccess : ∀ r, r.id = runId → (f r).status = .success → W r.id) (runs : List SyncRun) :
    RunsKept W runs (updateHeld runs runId token f) := by
  refine RunsKept.update (fun r hr => ?_) runs
  refine ⟨hid r, fun h => absurd h (hend r), fun h => absurd hr.2.1 h.2, fun h => .inr ?_⟩
  exact hsuccess r hr.1 h

theorem cancelSync_kept (runId : Nat) (token : String) (now : Timestamp) :
    RunsKept W runs (cancelSync runs runId token now) := by
  refine RunsKept.held ?_ ?_ ?_ runs
  all_goals simp

theorem failSync_kept (runId : Nat) (token code : String) (now : Timestamp) :
    RunsKept W runs (failSync runs runId token code now) := by
  refine RunsKept.held ?_ ?_ ?_ runs
  all_goals simp

theorem succeedSync_kept {runId : Nat} (token : String) (total : Nat) (now : Timestamp)
    (h : W runId) : RunsKept W runs (succeedSync runs runId token total now) := by
  refine RunsKept.held (by simp) (by simp) ?_ runs
  intro r hid _
  exact hid ▸ h

theorem countRun_kept {runId : Nat} {f : SyncRun → SyncRun}
    (h : ∀ r, (f r).id = r.id ∧ (f r).status = r.status) :
    RunsKept W runs (countRun runs runId f) := RunsKept.columns h runs

theorem renewSyncLease_some {runId : Nat} {token : String} {leaseSeconds : Int} {now : Timestamp}
    (h : renewSyncLease runs runId token leaseSeconds now = some runs') :
    Owns runs runId token now ∧ runs' = Table.update (fun r => r.id = runId ∧ r.Owned token now)
      (fun r => { r with claimedUntil := some (now + seconds (max 60 leaseSeconds)) }) runs := by
  unfold renewSyncLease at h
  split at h
  · exact ⟨‹_›, (Option.some.inj h).symm⟩
  · cases h

theorem renewSyncLease_kept {runId : Nat} {token : String} {leaseSeconds : Int} {now : Timestamp}
    (h : renewSyncLease runs runId token leaseSeconds now = some runs') :
    RunsKept W runs runs' := by
  obtain ⟨-, rfl⟩ := renewSyncLease_some h
  refine RunsKept.columns ?_ runs
  intro r
  exact ⟨rfl, rfl⟩

theorem enqueueSyncRun_effect (now : Timestamp) (allowDuringRunning : Bool) :
    RunsEffect W runs (enqueueSyncRun runs now allowDuringRunning).1 := by
  unfold enqueueSyncRun
  simp only
  split
  · exact .queued rfl rfl
  split
  · exact .kept (.refl runs)
  split
  · exact .kept (.refl runs)
  · exact .queued rfl rfl

theorem requestSyncCancel_kept (runId : Nat) (now : Timestamp) :
    RunsKept W runs (requestSyncCancel runs runId now) := by
  refine RunsKept.update (fun r hr => ?_) runs
  by_cases hq : r.status = .queued
  · rw [if_pos hq]
    exact ⟨rfl, nofun, fun h => absurd hq h.1, nofun⟩
  · rw [if_neg hq]
    exact ⟨rfl, fun h => h, fun _ => rfl, .inl⟩

theorem expireLeases_kept (now : Timestamp) : RunsKept W runs (expireLeases runs now) := by
  refine RunsKept.update (fun r hr => ?_) runs
  exact ⟨rfl, nofun, fun h => absurd hr.1 h.2, nofun⟩

/-- What is left running after the abandoned leases were given up has not expired. -/
theorem expireLeases_running {now : Timestamp} {r : SyncRun} (hr : r ∈ expireLeases runs now)
    (hrunning : r.status = .running) : ∃ t ∈ r.claimedUntil, now < t := by
  obtain ⟨r₀, hr₀, rfl⟩ := Table.mem_update.mp hr
  by_cases hab : r₀.Abandoned now
  · rw [if_pos hab] at hrunning
    cases hrunning
  · rw [if_neg hab] at hrunning ⊢
    by_contra hnone
    refine hab ⟨hrunning, fun t ht => not_lt.mp fun hlt => hnone ⟨t, ht, hlt⟩⟩

theorem claimSyncRun_effect {now : Timestamp} {leaseSeconds : Int} {createIfMissing : Bool}
    {token : String} {runId : Nat} (hkeyed : Table.Keyed SyncRun.id runs)
    (h : claimSyncRun runs now leaseSeconds createIfMissing token = some (runs', runId)) :
    RunsEffect W runs runs' := by
  have hkept : RunsKept W runs (expireLeases runs now) := expireLeases_kept now
  unfold claimSyncRun at h
  simp only at h
  split at h
  · cases h
  rename_i hidle
  have halone : ∀ r ∈ expireLeases runs now, r.status ≠ .running := fun r hr hrunning =>
    hidle ⟨r, hr, hrunning, expireLeases_running hr hrunning⟩
  split at h
  · rename_i queued hqueued
    obtain ⟨rfl, rfl⟩ := Prod.mk.inj (Option.some.inj h)
    have hmem :=
      List.mem_filter.mp (List.argmax_mem (f := fun r => OrderDual.toDual (SyncRun.id r)) hqueued)
    refine .claimed hkept halone (fun r hr hid => ?_) fun r => ⟨rfl, rfl⟩
    obtain ⟨φ, hφ, hages⟩ := hkept
    have hkeyed₁ : Table.Keyed SyncRun.id (expireLeases runs now) :=
      hφ ▸ hkeyed.map fun r _ => (hages r).id
    rw [hkeyed₁.eq hr hmem.1 hid]
    exact of_decide_eq_true hmem.2
  · split at h
    · obtain ⟨rfl, rfl⟩ := Prod.mk.inj (Option.some.inj h)
      exact .created hkept halone rfl rfl
    · cases h

end Kept

/-! ## The actions of the workers -/

/-- A worker commits an inventory transaction of run `runId`. -/
def CommitsInventory (runId : Nat) (token : String) (s : SyncState) (action : SyncAction) : Prop :=
  match action with
  | .writeSubscription worker profile now later => ∃ task raw proxies,
      s.workers worker = .busy task (.writing raw proxies) ∧ task.runId = runId ∧
        task.token = token ∧ (subscriptionTransaction s task raw proxies profile now later).isSome
  | .finish worker now later => ∃ task, s.workers worker = .busy task .finishing ∧
      task.runId = runId ∧ task.token = token ∧ (finalTransaction s task now later).isSome
  | _ => False

/-- A worker commits the last transaction of run `runId`, whose lease it holds from the start of the
transaction to the check before the commit. -/
def Succeeds (runId : Nat) (token : String) (s : SyncState) (action : SyncAction) : Prop :=
  match action with
  | .finish worker now later => ∃ task, s.workers worker = .busy task .finishing ∧
      task.runId = runId ∧ task.token = token ∧ Owns s.runs runId token now ∧
        later < now + seconds (max 60 task.leaseSeconds)
  | _ => False

/-- What an action does. -/
structure SyncEffect (s : SyncState) (action : SyncAction) (s' : SyncState) : Prop where
  runs : RunsEffect (fun i => ∃ token, Succeeds i token s action) s.runs s'.runs
  db : s'.db = s.db ∨ ∃ runId token, CommitsInventory runId token s action
  reports : ∀ worker runId token, s'.workers worker = .ended runId token .success →
    s.workers worker = .ended runId token .success ∨ Succeeds runId token s action

section Work

variable {s s' : SyncState} {action : SyncAction} {worker : Nat} {task : SyncTask}

theorem setWorker_reports {at_ : SyncWorker} {runs : List SyncRun} {db : Db}
    (hquiet : ∀ runId token, at_ = .ended runId token .success → Succeeds runId token s action)
    (w runId : Nat) (token : String)
    (h : ({ s with runs, db }.setWorker worker at_).workers w = .ended runId token .success) :
    s.workers w = .ended runId token .success ∨ Succeeds runId token s action := by
  by_cases hw : w = worker
  · subst hw
    refine .inr (hquiet runId token ?_)
    simpa [SyncState.setWorker] using h
  · refine .inl ?_
    simpa [SyncState.setWorker, hw] using h

/-- A step that writes no inventory and reports no success. -/
theorem SyncEffect.quiet {at_ : SyncWorker} {runs : List SyncRun}
    (hruns : RunsKept (fun i => ∃ token, Succeeds i token s action) s.runs runs)
    (hquiet : ∀ runId token, at_ ≠ .ended runId token .success) :
    SyncEffect s action ({ s with runs }.setWorker worker at_) where
  runs := .kept hruns
  db := .inl rfl
  reports := setWorker_reports fun runId token h => absurd h (hquiet runId token)

theorem subscriptionTransaction_some {raw : RawSubscription} {proxies : List RawProxy}
    {profile : Profile} {now later : Timestamp} {runs : List SyncRun} {db : Db}
    (h : subscriptionTransaction s task raw proxies profile now later = some (runs, db)) :
    renewSyncLease s.runs task.runId task.token task.leaseSeconds now = some runs ∧
      Owns runs task.runId task.token later := by
  obtain ⟨runs₁, hrenew, h⟩ := Option.bind_eq_some_iff.mp h
  simp only at h
  split at h
  · obtain ⟨rfl, -⟩ := Prod.mk.inj (Option.some.inj h)
    exact ⟨hrenew, ‹_›⟩
  · cases h

theorem finalTransaction_some {now later : Timestamp} {runs : List SyncRun} {db : Db}
    (h : finalTransaction s task now later = some (runs, db)) :
    ∃ runs₁, renewSyncLease s.runs task.runId task.token task.leaseSeconds now = some runs₁ ∧
      Owns runs₁ task.runId task.token later ∧
      runs = succeedSync runs₁ task.runId task.token task.total later := by
  obtain ⟨runs₁, hrenew, h⟩ := Option.bind_eq_some_iff.mp h
  simp only at h
  split at h
  · obtain ⟨rfl, -⟩ := Prod.mk.inj (Option.some.inj h)
    exact ⟨runs₁, hrenew, ‹_›, rfl⟩
  · cases h

/-- A lease that was just renewed runs until the new deadline. -/
theorem renewed_deadline {runs runs₁ : List SyncRun} (hkeyed : Table.Keyed SyncRun.id runs)
    {runId : Nat} {token : String} {leaseSeconds : Int} {now later : Timestamp}
    (hrenew : renewSyncLease runs runId token leaseSeconds now = some runs₁)
    (howns : Owns runs₁ runId token later) : later < now + seconds (max 60 leaseSeconds) := by
  obtain ⟨⟨r, hr, hid, howned⟩, rfl⟩ := renewSyncLease_some hrenew
  obtain ⟨r', hr', hid', -, -, t, ht, hlt⟩ := howns
  obtain ⟨r₀, hr₀, rfl⟩ := Table.mem_update.mp hr'
  by_cases hmatch : r₀.id = runId ∧ r₀.Owned token now
  · rw [if_pos hmatch] at ht
    obtain rfl := Option.some.inj ht
    exact hlt
  · rw [if_neg hmatch] at hid'
    obtain rfl := hkeyed.eq hr hr₀ (hid.trans hid'.symm)
    exact absurd ⟨hid, howned⟩ hmatch

theorem finish_effect (hkeyed : Table.Keyed SyncRun.id s.runs)
    (hworker : s.workers worker = .busy task .finishing) {now later : Timestamp}
    {runs : List SyncRun} {db : Db} (h : finalTransaction s task now later = some (runs, db)) :
    SyncEffect s (.finish worker now later) ({ s with runs, db }.setWorker worker
      (task.ended .success)) := by
  obtain ⟨runs₁, hrenew, howns, rfl⟩ := finalTransaction_some h
  have hsucceeds : Succeeds task.runId task.token s (.finish worker now later) :=
    ⟨task, hworker, rfl, rfl, (renewSyncLease_some hrenew).1, renewed_deadline hkeyed hrenew howns⟩
  refine ⟨.kept ((renewSyncLease_kept hrenew).trans ?_), .inr ⟨task.runId, task.token, ?_⟩, ?_⟩
  · exact succeedSync_kept task.token task.total later ⟨task.token, hsucceeds⟩
  · exact ⟨task, hworker, rfl, rfl, by rw [h]; rfl⟩
  · refine setWorker_reports fun runId token hended => ?_
    unfold SyncTask.ended at hended
    cases hended
    exact hsucceeds

theorem work_effect (hkeyed : Table.Keyed SyncRun.id s.runs) {stage : SyncStage}
    (hworker : s.workers worker = .busy task stage) (hwho : action.worker? = some worker)
    (h : s.work worker task stage action = some s') : SyncEffect s action s' := by
  have hbusy (task' : SyncTask) (stage' : SyncStage) (runId : Nat) (token : String) :
      SyncWorker.busy task' stage' ≠ .ended runId token .success := by simp
  have hround (task' : SyncTask) (runId : Nat) (token : String) :
      task'.round ≠ .ended runId token .success := hbusy _ _ runId token
  have hended (outcome : SyncOutcome) (hne : outcome ≠ .success) (runId : Nat) (token : String) :
      task.ended outcome ≠ .ended runId token .success := by simp [SyncTask.ended, hne]
  unfold SyncState.work at h
  split at h
  · obtain rfl := Option.some.inj h
    exact .quiet (.refl _) (hbusy _ _)
  · obtain rfl := Option.some.inj h
    exact .quiet (.refl _) (hbusy _ _)
  · split at h
    · obtain rfl := Option.some.inj h
      exact .quiet (.refl _) (hended _ (by decide))
    · rename_i runs hrenew
      obtain rfl := Option.some.inj h
      exact .quiet (renewSyncLease_kept hrenew) (hbusy _ _)
  · split at h
    · obtain rfl := Option.some.inj h
      exact .quiet (.refl _) (hended _ (by decide))
    · obtain rfl := Option.some.inj h
      exact .quiet (.refl _) (hbusy _ _)
  · split at h
    · obtain rfl := Option.some.inj h
      exact .quiet (cancelSync_kept _ _ _) (hended _ (by decide))
    · obtain rfl := Option.some.inj h
      exact .quiet (.refl _) (hbusy _ _)
  · obtain rfl := Option.some.inj h
    exact .quiet (countRun_kept (by simp)) (hround _)
  · split at h
    · cases h
    split at h
    all_goals
      obtain rfl := Option.some.inj h
      exact .quiet (.refl _) (hbusy _ _)
  · split at h
    · obtain rfl := Option.some.inj h
      exact .quiet (.refl _) (hended _ (by decide))
    · rename_i htransaction
      obtain rfl := Option.some.inj h
      obtain rfl := Option.some.inj hwho
      refine ⟨.kept (renewSyncLease_kept (subscriptionTransaction_some htransaction).1), .inr ?_,
        ?_⟩
      · exact ⟨task.runId, task.token, task, _, _, hworker, rfl, rfl, by rw [htransaction]; rfl⟩
      · exact setWorker_reports fun runId token h => absurd h (hbusy _ _ runId token)
  · obtain rfl := Option.some.inj h
    exact .quiet (countRun_kept (by simp)) (hround _)
  · split at h
    · obtain rfl := Option.some.inj h
      exact .quiet (.refl _) (hended _ (by decide))
    · rename_i htransaction
      obtain rfl := Option.some.inj h
      obtain rfl := Option.some.inj hwho
      exact finish_effect hkeyed hworker htransaction
  · obtain rfl := Option.some.inj h
    exact .quiet (failSync_kept _ _ _ _) (hended _ (by decide))
  · obtain rfl := Option.some.inj h
    exact .quiet (.refl _) (hbusy _ _)
  · cases h

/-- An action that only writes runs. -/
theorem SyncEffect.ofRuns {runs : List SyncRun}
    (hruns : RunsEffect (fun i => ∃ token, Succeeds i token s action) s.runs runs) :
    SyncEffect s action { s with runs } :=
  ⟨hruns, .inl rfl, fun _ _ _ h => .inl h⟩

theorem next_effect (hkeyed : Table.Keyed SyncRun.id s.runs) (h : s.next action = some s') :
    SyncEffect s action s' := by
  unfold SyncState.next at h
  split at h
  · obtain rfl := Option.some.inj h
    exact .ofRuns (enqueueSyncRun_effect _ _)
  · obtain rfl := Option.some.inj h
    exact .ofRuns (.kept (requestSyncCancel_kept _ _))
  · split at h
    · cases h
    split at h
    · obtain rfl := Option.some.inj h
      exact .ofRuns (.kept (.refl _))
    · rename_i hclaim
      obtain rfl := Option.some.inj h
      exact ⟨claimSyncRun_effect hkeyed hclaim, .inl rfl, setWorker_reports (by simp)⟩
  · obtain rfl := Option.some.inj h
    exact .quiet (.refl _) (by simp)
  · obtain ⟨worker, hwho, h⟩ := Option.bind_eq_some_iff.mp h
    split at h
    · rename_i hworker
      exact work_effect hkeyed hworker hwho h
    · cases h

end Work

/-! ## Every run of the system -/

/-- At most one run is running. -/
structure Exclusive (runs : List SyncRun) : Prop where
  ids : Table.Keyed SyncRun.id runs
  one : ∀ r ∈ runs, ∀ r' ∈ runs, r.status = .running → r'.status = .running → r.id = r'.id

section Exclusive

variable {W : Nat → Prop} {runs runs' : List SyncRun}

theorem RunsKept.exclusive (h : RunsKept W runs runs') (hx : Exclusive runs) : Exclusive runs' := by
  obtain ⟨φ, rfl, hages⟩ := h
  refine ⟨hx.ids.map fun r _ => (hages r).id, ?_⟩
  simp only [List.forall_mem_map]
  intro r hr r' hr' hrun hrun'
  rw [(hages r).id, (hages r').id]
  exact hx.one r hr r' hr' ((hages r).running hrun) ((hages r').running hrun')

theorem Exclusive.append {row : SyncRun} (hx : Exclusive runs)
    (hfresh : row.id = Table.nextKey SyncRun.id runs)
    (halone : row.status = .running → ∀ r ∈ runs, r.status ≠ .running) :
    Exclusive (runs ++ [row]) := by
  refine ⟨hx.ids.append_fresh fun r hr => ?_, ?_⟩
  · have hlt : r.id < Table.nextKey SyncRun.id runs := Table.lt_nextKey hr
    omega
  · intro r hr r' hr' hrun hrun'
    simp only [List.mem_append, List.mem_singleton] at hr hr'
    rcases hr with hr | rfl <;> rcases hr' with hr' | rfl
    · exact hx.one r hr r' hr' hrun hrun'
    · exact absurd hrun (halone hrun' r hr)
    · exact absurd hrun' (halone hrun r' hr')
    · rfl

theorem RunsEffect.exclusive (h : RunsEffect W runs runs') (hx : Exclusive runs) :
    Exclusive runs' := by
  cases h with
  | kept h => exact h.exclusive hx
  | queued hfresh hstatus => exact hx.append hfresh fun h => by simp [hstatus] at h
  | @claimed runs₁ i f hexpired halone hwas his =>
    have hx₁ : Exclusive runs₁ := hexpired.exclusive hx
    refine ⟨hx₁.ids.map fun r _ => ?_, ?_⟩
    · split
      · exact (his r).1
      · rfl
    -- the claimed run is the only one that runs
    have honly : ∀ r ∈ Table.update (fun r => r.id = i) f runs₁, r.status = .running →
        r.id = i := by
      intro r hr hrun
      obtain ⟨r₀, hr₀, rfl⟩ := Table.mem_update.mp hr
      by_cases hi : r₀.id = i
      · simp [hi, (his r₀).1]
      · rw [if_neg hi] at hrun
        exact absurd hrun (halone r₀ hr₀)
    intro r hr r' hr' hrun hrun'
    rw [honly r hr hrun, honly r' hr' hrun']
  | created hexpired halone hfresh _ =>
    exact (hexpired.exclusive hx).append hfresh fun _ => halone

/-- A run that is over stays as it ended, and success is the work of a last transaction. -/
theorem RunsEffect.finished (h : RunsEffect W runs runs') :
    ∀ r ∈ runs, r.Finished → ∃ r' ∈ runs', r'.id = r.id ∧ r'.status = r.status := by
  have hkept {runs₁ : List SyncRun} (hk : RunsKept W runs runs₁) (r : SyncRun) (hr : r ∈ runs)
      (hf : r.Finished) : ∃ r' ∈ runs₁, r'.id = r.id ∧ r'.status = r.status := by
    obtain ⟨φ, rfl, hages⟩ := hk
    exact ⟨φ r, List.mem_map_of_mem hr, (hages r).id, (hages r).finished hf⟩
  intro r hr hf
  cases h with
  | kept h => exact hkept h r hr hf
  | queued _ _ => exact ⟨r, List.mem_append_left _ hr, rfl, rfl⟩
  | @claimed runs₁ i f hexpired halone hwas his =>
    obtain ⟨r₁, hr₁, hid, hstatus⟩ := hkept hexpired r hr hf
    refine ⟨r₁, Table.mem_update.mpr ⟨r₁, hr₁, if_neg fun hi => hf.1 ?_⟩, hid, hstatus⟩
    exact hstatus.symm.trans (hwas r₁ hr₁ hi)
  | created hexpired _ _ _ =>
    obtain ⟨r₁, hr₁, hid, hstatus⟩ := hkept hexpired r hr hf
    exact ⟨r₁, List.mem_append_left _ hr₁, hid, hstatus⟩

theorem RunsEffect.success (h : RunsEffect W runs runs') :
    ∀ r' ∈ runs', r'.status = .success →
      (∃ r ∈ runs, r.id = r'.id ∧ r.status = .success) ∨ W r'.id := by
  have hkept {runs₁ : List SyncRun} (hk : RunsKept W runs runs₁) (r' : SyncRun) (hr' : r' ∈ runs₁)
      (hs : r'.status = .success) : (∃ r ∈ runs, r.id = r'.id ∧ r.status = .success) ∨ W r'.id := by
    obtain ⟨φ, rfl, hages⟩ := hk
    obtain ⟨r, hr, rfl⟩ := List.mem_map.mp hr'
    rw [(hages r).id]
    exact ((hages r).success hs).imp_left fun hs => ⟨r, hr, rfl, hs⟩
  intro r' hr' hs
  cases h with
  | kept h => exact hkept h r' hr' hs
  | queued _ hstatus =>
    rcases List.mem_append.mp hr' with hr' | hr'
    · exact .inl ⟨r', hr', rfl, hs⟩
    · obtain rfl := List.mem_singleton.mp hr'
      simp [hstatus] at hs
  | claimed hexpired halone hwas his =>
    obtain ⟨r₁, hr₁, rfl⟩ := Table.mem_update.mp hr'
    split at hs
    · simp [(his r₁).2] at hs
    · rename_i hi
      rw [if_neg hi]
      exact hkept hexpired r₁ hr₁ hs
  | created hexpired _ _ hstatus =>
    rcases List.mem_append.mp hr' with hr' | hr'
    · exact hkept hexpired r' hr' hs
    · obtain rfl := List.mem_singleton.mp hr'
      simp [hstatus] at hs

end Exclusive

section Runs

variable {db : Db} {h : List (SyncAction × SyncState)} {s : SyncState}

theorem SyncRuns.exclusive (run : SyncRuns { db } h s) : Exclusive s.runs := by
  have hnew : Exclusive ([] : List SyncRun) := ⟨List.nodup_nil, by simp⟩
  refine run.invariant (I := fun _ s => Exclusive s.runs) hnew ?_
  intro h s action s' _ hx hstep
  exact (next_effect hx.ids hstep).runs.exclusive hx

/-- A run that was over in some state of the run is over in the last one. -/
theorem SyncRuns.finished (run : SyncRuns { db } h s) :
    ∀ s₁, History.Visited { db } h s₁ → ∀ r ∈ s₁.runs, r.Finished →
      ∃ r' ∈ s.runs, r'.id = r.id ∧ r'.status = r.status := by
  induction run with
  | nil =>
    rintro s₁ (rfl | ⟨x, hx, -⟩) r hr hf
    · exact ⟨r, hr, rfl, rfl⟩
    · exact absurd hx List.not_mem_nil
  | @snoc h s action s' run hstep ih =>
    have hmoved := (next_effect (SyncRuns.exclusive run).ids hstep).runs.finished
    have hearlier : ∀ s₁, History.Visited { db } h s₁ → ∀ r ∈ s₁.runs, r.Finished →
        ∃ r' ∈ s'.runs, r'.id = r.id ∧ r'.status = r.status := by
      intro s₁ hs₁ r hr hf
      obtain ⟨r₁, hr₁, hid, hstatus⟩ := ih s₁ hs₁ r hr hf
      have hf₁ : r₁.Finished := by
        unfold SyncRun.Finished at hf ⊢
        rwa [hstatus]
      obtain ⟨r', hr', hid', hstatus'⟩ := hmoved r₁ hr₁ hf₁
      exact ⟨r', hr', hid'.trans hid, hstatus'.trans hstatus⟩
    rintro s₁ (rfl | ⟨x, hx, rfl⟩) r hr hf
    · exact hearlier _ (.inl rfl) r hr hf
    · rcases List.mem_cons.mp hx with rfl | hx
      · exact ⟨r, hr, rfl, rfl⟩
      · exact hearlier _ (.inr ⟨x, hx, rfl⟩) r hr hf

/-- Every success of a run, in its row and in the report of a worker, is a last transaction that
held the lease. -/
theorem SyncRuns.success (run : SyncRuns { db } h s) :
    (∀ r ∈ s.runs, r.status = .success →
      ∃ token, History.Sometime (Succeeds r.id token) { db } h) ∧
    ∀ worker runId token, s.workers worker = .ended runId token .success →
      History.Sometime (Succeeds runId token) { db } h := by
  induction run with
  | nil => simp
  | @snoc h s action s' run hstep ih =>
    have heffect := next_effect (SyncRuns.exclusive run).ids hstep
    refine ⟨fun r' hr' hs => ?_, fun worker runId token hended => ?_⟩
    · rcases heffect.runs.success r' hr' hs with ⟨r, hr, hid, hs⟩ | ⟨token, hw⟩
      · obtain ⟨token, hw⟩ := ih.1 r hr hs
        exact ⟨token, .inr (hid ▸ hw)⟩
      · exact ⟨token, History.Sometime.now run hw⟩
    · rcases heffect.reports worker runId token hended with hended | hw
      · exact .inr (ih.2 worker runId token hended)
      · exact History.Sometime.now run hw

end Runs

theorem CommitsInventory.owns {s : SyncState} {action : SyncAction} {runId : Nat} {token : String}
    (h : CommitsInventory runId token s action) : ∃ now, Owns s.runs runId token now := by
  unfold CommitsInventory at h
  split at h
  · obtain ⟨task, raw, proxies, -, rfl, rfl, hsome⟩ := h
    obtain ⟨⟨runs, db⟩, htransaction⟩ := Option.isSome_iff_exists.mp hsome
    exact ⟨_, (renewSyncLease_some (subscriptionTransaction_some htransaction).1).1⟩
  · obtain ⟨task, -, rfl, rfl, hsome⟩ := h
    obtain ⟨⟨runs, db⟩, htransaction⟩ := Option.isSome_iff_exists.mp hsome
    obtain ⟨runs₁, hrenew, -, -⟩ := finalTransaction_some htransaction
    exact ⟨_, (renewSyncLease_some hrenew).1⟩
  · exact h.elim

/-- In every interleaving of the sync workers at most one run is running. The inventory changes only
by a transaction that commits while it holds the lease of a run that never was over before, and a
success is a last transaction that held the lease until its end. -/
theorem one_sync_writer {db : Db} {h : List (SyncAction × SyncState)} {s : SyncState}
    (run : SyncRuns { db } h s) :
    (s.runs.filter fun r => decide (r.status = .running)).length ≤ 1 ∧
    (∀ (action : SyncAction) (runId : Nat) (token : String), CommitsInventory runId token s action →
      (∃ now, Owns s.runs runId token now) ∧
      ∀ s₁, History.Visited { db } h s₁ → ∀ r ∈ s₁.runs, r.id = runId → ¬ r.Finished) ∧
    (∀ (action : SyncAction) (s' : SyncState), s.next action = some s' → s'.db ≠ s.db →
      ∃ runId token, CommitsInventory runId token s action) ∧
    (∀ r ∈ s.runs, r.status = .success →
      ∃ token, History.Sometime (Succeeds r.id token) { db } h) ∧
    ∀ worker runId token, s.workers worker = .ended runId token .success →
      History.Sometime (Succeeds runId token) { db } h := by
  have hx : Exclusive s.runs := run.exclusive
  refine ⟨?_, fun action runId token hcommit => ?_, fun action s' hstep hdb => ?_, run.success⟩
  · have hkeyed : Table.Keyed SyncRun.id (s.runs.filter fun r => decide (r.status = .running)) :=
      hx.ids.filter _
    refine hkeyed.length_le_one fun r hr r' hr' => ?_
    obtain ⟨hmem, hrun⟩ := List.mem_filter.mp hr
    obtain ⟨hmem', hrun'⟩ := List.mem_filter.mp hr'
    exact hx.one r hmem r' hmem' (of_decide_eq_true hrun) (of_decide_eq_true hrun')
  · obtain ⟨now, howns⟩ := hcommit.owns
    refine ⟨⟨now, howns⟩, fun s₁ hs₁ r hr hid hf => ?_⟩
    obtain ⟨r', hr', hid', hstatus⟩ := run.finished s₁ hs₁ r hr hf
    obtain ⟨r₀, hr₀, hid₀, hrunning, -⟩ := howns
    obtain rfl := hx.ids.eq hr' hr₀ (hid'.trans (hid.trans hid₀.symm))
    exact hf.2 (hstatus.symm.trans hrunning)
  · exact (next_effect hx.ids hstep).db.resolve_left hdb

namespace Scenario

def listedProxy (id host : String) : RawProxy := { id := some (.text id), host, port := some 8000 }

/-- A worker is slow to list the proxies of a subscription, and another one takes over and syncs
them. -/
def leaseTakenOver : List SyncAction :=
  [.enqueue 0 false, .claim 0 0 60 false "first", .listed 0 (.ok [{ id := some (.number 1) }]),
    .renew 0 (seconds 1), .readCancel 0, .setTotal 0, .renew 0 (seconds 2), .readCancel 0,
    .claim 1 (seconds 70) 60 true "second", .listed 1 (.ok [{ id := some (.number 1) }]),
    .renew 1 (seconds 71), .readCancel 1, .setTotal 1, .renew 1 (seconds 72), .readCancel 1,
    .listedProxies 0 (.ok [listedProxy "old" "192.0.2.1"]),
    .listedProxies 1 (.ok [listedProxy "new" "192.0.2.2"]),
    .writeSubscription 1 .worker (seconds 73) (seconds 74),
    .writeSubscription 0 .worker (seconds 74) (seconds 75), .count 1, .renew 1 (seconds 76),
    .readCancel 1, .finish 1 (seconds 77) (seconds 78)]

def syncHistory : List (SyncAction × SyncState) :=
  History.replay (fun s a => (s.next a).getD s) {} leaseTakenOver

def takenOver : SyncState := History.current {} syncHistory

end Scenario

open EarnProxy.Swap.Scenario in
theorem one_sync_writer_leaseTakenOver :
    (takenOver.runs.filter fun r => decide (r.status = .running)).length ≤ 1 ∧
      History.Sometime (Succeeds 2 "second") {} syncHistory ∧
      takenOver.workers 0 = .ended 1 "first" .leaseLost ∧
      takenOver.db.assignments.map Assignment.externalId = ["new"] := by
  have run : SyncRuns { db := {} } syncHistory takenOver :=
    History.run_replay_accepted (by decide +kernel)
  obtain ⟨halone, -, -, -, hsuccess⟩ := one_sync_writer run
  exact ⟨halone, hsuccess 1 2 "second" (by decide +kernel), by decide +kernel, by decide +kernel⟩

end EarnProxy.Swap
