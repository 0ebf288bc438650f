import EarnProxy.Swap.Moves

/-!
# Who touches a job in its mutation

A row in its mutation changes by the two calls that bring an outcome and by no other. A row gets a
claim token by a claim, and then keeps it or loses it.
-/

namespace EarnProxy.Swap

/-- The job that the call brings an outcome of the provider for. -/
def Call.outcome? : Call → Option Nat
  | .providerApplied jobId _ _ _ _ | .reconciliationRequired jobId _ _ => some jobId
  | _ => none

/-- The job that the call names a replacement for. -/
def Call.applied? : Call → Option Nat
  | .providerApplied jobId _ _ _ _ => some jobId
  | _ => none

/-- The token of a claim. -/
def Call.drawn? : Call → Option String
  | .claim _ _ token => some token
  | _ => none

/-- What the call leaves of a row. -/
structure Job.Spared (call : Call) (j j' : Job) : Prop where
  id : j'.id = j.id
  mutating : j.state = .mutating → j' = j ∨ call.outcome? = some j.id
  applied : j'.state = .providerApplied →
    j.state = .providerApplied ∨ call.applied? = some j.id
  token : j'.claimToken = none ∨ j'.claimToken = j.claimToken ∨ j'.claimToken = call.drawn?

/-- A row that is queued. -/
def Job.New (j : Job) : Prop := j.state = .pending ∧ j.claimToken = none

theorem Job.Spared.refl (call : Call) (j : Job) : j.Spared call j :=
  ⟨rfl, fun _ => .inl rfl, .inl, .inr (.inl rfl)⟩

theorem Job.Spared.trans {call : Call} {j j' j'' : Job} (h : j.Spared call j')
    (h' : j'.Spared call j'') : j.Spared call j'' where
  id := h'.id.trans h.id
  mutating := by
    intro hstate
    rcases h.mutating hstate with rfl | hcall
    · exact h'.mutating hstate
    · exact .inr hcall
  applied := by
    intro hstate
    rcases h'.applied hstate with hstate | hcall
    · exact h.applied hstate
    · exact .inr (h.id ▸ hcall)
  token := by
    have := h.token
    have := h'.token
    grind

/-- The jobs after the call. -/
abbrev Sparing (call : Call) (jobs jobs' : List Job) : Prop :=
  Table.Grows (Job.Spared call) Job.New jobs jobs'

section Updates

variable {call : Call} {jobs : List Job} {fresh p : Job → Prop} [DecidablePred p] {f : Job → Job}

/-- A statement that leaves out the rows in their mutation, and takes no row to an outcome. -/
theorem spared_of_update
    (h : ∀ r ∈ jobs, p r → r.state ≠ .mutating ∧ (f r).state ≠ .providerApplied ∧ (f r).id = r.id ∧
      ((f r).claimToken = none ∨ (f r).claimToken = r.claimToken ∨
        (f r).claimToken = call.drawn?)) :
    Table.Grows (Job.Spared call) fresh jobs (Table.update p f jobs) := by
  refine Table.Grows.of_update_mem (Job.Spared.refl call) fun r hr hp => ?_
  obtain ⟨hstate, hstate', hid, htoken⟩ := h r hr hp
  exact ⟨hid, fun hmutating => absurd hmutating hstate, fun hmoved => absurd hmoved hstate', htoken⟩

/-- A statement on the row that the call brings an outcome for. -/
theorem spared_of_outcome (jobId : Nat) (hcall : call.outcome? = some jobId)
    (h : ∀ r, p r → r.id = jobId ∧ (f r).id = r.id ∧ (f r).claimToken = r.claimToken ∧
      ((f r).state = .providerApplied → call.applied? = some jobId)) :
    Table.Grows (Job.Spared call) fresh jobs (Table.update p f jobs) := by
  refine Table.Grows.of_update (Job.Spared.refl call) (fun r hp => ?_) jobs
  obtain ⟨rfl, hid, htoken, happlied⟩ := h r hp
  exact ⟨hid, fun _ => .inr hcall, fun hstate => .inr (happlied hstate), .inr (.inl htoken)⟩

end Updates

/-! ## Every call -/

section Calls

variable {call : Call} {db db' : Db} {now : Timestamp}

theorem queueDecision_news (db : Db) (i : Nat) (decision : SwapDecision) (now : Timestamp) :
    ∃ news, (queueDecision db i decision now).jobs = db.jobs ++ news ∧ ∀ j ∈ news, j.New := by
  unfold queueDecision
  dsimp only
  split
  · split
    · rename_i db' hwrite
      obtain ⟨rfl, _⟩ := writeJobs_ok hwrite
      exact ⟨_, rfl, by simp [Job.New, queuedJob]⟩
    · exact ⟨[], by simp [Db.updateSubscription], by simp⟩
  · exact ⟨[], by simp [Db.updateSubscription], by simp⟩

theorem queueRows_news {threshold : Int} {rows : List (Nat × Nat)}
    (h : queueRows db now threshold rows = .ok db') :
    ∃ news, db'.jobs = db.jobs ++ news ∧ ∀ j ∈ news, j.New := by
  induction rows generalizing db with
  | nil =>
    obtain rfl := Except.ok.inj h
    exact ⟨[], by simp, by simp⟩
  | cons row rows ih =>
    obtain ⟨next, hrow, hrest⟩ := Transaction.ok_of_bind h
    obtain ⟨decision, -, hnext⟩ := Transaction.ok_of_bind hrow
    obtain rfl := Except.ok.inj hnext
    obtain ⟨news, hjobs, hnews⟩ := queueDecision_news db row.2 decision now
    obtain ⟨news', hjobs', hnews'⟩ := ih hrest
    refine ⟨news ++ news', ?_, ?_⟩
    · rw [hjobs', hjobs, List.append_assoc]
    · simpa [or_imp, forall_and] using ⟨hnews, hnews'⟩

theorem claimNextSwap_sparing {claimSeconds : Int} {jobId : Option Nat} {token : String}
    {out : Db × Option Job} (h : claimNextSwap db now claimSeconds jobId token = .ok out) :
    Sparing (.claim claimSeconds jobId token) db.jobs out.1.jobs := by
  obtain ⟨db₁, hrecover, h⟩ := Transaction.ok_of_bind h
  obtain ⟨rfl, _⟩ := updateJobs_ok hrecover
  have hrecovered (fresh : Job → Prop) :
      Table.Grows (Job.Spared (.claim claimSeconds jobId token)) fresh db.jobs
        (Table.update (fun j => j.LeaseOver now) (fun j => j.released now) db.jobs) := by
    refine spared_of_update fun r _ hlapsed => ?_
    have := hlapsed.1
    simp_all [Job.released]
  split at h
  · exact Except.ok.inj h ▸ hrecovered _
  · obtain ⟨db₂, hclaim, h⟩ := Transaction.ok_of_bind h
    obtain ⟨rfl, _⟩ := updateJobs_ok hclaim
    obtain rfl := Except.ok.inj h
    -- no row is added, so the two statements compose row by row
    refine Table.Grows.mono ?_ (fun _ _ h => h) fun _ => False.elim
    refine (hrecovered fun _ => False).trans (fun _ _ _ => Job.Spared.trans) (fun _ _ h _ => h) ?_
    refine spared_of_update fun r _ hp => ?_
    simp [hp.2.1, Call.drawn?]

theorem enterMutation_sparing {job : Job} {claimToken : Option String}
    (h : enterMutation db job claimToken now = .ok db') : Sparing call db.jobs db'.jobs := by
  unfold enterMutation at h
  obtain ⟨_, h⟩ := Transaction.ok_of_check h
  dsimp only at h
  split at h
  · cases h
  · obtain ⟨db₁, hupdate, h⟩ := Transaction.ok_of_bind h
    obtain ⟨_, rfl, _⟩ := updateJobsOr_ok hupdate
    obtain rfl := Except.ok.inj h
    refine spared_of_update fun r _ hp => ?_
    simp [hp.2.1, Job.mutatingOn]

theorem refuseSwap_sparing {job : Job} {decision : SwapDecision} {allowManual : Bool}
    {out : Db × SwapDecision} (h : refuseSwap db job decision allowManual now = .ok out) :
    Sparing call db.jobs out.1.jobs := by
  unfold refuseSwap at h
  dsimp only at h
  generalize (if decision.allowed then GuardReason.manualActionRequired else decision.reason) =
    reason at h
  split at h <;>
  · obtain ⟨db₁, hupdate, h⟩ := Transaction.ok_of_bind h
    obtain ⟨rfl, _⟩ := updateJobs_ok hupdate
    obtain rfl := Except.ok.inj h
    refine spared_of_update fun r _ hp => ?_
    simp [hp.2]

theorem revalidateSwapJob_sparing {jobId : Nat} {allowManual enter : Bool}
    {claimToken : Option String} {out : Db × SwapDecision}
    (h : revalidateSwapJob db jobId now allowManual claimToken enter = .ok out) :
    Sparing call db.jobs out.1.jobs := by
  unfold revalidateSwapJob at h
  split at h
  · cases h
  · split at h
    · cases h
    · obtain ⟨decision, -, h⟩ := Transaction.ok_of_bind h
      split at h
      · obtain ⟨db₁, henter, h⟩ := Transaction.ok_of_bind h
        obtain rfl := Except.ok.inj h
        cases enter with
        | true => exact enterMutation_sparing henter
        | false => exact Except.ok.inj henter ▸ .refl (Job.Spared.refl call) _
      · exact refuseSwap_sparing h

theorem markProviderApplied_sparing {jobId : Nat} {oldExternal : String}
    {newExternal newAddress claimToken : Option String}
    (h : markProviderApplied db jobId oldExternal newExternal newAddress claimToken now = .ok db') :
    Sparing (.providerApplied jobId oldExternal newExternal newAddress claimToken)
      db.jobs db'.jobs := by
  obtain ⟨job, _, _, endpoint, i, db₁, _, hempties, h⟩ := markProviderApplied_ok h
  have hjobs : db₁.jobs = db.jobs := by cases hempties <;> rfl
  obtain ⟨rfl, _⟩ := updateJobs_ok h
  refine hjobs ▸ spared_of_outcome jobId rfl fun r hp => ?_
  simp [hp.1, Job.providerApplied, Call.applied?]

theorem markReconciliationRequired_sparing {jobId : Nat} {errorCode : String}
    {claimToken : Option String}
    (h : markReconciliationRequired db jobId errorCode claimToken now = .ok db') :
    Sparing (.reconciliationRequired jobId errorCode claimToken) db.jobs db'.jobs := by
  unfold markReconciliationRequired at h
  replace h := (Transaction.ok_of_check h).2
  dsimp only at h
  split at h
  · cases h
  · replace h := (Transaction.ok_of_check h).2
    replace h := (Transaction.ok_of_check h).2
    obtain ⟨db₁, hupdate, h⟩ := Transaction.ok_of_bind h
    obtain ⟨rfl, _⟩ := updateJobs_ok hupdate
    obtain rfl := Except.ok.inj h
    refine spared_of_outcome jobId rfl fun r hp => ?_
    simp [hp.1]

theorem pausing_jobs (db : Db) (p : Prop) [Decidable p] :
    (if p then db.pauseAutoSwap else db).jobs = db.jobs := by
  split <;> rfl

theorem markSwapBlocked_sparing {jobId : Nat} {errorCode : String} {claimToken : Option String}
    (h : markSwapBlocked db jobId errorCode claimToken now = .ok db') :
    Sparing call db.jobs db'.jobs := by
  unfold markSwapBlocked at h
  replace h := (Transaction.ok_of_check h).2
  obtain ⟨db₁, hupdate, h⟩ := Transaction.ok_of_bind h
  obtain ⟨_, rfl, _⟩ := updateJobsOr_ok hupdate
  obtain rfl := Except.ok.inj h
  rw [pausing_jobs]
  refine spared_of_update fun r _ hp => ?_
  rcases hp.2 with hstate | hstate <;> simp [hstate]

theorem markSwapFailed_sparing (hids : Table.Keyed Job.id db.jobs) {jobId : Nat}
    {errorCode : String} {retryable : Bool} {retryLimit : Option Int} {claimToken : Option String}
    {out : Db × JobState}
    (h : markSwapFailed db jobId errorCode retryable retryLimit claimToken now = .ok out) :
    Sparing call db.jobs out.1.jobs := by
  unfold markSwapFailed at h
  dsimp only at h
  split at h
  · cases h
  · rename_i job hjob
    obtain ⟨hmem, rfl⟩ := job?_mem hjob
    obtain ⟨hstate, h⟩ := Transaction.ok_of_check h
    replace h := (Transaction.ok_of_check h).2
    obtain ⟨db₁, hupdate, h⟩ := Transaction.ok_of_bind h
    obtain ⟨rfl, _⟩ := updateJobs_ok hupdate
    obtain rfl := Except.ok.inj h
    dsimp only
    rw [pausing_jobs]
    refine spared_of_update fun r hr hp => ?_
    obtain rfl := hids.eq hr hmem hp
    dsimp only
    rcases not_not.mp hstate with hstate | hstate <;> split <;> simp [hstate]

theorem restart_sparing {job : Job} (hids : Table.Keyed Job.id db.jobs) (hjob : job ∈ db.jobs)
    {reason : JobReason} (hstate : job.state ∈ [JobState.pending, .failed, .blocked, .canceled])
    (h : db.updateJobs (fun j => j.id = job.id) (fun j => j.restarted reason now) = .ok db') :
    Sparing call db.jobs db'.jobs := by
  obtain ⟨rfl, _⟩ := updateJobs_ok h
  refine spared_of_update fun r hr hp => ?_
  obtain rfl := hids.eq hr hjob hp
  simp only [List.mem_cons, List.not_mem_nil, or_false] at hstate
  refine ⟨fun hmutating => ?_, by simp [Job.restarted]⟩
  simp [hmutating] at hstate

theorem retrySwap_sparing (hids : Table.Keyed Job.id db.jobs) {jobId : Nat}
    (h : retrySwap db jobId now = .ok db') : Sparing call db.jobs db'.jobs := by
  unfold retrySwap at h
  split at h
  · cases h
  · rename_i job hjob
    obtain ⟨hmem, rfl⟩ := job?_mem hjob
    obtain ⟨hstate, h⟩ := Transaction.ok_of_check h
    exact restart_sparing hids hmem (List.mem_cons_of_mem _ (not_not.mp hstate)) h

theorem requestManualSwap_sparing (hids : Table.Keyed Job.id db.jobs) {jobId : Nat}
    (h : requestManualSwap db jobId now = .ok db') : Sparing call db.jobs db'.jobs := by
  unfold requestManualSwap at h
  replace h := (Transaction.ok_of_check h).2
  dsimp only at h
  split at h
  · cases h
  · rename_i job hjob
    obtain ⟨hmem, rfl⟩ := job?_mem hjob
    obtain ⟨hstate, h⟩ := Transaction.ok_of_check h
    obtain ⟨_, _, h⟩ := Transaction.ok_of_bind h
    exact restart_sparing hids hmem (not_not.mp hstate) (Transaction.ok_of_check h).2

theorem closeUnchanged_sparing {jobId subscriptionId : Nat} {closed : Option Db}
    (h : closeUnchanged db jobId subscriptionId now = .ok closed) :
    Sparing call db.jobs (closed.getD db).jobs := by
  unfold closeUnchanged at h
  split at h
  · obtain ⟨db₁, hupdate, h⟩ := Transaction.ok_of_bind h
    obtain ⟨rfl, _⟩ := updateJobs_ok hupdate
    obtain rfl := Except.ok.inj h
    refine spared_of_update fun r _ hp => ?_
    simp [hp.2]
  · obtain rfl := Except.ok.inj h
    exact .refl (Job.Spared.refl call) _

theorem recordReplacement_sparing {jobId : Nat} {newExternal : String} {recorded : Option Db}
    (h : recordReplacement db jobId newExternal now = .ok recorded) :
    Sparing call db.jobs (recorded.getD db).jobs := by
  unfold recordReplacement at h
  dsimp only at h
  split at h
  · obtain ⟨db₁, hupdate, rfl⟩ := Transaction.ok_of_map h
    obtain ⟨rfl, _⟩ := updateJobs_ok hupdate
    refine spared_of_update fun r _ hp => ?_
    simp [hp.2.1]
  · obtain rfl := Except.ok.inj h
    exact .refl (Job.Spared.refl call) _

theorem markSwapSuccess_sparing (hids : Table.Keyed Job.id db.jobs) {jobId : Nat}
    {oldExternal : String} {newExternal : Option String} {newAddress : Option (Option Endpoint)}
    {claimToken : Option String} {profile : Profile}
    (h : markSwapSuccess db jobId oldExternal newExternal newAddress claimToken now profile =
      .ok db') : Sparing call db.jobs db'.jobs := by
  obtain ⟨job, hmem, _, old, new, _, _, hreplaces, h⟩ := markSwapSuccess_ok h
  obtain ⟨_, _, _, rfl⟩ := closeSuccess_ok h
  refine spared_of_update fun r hr hp => ?_
  obtain rfl := hids.eq hr hmem hp
  rcases hreplaces.state with hstate | hstate <;> simp [hstate, Job.succeeded]

end Calls

/-- A row in its mutation is left alone by every call but those two, and only a claim gives a row a
new token. -/
theorem transact_sparing {db db' : Db} {e : Event} (h : db.Constrained)
    (hok : db.transact e = .ok db') : Sparing e.call db.jobs db'.jobs := by
  have hsame {jobs : List Job} (hjobs : jobs = db.jobs) : Sparing e.call db.jobs jobs :=
    hjobs ▸ Table.Grows.refl (Job.Spared.refl e.call) _
  have hids := h.jobIds
  unfold Db.transact at hok
  cases hcall : e.call with
  | bootstrap =>
    rw [hcall] at hok hsame
    obtain rfl := Except.ok.inj hok
    refine hsame ?_
    unfold ensureProxiwareSwapSchema
    split
    · exact migrateJobs_eq h.jobsUnique e.now
    · rfl
  | queue threshold rows =>
    rw [hcall] at hok
    obtain ⟨news, hjobs, hnews⟩ := queueRows_news hok
    exact hjobs ▸ .of_append (Job.Spared.refl _) db.jobs hnews
  | claim claimSeconds jobId token =>
    rw [hcall] at hok
    obtain ⟨out, hout, rfl⟩ := Transaction.ok_of_map hok
    exact claimNextSwap_sparing hout
  | revalidate jobId allowManual claimToken enter =>
    rw [hcall] at hok
    obtain ⟨out, hout, rfl⟩ := Transaction.ok_of_map hok
    exact revalidateSwapJob_sparing hout
  | providerApplied =>
    rw [hcall] at hok
    exact markProviderApplied_sparing hok
  | reconciliationRequired =>
    rw [hcall] at hok
    exact markReconciliationRequired_sparing hok
  | succeed =>
    rw [hcall] at hok
    exact markSwapSuccess_sparing hids hok
  | block =>
    rw [hcall] at hok
    exact markSwapBlocked_sparing hok
  | fail jobId errorCode retryable retryLimit claimToken =>
    rw [hcall] at hok
    obtain ⟨out, hout, rfl⟩ := Transaction.ok_of_map hok
    exact markSwapFailed_sparing hids hout
  | cancel jobId =>
    rw [hcall] at hok
    obtain ⟨_, rfl, _⟩ := updateJobsOr_ok hok
    refine spared_of_update fun r _ hp => ?_
    rcases hp.2 with hstate | hstate <;> simp [hstate]
  | retry jobId =>
    rw [hcall] at hok
    exact retrySwap_sparing hids hok
  | requestManual jobId =>
    rw [hcall] at hok
    exact requestManualSwap_sparing hids hok
  | closeUnchanged row old =>
    rw [hcall] at hok
    obtain ⟨closed, hclosed, rfl⟩ := Transaction.ok_of_map hok
    exact closeUnchanged_sparing hclosed
  | recordReplacement row newExternal =>
    rw [hcall] at hok
    obtain ⟨recorded, hrecorded, rfl⟩ := Transaction.ok_of_map hok
    exact recordReplacement_sparing hrecorded
  | syncSubscription payload =>
    rw [hcall] at hok hsame
    exact Except.ok.inj hok ▸ hsame (syncSubscription_jobs db e.profile e.now payload).1
  | observe snapshot maxAgeSeconds =>
    rw [hcall] at hok hsame
    exact hsame (applyDashboardObservation_inventory hok).2.1
  | snapshot subscriptionId snapshots maxAgeSeconds =>
    rw [hcall] at hok hsame
    refine Except.ok.inj hok ▸ hsame ?_
    exact (applyDashboardSnapshot_inventory db subscriptionId snapshots e.now maxAgeSeconds).2.1
  | syncMissing | qualify | configure | readSwaps | proveUnchanged | inferReplacement =>
    rw [hcall] at hok hsame
    exact Except.ok.inj hok ▸ hsame rfl

end EarnProxy.Swap
