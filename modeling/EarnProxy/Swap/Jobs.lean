import Mathlib.Data.List.Sort
import EarnProxy.Swap.Address
import EarnProxy.Swap.Guards

/-!
# Swap jobs

The operations of `app/services/proxiware_swap.py` that move a job, one transaction each. A worker
proves its claim with the token that it got; the administrator needs none.
-/

namespace EarnProxy.Swap

/-! ## The schema -/

/-- A job that loses against another one in the migration. -/
def Job.conflicted (j : Job) (wall : Timestamp) : Job :=
  { j with
    state := .blocked, reason := .migrationConflict, errorCode := "manual_action_required"
    blockedAt := some wall, claimToken := none, claimedUntil := none, updatedAt := wall }

/-- `priority`. -/
def JobState.priority : JobState → Nat
  | .pending => 1
  | .running => 2
  | .mutating => 3
  | .providerApplied => 4
  | .reconciliationRequired => 5
  | _ => 0

/-- One round of a loop that keeps the strongest job for each key. `kept` lists the job that is kept
for each key so far. -/
def keepStrongest (wall : Timestamp) (acc : List Job × List (Nat × Nat)) (visit : Nat × Job) :
    List Job × List (Nat × Nat) :=
  let (jobs, kept) := acc
  let (key, row) := visit
  let block (i : Nat) := Table.update (fun j : Job => j.id = i) (fun j => j.conflicted wall) jobs
  match kept.lookup key with
  | none => (jobs, (key, row.id) :: kept)
  | some current =>
    match Table.lookup Job.id current jobs with
    | some j =>
      if j.state.priority < row.state.priority then (block current, (key, row.id) :: kept)
      else (block row.id, kept)
    | none => (block row.id, kept)

/-- The rows that the migration visits, with their keys, in the order of the keys. -/
def conflictRows (states : JobState → Prop) [DecidablePred states] (key : Job → Option Nat)
    (jobs : List Job) : List (Nat × Job) :=
  let rows := (jobs.filter fun j => states j.state).filterMap fun j => (key j).map fun k => (k, j)
  rows.insertionSort fun r s => toLex (r.1, r.2.id) ≤ toLex (s.1, s.2.id)

/-- Both passes of the migration over `swap_jobs`. -/
def migrateJobs (jobs : List Job) (wall : Timestamp) : List Job :=
  let byAssignment := (conflictRows JobState.Active Job.oldAssignmentId jobs).foldl
    (keepStrongest wall) (jobs, [])
  ((conflictRows JobState.Mutation (fun j => some j.subscriptionId) byAssignment.1).foldl
    (keepStrongest wall) (byAssignment.1, [])).1

/-- A replacement that an older release left behind as pending. -/
def Assignment.AwaitsRepair (db : Db) (a : Assignment) : Prop :=
  a.status = "pending" ∧ a.qualification = "pending" ∧ a.liveStatus = "pending" ∧
    a.replacementReadyAt.isSome ∧
    ∃ j ∈ db.jobs, j.state = .success ∧ j.newAssignmentId = some a.id

instance (db : Db) (a : Assignment) : Decidable (a.AwaitsRepair db) :=
  inferInstanceAs (Decidable (_ ∧ _))

def Assignment.repaired (a : Assignment) (wall : Timestamp) : Assignment :=
  { a with
    status := "active"
    qualificationNextCheckAt :=
      some (a.qualificationNextCheckAt.getD (a.replacementReadyAt.getD a.updatedAt))
    updatedAt := wall }

/-- `ensure_proxiware_swap_schema` on tables that have all columns and both indexes. The rows of
`settings` that it seeds, its version among them, are left out. -/
def ensureProxiwareSwapSchema (db : Db) (wall : Timestamp) : Db :=
  if ∃ a ∈ db.assignments, a.AwaitsRepair db then
    let db := { db with jobs := migrateJobs db.jobs wall }
    db.updateAssignments (fun a => a.AwaitsRepair db) fun a => a.repaired wall
  else db

/-! ## Queueing and claiming -/

/-- `queue_eligible_swaps` is switched on. -/
def Settings.AutoSwaps (s : Settings) : Prop :=
  s.autoSwap ∧ ¬ s.automationPaused ∧ ¬ s.swapWorkerPaused

instance (s : Settings) : Decidable s.AutoSwaps := inferInstanceAs (Decidable (_ ∧ _))

/-- The threshold in force; a call may bring its own. -/
def effectiveThreshold (db : Db) (threshold : Option Int) : Int :=
  max 1 (match threshold with
    | some t => if t = 0 then db.settings.eligibleThreshold.read 1000 else t
    | none => db.settings.eligibleThreshold.read 1000)

/-- The `WHERE` clause of the query in `queue_eligible_swaps`. -/
def Assignment.Eligible (db : Db) (current : Timestamp) (threshold : Int) (a : Assignment)
    (s : Subscription) : Prop :=
  a.subscriptionId = s.id ∧ a.InUse ∧ a.missingAt = none ∧
    (s.status = "active" ∨ s.status = "ready") ∧ s.missingAt = none ∧
    a.qualification = "risk" ∧ (a.liveStatus = "live" ∨ a.liveStatus = "online") ∧
    a.providerEligible ∧ ¬ a.duplicateEgress ∧
    (∃ i ∈ a.dashboardAssignmentId, Text.trimBlanks i ≠ "") ∧
    a.dashboardEligible = some true ∧ (∃ c ∈ a.dashboardConnections, 0 ≤ c ∧ c < 1000) ∧
    (∃ observedAt ∈ a.dashboardObservedAt,
      freshAt (max 60 (db.settings.dashboardMaxAgeSeconds.read 900)) current observedAt) ∧
    (∀ ready ∈ a.replacementReadyAt, ready ≤ current) ∧ (∀ n ∈ s.eligibleCount, n < threshold) ∧
    (s.swapQuota < 0 ∨ s.swapUsed < s.swapQuota) ∧
    ∀ j ∈ db.jobs, j.oldAssignmentId = some a.id → ¬ j.state.Active

instance (db : Db) (current : Timestamp) (threshold : Int) (a : Assignment) (s : Subscription) :
    Decidable (a.Eligible db current threshold s) :=
  inferInstanceAs (Decidable (_ ∧ _))

/-- The rows that `queue_eligible_swaps` reads: assignments with their subscriptions. -/
def eligibleRows (db : Db) (current : Timestamp) (limit threshold : Int) : List (Nat × Nat) :=
  let rows := db.assignments.flatMap fun a =>
    (db.subscriptions.filter fun s => a.Eligible db current threshold s).map fun s => (a, s)
  let order (r : Assignment × Subscription) : Timestamp ×ₗ Timestamp ×ₗ Nat :=
    toLex (r.2.updatedAt, toLex (r.1.updatedAt, r.1.id))
  ((rows.insertionSort fun r s => order r ≤ order s).take (max 0 limit).toNat).map fun r =>
    (r.1.id, r.1.subscriptionId)

/-- The row that `queue_eligible_swaps` inserts. -/
def queuedJob (db : Db) (subscriptionId : Nat) (assignmentId : Option Nat) (current : Timestamp) :
    Job :=
  { id := Table.nextKey Job.id db.jobs, subscriptionId, oldAssignmentId := assignmentId
    createdAt := current, updatedAt := current }

/-- What `queue_eligible_swaps` does with a decision. A row that an index refuses is left out. -/
def queueDecision (db : Db) (subscriptionId : Nat) (decision : SwapDecision) (current : Timestamp) :
    Db :=
  let db := db.updateSubscription decision.subscriptionId fun s => { s with updatedAt := current }
  if decision.allowed then
    match db.writeJobs (db.jobs ++ [queuedJob db subscriptionId decision.assignmentId current]) with
    | .ok db => db
    | .error _ => db
  else db

/-- One round of the loop in `queue_eligible_swaps`. -/
def queueRow (current : Timestamp) (threshold : Int) (db : Db) (row : Nat × Nat) : Tx Db := do
  let decision ← SwapDecision.forSubscription db row.2 current threshold (some row.1) none
  pure (queueDecision db row.2 decision current)

/-- The transaction of `queue_eligible_swaps`, on the rows that it read before. -/
def queueRows (db : Db) (current : Timestamp) (threshold : Int) (rows : List (Nat × Nat)) : Tx Db :=
  rows.foldlM (queueRow current threshold) db

/-- `queue_eligible_swaps`. -/
def queueEligibleSwaps (db : Db) (current : Timestamp) (limit : Int) (threshold : Option Int) :
    Tx Db :=
  if db.settings.AutoSwaps then
    let threshold := effectiveThreshold db threshold
    queueRows db current threshold (eligibleRows db current limit threshold)
  else pure db

/-- The lease of a running job is over. -/
def Job.LeaseOver (current : Timestamp) (j : Job) : Prop :=
  j.state = .running ∧ ∃ until_ ∈ j.claimedUntil, until_ ≤ current

instance (current : Timestamp) (j : Job) : Decidable (j.LeaseOver current) :=
  inferInstanceAs (Decidable (_ ∧ _))

/-- The row after its lease is over. -/
def Job.released (j : Job) (current : Timestamp) : Job :=
  { j with state := .pending, claimToken := none, claimedUntil := none, updatedAt := current }

/-- Another job of the subscription stands in the way of a claim. -/
def Db.SiblingInFlight (db : Db) (j : Job) : Prop :=
  ∃ other ∈ db.jobs, other.subscriptionId = j.subscriptionId ∧ other.id ≠ j.id ∧
    other.state.InFlight

instance (db : Db) (j : Job) : Decidable (db.SiblingInFlight j) :=
  inferInstanceAs (Decidable (∃ other ∈ db.jobs, _))

/-- The `WHERE` clause of the queries in `claim_next_swap`. -/
def Job.Claimable (db : Db) (current : Timestamp) (jobId : Option Nat) (j : Job) : Prop :=
  (∀ i ∈ jobId, j.id = i) ∧ j.state = .pending ∧ (∀ until_ ∈ j.claimedUntil, until_ ≤ current) ∧
    ¬ db.SiblingInFlight j

instance (db : Db) (current : Timestamp) (jobId : Option Nat) (j : Job) :
    Decidable (j.Claimable db current jobId) :=
  inferInstanceAs (Decidable (_ ∧ _))

/-- `claim_next_swap`: the new database and the claimed row. -/
def claimNextSwap (db : Db) (current : Timestamp) (claimSeconds : Int) (jobId : Option Nat)
    (token : String) : Tx (Db × Option Job) := do
  let db ← db.updateJobs (fun j => j.LeaseOver current) fun j => j.released current
  match (db.jobs.filter fun j => j.Claimable db current jobId).argmin
      fun j => toLex (j.createdAt, j.id) with
  | none => pure (db, none)
  | some row =>
    let db ← db.updateJobs (fun j => j.id = row.id ∧ j.state = .pending ∧
        ∀ until_ ∈ j.claimedUntil, until_ ≤ current) fun j =>
      { j with
        state := .running, claimToken := some token
        claimedUntil := some (current + seconds (max 30 claimSeconds))
        attempts := j.attempts + 1, updatedAt := current }
    pure (db, db.job? row.id)

/-! ## The mutation fence -/

/-- Manual runs bypass the global toggles but not the pause of the worker. -/
def Settings.RefusesRun (s : Settings) (allowManual : Bool) : Prop :=
  (s.automationPaused ∧ ¬ allowManual) ∨ s.swapWorkerPaused ∨ (¬ allowManual ∧ ¬ s.autoSwap)

instance (s : Settings) (allowManual : Bool) : Decidable (s.RefusesRun allowManual) :=
  inferInstanceAs (Decidable (_ ∨ _))

/-- The decision of `revalidate_swap_job` on the row that it read. -/
def revalidation (db : Db) (job : Job) (current : Timestamp) (allowManual : Bool) :
    Tx SwapDecision :=
  if db.settings.RefusesRun allowManual then
    pure { allowed := false, reason := .manualActionRequired, subscriptionId := job.subscriptionId }
  else if db.SiblingInFlight job then
    pure
      { allowed := false, reason := .subscriptionMutationInProgress
        subscriptionId := job.subscriptionId, assignmentId := job.oldAssignmentId }
  else
    SwapDecision.forSubscription db job.subscriptionId current
      (max 1 (db.settings.eligibleThreshold.read 1000)) job.oldAssignmentId (some job.id)

/-- What `revalidate_swap_job` raises for the row that it read. -/
def revalidationError? (job : Job) (current : Timestamp) (claimToken : Option String)
    (enterMutation : Bool) : Option SwapError :=
  if ∃ token ∈ claimToken, job.claimToken.getD "" ≠ token then
    some (.valueError "Swap job claim is stale")
  else if job.state ≠ .running then some (.valueError "Swap job is not running")
  else if enterMutation then
    if ¬ present claimToken then some (.valueError "Swap mutation requires a claim token")
    else if ∃ until_ ∈ job.claimedUntil, current < until_ then none
    else some (.valueError "Swap job claim is stale")
  else none

/-- The dashboard evidence of an assignment is no longer valid. -/
def Assignment.unobserved (a : Assignment) (current : Timestamp) : Assignment :=
  { a with
    dashboardAssignmentId := none, dashboardEligible := none, dashboardConnections := none
    dashboardObservedAt := none, dashboardSource := "", distributionEnabled := false
    updatedAt := current }

/-- The row that enters the mutation of the assignment `a`. -/
def Job.mutatingOn (j : Job) (a : Assignment) (s : Subscription) (current : Timestamp) : Job :=
  { j with
    state := .mutating, mutationStartedAt := some current, claimedUntil := none
    reason := .providerMutation, mutationOldAssignmentExternalId := some a.externalId
    mutationOldAssignmentAddress :=
      some (Text.strip a.host ++ ":" ++ String.ofList (Nat.toDigits 10 a.port))
    mutationDashboardAssignmentId := a.dashboardAssignmentId
    mutationSubscriptionExternalId := some s.externalId, updatedAt := current }

/-- The part of `revalidate_swap_job` that acquires the fence. -/
def enterMutation (db : Db) (job : Job) (claimToken : Option String) (current : Timestamp) :
    Tx Db := do
  let token := Text.strip ((job.claimToken.filter (· ≠ "")).getD (claimToken.getD ""))
  if token = "" then throw (.valueError "Swap mutation requires a claim token")
  let identity := do
    let a ← (← job.oldAssignmentId.map db.assignment?)
    let s ← db.subscription? job.subscriptionId
    if a.subscriptionId = s.id ∧ Text.strip a.externalId ≠ "" ∧ present a.dashboardAssignmentId ∧
        Text.strip s.externalId ≠ "" then some (a, s) else none
  match identity with
  | none => throw (.valueError "Swap mutation identity is missing")
  | some (a, s) =>
    let db ← db.updateJobsOr
      (fun j => j.id = job.id ∧ j.state = .running ∧ j.claimToken = some token)
      (fun j => j.mutatingOn a s current) (.valueError "Swap job claim is stale")
    pure (db.updateAssignments (fun b => b.id = a.id ∧ b.subscriptionId = job.subscriptionId)
      fun b => b.unobserved current)

/-- The part of `revalidate_swap_job` that gives the job up. -/
def refuseSwap (db : Db) (job : Job) (decision : SwapDecision) (allowManual : Bool)
    (current : Timestamp) : Tx (Db × SwapDecision) := do
  let reason := if decision.allowed then .manualActionRequired else decision.reason
  let refused : SwapDecision :=
    { allowed := false, reason, subscriptionId := job.subscriptionId
      assignmentId := decision.assignmentId }
  if reason = .dashboardStale ∧ ¬ allowManual then
    let db ← db.updateJobs (fun j => j.id = job.id ∧ j.state = .running) fun j =>
      { j with
        state := .pending, reason := .awaitingDashboard, errorCode := reason.code
        blockedAt := none, claimToken := none, claimedUntil := some (current + seconds 30)
        updatedAt := current }
    pure (db.updateSubscription job.subscriptionId fun s => { s with updatedAt := current },
      refused)
  else
    let db ← db.updateJobs (fun j => j.id = job.id ∧ j.state = .running) fun j =>
      { j with
        state := .blocked, reason := .guardFailed, errorCode := safeGuardCode reason.code
        blockedAt := some current, claimToken := none, claimedUntil := none, updatedAt := current }
    pure (db, refused)

/-- `revalidate_swap_job`. -/
def revalidateSwapJob (db : Db) (jobId : Nat) (current : Timestamp) (allowManual : Bool)
    (claimToken : Option String) (enter : Bool) : Tx (Db × SwapDecision) :=
  match db.job? jobId with
  | none => throw (.lookupError "Swap job not found")
  | some job =>
    match revalidationError? job current claimToken enter with
    | some e => throw e
    | none => do
      let decision ← revalidation db job current allowManual
      if decision.allowed ∧ decision.assignmentId = job.oldAssignmentId then
        let db ← (if enter then enterMutation db job claimToken current else pure db)
        pure (db, decision)
      else refuseSwap db job decision allowManual current

/-- `_require_claim`. -/
def Job.ClaimedBy (job : Job) (claimToken : Option String) : Prop :=
  present claimToken ∧ present job.claimToken ∧ job.claimToken = claimToken

instance (job : Job) (claimToken : Option String) : Decidable (job.ClaimedBy claimToken) :=
  inferInstanceAs (Decidable (_ ∧ _))

/-- The row that `mark_provider_applied` leaves of a replacement that is already known. -/
def Assignment.superseded (a : Assignment) (current : Timestamp) : Assignment :=
  { a.unobserved current with
    host := "", port := 0, username := ⟨some "", a.username.worker⟩
    password := ⟨some "", a.password.worker⟩, status := "pending", qualification := "pending"
    providerEligible := false, liveStatus := "pending", exitIp := none, egressVerifiedAt := none
    lastCheckedAt := none, duplicateEgress := false, replacementReadyAt := none }

/-- `mark_provider_applied`. -/
def markProviderApplied (db : Db) (jobId : Nat) (oldAssignmentExternalId : String)
    (newAssignmentExternalId newAssignmentAddress : Option String) (claimToken : Option String)
    (current : Timestamp) : Tx Db := do
  let oldExternal := Text.strip oldAssignmentExternalId
  let newExternal := Text.strip (newAssignmentExternalId.getD "")
  let address := Text.strip (newAssignmentAddress.getD "")
  if oldExternal = "" ∨ (newExternal = "" ∧ address = "") ∨ oldExternal = newExternal then
    throw (.valueError "Swap assignment mapping is invalid")
  let endpoint ← (if address = "" then pure none else some <$> validatedAddress address)
  if ¬ present claimToken then throw (.valueError "Swap mutation requires a claim token")
  match db.job? jobId with
  | none => throw (.lookupError "Swap job not found")
  | some job =>
    if job.state ≠ .mutating then throw (.valueError "Swap job is not mutating")
    if ¬ job.ClaimedBy claimToken then throw (.valueError "Swap job claim is stale")
    let frozenOld := Text.strip (job.mutationOldAssignmentExternalId.getD "")
    if frozenOld ≠ "" ∧ frozenOld ≠ oldExternal then
      throw (.valueError "Swap old assignment does not match mutation fence")
    match (db.resolveAssignment oldExternal).filter
        fun a => a.subscriptionId = job.subscriptionId with
    | none => throw (.valueError "Swap old assignment subscription mismatch")
    | some old =>
      if ∃ i ∈ job.oldAssignmentId, old.id ≠ i then
        throw (.valueError "Swap old assignment does not match job")
      let db := db.updateAssignment old.id fun a => a.unobserved current
      let replacement := if newExternal = "" then none else db.resolveAssignment newExternal
      if ∃ r ∈ replacement, r.subscriptionId ≠ job.subscriptionId then
        throw (.valueError "Swap new assignment subscription mismatch")
      let db := match replacement with
        | some r => db.updateAssignment r.id fun a => a.superseded current
        | none => db
      db.updateJobs (fun j => j.id = jobId ∧ j.state = .mutating) fun j =>
        { j with
          state := .providerApplied, reason := .providerApplied, errorCode := ""
          providerAppliedAt := some current, mutationOldAssignmentExternalId := some oldExternal
          mutationNewAssignmentExternalId := if newExternal = "" then none else some newExternal
          mutationNewAssignmentAddress := endpoint, claimedUntil := none, updatedAt := current }

/-- `mark_reconciliation_required`. -/
def markReconciliationRequired (db : Db) (jobId : Nat) (errorCode : String)
    (claimToken : Option String) (current : Timestamp) : Tx Db := do
  if ¬ present claimToken then throw (.valueError "Swap reconciliation requires a claim token")
  match db.job? jobId with
  | none => throw (.lookupError "Swap job not found")
  | some job =>
    if ¬ job.state.Mutation then throw (.valueError "Swap job is not in a mutation state")
    if ¬ job.ClaimedBy claimToken then throw (.valueError "Swap job claim is stale")
    let db ← db.updateJobs (fun j => j.id = jobId ∧ j.state.Mutation) fun j =>
      { j with
        state := .reconciliationRequired, reason := .reconciliationRequired
        errorCode := safeCode errorCode "provider_timeout"
        reconciliationRequiredAt := some current, claimedUntil := none, updatedAt := current }
    pure db.pauseAutoSwap

/-! ## Giving up and starting again -/

/-- The reason of a job that is blocked with the code. -/
def blockReason (code : String) : JobReason :=
  if code ∈ manualActionCodes then .manualActionRequired else .providerBlocked

/-- `mark_swap_blocked`. -/
def markSwapBlocked (db : Db) (jobId : Nat) (errorCode : String) (claimToken : Option String)
    (current : Timestamp) : Tx Db := do
  let code := safeCode errorCode "provider_error"
  if ∃ token ∈ claimToken, ¬ ∃ j ∈ db.job? jobId, j.state.PreMutation ∧
      j.claimToken.getD "" = token then
    throw (.valueError "Swap job claim is stale")
  let db ← db.updateJobsOr (fun j => j.id = jobId ∧ j.state.PreMutation) (fun j =>
    { j with
      state := .blocked, reason := blockReason code, errorCode := code
      blockedAt := some current, claimToken := none, claimedUntil := none, updatedAt := current })
    (.lookupError "Swap job not found or already terminal")
  pure (if code ∈ manualActionCodes then db.pauseAutoSwap else db)

/-- `max(1, int(retry_limit or configured_limit))`. -/
def retryMaximum (db : Db) (retryLimit : Option Int) : Int :=
  max 1 (if retryLimit.getD 0 = 0 then db.settings.retryLimit.read 3 else retryLimit.getD 0)

/-- `mark_swap_failed`. -/
def markSwapFailed (db : Db) (jobId : Nat) (errorCode : String) (retryable : Bool)
    (retryLimit : Option Int) (claimToken : Option String) (current : Timestamp) :
    Tx (Db × JobState) := do
  let code := safeCode errorCode "provider_error"
  match db.job? jobId with
  | none => throw (.lookupError "Swap job not found")
  | some job =>
    if ¬ job.state.PreMutation then throw (.valueError "Swap job is not active")
    if ∃ token ∈ claimToken, job.claimToken.getD "" ≠ token then
      throw (.valueError "Swap job claim is stale")
    let terminal := ¬ retryable ∨ retryMaximum db retryLimit ≤ job.attempts
    let state := if terminal then JobState.blocked else .pending
    let db ← db.updateJobs (fun j => j.id = jobId) fun j =>
      { j with
        state, reason := if terminal then blockReason code else .retryScheduled, errorCode := code
        blockedAt := if terminal then some current else none
        claimToken := none, claimedUntil := none, updatedAt := current }
    pure (if terminal ∧ code ∈ manualActionCodes then db.pauseAutoSwap else db, state)

/-- `cancel_swap`. -/
def cancelSwap (db : Db) (jobId : Nat) (current : Timestamp) : Tx Db :=
  db.updateJobsOr (fun j => j.id = jobId ∧ j.state.PreMutation) (fun j =>
    { j with
      state := .canceled, reason := .canceled, claimToken := none, claimedUntil := none
      updatedAt := current })
    (.lookupError "Swap job not found or already terminal")

/-- The row that the administrator puts back. -/
def Job.restarted (j : Job) (reason : JobReason) (current : Timestamp) : Job :=
  { j with
    state := .pending, reason, errorCode := "", blockedAt := none, claimToken := none
    claimedUntil := none, updatedAt := current }

/-- `retry_swap`. -/
def retrySwap (db : Db) (jobId : Nat) (current : Timestamp) : Tx Db :=
  match db.job? jobId with
  | none => throw (.lookupError "Swap job not found")
  | some job => do
    if job.state ∉ [.failed, .blocked, .canceled] then
      throw (.valueError "Swap job is not retryable")
    db.updateJobs (fun j => j.id = jobId) fun j => j.restarted .manualRetry current

/-- `request_manual_swap`. -/
def requestManualSwap (db : Db) (jobId : Nat) (current : Timestamp) : Tx Db := do
  if db.settings.swapWorkerPaused then throw (.valueError "Swap worker is paused")
  match db.job? jobId with
  | none => throw (.lookupError "Swap job not found")
  | some job =>
    if job.state ∉ [.pending, .failed, .blocked, .canceled] then
      throw (.valueError "Swap job is not available for manual execution")
    let decision ← SwapDecision.forSubscription db job.subscriptionId current
      (max 1 (db.settings.eligibleThreshold.read 1000)) job.oldAssignmentId (some jobId)
    if ¬ decision.allowed ∨ decision.assignmentId ≠ job.oldAssignmentId then
      throw (.valueError ("Swap guards no longer pass: " ++ decision.reason.code))
    db.updateJobs (fun j => j.id = jobId) fun j => j.restarted .manualRequested current

end EarnProxy.Swap
