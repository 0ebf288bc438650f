import EarnProxy.Swap.Jobs

/-!
# Reconciliation

A swap succeeds, or is found not to have happened, only on evidence that was gathered after its
mutation. `mark_swap_success` checks its evidence inside the transaction that it closes the job in;
`_reconcile_no_provider_change` and `_record_inferred_replacement` read theirs before they write,
for a row that was read earlier still. Reading and writing are definitions of their own here.
-/

namespace EarnProxy.Swap

/-- `job["provider_applied_at"] or job["mutation_started_at"]`. -/
def Job.mutationTime (j : Job) : Option Timestamp := j.providerAppliedAt.or j.mutationStartedAt

/-- `str(job["mutation_old_assignment_external_id"] or "").strip()`. -/
def Job.frozenOld (j : Job) : String := Text.strip (j.mutationOldAssignmentExternalId.getD "")

def Job.frozenDashboardId (j : Job) : String := Text.strip (j.mutationDashboardAssignmentId.getD "")

def Job.expectedExternal (j : Job) : String :=
  Text.strip (j.mutationNewAssignmentExternalId.getD "")

/-- `max(60, max_age)`, with the default for a setting that is no number. -/
def dashboardMaxAge (db : Db) : Int := max 60 (db.settings.dashboardMaxAgeSeconds.read 900)

/-! ## `mark_swap_success` -/

/-- The host and port of the row are those of the endpoint. -/
def Assignment.At (a : Assignment) (endpoint : Endpoint) : Prop :=
  normalized a.host = endpoint.host ∧ ∀ port ∈ endpoint.port, a.port = port

instance (a : Assignment) (endpoint : Endpoint) : Decidable (a.At endpoint) :=
  inferInstanceAs (Decidable (_ ∧ _))

/-- The rows that `_resolve_replacement_by_address` accepts. -/
def replacementsAt (db : Db) (job : Job) (endpoint : Endpoint) (mutationTime : Timestamp) :
    List Assignment :=
  db.assignments.filter fun a =>
    a.subscriptionId = job.subscriptionId ∧ (db.subscription? job.subscriptionId).isSome ∧
      Text.asciiLower a.host = endpoint.host ∧ a.missingAt = none ∧ a.status ≠ "replaced" ∧
      (∀ port ∈ endpoint.port, a.port = port) ∧ (∀ i ∈ job.oldAssignmentId, a.id ≠ i) ∧
      ∃ seen ∈ a.lastSeenAt, mutationTime < seen

/-- `_resolve_replacement_by_address`. -/
def resolveReplacementByAddress (db : Db) (job : Job) (endpoint : Endpoint)
    (mutationTime : Timestamp) : Tx Assignment :=
  match replacementsAt db job endpoint mutationTime with
  | [a] => pure a
  | [] => throw (.reconciliationPending "Replacement address reconciliation is missing")
  | _ => throw (.reconciliationPending "Replacement address reconciliation is ambiguous")

/-- The replacement, with the external id that the mapping will name. -/
def resolveReplacement (db : Db) (job : Job) (mutationTime : Timestamp) :
    Tx (Assignment × String) :=
  if job.expectedExternal ≠ "" then
    match db.resolveAssignment job.expectedExternal with
    | none => throw
        (.reconciliationPending "Replacement assignment is not present in official sync")
    | some new =>
      if ∀ endpoint ∈ job.mutationNewAssignmentAddress, new.At endpoint then
        pure (new, job.expectedExternal)
      else throw (.reconciliationPending "Replacement address does not match official sync")
  else
    match job.mutationNewAssignmentAddress with
    | some endpoint => do
      let new ← resolveReplacementByAddress db job endpoint mutationTime
      pure (new, Text.strip new.externalId)
    | none => throw (.reconciliationPending "Provider replacement address is missing")

/-- The checks on the arguments of `mark_swap_success`, up to the old assignment. An address that
the caller brings is given as `_validated_address` reads it. -/
def checkMapping (db : Db) (job : Job) (oldExternal newExternal : String)
    (newAddress : Option (Option Endpoint)) : Tx Assignment := do
  if job.frozenOld ≠ oldExternal then
    throw (.valueError "Swap old assignment does not match provider evidence")
  if newExternal ≠ "" ∧ job.expectedExternal ≠ "" ∧ job.expectedExternal ≠ newExternal then
    throw (.valueError "Swap new assignment does not match provider evidence")
  if newExternal ≠ "" ∧ newExternal = oldExternal then
    throw (.valueError "Swap assignment mapping is invalid")
  if ∃ supplied ∈ newAddress, job.mutationNewAssignmentAddress.isSome ∧ supplied = none then
    throw (.valueError "Swap replacement address is invalid")
  if ∃ supplied ∈ newAddress, ∃ endpoint ∈ job.mutationNewAssignmentAddress,
      supplied ≠ some endpoint then
    throw (.valueError "Swap replacement address does not match provider evidence")
  if job.expectedExternal = "" ∧ job.mutationNewAssignmentAddress = none then
    throw (.reconciliationPending "Provider replacement address is missing")
  match db.resolveAssignment oldExternal with
  | none => throw (.lookupError "Old assignment not found")
  | some old =>
    if old.subscriptionId ≠ job.subscriptionId then
      throw (.valueError "Swap old assignment subscription mismatch")
    if ∃ i ∈ job.oldAssignmentId, old.id ≠ i then
      throw (.valueError "Swap old assignment does not match job")
    pure old

/-- The evidence that the replacement must bring. -/
def checkEvidence (db : Db) (job : Job) (new : Assignment) (oldExternal newExternal : String)
    (mutationTime current : Timestamp) (profile : Profile) : Tx Unit := do
  if newExternal = "" ∨ newExternal = oldExternal then
    throw (.valueError "Swap assignment mapping is invalid")
  if new.subscriptionId ≠ job.subscriptionId then
    throw (.valueError "Swap new assignment subscription mismatch")
  match new.lastSeenAt, new.dashboardObservedAt with
  | some syncedAt, some observedAt =>
    if syncedAt ≤ mutationTime then
      throw (.reconciliationPending "Replacement official sync evidence is stale")
    if observedAt ≤ mutationTime then
      throw (.reconciliationPending "Replacement dashboard evidence is stale")
    if new.dashboardSource ≠ "provider_dashboard" then
      throw (.valueError "Replacement dashboard evidence is untrusted")
    if ¬ present new.dashboardAssignmentId then
      throw (.valueError "Replacement dashboard identity is missing")
    if ¬ freshAt (dashboardMaxAge db) current observedAt then
      throw (.reconciliationPending "Replacement dashboard evidence is stale")
    if Text.strip new.host = "" ∨ new.port = 0 then
      throw (.reconciliationPending "Replacement credential evidence is missing")
    if ¬ present (new.username.decrypt profile) ∨ ¬ present (new.password.decrypt profile) then
      throw (.reconciliationPending "Replacement credential evidence is invalid")
  | _, _ => throw (.reconciliationPending "Replacement reconciliation evidence is missing")

/-- The row that a swap leaves of the replacement. -/
def Assignment.replacing (a : Assignment) (readyAt current : Timestamp) : Assignment :=
  { a with
    replacementReadyAt := some readyAt, status := "active", qualification := "pending"
    liveStatus := "pending", qualificationNextCheckAt := some readyAt
    qualificationClaimedUntil := none, qualificationClaimToken := none
    qualificationAttempts := 0, distributionEnabled := false, egressVerifiedAt := none
    lastCheckedAt := none, updatedAt := current }

/-- The statements of `mark_swap_success`. -/
def closeSuccess (db : Db) (job : Job) (old new : Assignment) (oldExternal newExternal : String)
    (mutationTime current : Timestamp) : Tx Db := do
  let cooldown := max 60 (db.settings.cooldownSeconds.read 60)
  let readyAt := max current mutationTime + seconds cooldown
  let db := db.updateAssignment new.id fun a => a.replacing readyAt current
  if ∃ m ∈ db.mappings, m.swapJobId = job.id then throw .integrityError
  let mapping : Mapping :=
    { swapJobId := job.id, oldAssignmentExternalId := oldExternal
      newAssignmentExternalId := newExternal, successAt := current }
  let db := { db with
    mappings := db.mappings ++ [mapping]
    assignments := db.assignments.filter fun a => a.id ≠ old.id }
  let db ← db.updateJobs (fun j => j.id = job.id) fun j =>
    { j with
      state := .success, reason := .swapped, errorCode := "", oldAssignmentId := some old.id
      newAssignmentId := some new.id, claimToken := none, claimedUntil := none
      updatedAt := current }
  pure (db.updateSubscription job.subscriptionId fun s =>
    { s with swapUsed := s.swapUsed + 1, updatedAt := current })

/-- `mark_swap_success`. -/
def markSwapSuccess (db : Db) (jobId : Nat) (oldAssignmentExternalId : String)
    (newAssignmentExternalId : Option String) (newAssignmentAddress : Option (Option Endpoint))
    (claimToken : Option String) (current : Timestamp) (profile : Profile) : Tx Db := do
  let oldExternal := Text.strip oldAssignmentExternalId
  if oldExternal = "" then throw (.valueError "Swap assignment mapping is invalid")
  match db.job? jobId with
  | none => throw (.lookupError "Swap job not found")
  | some job =>
    if job.state ∉ [.providerApplied, .reconciliationRequired] then
      throw (.valueError "Swap job is not awaiting reconciliation")
    if ¬ job.ClaimedBy claimToken then throw (.valueError "Swap job claim is stale")
    let old ← checkMapping db job oldExternal (Text.strip (newAssignmentExternalId.getD ""))
      newAssignmentAddress
    match job.mutationTime with
    | none => throw (.reconciliationPending "Replacement mutation timestamp is missing")
    | some mutationTime =>
      let (new, newExternal) ← resolveReplacement db job mutationTime
      checkEvidence db job new oldExternal newExternal mutationTime current profile
      closeSuccess db job old new oldExternal newExternal mutationTime current

/-! ## Evidence for uncertain mutations -/

/-- The row was synced and observed after the mutation, and not too long ago. -/
def Assignment.Confirms (db : Db) (a : Assignment) (mutationAt now : Timestamp) : Prop :=
  ∃ syncedAt ∈ a.lastSeenAt, ∃ observedAt ∈ a.dashboardObservedAt,
    mutationAt < syncedAt ∧ mutationAt < observedAt ∧ a.dashboardSource = "provider_dashboard" ∧
      freshAt (dashboardMaxAge db) now observedAt ∧ freshAt (dashboardMaxAge db) now syncedAt

instance (db : Db) (a : Assignment) (mutationAt now : Timestamp) :
    Decidable (a.Confirms db mutationAt now) :=
  inferInstanceAs (Decidable (∃ syncedAt ∈ a.lastSeenAt, _))

/-- The rows of the subscription that are in use. -/
def usedAssignments (db : Db) (subscriptionId : Nat) : List Assignment :=
  db.assignments.filter fun a =>
    a.subscriptionId = subscriptionId ∧ a.missingAt = none ∧ a.InUse

/-- `_fresh_dashboard_snapshot_covers_subscription`. -/
def Covers (db : Db) (job : Job) (mutationAt now : Timestamp) : Prop :=
  usedAssignments db job.subscriptionId ≠ [] ∧
    ∀ a ∈ usedAssignments db job.subscriptionId, a.Confirms db mutationAt now

instance (db : Db) (job : Job) (mutationAt now : Timestamp) :
    Decidable (Covers db job mutationAt now) :=
  inferInstanceAs (Decidable (_ ∧ _))

/-- The old assignment is still what it was when the mutation began. -/
def Assignment.Unchanged (a : Assignment) (job : Job) : Prop :=
  a.missingAt = none ∧ Text.lower a.status ≠ "replaced" ∧
    (∃ endpoint ∈ dashboardAddressEndpoint (Text.strip (job.mutationOldAssignmentAddress.getD "")),
      normalized a.host = endpoint.host ∧ some a.port = endpoint.port) ∧
    Text.strip (a.dashboardAssignmentId.getD "") = job.frozenDashboardId ∧
    a.dashboardSource = "provider_dashboard"

instance (a : Assignment) (job : Job) : Decidable (a.Unchanged job) :=
  inferInstanceAs (Decidable (_ ∧ _))

/-- What `_reconcile_no_provider_change` reads for the row `job`: the old assignment, if all
evidence says that nothing was changed. -/
def unchangedEvidence (db : Db) (job : Job) (now : Timestamp) : Option Assignment :=
  match job.mutationTime with
  | none => none
  | some mutationAt =>
    if job.frozenOld = "" ∨ ¬ present job.mutationOldAssignmentAddress ∨
        job.frozenDashboardId = "" then none
    else if Covers db job mutationAt now then
      (db.resolveAssignment job.frozenOld).filter fun a => a.Unchanged job
    else none

/-- The transaction of `_reconcile_no_provider_change`; `none` when the row has moved on. -/
def closeUnchanged (db : Db) (jobId subscriptionId : Nat) (now : Timestamp) : Tx (Option Db) :=
  if ∃ j ∈ db.jobs, j.id = jobId ∧ j.state = .reconciliationRequired then do
    let db ← db.updateJobs (fun j => j.id = jobId ∧ j.state = .reconciliationRequired) fun j =>
      { j with
        state := .blocked, reason := .reconciledNoProviderChange, claimToken := none
        claimedUntil := none, blockedAt := some now, updatedAt := now }
    pure (some (db.updateSubscription subscriptionId fun s => { s with updatedAt := now }))
  else pure none

/-- `_reconcile_no_provider_change`. -/
def reconcileNoProviderChange (db : Db) (job : Job) (now : Timestamp) : Tx (Option Db) :=
  match unchangedEvidence db job now with
  | none => pure none
  | some _ => closeUnchanged db job.id job.subscriptionId now

/-- The rows that `_record_inferred_replacement` finds. -/
def inferredCandidates (db : Db) (job : Job) (mutationAt : Timestamp) : List Assignment :=
  (usedAssignments db job.subscriptionId).filter fun a =>
    a.externalId ≠ job.frozenOld ∧ a.dashboardAssignmentId = some job.frozenDashboardId ∧
      (∃ syncedAt ∈ a.lastSeenAt, mutationAt < syncedAt) ∧
      (∃ observedAt ∈ a.dashboardObservedAt, mutationAt < observedAt) ∧
      a.dashboardSource = "provider_dashboard"

/-- What `_record_inferred_replacement` reads: the external id of the only candidate. -/
def inferredReplacement (db : Db) (job : Job) (now : Timestamp) : Option String := do
  let mutationAt ← job.mutationTime
  if job.frozenOld = "" ∨ job.frozenDashboardId = "" then none
  if ∃ old ∈ db.resolveAssignment job.frozenOld, old.missingAt = none ∧
      Text.lower old.status ≠ "replaced" then none
  let subscription ← db.subscription? job.subscriptionId
  if subscription.lastSeenAt ≤ mutationAt ∨ ¬ Covers db job mutationAt now then none
  match inferredCandidates db job mutationAt with
  | [a] => some a.externalId
  | _ => none

/-- The transaction of `_record_inferred_replacement`; `none` when the row has moved on. -/
def recordReplacement (db : Db) (jobId : Nat) (newExternal : String) (now : Timestamp) :
    Tx (Option Db) :=
  let Open (j : Job) : Prop := j.id = jobId ∧ j.state = .reconciliationRequired ∧
    j.mutationNewAssignmentExternalId = none ∧ j.mutationNewAssignmentAddress = none
  if ∃ j ∈ db.jobs, Open j then
    some <$> db.updateJobs Open fun j =>
      { j with mutationNewAssignmentExternalId := some newExternal, updatedAt := now }
  else pure none

/-- `_record_inferred_replacement`. -/
def recordInferredReplacement (db : Db) (job : Job) (now : Timestamp) : Tx (Option Db) :=
  match inferredReplacement db job now with
  | none => pure none
  | some newExternal => recordReplacement db job.id newExternal now

/-! ## `reconcile_provider_applied_swaps` -/

/-- The rows that a sweep reads. -/
def awaitingJobs (db : Db) (limit : Int) : List Job :=
  let rows := db.jobs.filter fun j =>
    j.state = .providerApplied ∨ j.state = .reconciliationRequired
  (rows.insertionSort fun r s => toLex (r.updatedAt, r.id) ≤ toLex (s.updatedAt, s.id)).take
    (max 0 limit).toNat

/-- What becomes of one row of a sweep. An error that the loop does not catch ends the sweep. -/
inductive Outcome where
  | success | pending | reconciliationRequired | reconciledNoProviderChange
  | raised (e : SwapError)
  deriving DecidableEq, Repr

/-- A last look for evidence that nothing was changed. -/
def closeOrPending (db : Db) (row : Job) (current : Timestamp) : Db × Outcome :=
  match reconcileNoProviderChange db row current with
  | .ok (some db) => (db, .reconciledNoProviderChange)
  | .ok none => (db, .pending)
  | .error e => (db, .raised e)

/-- The `try` statement of the loop. -/
def finalizeRow (db : Db) (row : Job) (current : Timestamp) (profile : Profile) : Db × Outcome :=
  match db.job? row.id with
  | none => (db, .raised .typeError)
  | some fresh =>
    match markSwapSuccess db row.id (fresh.mutationOldAssignmentExternalId.getD "")
        fresh.mutationNewAssignmentExternalId (fresh.mutationNewAssignmentAddress.map some)
        fresh.claimToken current profile with
    | .ok db => (db, .success)
    | .error (.reconciliationPending _) =>
      if row.state = .reconciliationRequired then closeOrPending db row current else (db, .pending)
    | .error (.lookupError _) | .error (.valueError _) =>
      if row.state = .reconciliationRequired then closeOrPending db row current
      else
        match markReconciliationRequired db row.id "reconciliation_required" row.claimToken
          current with
        | .ok db => (db, .reconciliationRequired)
        | .error e => (db, .raised e)
    | .error e => (db, .raised e)

/-- The provider has named a replacement. -/
def Job.NamesReplacement (j : Job) : Prop :=
  j.expectedExternal ≠ "" ∨ j.mutationNewAssignmentAddress.isSome

instance (j : Job) : Decidable j.NamesReplacement := inferInstanceAs (Decidable (_ ∨ _))

/-- One round of the loop. -/
def reconcileRow (db : Db) (row : Job) (current : Timestamp) (profile : Profile) : Db × Outcome :=
  if row.state = .reconciliationRequired ∧ ¬ row.NamesReplacement then
    match reconcileNoProviderChange db row current with
    | .error e => (db, .raised e)
    | .ok (some db) => (db, .reconciledNoProviderChange)
    | .ok none =>
      match recordInferredReplacement db row current with
      | .error e => (db, .raised e)
      | .ok none => (db, .pending)
      | .ok (some db) => finalizeRow db row current profile
  else finalizeRow db row current profile

/-- The loop. -/
def reconcileRows (current : Timestamp) (profile : Profile) : Db → List Job → Db × List Outcome
  | db, [] => (db, [])
  | db, row :: rows =>
    match reconcileRow db row current profile with
    | (db, .raised e) => (db, [.raised e])
    | (db, outcome) =>
      let (db, outcomes) := reconcileRows current profile db rows
      (db, outcome :: outcomes)

/-- `reconcile_provider_applied_swaps`. The schema was ensured before; nothing that a sweep does
leaves a row to repair. -/
def reconcileProviderAppliedSwaps (db : Db) (current : Timestamp) (limit : Int)
    (profile : Profile) : Db × List Outcome :=
  reconcileRows current profile db (awaitingJobs db limit)

end EarnProxy.Swap
