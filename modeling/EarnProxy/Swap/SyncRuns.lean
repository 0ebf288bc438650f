import EarnProxy.Library.History
import EarnProxy.Swap.Inventory

/-!
# The sync runs of `app/services/proxiware.py`

One row of `provider_sync_runs` carries the lease of the inventory sync. Any number of workers run
`sync_proxiware_inventory` at once: a worker claims the lease, asks the provider for as long as that
takes, and renews and checks the lease around every transaction. Between two of its steps anything
may happen, and it may stop for good after each of them. A transaction reads the clock at its start
and again at its last check.
-/

namespace EarnProxy.Swap

inductive SyncStatus where
  | queued | running | success | failed | canceled
  deriving DecidableEq, Repr

structure SyncRun where
  id : Nat
  startedAt : Timestamp
  finishedAt : Option Timestamp := none
  status : SyncStatus
  errorCode : String := ""
  errorMessage : String := ""
  claimToken : Option String := none
  claimedUntil : Option Timestamp := none
  cancelRequested : Bool := false
  totalCount : Nat := 0
  processedCount : Nat := 0
  deriving DecidableEq, Repr

/-- The lease is held with the token, and has not expired. -/
def SyncRun.Owned (r : SyncRun) (token : String) (now : Timestamp) : Prop :=
  r.status = .running ∧ r.claimToken = some token ∧ ∃ t ∈ r.claimedUntil, now < t

instance (r : SyncRun) (token : String) (now : Timestamp) : Decidable (r.Owned token now) :=
  inferInstanceAs (Decidable (_ ∧ _ ∧ _))

/-- `_assert_sync_owner` finds the lease. -/
def Owns (runs : List SyncRun) (runId : Nat) (token : String) (now : Timestamp) : Prop :=
  ∃ r ∈ runs, r.id = runId ∧ r.Owned token now

instance (runs : List SyncRun) (runId : Nat) (token : String) (now : Timestamp) :
    Decidable (Owns runs runId token now) := inferInstanceAs (Decidable (∃ _ ∈ _, _))

/-- `UPDATE provider_sync_runs SET f WHERE id=? AND status='running' AND claim_token=?`. -/
def updateHeld (runs : List SyncRun) (runId : Nat) (token : String) (f : SyncRun → SyncRun) :
    List SyncRun :=
  Table.update (fun r => r.id = runId ∧ r.status = .running ∧ r.claimToken = some token) f runs

/-- `enqueue_sync_run`, with the id of the new run. -/
def enqueueSyncRun (runs : List SyncRun) (now : Timestamp) (allowDuringRunning : Bool) :
    List SyncRun × Option Nat :=
  let queued (r : SyncRun) : Prop := r.status = .queued
  let active := (runs.filter fun r => decide (r.status = .queued ∨ r.status = .running)).argmax
    SyncRun.id
  let id := Table.nextKey SyncRun.id runs
  let added := (runs ++ [{ id, startedAt := now, status := .queued }], some id)
  match active with
  | none => added
  | some r =>
    if ¬ (allowDuringRunning ∧ r.status = .running) then (runs, none)
    else if ∃ r ∈ runs, queued r then (runs, none)
    else added

/-- The lease has run out, or was never set. -/
def SyncRun.Abandoned (r : SyncRun) (now : Timestamp) : Prop :=
  r.status = .running ∧ ∀ t ∈ r.claimedUntil, t ≤ now

instance (r : SyncRun) (now : Timestamp) : Decidable (r.Abandoned now) :=
  inferInstanceAs (Decidable (_ ∧ _))

/-- The statement of `claim_sync_run` that gives up abandoned leases. -/
def expireLeases (runs : List SyncRun) (now : Timestamp) : List SyncRun :=
  Table.update (fun r => r.Abandoned now)
    (fun r => { r with
      status := .failed, finishedAt := some now, errorCode := "lease_expired"
      errorMessage := "Sync lease expired", claimToken := none, claimedUntil := none }) runs

/-- `claim_sync_run`: the table and the claimed run, or a rollback. -/
def claimSyncRun (runs : List SyncRun) (now : Timestamp) (leaseSeconds : Int)
    (createIfMissing : Bool) (token : String) : Option (List SyncRun × Nat) :=
  let runs := expireLeases runs now
  let claimedUntil := some (now + seconds (max 60 leaseSeconds))
  if ∃ r ∈ runs, r.status = .running ∧ ∃ t ∈ r.claimedUntil, now < t then none
  else
    match (runs.filter fun r => decide (r.status = .queued)).argmin SyncRun.id with
    | some queued =>
      some (Table.update (fun r => r.id = queued.id)
        (fun r => { r with status := .running, claimToken := some token, claimedUntil }) runs,
        queued.id)
    | none =>
      if createIfMissing then
        let id := Table.nextKey SyncRun.id runs
        some (runs ++ [{ id, startedAt := now, status := .running, claimToken := some token
                         claimedUntil }], id)
      else none

/-- `request_sync_cancel`. -/
def requestSyncCancel (runs : List SyncRun) (runId : Nat) (now : Timestamp) : List SyncRun :=
  Table.update (fun r => r.id = runId ∧ (r.status = .queued ∨ r.status = .running) ∧
      r.cancelRequested = false)
    (fun r => if r.status = .queued then
        { r with
          cancelRequested := true, status := .canceled, finishedAt := some now
          errorCode := "canceled" }
      else { r with cancelRequested := true }) runs

/-- `_renew_sync_lease`; `none` is its `SyncLeaseLost`. -/
def renewSyncLease (runs : List SyncRun) (runId : Nat) (token : String) (leaseSeconds : Int)
    (now : Timestamp) : Option (List SyncRun) :=
  if Owns runs runId token now then
    some (Table.update (fun r => r.id = runId ∧ r.Owned token now)
      (fun r => { r with claimedUntil := some (now + seconds (max 60 leaseSeconds)) }) runs)
  else none

/-- The `UPDATE` of `_raise_if_sync_cancelled`. -/
def cancelSync (runs : List SyncRun) (runId : Nat) (token : String) (now : Timestamp) :
    List SyncRun :=
  updateHeld runs runId token fun r =>
    { r with
      status := .canceled, finishedAt := some now, errorCode := "canceled", claimToken := none
      claimedUntil := none }

/-- The `UPDATE` that a failed sync ends with. -/
def failSync (runs : List SyncRun) (runId : Nat) (token code : String) (now : Timestamp) :
    List SyncRun :=
  updateHeld runs runId token fun r =>
    { r with
      status := .failed, finishedAt := some now, errorCode := code
      errorMessage := "Proxiware sync failed", claimToken := none, claimedUntil := none }

/-- The `UPDATE` that a sync succeeds with. -/
def succeedSync (runs : List SyncRun) (runId : Nat) (token : String) (total : Nat)
    (now : Timestamp) : List SyncRun :=
  updateHeld runs runId token fun r =>
    { r with
      status := .success, finishedAt := some now, claimToken := none, claimedUntil := none
      processedCount := total }

/-- What a worker holds while it syncs: its claim, the subscriptions still to write, and what it has
seen of the payload. -/
structure SyncTask where
  runId : Nat
  token : String
  leaseSeconds : Int
  rest : List RawSubscription := []
  total : Nat := 0
  seen : Seen := {}
  deriving DecidableEq, Repr

/-- The place to which `_raise_if_sync_cancelled` returns. -/
inductive SyncNext where
  | setTotal | subscription | finish
  deriving DecidableEq, Repr

/-- Where a worker stands in `sync_proxiware_inventory`. -/
inductive SyncStage where
  /-- Waits for the subscriptions. -/
  | listing
  | renewing (next : SyncNext)
  | readingCancel (next : SyncNext)
  | canceling (next : SyncNext)
  | settingTotal
  /-- Looks at the next subscription, or waits for its proxies. -/
  | subscription
  | writing (raw : RawSubscription) (proxies : List RawProxy)
  | counting
  | finishing
  /-- An exception was raised. -/
  | failing (code : String)
  deriving DecidableEq, Repr

inductive SyncOutcome where
  | success | canceled | leaseLost | failed
  deriving DecidableEq, Repr

inductive SyncWorker where
  | idle
  | busy (task : SyncTask) (stage : SyncStage)
  /-- What the call reported. -/
  | ended (runId : Nat) (token : String) (outcome : SyncOutcome)
  deriving DecidableEq, Repr

structure SyncState where
  runs : List SyncRun := []
  db : Db := {}
  workers : Nat → SyncWorker := fun _ => .idle

def SyncState.setWorker (s : SyncState) (worker : Nat) (at_ : SyncWorker) : SyncState :=
  { s with workers := Function.update s.workers worker at_ }

/-- A worker goes on. -/
def SyncNext.stage : SyncNext → SyncStage
  | .setTotal => .settingTotal
  | .subscription => .subscription
  | .finish => .finishing

def SyncTask.ended (task : SyncTask) (outcome : SyncOutcome) : SyncWorker :=
  .ended task.runId task.token outcome

/-- The round of the loop that comes next. -/
def SyncTask.round (task : SyncTask) : SyncWorker :=
  .busy task (.renewing (if task.rest = [] then .finish else .subscription))

inductive SyncAction where
  | enqueue (now : Timestamp) (allowDuringRunning : Bool)
  | requestCancel (runId : Nat) (now : Timestamp)
  | claim (worker : Nat) (now : Timestamp) (leaseSeconds : Int) (createIfMissing : Bool)
      (token : String)
  /-- `list_subscriptions` returns, or raises. -/
  | listed (worker : Nat) (answer : Except String (List RawSubscription))
  | renew (worker : Nat) (now : Timestamp)
  | readCancel (worker : Nat)
  | cancel (worker : Nat) (now : Timestamp)
  | setTotal (worker : Nat)
  /-- `list_subscription_proxies` returns, or raises. -/
  | listedProxies (worker : Nat) (answer : Except String (List RawProxy))
  /-- The transaction of one subscription. -/
  | writeSubscription (worker : Nat) (profile : Profile) (now later : Timestamp)
  | count (worker : Nat)
  /-- The last transaction. -/
  | finish (worker : Nat) (now later : Timestamp)
  /-- Any other exception. -/
  | raise (worker : Nat) (code : String)
  | fail (worker : Nat) (now : Timestamp)
  | crash (worker : Nat)

/-- The columns `total_count` and `processed_count` are written by id alone. -/
def countRun (runs : List SyncRun) (runId : Nat) (f : SyncRun → SyncRun) : List SyncRun :=
  Table.update (fun r => r.id = runId) f runs

/-- The transaction of one subscription, up to its commit; `none` rolls it back. -/
def subscriptionTransaction (s : SyncState) (task : SyncTask) (raw : RawSubscription)
    (proxies : List RawProxy) (profile : Profile) (now later : Timestamp) :
    Option (List SyncRun × Db) := do
  let runs ← renewSyncLease s.runs task.runId task.token task.leaseSeconds now
  let db := syncSubscription profile now s.db (raw, proxies)
  if Owns runs task.runId task.token later then some (runs, db) else none

/-- The last transaction, up to its commit; `none` rolls it back. -/
def finalTransaction (s : SyncState) (task : SyncTask) (now later : Timestamp) :
    Option (List SyncRun × Db) := do
  let runs ← renewSyncLease s.runs task.runId task.token task.leaseSeconds now
  let db := syncMissing s.db task.seen now
  if Owns runs task.runId task.token later then
    some (succeedSync runs task.runId task.token task.total later, db)
  else none

/-- The step of a worker that stands at `stage`. -/
def SyncState.work (s : SyncState) (worker : Nat) (task : SyncTask) (stage : SyncStage)
    (action : SyncAction) : Option SyncState :=
  match stage, action with
  | .listing, .listed _ (.ok subscriptions) =>
    some (s.setWorker worker
      (.busy { task with rest := subscriptions, total := subscriptions.length }
      (.renewing .setTotal)))
  | .listing, .listed _ (.error code) => some (s.setWorker worker (.busy task (.failing code)))
  | .renewing next, .renew _ now =>
    match renewSyncLease s.runs task.runId task.token task.leaseSeconds now with
    | none => some (s.setWorker worker (task.ended .leaseLost))
    | some runs => some ({ s with runs }.setWorker worker (.busy task (.readingCancel next)))
  | .readingCancel next, .readCancel _ =>
    match s.runs.find? fun r =>
        decide (r.id = task.runId ∧ r.status = .running ∧ r.claimToken = some task.token) with
    | none => some (s.setWorker worker (task.ended .leaseLost))
    | some r =>
      some (s.setWorker worker
        (.busy task (if r.cancelRequested then .canceling next else next.stage)))
  | .canceling next, .cancel _ now =>
    if ∃ r ∈ s.runs, r.id = task.runId ∧ r.status = .running ∧ r.claimToken = some task.token then
      some ({ s with runs := cancelSync s.runs task.runId task.token now }.setWorker worker
        (task.ended .canceled))
    -- the lease was lost meanwhile, which this statement does not notice
    else some (s.setWorker worker (.busy task next.stage))
  | .settingTotal, .setTotal _ =>
    some ({ s with runs := countRun s.runs task.runId fun r => { r with totalCount := task.total } }
      |>.setWorker worker task.round)
  | .subscription, .listedProxies _ answer =>
    match task.rest with
    | [] => none
    | raw :: rest =>
      let task := { task with rest }
      match raw.externalId?, answer with
      | none, _ => some (s.setWorker worker (.busy task .counting))
      | some _, .error code => some (s.setWorker worker (.busy task (.failing code)))
      | some _, .ok proxies => some (s.setWorker worker (.busy task (.writing raw proxies)))
  | .writing raw proxies, .writeSubscription _ profile now later =>
    match subscriptionTransaction s task raw proxies profile now later with
    | none => some (s.setWorker worker (task.ended .leaseLost))
    | some (runs, db) =>
      let seen := seenIn [(raw, proxies)]
      let task := { task with seen :=
        { subscriptions := task.seen.subscriptions ++ seen.subscriptions
          assignments := task.seen.assignments ++ seen.assignments } }
      some ({ s with runs, db }.setWorker worker (.busy task .counting))
  | .counting, .count _ =>
    some ({ s with runs := countRun s.runs task.runId fun r =>
        { r with processedCount := task.total - task.rest.length } }.setWorker worker task.round)
  | .finishing, .finish _ now later =>
    match finalTransaction s task now later with
    | none => some (s.setWorker worker (task.ended .leaseLost))
    | some (runs, db) => some ({ s with runs, db }.setWorker worker (task.ended .success))
  | .failing code, .fail _ now =>
    some ({ s with runs := failSync s.runs task.runId task.token code now }.setWorker worker
      (task.ended .failed))
  | _, .raise _ code => some (s.setWorker worker (.busy task (.failing code)))
  | _, _ => none

/-- The worker that takes the action. -/
def SyncAction.worker? : SyncAction → Option Nat
  | .listed worker _ | .renew worker _ | .readCancel worker | .cancel worker _ | .setTotal worker
  | .listedProxies worker _ | .writeSubscription worker .. | .count worker | .finish worker ..
  | .raise worker _ | .fail worker _ => some worker
  | _ => none

/-- One action. -/
def SyncState.next (s : SyncState) (action : SyncAction) : Option SyncState :=
  match action with
  | .enqueue now allowDuringRunning =>
    some { s with runs := (enqueueSyncRun s.runs now allowDuringRunning).1 }
  | .requestCancel runId now => some { s with runs := requestSyncCancel s.runs runId now }
  | .claim worker now leaseSeconds createIfMissing token =>
    match s.workers worker with
    | .busy .. => none
    | _ =>
      match claimSyncRun s.runs now leaseSeconds createIfMissing token with
      | none => some s
      | some (runs, runId) =>
        some ({ s with runs }.setWorker worker (.busy { runId, token, leaseSeconds } .listing))
  | .crash worker => some (s.setWorker worker .idle)
  | action =>
    action.worker?.bind fun worker =>
      match s.workers worker with
      | .busy task stage => s.work worker task stage action
      | _ => none

/-- The actions of `h`, newest first, lead from `s₀` to `s`. -/
def SyncRuns (s₀ : SyncState) (h : List (SyncAction × SyncState)) (s : SyncState) : Prop :=
  History.Run (fun s a s' => s.next a = some s') s₀ h s

end EarnProxy.Swap
