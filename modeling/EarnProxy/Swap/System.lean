import EarnProxy.Library.History
import EarnProxy.Swap.Dashboard
import EarnProxy.Swap.Inventory

/-!
# Runs of the swap services

Workers, sweeps, the administrator, the inventory sync, the dashboard observer and the qualification
runner share one database. An event is one transaction of one of them, or what a sweep reads between
two transactions; so any number of processes interleave, and a process that stops anywhere just
takes no further events.

Every service runs `ensure_proxiware_swap_schema` in a transaction of its own first, which is the
event `bootstrap`. What a process has read outside of a transaction is part of the state.
-/

namespace EarnProxy.Swap

structure State where
  db : Db
  /-- The rows that sweeps have read. -/
  rows : List Job := []
  /-- The rows for which a sweep has found the old assignment unchanged, with that assignment. -/
  unchanged : List (Job × Assignment) := []
  /-- The rows for which a sweep has inferred a replacement, with its external id. -/
  inferred : List (Job × String) := []
  deriving DecidableEq, Repr

inductive Call where
  | bootstrap
  /-- The transaction of `queue_eligible_swaps`, whatever rows the query before it has returned. -/
  | queue (threshold : Int) (rows : List (Nat × Nat))
  | claim (claimSeconds : Int) (jobId : Option Nat) (token : String)
  | revalidate (jobId : Nat) (allowManual : Bool) (claimToken : Option String)
      (enterMutation : Bool)
  | providerApplied (jobId : Nat) (oldExternal : String)
      (newExternal newAddress claimToken : Option String)
  | reconciliationRequired (jobId : Nat) (errorCode : String) (claimToken : Option String)
  | succeed (jobId : Nat) (oldExternal : String) (newExternal : Option String)
      (newAddress : Option (Option Endpoint)) (claimToken : Option String)
  | block (jobId : Nat) (errorCode : String) (claimToken : Option String)
  | fail (jobId : Nat) (errorCode : String) (retryable : Bool) (retryLimit : Option Int)
      (claimToken : Option String)
  | cancel (jobId : Nat)
  | retry (jobId : Nat)
  | requestManual (jobId : Nat)
  | readSwaps (limit : Int)
  | proveUnchanged (row : Job)
  | closeUnchanged (row : Job) (old : Assignment)
  | inferReplacement (row : Job)
  | recordReplacement (row : Job) (newExternal : String)
  | syncSubscription (payload : RawSubscription × List RawProxy)
  | syncMissing (seen : Seen)
  | observe (snapshot : DashboardAssignment) (maxAgeSeconds : Int)
  | snapshot (subscriptionId : String) (snapshots : List DashboardAssignment) (maxAgeSeconds : Int)
  /-- The qualification runner writes its columns. -/
  | qualify (row : Assignment)
  | configure (settings : Settings)
  deriving DecidableEq, Repr

structure Event where
  call : Call
  now : Timestamp
  profile : Profile := .web
  deriving DecidableEq, Repr

/-- The columns of the qualification runner. -/
def Assignment.qualified (a row : Assignment) : Assignment :=
  { a with
    protocol := row.protocol, qualification := row.qualification, liveStatus := row.liveStatus
    exitIp := row.exitIp, egressVerifiedAt := row.egressVerifiedAt
    lastCheckedAt := row.lastCheckedAt, duplicateEgress := row.duplicateEgress
    distributionEnabled := row.distributionEnabled
    qualificationNextCheckAt := row.qualificationNextCheckAt
    qualificationClaimedUntil := row.qualificationClaimedUntil
    qualificationClaimToken := row.qualificationClaimToken
    qualificationAttempts := row.qualificationAttempts, updatedAt := row.updatedAt }

/-- A transaction on its own: what it leaves when it is committed. -/
def Db.transact (db : Db) (e : Event) : Tx Db :=
  match e.call with
  | .bootstrap => pure (ensureProxiwareSwapSchema db e.now)
  | .queue threshold rows => queueRows db e.now threshold rows
  | .claim claimSeconds jobId token => Prod.fst <$> claimNextSwap db e.now claimSeconds jobId token
  | .revalidate jobId allowManual claimToken enterMutation =>
    Prod.fst <$> revalidateSwapJob db jobId e.now allowManual claimToken enterMutation
  | .providerApplied jobId oldExternal newExternal newAddress claimToken =>
    markProviderApplied db jobId oldExternal newExternal newAddress claimToken e.now
  | .reconciliationRequired jobId errorCode claimToken =>
    markReconciliationRequired db jobId errorCode claimToken e.now
  | .succeed jobId oldExternal newExternal newAddress claimToken =>
    markSwapSuccess db jobId oldExternal newExternal newAddress claimToken e.now e.profile
  | .block jobId errorCode claimToken => markSwapBlocked db jobId errorCode claimToken e.now
  | .fail jobId errorCode retryable retryLimit claimToken =>
    Prod.fst <$> markSwapFailed db jobId errorCode retryable retryLimit claimToken e.now
  | .cancel jobId => cancelSwap db jobId e.now
  | .retry jobId => retrySwap db jobId e.now
  | .requestManual jobId => requestManualSwap db jobId e.now
  | .closeUnchanged row _ =>
    (fun closed => closed.getD db) <$> closeUnchanged db row.id row.subscriptionId e.now
  | .recordReplacement row newExternal =>
    (fun recorded => recorded.getD db) <$> recordReplacement db row.id newExternal e.now
  | .syncSubscription payload => pure (syncSubscription e.profile e.now db payload)
  | .syncMissing seen => pure (syncMissing db seen e.now)
  | .observe snapshot maxAgeSeconds => applyDashboardObservation db snapshot e.now maxAgeSeconds
  | .snapshot subscriptionId snapshots maxAgeSeconds =>
    pure (applyDashboardSnapshot db subscriptionId snapshots e.now maxAgeSeconds).1
  | .qualify row => pure (db.updateAssignment row.id fun a => a.qualified row)
  | .configure settings => pure { db with settings }
  | .readSwaps _ | .proveUnchanged _ | .inferReplacement _ => pure db

/-- A service: the schema is ensured in a transaction of its own before the service works in one.
What is left in the database, and what is raised. -/
def Db.serve (db : Db) (wall : Timestamp) (service : Db → Tx Db) : Db × Option SwapError :=
  let db := ensureProxiwareSwapSchema db wall
  match service db with
  | .ok db => (db, none)
  | .error error => (db, some error)

/-- What a sweep reads. -/
def State.read (s : State) (e : Event) : State :=
  match e.call with
  | .readSwaps limit => { s with rows := s.rows ++ awaitingJobs s.db limit }
  | .proveUnchanged row =>
    { s with unchanged := s.unchanged ++ ((unchangedEvidence s.db row e.now).map (row, ·)).toList }
  | .inferReplacement row =>
    { s with inferred := s.inferred ++ ((inferredReplacement s.db row e.now).map (row, ·)).toList }
  | _ => s

/-- A sweep works on what it has read. -/
def State.Holds (s : State) : Call → Prop
  | .proveUnchanged row | .inferReplacement row => row ∈ s.rows
  | .closeUnchanged row old => (row, old) ∈ s.unchanged
  | .recordReplacement row newExternal => (row, newExternal) ∈ s.inferred
  | _ => True

instance (s : State) (call : Call) : Decidable (s.Holds call) := by
  rcases call with ⟨⟩ <;> unfold State.Holds <;> infer_instance

/-- One event. A transaction that raises leaves the database as it was. -/
def State.next (s : State) (e : Event) : Option State :=
  if s.Holds e.call then
    let read := s.read e
    match s.db.transact e with
    | .ok db => some { read with db }
    | .error _ => some read
  else none

def Step (s : State) (e : Event) (s' : State) : Prop := s.next e = some s'

instance (s : State) (e : Event) (s' : State) : Decidable (Step s e s') :=
  inferInstanceAs (Decidable (_ = _))

/-- The keys of the inventory tables. -/
structure Db.Keyed (db : Db) : Prop where
  subscriptionIds : Table.Keyed Subscription.id db.subscriptions
  subscriptionExternalIds : Table.Keyed Subscription.externalId db.subscriptions
  assignmentIds : Table.Keyed Assignment.id db.assignments
  assignmentExternalIds : Table.Keyed Assignment.externalId db.assignments
  assignmentSequence : ∀ a ∈ db.assignments, a.id ≤ db.assignmentSequence

/-- What the tables promise: keys, and both unique indexes. -/
structure Db.Constrained (db : Db) : Prop extends Db.Keyed db where
  jobIds : Table.Keyed Job.id db.jobs
  jobsUnique : JobsUnique db.jobs

/-- Tables in which no swap was queued yet. -/
structure Db.Fresh (db : Db) : Prop extends Db.Constrained db where
  jobs : db.jobs = []
  mappings : db.mappings = []

/-- The states that a list of events goes through, from a state in which no process has read
anything. -/
def Db.history (db : Db) (events : List Event) : List (Event × State) :=
  History.replay (fun s e => (s.next e).getD s) { db } events

def Db.after (db : Db) (events : List Event) : State :=
  History.current { db } (db.history events)

end EarnProxy.Swap
