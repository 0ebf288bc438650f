import EarnProxy.Swap.Reconcile

/-!
# `app/services/proxiware_dashboard.py`

What the dashboard of the provider shows is attached to the assignment of the official inventory
that has the address. A snapshot of a subscription replaces everything that was observed of it.
-/

namespace EarnProxy.Swap

structure DashboardAssignment where
  assignmentId : String
  subscriptionId : String
  address : String
  eligible : Option Bool := none
  connections : Option Int := none
  observedAt : Timestamp
  deriving DecidableEq, Repr

/-- The rows at an address that the dashboard shows. -/
def observedRows (db : Db) (subscriptionId : String) (endpoint : Endpoint) : List Assignment :=
  db.assignments.filter fun a =>
    (∃ s ∈ db.subscriptions, s.id = a.subscriptionId ∧ s.externalId = subscriptionId) ∧
      Text.asciiLower a.host = endpoint.host ∧ a.missingAt = none ∧
      ∀ port ∈ endpoint.port, a.port = port

/-- `_resolved_observation`. -/
def resolvedObservation (db : Db) (snapshot : DashboardAssignment) (current : Timestamp)
    (maxAgeSeconds : Int) : Tx Assignment := do
  let age := current - snapshot.observedAt
  if age < seconds (-60) ∨ seconds (max 1 maxAgeSeconds) < age then
    throw (.valueError "stale dashboard observation")
  match dashboardAddressEndpoint snapshot.address with
  | none => throw (.valueError "invalid dashboard address")
  | some endpoint =>
    match observedRows db snapshot.subscriptionId endpoint with
    | [] => throw (.valueError "dashboard assignment not found")
    | [row] =>
      if ∃ previous ∈ row.dashboardObservedAt, snapshot.observedAt < previous then
        throw (.valueError "older dashboard observation")
      pure row
    | _ => throw (.valueError "ambiguous dashboard assignment")

/-- The row that an observation leaves. -/
def Assignment.observed (a : Assignment) (snapshot : DashboardAssignment) (current : Timestamp) :
    Assignment :=
  { a with
    dashboardAssignmentId := some snapshot.assignmentId, dashboardEligible := snapshot.eligible
    dashboardConnections := snapshot.connections, dashboardObservedAt := some snapshot.observedAt
    dashboardSource := "provider_dashboard"
    providerEligible := snapshot.eligible.getD a.providerEligible, updatedAt := current }

/-- `apply_dashboard_observation`, up to the sweep that follows it. -/
def applyDashboardObservation (db : Db) (snapshot : DashboardAssignment) (current : Timestamp)
    (maxAgeSeconds : Int) : Tx Db := do
  let row ← resolvedObservation db snapshot current maxAgeSeconds
  pure (db.updateAssignment row.id fun a => a.observed snapshot current)

/-- The rows that the snapshots resolve to, in one transaction. -/
def resolveSnapshots (db : Db) (requested : String) (current : Timestamp) (maxAgeSeconds : Int) :
    List DashboardAssignment → List String → List Nat → Tx (List (DashboardAssignment × Nat))
  | [], _, _ => pure []
  | snapshot :: snapshots, seenDashboardIds, seenAssignmentIds => do
    if snapshot.subscriptionId ≠ requested then
      throw (.valueError "dashboard subscription scope mismatch")
    if snapshot.assignmentId ∈ seenDashboardIds then
      throw (.valueError "duplicate dashboard assignment")
    let row ← resolvedObservation db snapshot current maxAgeSeconds
    if row.id ∈ seenAssignmentIds then throw (.valueError "ambiguous dashboard assignment")
    let resolved ← resolveSnapshots db requested current maxAgeSeconds snapshots
      (snapshot.assignmentId :: seenDashboardIds) (row.id :: seenAssignmentIds)
    pure ((snapshot, row.id) :: resolved)

/-- Everything that was observed of a subscription is forgotten. -/
def clearDashboard (db : Db) (requested : String) (current : Timestamp) : Db :=
  db.updateAssignments
    (fun a => ∃ s ∈ db.subscriptions, s.id = a.subscriptionId ∧ s.externalId = requested)
    fun a => a.unobserved current

/-- The transaction of a snapshot that is not empty. -/
def writeSnapshot (db : Db) (requested : String) (snapshots : List DashboardAssignment)
    (current : Timestamp) (maxAgeSeconds : Int) : Tx Db := do
  let resolved ← resolveSnapshots db requested current maxAgeSeconds snapshots [] []
  pure (resolved.foldl
    (fun db r => db.updateAssignment r.2 fun a => a.observed r.1 current)
    (clearDashboard db requested current))

/-- `apply_dashboard_snapshot`, up to the sweep that follows it: the database and the error. An
empty snapshot is committed before it is refused. -/
def applyDashboardSnapshot (db : Db) (subscriptionId : String)
    (snapshots : List DashboardAssignment) (current : Timestamp) (maxAgeSeconds : Int) :
    Db × Option SwapError :=
  match requiredText subscriptionId 128 with
  | none => (db, some (.valueError "invalid dashboard subscription id"))
  | some requested =>
    if snapshots = [] then
      (clearDashboard db requested current, some (.valueError "empty dashboard snapshot"))
    else
      match writeSnapshot db requested snapshots current maxAgeSeconds with
      | .ok db => (db, none)
      | .error e => (db, some e)

end EarnProxy.Swap
