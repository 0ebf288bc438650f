import EarnProxy.AddressText
import EarnProxy.Checks
import EarnProxy.Swap.Inventory

/-!
# `app/services/proxiware_qualification.py`

What a qualification writes to the row of an assignment, and what the reconciliation of the
duplicates writes to all rows. Texts of diagnostic errors and fingerprints are left out.
-/

namespace EarnProxy

/-- The text in the column `exit_ip`. -/
def Proxy.exitText (r : Proxy) : Option String := r.exitIp.map IpAddress.compressed

/-- The text of the column `qualification`. -/
def Eligibility.text : Eligibility → String
  | .pending => "pending"
  | .allow => "allow"
  | .risk => "risk"

namespace Swap

/-- The columns of `proxies` that the services of the provider read. -/
structure UserEgress where
  id : Nat
  exitIp : Option String := none
  egressAttestationSource : Option AttestationSource := none
  archivedAt : Option Timestamp := none
  deriving DecidableEq, Repr

/-- The columns of a row of the checker. -/
def UserEgress.ofProxy (r : Proxy) : UserEgress :=
  { id := r.id, exitIp := r.exitText, egressAttestationSource := r.egressAttestationSource
    archivedAt := r.archivedAt }

/-- `archived_at IS NULL AND egress_attestation_source IN (…)`. -/
def UserEgress.Trusted (u : UserEgress) : Prop :=
  u.archivedAt = none ∧ u.egressAttestationSource ≠ none

instance (u : UserEgress) : Decidable u.Trusted := inferInstanceAs (Decidable (_ ∧ _))

/-- `_duplicate_egress`. -/
def duplicateEgress (users : List UserEgress) (db : Db) (assignmentId : Nat) (exitIp : String) :
    Prop :=
  exitIp ≠ "" ∧ ((∃ u ∈ users, u.Trusted ∧ u.exitIp = some exitIp) ∨
    ∃ a ∈ db.assignments, a.exitIp = some exitIp ∧ a.missingAt = none ∧ a.id < assignmentId)

instance (users : List UserEgress) (db : Db) (assignmentId : Nat) (exitIp : String) :
    Decidable (duplicateEgress users db assignmentId exitIp) := inferInstanceAs (Decidable (_ ∧ _))

/-- `_dashboard_ready`. -/
def dashboardReady (db : Db) (a : Assignment) (now : Timestamp) : Prop :=
  present a.dashboardAssignmentId ∧ a.dashboardSource = "provider_dashboard" ∧
  a.dashboardEligible = some true ∧ (∃ n ∈ a.dashboardConnections, 0 ≤ n ∧ n < 1000) ∧
  ∃ observed ∈ a.dashboardObservedAt, ∃ maxAge ∈ dashboardMaxAge? db,
    observed ≤ now ∧ now - observed ≤ seconds maxAge

instance (db : Db) (a : Assignment) (now : Timestamp) : Decidable (dashboardReady db a now) :=
  inferInstanceAs (Decidable (_ ∧ _))

/-! ## `reconcile_proxiware_duplicates` -/

/-- `user_ips`. -/
def userIps (isGlobal : IpAddress → Bool) (users : List UserEgress) : List String :=
  (users.filter fun u => decide u.Trusted).filterMap fun u =>
    u.exitIp.filter fun t => decide (Text.trimBlanks t ≠ "" ∧ normalizeExitIp isGlobal t ≠ "")

/-- The address by which the rows of the provider are grouped. -/
def Assignment.address (isGlobal : IpAddress → Bool) (a : Assignment) : String :=
  normalizeExitIp isGlobal (a.exitIp.getD "")

/-- The ids of `duplicate_ids` among the rows, in the order in which the query returns them. -/
def duplicateIds (isGlobal : IpAddress → Bool) (taken : List String) :
    List Assignment → List Nat
  | [] => []
  | a :: rows =>
    let address := a.address isGlobal
    let later := (rows.filter fun b => decide (b.address isGlobal = address)).map Assignment.id
    let own := if address = "" then [] else if address ∈ taken then a.id :: later else later
    own ++ duplicateIds isGlobal taken rows

/-- `distribution` of a row that is not a duplicate. -/
def Assignment.Distributes (db : Db) (now : Timestamp) (a : Assignment) : Prop :=
  Text.lower a.liveStatus = "live" ∧ Text.lower a.qualification = "allow" ∧
  a.providerEligible = true ∧ dashboardReady db a now

instance (db : Db) (now : Timestamp) (a : Assignment) : Decidable (a.Distributes db now) :=
  inferInstanceAs (Decidable (_ ∧ _))

/-- The flags that a reconciliation writes to one row. -/
structure Flags where
  id : Nat
  duplicate : Bool
  distribution : Bool
  deriving DecidableEq, Repr

/-- What `reconcile_proxiware_duplicates` computes from the rows that its queries return. -/
def reconcileFlags (isGlobal : IpAddress → Bool) (users : List UserEgress) (db : Db)
    (rows : List Assignment) (now : Timestamp) : List Flags :=
  let duplicates := duplicateIds isGlobal (userIps isGlobal users) rows
  rows.map fun a =>
    { id := a.id, duplicate := decide (a.id ∈ duplicates)
      distribution := decide (a.id ∉ duplicates ∧ a.Distributes db now) }

/-- The `UPDATE` statement of `reconcile_proxiware_duplicates`. -/
def writeFlags (db : Db) (flags : Flags) : Db :=
  db.updateAssignments (fun a => a.id = flags.id ∧
      (a.duplicateEgress ≠ flags.duplicate ∨ a.distributionEnabled ≠ flags.distribution))
    fun a => { a with
      duplicateEgress := flags.duplicate, distributionEnabled := flags.distribution }

/-- `reconcile_proxiware_duplicates` on its own. -/
def reconcileDuplicates (isGlobal : IpAddress → Bool) (users : List UserEgress) (db : Db)
    (rows : List Assignment) (now : Timestamp) : Db :=
  (reconcileFlags isGlobal users db rows now).foldl writeFlags db

/-! ## `qualify_proxiware_assignment` -/

/-- What the adapter of the probe returns; absent texts are empty. -/
structure ProbeResult where
  status : String := ""
  protocol : String := ""
  exitIp : String := ""
  egressTrusted : Bool := false
  deriving DecidableEq, Repr

/-- What the adapter of the eligibility returns. -/
structure Verdict where
  verdict : String := ""
  reason : String := ""
  deriving DecidableEq, Repr

/-- What a qualification has read before the probe. -/
structure QualifyTask where
  row : Assignment
  claimToken : Option String
  profile : Profile
  current : Timestamp
  checkIntervalSeconds : Int
  retrySeconds : Int
  deriving DecidableEq, Repr

/-- The identity that is probed. -/
def QualifyTask.identity (task : QualifyTask) : String × Nat × String × String :=
  task.row.identity task.profile

/-- `_proxy_from_row` can decrypt the credentials. -/
def QualifyTask.Readable (task : QualifyTask) : Prop :=
  (task.row.username.global = some "" ∨ task.row.username.decrypt task.profile ≠ none) ∧
  (task.row.password.global = some "" ∨ task.row.password.decrypt task.profile ≠ none)

instance (task : QualifyTask) : Decidable task.Readable := inferInstanceAs (Decidable (_ ∧ _))

/-- `next_check`. -/
def QualifyTask.nextCheck (task : QualifyTask) (qualification : String) : Timestamp :=
  if (∃ t ∈ task.row.replacementReadyAt, t ≤ task.current) ∧
      normalized task.row.qualification = "pending" ∧ qualification = "pending" ∧
      task.row.qualificationAttempts + 1 < 3 then
    task.current + seconds (max 60 (min 300 task.retrySeconds))
  else task.current + seconds (max 60 task.checkIntervalSeconds)

/-- What a qualification is about to write. -/
inductive Finding where
  /-- The probe has raised. -/
  | probeError
  | probed (protocol liveStatus qualification exitIp : String) (duplicate distribution : Bool)
  deriving DecidableEq, Repr

/-- The live status of a probe, and the exit address that it has seen. -/
def ProbeResult.liveStatus (result : ProbeResult) (exitIp : String) : String :=
  let status := normalized (orDefault result.status "inconclusive")
  if status ∈ ["live", "online"] ∧ exitIp ≠ "" ∧ result.egressTrusted then "live"
  else if status ∈ ["live", "online", "live_unverified"] then "live_unverified"
  else if status = "blocked" then "blocked"
  else if status = "dead" then "dead"
  else "inconclusive"

/-- The part of `qualify_proxiware_assignment` from the probe to the check of the identity. A `none`
stands for an adapter that raises. -/
def QualifyTask.judge (task : QualifyTask) (isGlobal : IpAddress → Bool) (users : List UserEgress)
    (db : Db) (probe : Option ProbeResult) (eligibility : Option Verdict) : Finding :=
  match probe.filter fun _ => decide task.Readable with
  | none => .probeError
  | some result =>
    let protocol := normalized (orDefault result.protocol "unknown")
    let exitIp := normalizeExitIp isGlobal result.exitIp
    let liveStatus := result.liveStatus exitIp
    if liveStatus = "live" then
      let verdict := eligibility.getD { verdict := "UNKNOWN", reason := "eligibility_error" }
      let qualification := classifyVerdict (orDefault verdict.verdict "UNKNOWN") verdict.reason
      let duplicate := decide (duplicateEgress users db task.row.id exitIp)
      let distribution := decide (qualification = .allow) && !duplicate &&
        task.row.providerEligible && decide (dashboardReady db task.row task.current)
      .probed protocol liveStatus qualification.text exitIp duplicate distribution
    else
      let qualification := if liveStatus = "dead" then "dead"
        else if liveStatus = "blocked" then "risk" else "pending"
      .probed protocol liveStatus qualification exitIp false false

/-- The row that the `UPDATE` of a qualification leaves. -/
def QualifyTask.apply (task : QualifyTask) (finding : Finding) (a : Assignment) : Assignment :=
  let released := { a with
    lastCheckedAt := some task.current, qualificationClaimedUntil := none
    qualificationClaimToken := none, qualificationAttempts := a.qualificationAttempts + 1
    updatedAt := task.current }
  match finding with
  | .probeError =>
    { released with
      liveStatus := "inconclusive", qualification := "pending", distributionEnabled := false
      qualificationNextCheckAt := some (task.nextCheck "pending") }
  | .probed protocol liveStatus qualification exitIp duplicate distribution =>
    { released with
      protocol, liveStatus, qualification, exitIp := if exitIp = "" then none else some exitIp
      egressVerifiedAt := if liveStatus = "live" then some task.current else none
      duplicateEgress := duplicate, distributionEnabled := distribution
      qualificationNextCheckAt := some (task.nextCheck qualification) }

/-- The row passes the claim of the qualification. -/
def Assignment.HeldWith (a : Assignment) (claimToken : Option String) : Prop :=
  ∀ token ∈ claimToken.filter (· ≠ ""), a.qualificationClaimToken = some token

instance (a : Assignment) (claimToken : Option String) : Decidable (a.HeldWith claimToken) :=
  inferInstanceAs (Decidable (∀ token ∈ _, _))

/-- The `WHERE` clause of the `UPDATE` of a qualification. -/
def QualifyTask.Targets (task : QualifyTask) (a : Assignment) : Prop :=
  a.id = task.row.id ∧ a.identityGeneration = task.row.identityGeneration ∧
    a.HeldWith task.claimToken

instance (task : QualifyTask) (a : Assignment) : Decidable (task.Targets a) :=
  inferInstanceAs (Decidable (_ ∧ _))

/-- `_identity_is_current`. -/
def identityIsCurrent (db : Db) (task : QualifyTask) : Prop :=
  ∃ a ∈ (db.assignment? task.row.id).filter fun a => decide (a.missingAt = none),
    a.identityGeneration = task.row.identityGeneration ∧ a.identity task.profile = task.identity

instance (db : Db) (task : QualifyTask) : Decidable (identityIsCurrent db task) :=
  inferInstanceAs (Decidable (∃ a ∈ _, _))

/-- The row that a qualification reads. -/
def qualifyRow (db : Db) (assignmentId : Nat) (claimToken : Option String) : Option Assignment :=
  (db.assignment? assignmentId).filter fun a => decide (a.missingAt = none ∧ a.HeldWith claimToken)

end Swap

end EarnProxy
