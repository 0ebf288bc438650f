import Mathlib.Data.List.Sort
import Mathlib.Data.Prod.Lex
import EarnProxy.HealthMachine

/-!
# The claims of `app/services/checks.py`

A health worker and an EarnApp worker claim rows of the same table, probe for as long as it takes,
and report. Each claim writes its token into a column of its own; a report carries the generation
and the token that the worker read back. Reports may come late, twice, in any order or never. An
EarnApp report with an authenticated address is committed before its closing statement, which
anything may precede.
-/

namespace EarnProxy

/-- The two claim protocols. -/
inductive Probe where
  | health | earnapp
  deriving DecidableEq, Repr

/-- The claim column of a protocol. -/
def Proxy.claimToken (r : Proxy) : Probe → Option String
  | .health => r.checkClaimToken
  | .earnapp => r.earnappClaimToken

/-- `MAX_HEALTH_CONCURRENCY`. -/
def maxHealthConcurrency : Int := 20

/-- The join with the active users. -/
def Proxy.OwnerActive (db : Db) (r : Proxy) : Prop := ∃ u ∈ db.user? r.userId, u.status = .active

instance (db : Db) (r : Proxy) : Decidable (r.OwnerActive db) :=
  inferInstanceAs (Decidable (∃ u ∈ db.user? r.userId, u.status = .active))

def Proxy.ClaimExpired (current : Timestamp) (r : Proxy) : Prop :=
  ∃ t ∈ r.checkClaimedUntil, t ≤ current

instance (current : Timestamp) (r : Proxy) : Decidable (r.ClaimExpired current) :=
  inferInstanceAs (Decidable (∃ t ∈ r.checkClaimedUntil, t ≤ current))

/-- The `WHERE` clause of the queries in `claim_due_proxies`. -/
def Proxy.HealthDue (db : Db) (current : Timestamp) (r : Proxy) : Prop :=
  r.archivedAt = none ∧ r.OwnerActive db ∧
    ((∀ t ∈ r.nextCheckAt, t ≤ current) ∨ r.ClaimExpired current) ∧
    ∀ t ∈ r.checkClaimedUntil, t ≤ current

instance (db : Db) (current : Timestamp) (r : Proxy) : Decidable (r.HealthDue db current) :=
  inferInstanceAs (Decidable (_ ∧ _))

/-- `lower(trim(COALESCE(p.host, '')))`. -/
def Proxy.hostKey (r : Proxy) : String := Text.asciiLower (Text.trimBlanks r.host)

/-- The order of the checks that are due, apart from priorities. -/
def Proxy.checkOrder (r : Proxy) : Timestamp ×ₗ Nat := toLex (r.nextCheckAt.getD r.createdAt, r.id)

/-- `host_rank`: the place of the row among the due rows of its host. -/
def hostRank (due : List Proxy) (r : Proxy) : Nat :=
  (due.filter fun s => s.hostKey = r.hostKey ∧ s.checkOrder ≤ r.checkOrder).length

/-- The rows that `claim_due_proxies` selects. With a host limit the hosts take turns; the limit
itself is left to the runtime. -/
def dueProxies (db : Db) (current : Timestamp) (limit perHostLimit : Option Int) : List Proxy :=
  let concurrency := (checkerSettings db).healthConcurrency
  let batchSize := max 1 (min (if limit.getD 0 = 0 then concurrency else limit.getD 0) concurrency)
  let due := db.proxies.filter fun r => r.HealthDue db current
  let order (r : Proxy) : Nat ×ₗ Nat ×ₗ Timestamp ×ₗ Nat :=
    toLex (if r.ClaimExpired current then 0 else 1,
      toLex (if perHostLimit.isSome then hostRank due r else 0, r.checkOrder))
  (due.insertionSort fun r s => order r ≤ order s).take batchSize.toNat

/-- The row as a claim leaves it. -/
def Proxy.claimed (r : Proxy) (settings : CheckerSettings) (current : Timestamp) (token : String) :
    Probe → Proxy
  | .health =>
    { r with
      nextCheckAt := some (current + minutes settings.healthIntervalMinutes)
      checkClaimedUntil := some (current + minutes 10), checkClaimToken := some token }
  | .earnapp =>
    { r with
      earnappClaimedUntil := some (current + minutes 10), earnappClaimToken := some token }

/-- The transaction of a claim: the new database and the claimed ids, if any row is due. -/
def claimRows (probe : Probe) (db : Db) (rows : List Proxy) (current : Timestamp) (token : String) :
    Option (Db × List Nat) :=
  let ids := rows.map Proxy.id
  if ids = [] then none
  else some (db.updateProxies (fun r => r.id ∈ ids) fun r =>
    r.claimed (checkerSettings db) current token probe, ids)

/-- `claim_due_proxies`, up to its first commit. -/
def claimDueProxies (db : Db) (current : Timestamp) (limit perHostLimit : Option Int)
    (token : String) : Option (Db × List Nat) :=
  claimRows .health db (dueProxies db current limit perHostLimit) current token

/-- The `WHERE` clause of the query in `claim_due_earnapp`. -/
def Proxy.EarnappDue (db : Db) (current : Timestamp) (r : Proxy) : Prop :=
  r.archivedAt = none ∧ r.status = .online ∧ r.OwnerActive db ∧
    (∀ t ∈ r.earnappNextCheckAt, t ≤ current) ∧ ∀ t ∈ r.earnappClaimedUntil, t ≤ current

instance (db : Db) (current : Timestamp) (r : Proxy) : Decidable (r.EarnappDue db current) :=
  inferInstanceAs (Decidable (_ ∧ _))

/-- The rows that `claim_due_earnapp` selects. -/
def dueEarnapp (db : Db) (current : Timestamp) (limit : Int) : List Proxy :=
  let order (r : Proxy) : Timestamp ×ₗ Nat := toLex (r.earnappNextCheckAt.getD r.createdAt, r.id)
  ((db.proxies.filter fun r => r.EarnappDue db current).insertionSort fun r s =>
    order r ≤ order s).take (max 1 (min maxHealthConcurrency limit)).toNat

/-- `claim_due_earnapp`, up to its first commit. -/
def claimDueEarnapp (db : Db) (current : Timestamp) (limit : Int) (token : String) :
    Option (Db × List Nat) :=
  claimRows .earnapp db (dueEarnapp db current limit) current token

/-- The row as a release leaves it. -/
def Proxy.released (r : Proxy) (current : Timestamp) : Probe → Proxy
  | .health =>
    { r with nextCheckAt := some current, checkClaimedUntil := none, checkClaimToken := none }
  | .earnapp =>
    { r with
      earnappNextCheckAt := some current, earnappClaimedUntil := none, earnappClaimToken := none }

/-- Gives back the rows that still have their tokens. -/
def releaseClaims (probe : Probe) (db : Db) (claims : List (Nat × String)) (current : Timestamp) :
    Db :=
  claims.foldl (fun db claim =>
    db.updateProxies (fun r => r.id = claim.1 ∧ r.claimToken probe = some claim.2) fun r =>
      r.released current probe) db

/-- `release_health_claims`. -/
def releaseHealthClaims : Db → List (Nat × String) → Timestamp → Db := releaseClaims .health

/-- `release_earnapp_claims`. -/
def releaseEarnappClaims : Db → List (Nat × String) → Timestamp → Db := releaseClaims .earnapp

/-- What a worker keeps of a row that it claimed. -/
structure ProbeClaim where
  probe : Probe
  proxyId : Nat
  generation : Nat
  token : String
  deriving DecidableEq, Repr

/-- A committed claim whose rows have not been read back. -/
structure ProbeBatch where
  probe : Probe
  ids : List Nat
  token : String
  deriving DecidableEq, Repr

/-- The claims that the closing `SELECT` of a batch returns. -/
def ProbeBatch.claims (b : ProbeBatch) (db : Db) : List ProbeClaim :=
  (db.proxies.filter fun r => r.claimToken b.probe = some b.token ∧ r.id ∈ b.ids).map fun r =>
    { probe := b.probe, proxyId := r.id, generation := r.credentialGeneration, token := b.token }

/-- The report of a health check, with what the worker read back. -/
def ProbeClaim.health (c : ProbeClaim) (result : HealthResult) : HealthResult :=
  { result with credentialGeneration := some c.generation, checkClaimToken := some c.token }

def ProbeClaim.earnapp (c : ProbeClaim) (result : EarnappResult) : EarnappResult :=
  { result with credentialGeneration := some c.generation, earnappClaimToken := some c.token }

/-- An EarnApp report that is committed up to its closing statement. -/
structure ProbeClosing where
  claim : ProbeClaim
  result : EarnappResult
  previous : Proxy
  refreshHours : Int
  now : Timestamp
  deriving DecidableEq

def ProbeClosing.run (x : ProbeClosing) (db : Db) : Db :=
  x.result.close db x.claim.proxyId x.previous x.refreshHours x.now

/-- Claims are never dropped: a worker may report on one twice, late, or never. -/
structure ProbeState where
  db : Db
  batches : List ProbeBatch := []
  claims : List ProbeClaim := []
  closings : List ProbeClosing := []
  /-- The claim tokens so far. No claim is made with the empty token. -/
  issued : List String := [""]

inductive ProbeAction where
  /-- A call of a service that reports no probe. -/
  | service (ev : Event)
  | claimDueProxies (current : Timestamp) (limit perHostLimit : Option Int) (token : String)
  | claimDueEarnapp (current : Timestamp) (limit : Int) (token : String)
  | readBack (batch : ProbeBatch)
  | releaseHealthClaims (claims : List (Nat × String)) (current : Timestamp)
  | releaseEarnappClaims (claims : List (Nat × String)) (current : Timestamp)
  | applyHealth (claim : ProbeClaim) (result : HealthResult) (now wall : Timestamp)
  | applyEarnapp (claim : ProbeClaim) (result : EarnappResult) (now wall : Timestamp)
  | closeEarnapp (closing : ProbeClosing)
  deriving DecidableEq

/-- The calls that report a probe. -/
def Op.reports : Op → Bool
  | .applyHealthResult .. | .applyEarnappResult .. => true
  | _ => false

/-- The call of the services that an action makes. -/
def ProbeAction.event? : ProbeAction → Option Event
  | .service ev => some ev
  | .applyHealth c result now wall =>
    some { op := .applyHealthResult c.proxyId (c.health result), now, wall }
  | _ => none

/-- The state after a claim with a fresh token. -/
def ProbeState.claimed (s : ProbeState) (probe : Probe) (token : String) :
    Option (Db × List Nat) → ProbeState
  | none => s
  | some (db, ids) =>
    { s with db := db, issued := token :: s.issued, batches := ⟨probe, ids, token⟩ :: s.batches }

/-- `apply_earnapp_result`, up to its first commit. -/
def ProbeState.reported (s : ProbeState) (claim : ProbeClaim) (result : EarnappResult)
    (now wall : Timestamp) : ProbeState :=
  match result.authenticatedExitIp, result.row? s.db claim.proxyId with
  | some _, some previous =>
    match result.settle s.db claim.proxyId previous now wall with
    | .ok db =>
      let refreshHours := (checkerSettings s.db).earnappRefreshHours
      { s with db, closings := ⟨claim, result, previous, refreshHours, now⟩ :: s.closings }
    | .error _ => s
  | _, _ => { s with db := exec s.db ⟨.applyEarnappResult claim.proxyId result, now, wall⟩ }

/-- One transaction of a worker, or one call of a service. `secrets` never returns a token twice. -/
def ProbeState.next (s : ProbeState) : ProbeAction → Option ProbeState
  | .service ev => if ev.op.reports then none else some { s with db := exec s.db ev }
  | .claimDueProxies current limit perHostLimit token =>
    if token ∈ s.issued then none
    else some (s.claimed .health token
      (EarnProxy.claimDueProxies s.db current limit perHostLimit token))
  | .claimDueEarnapp current limit token =>
    if token ∈ s.issued then none
    else some (s.claimed .earnapp token (EarnProxy.claimDueEarnapp s.db current limit token))
  | .readBack batch =>
    if batch ∈ s.batches then some { s with claims := batch.claims s.db ++ s.claims } else none
  | .releaseHealthClaims claims current =>
    some { s with db := EarnProxy.releaseHealthClaims s.db claims current }
  | .releaseEarnappClaims claims current =>
    some { s with db := EarnProxy.releaseEarnappClaims s.db claims current }
  | .applyHealth claim result now wall =>
    if claim ∈ s.claims ∧ claim.probe = .health then
      some { s with
        db := exec s.db ⟨.applyHealthResult claim.proxyId (claim.health result), now, wall⟩ }
    else none
  | .applyEarnapp claim result now wall =>
    if claim ∈ s.claims ∧ claim.probe = .earnapp then
      some (s.reported claim (claim.earnapp result) now wall)
    else none
  | .closeEarnapp closing =>
    if closing ∈ s.closings then
      some { s with db := closing.run s.db, closings := s.closings.erase closing }
    else none

/-- The actions of `h`, newest first, lead from `s₀` to `s`. -/
def ProbeRuns (s₀ : ProbeState) (h : List (ProbeAction × ProbeState)) (s : ProbeState) : Prop :=
  History.Run (fun s a s' => s.next a = some s') s₀ h s

end EarnProxy
