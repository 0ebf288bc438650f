import EarnProxy.Proxies

/-!
# `app/services/checks.py`

Results of the health checker and of the EarnApp qualification, and the maintenance archive. Each
branch of `_apply_health_result_locked` is a definition of its own; its `UPDATE` statement is a
function on rows, so that the row it leaves behind can be named.
-/

namespace EarnProxy

structure CheckerSettings where
  healthIntervalMinutes : Int
  healthConcurrency : Int
  healthRetryFirstMinutes : Int
  healthRetrySecondMinutes : Int
  healthStaleMinutes : Int
  earnappRefreshHours : Int
  deriving DecidableEq, Repr

/-- `bounded_int`. -/
def boundedInt (value : Option Int) (default lower upper : Int) : Int :=
  max lower (min upper (value.getD default))

/-- `checker_settings`. -/
def checkerSettings (db : Db) : CheckerSettings where
  healthIntervalMinutes := boundedInt db.settings.healthIntervalMinutes 60 15 1440
  healthConcurrency := boundedInt db.settings.healthConcurrency 5 1 20
  healthRetryFirstMinutes := boundedInt db.settings.healthRetryFirstMinutes 5 1 30
  healthRetrySecondMinutes := boundedInt db.settings.healthRetrySecondMinutes 15 2 60
  healthStaleMinutes := boundedInt db.settings.healthStaleMinutes 120 60 1440
  earnappRefreshHours := boundedInt db.settings.earnappRefreshHours 168 24 720

/-- `classify_verdict` of `app/earnapp_probe.py`. -/
def classifyVerdict (verdict reason : String) : Eligibility :=
  let value := Text.upper (Text.strip (if verdict = "" then "UNKNOWN" else verdict))
  if value = "CID_SET" then .allow
  else if value = "BLACKLIST" ∨ value = "DECLINE" ∨ Text.strip reason = "earnapp_blacklist" then
    .risk
  else .pending

example : classifyVerdict "CID_SET" "" = .allow := by decide

example : classifyVerdict "TIMEOUT" "no decline/cid in 18000ms" = .pending := by decide

/-- The result of an EarnApp probe. A field of the source's dictionary that may be absent is an
`Option`; an absent text is the empty text. -/
structure EarnappResult where
  verdict : String := ""
  reason : String := ""
  credentialGeneration : Option Nat := none
  earnappClaimToken : Option String := none
  exitIp : String := ""
  egressTrusted : Option Bool := none
  countryCode : String := ""
  deriving DecidableEq, Repr

/-- The result belongs to this credential and to this claim. -/
def EarnappResult.Current (result : EarnappResult) (row : Proxy) : Prop :=
  (∀ g ∈ result.credentialGeneration, row.credentialGeneration = g) ∧
    ∀ t ∈ result.earnappClaimToken, row.earnappClaimToken.getD "" = t

instance (result : EarnappResult) (row : Proxy) : Decidable (result.Current row) :=
  inferInstanceAs (Decidable (_ ∧ _))

/-- Only an explicit attestation establishes an address. -/
def EarnappResult.authenticatedExitIp (result : EarnappResult) : Option IpAddress :=
  if result.egressTrusted = some true then normalizedExitIp result.exitIp else none

/-- `egress_changed` of a result that reports `observed` for a row known at `previous`. -/
def egressChanged (previous observed : Option IpAddress) : Bool :=
  previous.isSome && observed.isSome && previous != observed

/-- `verdict = str(result.get("verdict") or "UNKNOWN")`. -/
def EarnappResult.verdictText (result : EarnappResult) : String :=
  if result.verdict = "" then "UNKNOWN" else result.verdict

/-- The eligibility the result gives the row. -/
def EarnappResult.eligibility (result : EarnappResult) (row : Proxy) : Eligibility :=
  let authenticated := result.authenticatedExitIp
  if result.verdictText = "CID_SET" ∧ result.egressTrusted ≠ none ∧ authenticated = none then
    .pending
  else if egressChanged row.exitIp authenticated then .pending
  else classifyVerdict result.verdictText result.reason

/-- `verified_country_code`; the empty text keeps the stored code. -/
def EarnappResult.verifiedCountryCode (result : EarnappResult) (row : Proxy) : String :=
  let countryCode := Text.upper (Text.strip result.countryCode)
  let evidence := match result.authenticatedExitIp with
    | some ip => some ip
    | none => if result.egressTrusted = none then normalizedExitIp result.exitIp else none
  if countryCode.length = 2 ∧ Text.isAlpha countryCode ∧ evidence ≠ none ∧
      evidence = row.exitIp then
    countryCode
  else ""

/-- Whether the result restarts the probation cycle. -/
def EarnappResult.resets (result : EarnappResult) (row : Proxy) : Bool :=
  row.eligibility != result.eligibility row || egressChanged row.exitIp result.authenticatedExitIp

/-- The closing `UPDATE` of `_apply_earnapp_result_locked`; `previous` is the row read at entry. -/
def Proxy.qualified (r previous : Proxy) (result : EarnappResult) (refreshHours : Int)
    (current : Timestamp) : Proxy :=
  let changed := egressChanged previous.exitIp result.authenticatedExitIp
  let countryCode := result.verifiedCountryCode previous
  { r with
    eligibility := result.eligibility previous
    countryCode := if countryCode ≠ "" then countryCode else r.countryCode
    earnappNextCheckAt := some (if changed then current else current + hours refreshHours)
    earnappClaimedUntil := none, earnappClaimToken := none
    probationStartedAt := if result.resets previous then some current else r.probationStartedAt
    accrualCursorAt := if result.resets previous then some current else r.accrualCursorAt }

/-- The row an EarnApp result is about; a stale result has none. -/
def EarnappResult.row? (result : EarnappResult) (db : Db) (proxyId : Nat) : Option Proxy :=
  (db.proxy? proxyId).filter fun r => r.archivedAt = none ∧ result.Current r

/-- `_apply_earnapp_result_locked` up to its closing `UPDATE`. -/
def EarnappResult.settle (result : EarnappResult) (db : Db) (proxyId : Nat) (previous : Proxy)
    (now wall : Timestamp) : Tx Db := do
  let changed := previous.eligibility ≠ result.eligibility previous
  -- Capture the last eligible interval before invalidating its cycle.
  let db ← (if changed ∧ previous.eligibility.Earning then accrueProxyTime db proxyId now
    else pure db)
  let db ← (if result.resets previous then resetProbation db proxyId now else pure db)
  match result.authenticatedExitIp with
  | some exitIp => reconcileExit db proxyId exitIp .earnappTls wall
  | none => pure db

/-- The closing `UPDATE`, whatever has become of the row. -/
def EarnappResult.close (result : EarnappResult) (db : Db) (proxyId : Nat) (previous : Proxy)
    (refreshHours : Int) (now : Timestamp) : Db :=
  db.updateProxy proxyId fun r => r.qualified previous result refreshHours now

/-- `apply_earnapp_result`, where nothing else runs in between. With an authenticated address these
are two transactions: `reconcile_exit_ip` ends in `reconcile_proxiware_duplicates`, which commits,
and the closing statement goes into a second transaction that checks nothing again. -/
def applyEarnappResult (db : Db) (proxyId : Nat) (result : EarnappResult) (now wall : Timestamp) :
    Tx Db :=
  match result.row? db proxyId with
  | none => pure db
  | some previous => do
    let refresh := (checkerSettings db).earnappRefreshHours
    let db ← result.settle db proxyId previous now wall
    pure (result.close db proxyId previous refresh now)

/-- The result of a health check. -/
structure HealthResult where
  status : String := ""
  credentialGeneration : Option Nat := none
  checkClaimToken : Option String := none
  failureKind : String := ""
  nextProbeIndex : Option Int := none
  protocol : String := ""
  egressTrusted : Option Bool := none
  exitIp : String := ""
  deriving DecidableEq, Repr

def HealthResult.Current (result : HealthResult) (row : Proxy) : Prop :=
  (∀ g ∈ result.credentialGeneration, row.credentialGeneration = g) ∧
    ∀ t ∈ result.checkClaimToken, row.checkClaimToken.getD "" = t

instance (result : HealthResult) (row : Proxy) : Decidable (result.Current row) :=
  inferInstanceAs (Decidable (_ ∧ _))

/-- The branch of `_apply_health_result_locked` that a result takes. -/
inductive HealthBranch where
  | live | uncertain | egressUnconfirmed | blocked | failure
  deriving DecidableEq, Repr

def HealthResult.branch (result : HealthResult) : HealthBranch :=
  let status := if result.status = "" then "inconclusive" else result.status
  if status = "live" ∨ status = "live_unverified" then .live
  else if status = "inconclusive" ∨ (status = "needs_confirmation" ∧
      result.failureKind ∈ ["probe_endpoint", "proxy_dns", "transient", "tls", "worker"]) then
    .uncertain
  else if status = "needs_confirmation" ∧ result.failureKind = "egress_changed" then
    .egressUnconfirmed
  else if status = "blocked" then .blocked
  else .failure

/-- `next_probe_index`, which falls back to the stored index. -/
def HealthResult.probeIndex (result : HealthResult) (row : Proxy) : Nat :=
  match result.nextProbeIndex with
  | some index => index.toNat
  | none => row.nextProbeIndex

/-- What a live result says about the row it reports on. -/
structure LiveObservation where
  trustedExitIp : Option IpAddress
  egressTrusted : Bool
  recoveredFromOffline : Bool
  egressChanged : Bool
  untrustedEgressMismatch : Bool
  missingTrustedEgress : Bool
  unobservedRecovery : Bool
  staleRecovery : Bool
  deriving DecidableEq, Repr

def ProxyStatus.up (s : ProxyStatus) : Bool := s == .online || s == .suspect

def ProxyStatus.down (s : ProxyStatus) : Bool := s == .offline || s == .blocked

def observeLive (row : Proxy) (result : HealthResult) (staleMinutes : Int) (current : Timestamp) :
    LiveObservation :=
  let egressTrusted := result.egressTrusted.getD true
  let observed := normalizedExitIp result.exitIp
  let trusted := if egressTrusted then observed else none
  { trustedExitIp := trusted
    egressTrusted
    recoveredFromOffline := row.status.down
    egressChanged := EarnProxy.egressChanged row.exitIp trusted
    untrustedEgressMismatch := !egressTrusted && EarnProxy.egressChanged row.exitIp observed
    missingTrustedEgress := row.exitIp.isNone && trusted.isNone
    unobservedRecovery := row.status.up && row.onlineSince.isSome && row.lastSuccessAt.isNone
    staleRecovery := row.status.up &&
      row.lastSuccessAt.any fun success => success + minutes staleMinutes < current }

/-- The three findings that close the running probation cycle. -/
def LiveObservation.breaksCycle (o : LiveObservation) : Bool :=
  o.egressChanged || o.untrustedEgressMismatch || o.staleRecovery

def LiveObservation.continuityReset (o : LiveObservation) : Bool :=
  o.recoveredFromOffline || o.breaksCycle || o.unobservedRecovery

def LiveObservation.losesEligibility (o : LiveObservation) : Bool :=
  o.egressChanged || o.untrustedEgressMismatch || o.missingTrustedEgress

/-- `accumulated_online_seconds` with the observed part of an online interval added. -/
def closeOnlineInterval (row : Proxy) (staleMinutes : Int) (current : Timestamp) : Nat :=
  match row.onlineSince, row.lastSuccessAt with
  | some since, some success =>
    row.accumulatedOnlineSeconds +
      wholeSeconds (min current (success + minutes staleMinutes) - since)
  | _, _ => row.accumulatedOnlineSeconds

/-- The `UPDATE` of the live branch; `row` is the row read at entry. -/
def Proxy.seenLive (r row : Proxy) (result : HealthResult) (o : LiveObservation)
    (settings : CheckerSettings) (current : Timestamp) : Proxy :=
  let requiresStrong := (!o.egressTrusted && (row.exitIp.isNone || o.untrustedEgressMismatch)) ||
    o.missingTrustedEgress
  let invalidatesClaim := o.breaksCycle || o.unobservedRecovery
  { r with
    status := .online
    detectedProtocol := if result.protocol ≠ "" then result.protocol else row.detectedProtocol
    consecutiveFailures := 0
    healthMode := if requiresStrong then .strong else .fast
    onlineSince :=
      if o.staleRecovery || o.unobservedRecovery then some current
      else some (row.onlineSince.getD current)
    offlineSince := none, checkClaimedUntil := none, checkClaimToken := none
    accumulatedOnlineSeconds :=
      if o.staleRecovery then closeOnlineInterval row settings.healthStaleMinutes current
      else row.accumulatedOnlineSeconds
    accumulatedOfflineSeconds := row.accumulatedOfflineSeconds +
      (if o.recoveredFromOffline then
        (row.offlineSince.map fun since => wholeSeconds (current - since)).getD 0 else 0)
    continuousDeadSince := none
    egressVerifiedAt :=
      if o.trustedExitIp.isSome ∧ (row.egressVerifiedAt = none ∨ o.egressChanged) then some current
      else row.egressVerifiedAt
    eligibility := if o.losesEligibility then .pending else row.eligibility
    earnappNextCheckAt := if o.losesEligibility then some current else row.earnappNextCheckAt
    probationStartedAt := if o.continuityReset then some current else row.probationStartedAt
    earnappClaimedUntil := if invalidatesClaim then none else r.earnappClaimedUntil
    earnappClaimToken := if invalidatesClaim then none else r.earnappClaimToken
    accrualCursorAt := if o.continuityReset then some current else row.accrualCursorAt
    lastSuccessAt := some current
    nextCheckAt := some (current + minutes settings.healthIntervalMinutes)
    nextProbeIndex := result.probeIndex row }

/-- The branch for `live` and `live_unverified`. -/
def applyLive (db : Db) (row : Proxy) (result : HealthResult) (now wall : Timestamp) : Tx Db := do
  let settings := checkerSettings db
  let o := observeLive row result settings.healthStaleMinutes now
  let db ← (if o.breaksCycle ∧ row.eligibility.Earning then accrueProxyTime db row.id now
    else pure db)
  let db ← (if o.breaksCycle then resetProbation db row.id now else pure db)
  let db := db.updateProxy row.id fun r => r.seenLive row result o settings now
  match o.trustedExitIp with
  | some exitIp => reconcileExit db row.id exitIp .httpsQuorum wall
  | none => pure db

/-- The `UPDATE` of the uncertain branch. -/
def Proxy.seenUncertain (r row : Proxy) (result : HealthResult) (settings : CheckerSettings)
    (current : Timestamp) : Proxy :=
  { r with
    nextCheckAt := some (current + minutes settings.healthRetryFirstMinutes)
    checkClaimedUntil := none, checkClaimToken := none, nextProbeIndex := result.probeIndex row }

/-- The `UPDATE` for an egress change that still needs confirmation. -/
def Proxy.seenEgressUnconfirmed (r row : Proxy) (result : HealthResult) (current : Timestamp) :
    Proxy :=
  { r with
    healthMode := .strong, nextCheckAt := some current, checkClaimedUntil := none
    checkClaimToken := none, nextProbeIndex := result.probeIndex row }

/-- The `UPDATE` of the blocked branch. -/
def Proxy.seenBlocked (r row : Proxy) (settings : CheckerSettings) (current : Timestamp) : Proxy :=
  { r with
    status := .blocked, eligibility := .risk, consecutiveFailures := 0, healthMode := .strong
    onlineSince := none, offlineSince := some (row.offlineSince.getD current)
    accumulatedOnlineSeconds :=
      if row.status.up then closeOnlineInterval row settings.healthStaleMinutes current
      else row.accumulatedOnlineSeconds
    nextCheckAt := some (current + minutes settings.healthIntervalMinutes)
    checkClaimedUntil := none, checkClaimToken := none, earnappClaimedUntil := none
    earnappClaimToken := none, earnappNextCheckAt := some current }

/-- The branch for `blocked`. -/
def applyBlocked (db : Db) (row : Proxy) (now : Timestamp) : Tx Db := do
  let settings := checkerSettings db
  let db ← (if row.eligibility.Earning then accrueProxyTime db row.id now else pure db)
  let db ← resetProbation db row.id now
  pure (db.updateProxy row.id fun r => r.seenBlocked row settings now)

/-- `failures >= 3`, counting the failure at hand. -/
def Proxy.strikesOut (row : Proxy) : Bool := 3 ≤ row.consecutiveFailures + 1

def Proxy.nextStatus (row : Proxy) : ProxyStatus :=
  if row.strikesOut then .offline
  else if row.status = .blocked then .blocked
  else if 2 ≤ row.consecutiveFailures + 1 then .suspect
  else row.status

/-- The `UPDATE` of a counted failure. -/
def Proxy.seenFailing (r row : Proxy) (result : HealthResult) (settings : CheckerSettings)
    (current : Timestamp) : Proxy :=
  let failures := row.consecutiveFailures + 1
  let nextRetry := if failures = 1 then settings.healthRetryFirstMinutes
    else settings.healthRetrySecondMinutes
  let down := row.strikesOut || row.status == .blocked
  { r with
    status := row.nextStatus, healthMode := .strong, consecutiveFailures := failures
    offlineSince := if down then some (row.offlineSince.getD current) else row.offlineSince
    onlineSince := if down then none else row.onlineSince
    accumulatedOnlineSeconds :=
      if row.strikesOut && row.status.up then
        closeOnlineInterval row settings.healthStaleMinutes current
      else row.accumulatedOnlineSeconds
    continuousDeadSince :=
      if row.strikesOut then some (row.continuousDeadSince.getD current)
      else row.continuousDeadSince
    nextCheckAt := some (current + minutes nextRetry), checkClaimedUntil := none
    checkClaimToken := none, earnappClaimedUntil := none, earnappClaimToken := none
    earnappNextCheckAt := some current, nextProbeIndex := result.probeIndex row }

/-- The branch for every other result: a counted failure. -/
def applyFailure (db : Db) (row : Proxy) (result : HealthResult) (now : Timestamp) : Tx Db := do
  let settings := checkerSettings db
  -- Accrue the final confirmed online interval before changing the row to offline.
  let db ← (if row.strikesOut ∧ row.eligibility.Earning ∧ row.status.up then
      accrueProxyTime db row.id now
    else pure db)
  let db := db.updateProxy row.id fun r => r.seenFailing row result settings now
  if row.strikesOut then resetProbation db row.id now else pure db

/-- The row a health result is about; a stale result has none. -/
def HealthResult.row? (result : HealthResult) (db : Db) (proxyId : Nat) : Option Proxy :=
  (db.proxy? proxyId).filter fun r => r.archivedAt = none ∧ result.Current r

/-- The health columns that the branch of the result leaves in the row it read. -/
def Proxy.observed (row : Proxy) (result : HealthResult) (settings : CheckerSettings)
    (current : Timestamp) : Health :=
  match result.branch with
  | .live =>
    let o := observeLive row result settings.healthStaleMinutes current
    (row.seenLive row result o settings current).health
  | .uncertain | .egressUnconfirmed => row.health
  | .blocked => (row.seenBlocked row settings current).health
  | .failure => (row.seenFailing row result settings current).health

/-- `apply_health_result`. -/
def applyHealthResult (db : Db) (proxyId : Nat) (result : HealthResult) (now wall : Timestamp) :
    Tx Db :=
  match result.row? db proxyId with
  | none => pure db
  | some row =>
    match result.branch with
    | .live => applyLive db row result now wall
    | .uncertain =>
      pure (db.updateProxy row.id fun r => r.seenUncertain row result (checkerSettings db) now)
    | .egressUnconfirmed =>
      pure (db.updateProxy row.id fun r => r.seenEgressUnconfirmed row result now)
    | .blocked => applyBlocked db row now
    | .failure => applyFailure db row result now

/-- The `WHERE` clause of `archive_due_dead_proxies`. -/
def Proxy.DeadSince (cutoff : Timestamp) (r : Proxy) : Prop :=
  r.archivedAt = none ∧ r.status = .offline ∧ ∃ since ∈ r.continuousDeadSince, since ≤ cutoff

instance (cutoff : Timestamp) (r : Proxy) : Decidable (r.DeadSince cutoff) :=
  inferInstanceAs (Decidable (_ ∧ _))

/-- `archive_due_dead_proxies`; returns the number of archived rows. -/
def archiveDueDeadProxies (db : Db) (now : Timestamp) : Tx (Db × Nat) := do
  let cutoff := now - hours 24
  let candidates := db.proxies.filter fun r => r.DeadSince cutoff
  -- Re-home an online duplicate before archiving its old canonical row.
  let db ← candidates.foldlM (fun acc r => Prod.fst <$> promoteDuplicateIfDue acc r.id now) db
  pure (db.updateProxies (fun r => r.DeadSince cutoff) (fun r => r.archived now),
    (db.proxies.filter fun r => r.DeadSince cutoff).length)

end EarnProxy
