import Mathlib.Data.Prod.Lex
import EarnProxy.Earnings

/-!
# `app/services/proxies.py`

Rows are added, replaced and archived by their owner. Rows that share a trusted exit address form a
group with one canonical member; `canonicalizeExitGroup` elects it and points the rest at it.
`wall` is the reading of `datetime.now(UTC)` inside a function, `now` the caller's argument.
-/

namespace EarnProxy

structure ParsedProxy where
  protocol : String
  host : String
  port : Nat
  username : String
  password : String
  deriving DecidableEq, Repr

/-- `credential_fingerprint`, without the final SHA-256: the normalized text stands for its
digest. -/
def credentialFingerprint (parsed : ParsedProxy) : String :=
  String.intercalate (String.singleton (Char.ofNat 0))
    [Text.lower parsed.host, toString parsed.port, parsed.username, parsed.password]

/-- `quota = max(1, min(10_000, int(max_active_proxies)))`. -/
def proxyQuota (maxActiveProxies : Int) : Int := max 1 (min 10000 maxActiveProxies)

def activeCount (db : Db) (userId : Nat) : Nat :=
  (db.proxies.filter fun r => r.userId = userId ∧ r.archivedAt = none).length

/-- Another row than `exceptId` has this credential. -/
def CredentialTaken (db : Db) (parsed : ParsedProxy) (exceptId : Option Nat) : Prop :=
  ∃ r ∈ db.proxies, r.credentialFingerprint = credentialFingerprint parsed ∧
    ∀ i ∈ exceptId, r.id ≠ i

instance (db : Db) (parsed : ParsedProxy) (exceptId : Option Nat) :
    Decidable (CredentialTaken db parsed exceptId) := inferInstanceAs (Decidable (∃ r ∈ _, _))

/-- The row `add_proxy` inserts. -/
def newProxy (db : Db) (userId : Nat) (parsed : ParsedProxy) (now : Timestamp) : Proxy :=
  { id := Table.nextKey Proxy.id db.proxies, userId, host := parsed.host, port := parsed.port
    protocolHint := parsed.protocol, credentialFingerprint := credentialFingerprint parsed
    credentialStartedAt := now, nextCheckAt := some now, probationStartedAt := some now
    accrualCursorAt := some now, createdAt := now }

/-- `add_proxy` on a line that `parse_proxy` reads as `parsed`; returns the new id. -/
def addProxy (db : Db) (userId : Nat) (parsed : ParsedProxy) (maxActiveProxies : Option Int)
    (wall : Timestamp) : Tx (Db × Nat) :=
  let quota := maxActiveProxies.map proxyQuota
  if ∃ q ∈ quota, q ≤ activeCount db userId then
    .error (.proxyQuotaExceeded
        ("This account has reached the maximum number of active proxies (" ++
      toString (quota.getD 0) ++ ")"))
  else if CredentialTaken db parsed none then .error .duplicateCredential
  else if db.user? userId = none then .error .foreignKey
  else
    let row := newProxy db userId parsed wall
    .ok ({ db with proxies := db.proxies ++ [row] }, row.id)

/-- The membership test of both queries of `_canonicalize_exit_group`. -/
def Proxy.InGroup (exitIp : IpAddress) (r : Proxy) : Prop :=
  r.exitIp = some exitIp ∧ r.archivedAt = none ∧ r.egressAttestationSource ≠ none

instance (exitIp : IpAddress) (r : Proxy) : Decidable (r.InGroup exitIp) :=
  inferInstanceAs (Decidable (_ ∧ _))

def exitGroup (rows : List Proxy) (exitIp : IpAddress) (excludeId : Option Nat) : List Proxy :=
  rows.filter fun r => r.InGroup exitIp ∧ ∀ i ∈ excludeId, r.id ≠ i

/-- Offline since the cutoff or earlier. -/
def Proxy.LongOffline (cutoff : Timestamp) (r : Proxy) : Prop :=
  r.status = .offline ∧ ∃ since ∈ r.offlineSince, since ≤ cutoff

instance (cutoff : Timestamp) (r : Proxy) : Decidable (r.LongOffline cutoff) :=
  inferInstanceAs (Decidable (_ ∧ _))

/-- The sort key `(created_at, id)`, after `egress_verified_at` once every member has one. -/
def canonicalKey (allPreverified : Bool) (r : Proxy) : Timestamp ×ₗ Timestamp ×ₗ Nat :=
  toLex (if allPreverified then r.egressVerifiedAt.getD 0 else 0, toLex (r.createdAt, r.id))

/-- The row `_canonicalize_exit_group` makes canonical; `none` for an empty group. -/
def electedCanonical (rows : List Proxy) (exitIp : IpAddress) (preferVerifiedOrder : Bool)
    (excludeId : Option Nat) (wall : Timestamp) : Option Proxy :=
  let group := exitGroup rows exitIp excludeId
  let cutoff := wall - hours 24
  let fresh := group.filter fun r => ¬ r.LongOffline cutoff
  let candidates := if fresh = [] then group else fresh
  let allPreverified := preferVerifiedOrder && group.all fun r => r.egressVerifiedAt.isSome
  candidates.argmin (canonicalKey allPreverified)

/-- The pointer updates of `_canonicalize_exit_group`. -/
def rehome (rows : List Proxy) (exitIp : IpAddress) (canonical : Nat) (excludeId : Option Nat) :
    List Proxy :=
  let cleared :=
    Table.update (fun r => r.id = canonical) (fun r => { r with duplicateOf := none }) rows
  Table.update (fun r => r.InGroup exitIp ∧ r.id ≠ canonical ∧ ∀ i ∈ excludeId, r.id ≠ i)
    (fun r => { r with duplicateOf := some canonical }) cleared

/-- `_canonicalize_exit_group`. -/
def canonicalizeExitGroup (db : Db) (exitIp : IpAddress) (preferVerifiedOrder : Bool)
    (excludeId : Option Nat) (wall : Timestamp) : Tx Db :=
  match electedCanonical db.proxies exitIp preferVerifiedOrder excludeId wall with
  | none => pure db
  | some canonical => do
    let losers := (exitGroup db.proxies exitIp excludeId).filter fun r => r.id ≠ canonical.id
    let expired ← losers.foldlM (fun acc r => expirePendingCycle acc r.id) db
    pure { expired with proxies := rehome expired.proxies exitIp canonical.id excludeId }

/-- The `SET` list of `replace_proxy`. -/
def Proxy.replaced (r : Proxy) (parsed : ParsedProxy) (current : Timestamp) : Proxy :=
  { r with
    host := parsed.host, port := parsed.port, protocolHint := parsed.protocol
    credentialFingerprint := EarnProxy.credentialFingerprint parsed
    credentialGeneration := r.credentialGeneration + 1, credentialStartedAt := current
    detectedProtocol := "unknown", status := .pending, eligibility := .pending
    earnappNextCheckAt := none, earnappClaimedUntil := none, earnappClaimToken := none
    egressVerifiedAt := none, egressAttestationSource := none, exitIp := none, countryCode := ""
    duplicateOf := none, consecutiveFailures := 0, onlineSince := none, offlineSince := none
    lastSuccessAt := none, nextCheckAt := some current, checkClaimedUntil := none
    checkClaimToken := none, healthMode := .strong, nextProbeIndex := 0
    accrualCursorAt := some current, probationStartedAt := some current
    accumulatedOnlineSeconds := 0
    accumulatedOfflineSeconds := 0, continuousDeadSince := none }

/-- The row `proxy_id` as its owner may still change it. -/
def ownedProxy? (db : Db) (proxyId userId : Nat) : Option Proxy :=
  (db.proxy? proxyId).filter fun r => r.userId = userId ∧ r.archivedAt = none

/-- `replace_proxy` on a line that `parse_proxy` reads as `parsed`. -/
def replaceProxy (db : Db) (proxyId userId : Nat) (parsed : ParsedProxy) (now wall : Timestamp) :
    Tx Db :=
  match ownedProxy? db proxyId userId with
  | none => .error (.lookupError "Proxy not found")
  | some existing =>
    if CredentialTaken db parsed (some proxyId) then .error .duplicateCredential
    else do
      let db ← (match existing.exitIp with
        | some previousExit => canonicalizeExitGroup db previousExit false (some proxyId) wall
        | none => pure db)
      let db ← expirePendingCycle db proxyId
      pure (db.updateProxy proxyId fun r => r.replaced parsed now)

def Proxy.archived (r : Proxy) (current : Timestamp) : Proxy :=
  { r with archivedAt := some current, status := .archived }

/-- `archive_proxy`. -/
def archiveProxy (db : Db) (proxyId userId : Nat) (now wall : Timestamp) : Tx Db :=
  match ownedProxy? db proxyId userId with
  | none => .error (.lookupError "Proxy not found")
  | some existing => do
    let db ← (match existing.exitIp with
      | some previousExit => canonicalizeExitGroup db previousExit false (some proxyId) wall
      | none => pure db)
    let db ← expirePendingCycle db proxyId
    pure (db.updateProxy proxyId fun r => r.archived now)

/-- The guard of `promote_duplicate_if_due`. -/
def Proxy.PromotionDue (now : Timestamp) (r : Proxy) : Prop :=
  (r.status = .offline ∨ r.status = .archived) ∧
    ∃ since ∈ r.offlineSince, r.status = .archived ∨ hours 24 ≤ now - since

instance (now : Timestamp) (r : Proxy) : Decidable (r.PromotionDue now) :=
  inferInstanceAs (Decidable (_ ∧ _))

/-- A duplicate that `promote_duplicate_if_due` may promote. -/
def Proxy.Promotable (canonicalId : Nat) (r : Proxy) : Prop :=
  r.duplicateOf = some canonicalId ∧ r.status = .online ∧ r.archivedAt = none

instance (canonicalId : Nat) (r : Proxy) : Decidable (r.Promotable canonicalId) :=
  inferInstanceAs (Decidable (_ ∧ _))

/-- The duplicate to promote: `ORDER BY created_at,id LIMIT 1`. -/
def promotionCandidate (rows : List Proxy) (canonicalId : Nat) : Option Proxy :=
  (rows.filter fun r => r.Promotable canonicalId).argmin fun r => toLex (r.createdAt, r.id)

/-- The pointer updates of `promote_duplicate_if_due`, in the order of its statements. -/
def promoteRows (rows : List Proxy) (canonicalId promotedId : Nat) : List Proxy :=
  let demoted := Table.update (fun r => r.id = canonicalId)
    (fun r => { r with duplicateOf := some promotedId }) rows
  let promoted := Table.update (fun r => r.id = promotedId)
    (fun r => { r with duplicateOf := none }) demoted
  Table.update (fun r => r.duplicateOf = some canonicalId ∧ r.id ≠ promotedId)
    (fun r => { r with duplicateOf := some promotedId }) promoted

/-- `promote_duplicate_if_due`; returns the promoted id. -/
def promoteDuplicateIfDue (db : Db) (canonicalId : Nat) (now : Timestamp) :
    Tx (Db × Option Nat) :=
  match db.proxy? canonicalId with
  | none => pure (db, none)
  | some canonical =>
    if ¬ canonical.PromotionDue now then pure (db, none)
    else match promotionCandidate db.proxies canonicalId with
      | none => pure (db, none)
      | some candidate => do
        let db ← expirePendingCycle db canonicalId
        let db := { db with proxies := promoteRows db.proxies canonicalId candidate.id }
        let db ← resetProbation db candidate.id now
        pure (db, some candidate.id)

/-- `str(attestation_source or "").strip().lower()`, when it is one of the two trusted sources. -/
def attestationSource (text : String) : Option AttestationSource :=
  match Text.lower (Text.strip text) with
  | "https_quorum" => some .httpsQuorum
  | "earnapp_tls" => some .earnappTls
  | _ => none

/-- The `SET` list of `reconcile_exit_ip`. -/
def Proxy.reconciled (r : Proxy) (exitIp : IpAddress) (source : AttestationSource)
    (wall : Timestamp) : Proxy :=
  { r with
    exitIp := some exitIp
    countryCode := if r.exitIp ≠ none ∧ r.exitIp ≠ some exitIp then "" else r.countryCode
    egressVerifiedAt :=
      if r.exitIp ≠ some exitIp ∧ r.exitIp ≠ none ∧ r.egressVerifiedAt ≠ none then some wall
      else some (r.egressVerifiedAt.getD wall)
    egressAttestationSource := some source }

/-- `reconcile_exit_ip` after its arguments are normalized. The provider inventory it reconciles at
the end lives in tables of its own. -/
def reconcileExit (db : Db) (proxyId : Nat) (exitIp : IpAddress) (source : AttestationSource)
    (wall : Timestamp) : Tx Db :=
  match (db.proxy? proxyId).filter fun r => r.archivedAt = none with
  | none => pure db
  | some previous => do
    let db := db.updateProxy proxyId fun r => r.reconciled exitIp source wall
    let db ← canonicalizeExitGroup db exitIp previous.egressVerifiedAt.isSome none wall
    match previous.exitIp with
    | some previousExit =>
      if previousExit = exitIp then pure db
      else canonicalizeExitGroup db previousExit false none wall
    | none => pure db

/-- `reconcile_exit_ip`. -/
def reconcileExitIp (db : Db) (proxyId : Nat) (exitIp source : String) (wall : Timestamp) : Tx Db :=
  match normalizedExitIp exitIp, attestationSource source with
  | some exitIp, some source => reconcileExit db proxyId exitIp source wall
  | _, _ => pure db

end EarnProxy
