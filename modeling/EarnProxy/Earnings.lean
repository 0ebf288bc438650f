import EarnProxy.Schema

/-!
# `app/services/earnings.py`

Accrual of confirmed online time into the ledger. The loop body of `_accrue_eligible_time_locked`
is `accrueRow`; the two public entry points differ in the rows they select.
-/

namespace EarnProxy

def usMonthlyMicroUsd : Nat := 1000000
def nonUsMonthlyMicroUsd : Nat := 500000
def monthHours : Nat := 720
def probationHours : Int := 168
def defaultHealthStaleMinutes : Int := 120

/-- `monthly_rate_for`. -/
def monthlyRateFor (eligibility : Eligibility) (countryCode : String) : Nat :=
  match eligibility with
  | .allow => if Text.upper (Text.strip countryCode) = "US" then usMonthlyMicroUsd
      else nonUsMonthlyMicroUsd
  | .risk => nonUsMonthlyMicroUsd
  | .pending => 0

/-- `_health_stale_minutes`. -/
def healthStaleMinutes (db : Db) : Int :=
  max 60 (min 1440 (db.settings.healthStaleMinutes.getD defaultHealthStaleMinutes))

/-- `expire_pending_cycle`. -/
def expirePendingCycle (db : Db) (proxyId : Nat) : Tx Db :=
  db.moveEntries (fun e => e.proxyId = proxyId ∧ e.bucket = .pending) .expired

/-- The two clocks that `reset_probation` sets. -/
def Proxy.restart (r : Proxy) (at_ : Timestamp) : Proxy :=
  { r with probationStartedAt := some at_, accrualCursorAt := some at_ }

/-- `reset_probation`. -/
def resetProbation (db : Db) (proxyId : Nat) (at_ : Timestamp) : Tx Db := do
  let db ← expirePendingCycle db proxyId
  pure (db.updateProxy proxyId fun r => r.restart at_)

/-- `_add_ledger_entry`. -/
def addLedgerEntry (db : Db) (userId proxyId : Nat) (startedAt endedAt : Timestamp)
    (monthlyRate : Nat) (bucket : Bucket) (createdAt : Timestamp) : Db :=
  let duration := wholeSeconds (endedAt - startedAt)
  if duration = 0 then db
  else db.insertEntry
    { id := db.ledger.length + 1, userId, proxyId, startedAt, endedAt
      microUsd := monthlyRate * duration / (monthHours * 3600), bucket, createdAt }

/-- `UPDATE proxies SET accrual_cursor_at=? WHERE id=?`. -/
def setCursor (db : Db) (proxyId : Nat) (at_ : Timestamp) : Db :=
  db.updateProxy proxyId fun r => { r with accrualCursorAt := some at_ }

/-- The user columns let the row earn. -/
def User.Payable (u : User) : Prop := u.status = .active ∧ u.earnPaused = false

instance (u : User) : Decidable u.Payable := inferInstanceAs (Decidable (_ ∧ _))

/-- The entries one visited row adds for `[cursor, until)`, with the unlock of its probation cycle
when `until` reaches `unlockAt`. -/
def creditRow (db : Db) (row : Proxy) (cursor until_ probation current : Timestamp)
    (monthlyRate : Nat) : Tx Db :=
  let unlockAt := probation + hours probationHours
  let addEntry (db : Db) (startedAt endedAt : Timestamp) (bucket : Bucket) : Db :=
    addLedgerEntry db row.userId row.id startedAt endedAt monthlyRate bucket current
  if unlockAt ≤ until_ then do
    let db ← db.moveEntries
      (fun e => e.proxyId = row.id ∧ e.bucket = .pending ∧ probation ≤ e.startedAt) .available
    if cursor < unlockAt then
      pure (addEntry (addEntry db cursor unlockAt .available) unlockAt until_ .available)
    else pure (addEntry db cursor until_ .available)
  else pure (addEntry db cursor until_ (if until_ ≤ unlockAt then .pending else .available))

/-- One iteration of the loop of `_accrue_eligible_time_locked`. -/
def accrueRow (current : Timestamp) (staleMinutes : Int) (db : Db) (row : Proxy) (user : User) :
    Tx Db :=
  let cursor := row.accrualCursorAt.getD current
  match row.lastSuccessAt with
  -- A status label alone is not proof that the proxy remained reachable.
  | none => pure db
  | some lastSuccess =>
    let until_ := min current (lastSuccess + minutes staleMinutes)
    if until_ ≤ cursor then pure db
    else if ¬ user.Payable then pure (setCursor db row.id until_)
    else
      let monthlyRate := monthlyRateFor row.eligibility row.countryCode
      if monthlyRate = 0 then pure db
      else if wholeSeconds (until_ - cursor) = 0 then pure db
      else do
        let probation := row.probationStartedAt.getD cursor
        let db ← creditRow db row cursor until_ probation current monthlyRate
        pure (setCursor db row.id until_)

/-- The `WHERE` clause of the accrual query, without the optional `p.id=?`. -/
def Proxy.Accruable (includeSuspect : Bool) (r : Proxy) : Prop :=
  r.archivedAt = none ∧ (r.status = .online ∨ (includeSuspect ∧ r.status = .suspect)) ∧
    r.eligibility.Earning ∧ r.duplicateOf = none ∧ r.exitIp ≠ none ∧
    r.egressAttestationSource ≠ none

instance (s : Bool) (r : Proxy) : Decidable (r.Accruable s) := inferInstanceAs (Decidable (_ ∧ _))

/-- The rows of the accrual query, joined with their users. -/
def accrualRows (db : Db) (proxyId : Option Nat) (includeSuspect : Bool) : List (Proxy × User) :=
  (db.proxies.filter fun r => r.Accruable includeSuspect ∧ ∀ i ∈ proxyId, r.id = i).filterMap
    fun r => (db.user? r.userId).map (r, ·)

/-- `_accrue_eligible_time_locked`. -/
def accrueEligibleTimeLocked (db : Db) (current : Timestamp) (proxyId : Option Nat)
    (includeSuspect : Bool) : Tx Db :=
  (accrualRows db proxyId includeSuspect).foldlM
    (fun acc row => accrueRow current (healthStaleMinutes db) acc row.1 row.2) db

/-- `accrue_eligible_time`. -/
def accrueEligibleTime (db : Db) (now : Timestamp) : Tx Db :=
  accrueEligibleTimeLocked db now none false

/-- `accrue_proxy_time`. -/
def accrueProxyTime (db : Db) (proxyId : Nat) (now : Timestamp) : Tx Db :=
  accrueEligibleTimeLocked db now (some proxyId) true

/-- `balances_for_user(…).available_micro_usd` and its pending sibling. -/
def balanceForUser (db : Db) (userId : Nat) (bucket : Bucket) : Nat :=
  ((db.ledger.filter fun e => e.userId = userId ∧ e.bucket = bucket).map LedgerEntry.microUsd).sum

end EarnProxy
