import Mathlib.Data.Int.Order.Basic
import EarnProxy.IpAddress
import EarnProxy.Library.Table

/-!
# The database

The tables of `app/db.py` that the services below read and write, with their constraints. A column
keeps the name it has in the schema. Columns that no modelled function reads (ciphertexts, probe
diagnostics, `updated_at`) are left out.

Instants are microseconds on one UTC axis. Stored timestamps compare as instants: a text written by
`isoformat` in UTC sorts the way its instant does.
-/

namespace EarnProxy

/-- A UTC datetime, in microseconds. -/
abbrev Timestamp := Int

/-- The order of the instants, as it is computed. -/
instance : Preorder Timestamp := Int.instLinearOrder.toPreorder

def seconds (n : Int) : Int := n * 1000000
def minutes (n : Int) : Int := seconds (n * 60)
def hours (n : Int) : Int := seconds (n * 3600)

/-- `max(0, int(delta.total_seconds()))`. -/
def wholeSeconds (delta : Int) : Nat := (delta / 1000000).toNat

theorem wholeSeconds_pos {delta : Int} (h : wholeSeconds delta ≠ 0) : 0 < delta := by
  unfold wholeSeconds at h
  omega

inductive UserStatus where
  | pending | active | blocked | deleted
  deriving DecidableEq, Repr

inductive Role where
  | user | admin
  deriving DecidableEq, Repr

structure User where
  id : Nat
  role : Role := .user
  status : UserStatus := .pending
  earnPaused : Bool := false
  sessionVersion : Nat := 1
  deriving DecidableEq, Repr

inductive ProxyStatus where
  | pending | online | suspect | offline | blocked | archived
  deriving DecidableEq, Repr

inductive Eligibility where
  | pending | allow | risk
  deriving DecidableEq, Repr

/-- `EARNING_ELIGIBILITIES`. -/
def Eligibility.Earning (e : Eligibility) : Prop := e = .allow ∨ e = .risk

instance (e : Eligibility) : Decidable e.Earning := inferInstanceAs (Decidable (_ ∨ _))

@[simp] theorem Eligibility.not_earning_pending : ¬ Eligibility.pending.Earning := by decide

/-- The trusted values of `egress_attestation_source`; the empty text is `none`. -/
inductive AttestationSource where
  | httpsQuorum | earnappTls
  deriving DecidableEq, Repr

inductive HealthMode where
  | strong | fast
  deriving DecidableEq, Repr

structure Proxy where
  id : Nat
  userId : Nat
  host : String
  port : Nat
  protocolHint : String := "auto"
  detectedProtocol : String := "unknown"
  credentialFingerprint : String
  credentialGeneration : Nat := 1
  credentialStartedAt : Timestamp
  status : ProxyStatus := .pending
  eligibility : Eligibility := .pending
  earnappNextCheckAt : Option Timestamp := none
  egressVerifiedAt : Option Timestamp := none
  egressAttestationSource : Option AttestationSource := none
  earnappClaimedUntil : Option Timestamp := none
  earnappClaimToken : Option String := none
  exitIp : Option IpAddress := none
  countryCode : String := ""
  duplicateOf : Option Nat := none
  consecutiveFailures : Nat := 0
  onlineSince : Option Timestamp := none
  offlineSince : Option Timestamp := none
  lastSuccessAt : Option Timestamp := none
  nextCheckAt : Option Timestamp
  checkClaimedUntil : Option Timestamp := none
  checkClaimToken : Option String := none
  healthMode : HealthMode := .strong
  nextProbeIndex : Nat := 0
  accrualCursorAt : Option Timestamp
  probationStartedAt : Option Timestamp
  accumulatedOnlineSeconds : Nat := 0
  accumulatedOfflineSeconds : Nat := 0
  continuousDeadSince : Option Timestamp := none
  archivedAt : Option Timestamp := none
  createdAt : Timestamp
  deriving DecidableEq, Repr

/-- The columns in which the health checker keeps its state. -/
structure Health where
  status : ProxyStatus
  consecutiveFailures : Nat
  onlineSince : Option Timestamp
  offlineSince : Option Timestamp
  accumulatedOnlineSeconds : Nat
  accumulatedOfflineSeconds : Nat
  continuousDeadSince : Option Timestamp
  archivedAt : Option Timestamp
  deriving DecidableEq, Repr

def Proxy.health (r : Proxy) : Health :=
  { status := r.status, consecutiveFailures := r.consecutiveFailures, onlineSince := r.onlineSince
    offlineSince := r.offlineSince, accumulatedOnlineSeconds := r.accumulatedOnlineSeconds
    accumulatedOfflineSeconds := r.accumulatedOfflineSeconds
    continuousDeadSince := r.continuousDeadSince, archivedAt := r.archivedAt }

inductive Bucket where
  | pending | available | expired
  deriving DecidableEq, Repr

structure LedgerEntry where
  id : Nat
  userId : Nat
  proxyId : Nat
  startedAt : Timestamp
  endedAt : Timestamp
  microUsd : Nat
  bucket : Bucket
  createdAt : Timestamp
  deriving DecidableEq, Repr

/-- The columns of `UNIQUE(proxy_id, started_at, ended_at, bucket)`. -/
def LedgerEntry.key (e : LedgerEntry) : Nat × Timestamp × Timestamp × Bucket :=
  (e.proxyId, e.startedAt, e.endedAt, e.bucket)

structure Wallet where
  id : Nat
  userId : Nat
  address : String
  lockedUntil : Timestamp
  deriving DecidableEq, Repr

inductive PayoutStatus where
  | requested | approved | verifying | confirmed | failed | sent
  deriving DecidableEq, Repr

structure Payout where
  id : Nat
  userId : Nat
  walletId : Nat
  walletAddress : String
  amountMicroUsd : Nat
  feeBps : Nat
  feeMicroUsd : Nat
  netMicroUsd : Nat
  processingDueAt : Timestamp
  status : PayoutStatus := .requested
  txHash : String := ""
  verificationError : String := ""
  verificationAttempts : Nat := 0
  nextVerificationAt : Option Timestamp := none
  verifiedAt : Option Timestamp := none
  confirmations : Nat := 0
  txBlockNumber : Option Nat := none
  verificationClaimedUntil : Option Timestamp := none
  verificationClaimToken : Option String := none
  createdAt : Timestamp
  deriving DecidableEq, Repr

/-- The checker settings as `int(get_setting(…))` reads them; `none` is a missing or unreadable
value. -/
structure Settings where
  healthIntervalMinutes : Option Int := none
  healthConcurrency : Option Int := none
  healthRetryFirstMinutes : Option Int := none
  healthRetrySecondMinutes : Option Int := none
  healthStaleMinutes : Option Int := none
  earnappRefreshHours : Option Int := none
  deriving DecidableEq, Repr

/-- Only `wallets` loses rows, so only its `AUTOINCREMENT` needs the sequence that SQLite keeps.
`insertsIgnored` counts the inserts that `INSERT OR IGNORE` left out; no service reads it. -/
structure Db where
  users : List User := []
  proxies : List Proxy := []
  ledger : List LedgerEntry := []
  wallets : List Wallet := []
  walletSequence : Nat := 0
  payouts : List Payout := []
  settings : Settings := {}
  insertsIgnored : Nat := 0
  deriving DecidableEq, Repr

/-- What a service raises. -/
inductive DbError where
  | valueError (message : String)
  | lookupError (message : String)
  | duplicateCredential
  | proxyQuotaExceeded (message : String)
  | payoutQuotaExceeded (message : String)
  | walletInUse (message : String)
  | walletLocked (message : String)
  | ledgerUnique
  | foreignKey
  deriving DecidableEq, Repr

/-- One transaction: the new database, or an error that rolls it back. -/
abbrev Tx (α : Type) := Except DbError α

def Db.user? (db : Db) (id : Nat) : Option User := Table.lookup User.id id db.users

def Db.proxy? (db : Db) (id : Nat) : Option Proxy := Table.lookup Proxy.id id db.proxies

/-- `UPDATE proxies SET f WHERE p`. -/
def Db.updateProxies (db : Db) (p : Proxy → Prop) [DecidablePred p] (f : Proxy → Proxy) : Db :=
  { db with proxies := Table.update p f db.proxies }

/-- `UPDATE proxies SET f WHERE id=?`. -/
def Db.updateProxy (db : Db) (id : Nat) (f : Proxy → Proxy) : Db :=
  db.updateProxies (fun r => r.id = id) f

/-- `UPDATE earnings_ledger SET bucket WHERE p`, which a second entry with the same key aborts. -/
def Db.moveEntries (db : Db) (p : LedgerEntry → Prop) [DecidablePred p] (bucket : Bucket) :
    Tx Db :=
  let ledger := Table.update p (fun e => { e with bucket := bucket }) db.ledger
  if (ledger.map LedgerEntry.key).Nodup then .ok { db with ledger := ledger }
  else .error .ledgerUnique

/-- `INSERT OR IGNORE INTO earnings_ledger`. -/
def Db.insertEntry (db : Db) (e : LedgerEntry) : Db :=
  if e.key ∈ db.ledger.map LedgerEntry.key then { db with insertsIgnored := db.insertsIgnored + 1 }
  else { db with ledger := db.ledger ++ [e] }

end EarnProxy
