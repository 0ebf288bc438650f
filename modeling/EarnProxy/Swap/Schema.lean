import Mathlib.Data.Prod.Lex
import EarnProxy.Schema

/-!
# The provider tables

The tables of `app/services/proxiware_swap.py` and of the inventory that its swap jobs work on.
Every statement of the source filters on `provider='proxiware'`, so only these rows are here.
Columns that no modelled function reads (raw metadata, countries, fingerprints, diagnostic error
codes, the `last_swap_*` and `dashboard_next_observe_at` columns of a subscription) are left out.
-/

namespace EarnProxy.Swap

/-- A ciphertext column and its copy for the workers, each as the text that it decrypts to. -/
structure Secret where
  global : Option String := some ""
  worker : Option String := some ""
  deriving DecidableEq, Repr

/-- `RUNTIME_PROFILE`: which of the two keys a process has. -/
inductive Profile where
  | web | worker
  deriving DecidableEq, Repr

/-- `decrypt_assignment_secret`; `none` is its `ValueError`. -/
def Secret.decrypt (secret : Secret) : Profile → Option String
  | .web => secret.global
  | .worker => secret.worker.filter (· ≠ "")

/-- `encrypt_assignment_secret`. -/
def Secret.encrypt (text : String) : Secret := ⟨some text, some text⟩

structure Subscription where
  id : Nat
  externalId : String
  status : String := "active"
  /-- An epoch; a stored date has no value here. -/
  expiresAt : Option Int := none
  eligibleCount : Option Int := none
  swapQuota : Int := -1
  swapUsed : Int := 0
  lastSeenAt : Timestamp
  missingAt : Option Timestamp := none
  updatedAt : Timestamp
  deriving DecidableEq, Repr

structure Assignment where
  id : Nat
  subscriptionId : Nat
  externalId : String
  host : String
  port : Nat
  username : Secret := {}
  password : Secret := {}
  identityGeneration : Nat := 1
  status : String := "active"
  qualification : String := "pending"
  providerEligible : Bool := false
  liveStatus : String := "pending"
  protocol : String := "unknown"
  exitIp : Option String := none
  egressVerifiedAt : Option Timestamp := none
  lastCheckedAt : Option Timestamp := none
  duplicateEgress : Bool := false
  distributionEnabled : Bool := false
  qualificationNextCheckAt : Option Timestamp := none
  qualificationClaimedUntil : Option Timestamp := none
  qualificationClaimToken : Option String := none
  qualificationAttempts : Nat := 0
  dashboardAssignmentId : Option String := none
  dashboardEligible : Option Bool := none
  dashboardConnections : Option Int := none
  dashboardObservedAt : Option Timestamp := none
  dashboardSource : String := ""
  lastSeenAt : Option Timestamp := none
  missingAt : Option Timestamp := none
  replacementReadyAt : Option Timestamp := none
  updatedAt : Timestamp
  deriving DecidableEq, Repr

/-- The states that this release writes; a text of another release has no value here. -/
inductive JobState where
  | pending | running | mutating | providerApplied | reconciliationRequired
  | success | blocked | failed | canceled
  deriving DecidableEq, Repr

inductive JobReason where
  | queued | awaitingDashboard | guardFailed | providerMutation | providerApplied
  | reconciliationRequired | swapped | reconciledNoProviderChange | manualActionRequired
  | providerBlocked | retryScheduled | canceled | manualRetry | manualRequested | migrationConflict
  deriving DecidableEq, Repr

/-- `PRE_MUTATION_SWAP_STATES`. -/
def JobState.PreMutation (s : JobState) : Prop := s = .pending ∨ s = .running

/-- `MUTATION_SWAP_STATES`. -/
def JobState.Mutation (s : JobState) : Prop :=
  s = .mutating ∨ s = .providerApplied ∨ s = .reconciliationRequired

/-- `ACTIVE_SWAP_STATES`. -/
def JobState.Active (s : JobState) : Prop := s.PreMutation ∨ s.Mutation

/-- The states that keep a sibling from being claimed. -/
def JobState.InFlight (s : JobState) : Prop := s = .running ∨ s.Mutation

instance (s : JobState) : Decidable s.PreMutation := inferInstanceAs (Decidable (_ ∨ _))
instance (s : JobState) : Decidable s.Mutation := inferInstanceAs (Decidable (_ ∨ _))
instance (s : JobState) : Decidable s.Active := inferInstanceAs (Decidable (_ ∨ _))
instance (s : JobState) : Decidable s.InFlight := inferInstanceAs (Decidable (_ ∨ _))

/-- What `dashboard_address_endpoint` reads from an address: a host in its canonical spelling, and a
port. `normalize_dashboard_address` writes a text of it that is read back as the same endpoint if it
has 512 characters at most, so a normalized column holds the endpoint itself. -/
structure Endpoint where
  host : String
  port : Option Nat
  deriving DecidableEq, Repr

structure Job where
  id : Nat
  subscriptionId : Nat
  oldAssignmentId : Option Nat
  newAssignmentId : Option Nat := none
  state : JobState := .pending
  reason : JobReason := .queued
  errorCode : String := ""
  attempts : Nat := 0
  claimToken : Option String := none
  claimedUntil : Option Timestamp := none
  blockedAt : Option Timestamp := none
  mutationStartedAt : Option Timestamp := none
  providerAppliedAt : Option Timestamp := none
  reconciliationRequiredAt : Option Timestamp := none
  mutationOldAssignmentExternalId : Option String := none
  mutationOldAssignmentAddress : Option String := none
  mutationDashboardAssignmentId : Option String := none
  mutationSubscriptionExternalId : Option String := none
  mutationNewAssignmentExternalId : Option String := none
  mutationNewAssignmentAddress : Option Endpoint := none
  createdAt : Timestamp
  updatedAt : Timestamp
  deriving DecidableEq, Repr

structure Mapping where
  swapJobId : Nat
  oldAssignmentExternalId : String
  newAssignmentExternalId : String
  successAt : Timestamp
  deriving DecidableEq, Repr

/-- A setting that is read by `int(get_setting(…))`. -/
inductive IntSetting where
  | absent | unreadable
  | value (n : Int)
  deriving DecidableEq, Repr

/-- The number with the default for an absent setting; `none` is a `ValueError`. -/
def IntSetting.read? (default : Int) : IntSetting → Option Int
  | .absent => some default
  | .unreadable => none
  | .value n => some n

/-- The number where the caller falls back to the default. -/
def IntSetting.read (default : Int) (s : IntSetting) : Int := (s.read? default).getD default

/-- The settings of the provider; a toggle is on when its text is `1`. -/
structure Settings where
  autoSwap : Bool := false
  autoSwapIntent : Option Bool := none
  automationPaused : Bool := false
  swapWorkerPaused : Bool := false
  eligibleThreshold : IntSetting := .absent
  dashboardMaxAgeSeconds : IntSetting := .absent
  cooldownSeconds : IntSetting := .absent
  retryLimit : IntSetting := .absent
  deriving DecidableEq, Repr

/-- Only assignments are deleted, so only their `AUTOINCREMENT` needs the sequence. -/
structure Db where
  subscriptions : List Subscription := []
  assignments : List Assignment := []
  assignmentSequence : Nat := 0
  jobs : List Job := []
  mappings : List Mapping := []
  settings : Settings := {}
  deriving DecidableEq, Repr

inductive SwapError where
  | lookupError (message : String)
  | valueError (message : String)
  /-- `SwapReconciliationPending`, a `ValueError` of its own. -/
  | reconciliationPending (message : String)
  | integrityError
  | typeError
  | osError
  deriving DecidableEq, Repr

/-- One transaction: the new database, or an error that rolls it back. -/
abbrev Tx (α : Type) := Except SwapError α

namespace Db

variable (db : Db)

def subscription? (i : Nat) : Option Subscription :=
  Table.lookup Subscription.id i db.subscriptions

def assignment? (i : Nat) : Option Assignment := Table.lookup Assignment.id i db.assignments

def job? (i : Nat) : Option Job := Table.lookup Job.id i db.jobs

/-- `_resolve_assignment`. -/
def resolveAssignment (externalId : String) : Option Assignment :=
  Table.lookup Assignment.externalId externalId db.assignments

/-- `UPDATE provider_subscriptions SET f WHERE id=?`. -/
def updateSubscription (i : Nat) (f : Subscription → Subscription) : Db :=
  { db with subscriptions := Table.update (fun s => s.id = i) f db.subscriptions }

/-- `UPDATE provider_assignments SET f WHERE p`. -/
def updateAssignments (p : Assignment → Prop) [DecidablePred p] (f : Assignment → Assignment) :
    Db :=
  { db with assignments := Table.update p f db.assignments }

def updateAssignment (i : Nat) (f : Assignment → Assignment) : Db :=
  db.updateAssignments (fun a => a.id = i) f

end Db

/-- The rows of `swap_jobs_one_active_assignment_idx`. -/
def activeKeys (jobs : List Job) : List Nat :=
  (jobs.filter fun j => j.state.Active).filterMap Job.oldAssignmentId

/-- The rows of `swap_jobs_one_mutation_subscription_idx`. -/
def mutationKeys (jobs : List Job) : List Nat :=
  (jobs.filter fun j => j.state.Mutation).map Job.subscriptionId

/-- Both unique indexes accept the rows. -/
def JobsUnique (jobs : List Job) : Prop := (activeKeys jobs).Nodup ∧ (mutationKeys jobs).Nodup

instance (jobs : List Job) : Decidable (JobsUnique jobs) := inferInstanceAs (Decidable (_ ∧ _))

/-- A statement on `swap_jobs`, which a violated index aborts. -/
def Db.writeJobs (db : Db) (jobs : List Job) : Tx Db :=
  if JobsUnique jobs then .ok { db with jobs := jobs } else .error .integrityError

/-- `UPDATE swap_jobs SET f WHERE p`. -/
def Db.updateJobs (db : Db) (p : Job → Prop) [DecidablePred p] (f : Job → Job) : Tx Db :=
  db.writeJobs (Table.update p f db.jobs)

/-- The statement of `updateJobs` with a check of its `rowcount`. -/
def Db.updateJobsOr (db : Db) (p : Job → Prop) [DecidablePred p] (f : Job → Job)
    (error : SwapError) : Tx Db :=
  if ∃ j ∈ db.jobs, p j then db.updateJobs p f else .error error

/-- `_pause_auto_swap_no_commit`. -/
def Db.pauseAutoSwap (db : Db) : Db :=
  { db with
    settings := { db.settings with
      autoSwapIntent := some (db.settings.autoSwapIntent.getD db.settings.autoSwap)
      autoSwap := false } }

end EarnProxy.Swap
