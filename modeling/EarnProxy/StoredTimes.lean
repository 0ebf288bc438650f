import EarnProxy.Library.Utf8
import EarnProxy.Library.WhereClause
import EarnProxy.ProbeClaims
import EarnProxy.RateLimits
import EarnProxy.Swap.SyncRuns

/-!
# Stored timestamps

SQLite compares the timestamps of the tables as texts, byte by byte. The clauses below are those of
the statements that compare a column with a bound that `isoformat` has written. They select the rows
that a comparison of the instants would select, which is how the other modules read them.
-/

namespace EarnProxy

open IsoFormat Sql

/-- The bytes of a stored timestamp. -/
def storedText (t : DateTime) : List Nat := Utf8.encode t.chars

/-- The texts have two lengths, so this compares the `+` of one with the `.` of another. -/
theorem storedText_strictMono : StrictMono storedText := fun _ _ h =>
  Utf8.encode_strictMono (DateTime.chars_lt h)

example : storedText ⟨0, by decide⟩ < storedText ⟨1, by decide⟩ := by decide

/-! ## The statements -/

/-- The columns that the clauses compare. A statement reads the columns of one table. -/
inductive TimeColumn where
  | archivedAt | nextCheckAt | checkClaimedUntil | lastCheckedAt | lastSuccessAt
  | earnappNextCheckAt | earnappClaimedUntil | continuousDeadSince | startedAt | attemptedAt
  | nextVerificationAt | verificationClaimedUntil | consumedAt | expiresAt | claimedUntil
  | dashboardObservedAt | dashboardNextObserveAt | egressVerifiedAt | replacementReadyAt
  | qualificationNextCheckAt | qualificationClaimedUntil
  deriving DecidableEq, Repr

/-- What a clause asks of the other columns and tables, and, in the query of the browser worker,
whether a swap of the subscription waits for an observation. -/
inductive RowTest where
  | others | handoff
  deriving DecidableEq, Repr

abbrev Clause := Condition TimeColumn RowTest DateTime

/-- `(c IS NULL OR c <= ?)`. -/
def nullOrPast (c : TimeColumn) (bound : DateTime) : Clause :=
  .or (.isNull c) (.compare c .le bound)

/-- `c IS NOT NULL AND c <= ?`. -/
def setAndPast (c : TimeColumn) (bound : DateTime) : Clause :=
  .and (.notNull c) (.compare c .le bound)

/-- The statements with their bounds. -/
inductive TimeQuery where
  -- `operational_stats`; the runner of the checks asks `overdue` as well
  | overdue (now : DateTime)
  | staleOnline (cutoff : DateTime)
  | recentChecks (since : DateTime)
  -- the claims of the checks, which `_health_queue_due` and `_earnapp_queue_due` repeat
  | claimDueProxies (now : DateTime)
  | claimPriority (now : DateTime)
  | claimDueEarnapp (now : DateTime)
  -- what a sweep leaves behind
  | healthRemaining (now : DateTime)
  | earnappRemaining (now : DateTime)
  | archiveDueDeadProxies (cutoff : DateTime)
  -- `_accrue_eligible_time_locked`
  | unlockPending (probation : DateTime)
  -- `admit_registration_attempt` and `admit_login_attempt`
  | forgetAttempts (cutoff : DateTime)
  -- `_claim_one` of the payout verifier
  | claimVerification (now : DateTime)
  | holdVerification (now : DateTime)
  -- `create_api_key_reveal` and `consume_api_key_reveal`
  | forgetReveals (now : DateTime)
  | consumeReveal (now : DateTime)
  -- `claim_next_swap`
  | releaseSwaps (now : DateTime)
  | claimNextSwap (now : DateTime)
  -- `SwapDecision.for_subscription` and `queue_eligible_swaps`
  | freshAssignments (cutoff future : DateTime)
  | queueEligibleSwaps (cutoff future now : DateTime)
  -- `claim_sync_run`; `_renew_sync_lease` asks `activeSyncRun` of its own row
  | expireSyncLeases (now : DateTime)
  | activeSyncRun (now : DateTime)
  -- `_claim` of the qualification worker
  | claimQualification (now : DateTime)
  -- `_observation_due` and `_subscriptions` of the browser worker
  | observationDue (now : DateTime)
  | dueSubscriptions (now : DateTime)
  -- the list of the internal API
  | liveProxies (cutoff future : DateTime)
  | liveAssignments (stale dashboard future now : DateTime)
  -- `_provider_action_allowed`
  | forgetActions (cutoff : DateTime)
  | countActions (cutoff : DateTime)

/-- The `WHERE` clauses. -/
def TimeQuery.clause : TimeQuery → Clause
  | overdue now => .and (.and (.isNull .archivedAt) (.test .others)) (.compare .nextCheckAt .le now)
  | staleOnline cutoff =>
    .and (.and (.isNull .archivedAt) (.test .others))
      (.or (.isNull .lastSuccessAt) (.compare .lastSuccessAt .lt cutoff))
  | recentChecks since => .and (.isNull .archivedAt) (.compare .lastCheckedAt .ge since)
  | claimDueProxies now =>
    .and (.and (.and (.isNull .archivedAt) (.test .others))
      (.or (nullOrPast .nextCheckAt now) (setAndPast .checkClaimedUntil now)))
      (nullOrPast .checkClaimedUntil now)
  | claimPriority now => setAndPast .checkClaimedUntil now
  | healthRemaining now =>
    .and (.and (.isNull .archivedAt) (.test .others))
      (.or (nullOrPast .nextCheckAt now) (setAndPast .checkClaimedUntil now))
  | claimDueEarnapp now =>
    .and (.and (.and (.isNull .archivedAt) (.test .others)) (nullOrPast .earnappNextCheckAt now))
      (nullOrPast .earnappClaimedUntil now)
  | earnappRemaining now =>
    .and (.and (.isNull .archivedAt) (.test .others)) (nullOrPast .earnappNextCheckAt now)
  | archiveDueDeadProxies cutoff =>
    .and (.and (.isNull .archivedAt) (.test .others)) (setAndPast .continuousDeadSince cutoff)
  | unlockPending probation => .and (.test .others) (.compare .startedAt .ge probation)
  | forgetAttempts cutoff => .compare .attemptedAt .le cutoff
  | claimVerification now =>
    .and (.and (.test .others) (nullOrPast .nextVerificationAt now))
      (nullOrPast .verificationClaimedUntil now)
  | holdVerification now => .and (.test .others) (nullOrPast .verificationClaimedUntil now)
  | forgetReveals now => .or (.notNull .consumedAt) (.compare .expiresAt .le now)
  | consumeReveal now =>
    .and (.and (.test .others) (.isNull .consumedAt)) (.compare .expiresAt .gt now)
  | releaseSwaps now => .and (.test .others) (setAndPast .claimedUntil now)
  | claimNextSwap now => .and (.test .others) (nullOrPast .claimedUntil now)
  | freshAssignments cutoff future =>
    .and (.and (.and (.test .others) (.notNull .dashboardObservedAt))
      (.compare .dashboardObservedAt .ge cutoff)) (.compare .dashboardObservedAt .le future)
  | queueEligibleSwaps cutoff future now =>
    .and (.and (.test .others) (.between .dashboardObservedAt cutoff future))
      (nullOrPast .replacementReadyAt now)
  | expireSyncLeases now => .and (.test .others) (nullOrPast .claimedUntil now)
  | activeSyncRun now => .and (.test .others) (.compare .claimedUntil .gt now)
  | claimQualification now =>
    .and (.and (.and (.test .others) (nullOrPast .replacementReadyAt now))
      (.or (nullOrPast .qualificationNextCheckAt now) (setAndPast .qualificationClaimedUntil now)))
      (nullOrPast .qualificationClaimedUntil now)
  | observationDue now =>
    .and (.test .others) (.or (nullOrPast .dashboardNextObserveAt now) (.test .handoff))
  | dueSubscriptions now => .and (.test .others) (nullOrPast .dashboardNextObserveAt now)
  | liveProxies cutoff future =>
    .and (.and (.and (.and (.isNull .archivedAt) (.test .others)) (.notNull .lastSuccessAt))
      (.compare .lastSuccessAt .ge cutoff)) (.compare .lastSuccessAt .le future)
  | liveAssignments stale dashboard future now =>
    .and (.and (.and (.and (.test .others) (.between .dashboardObservedAt dashboard future))
      (.between .egressVerifiedAt stale future)) (.between .lastCheckedAt stale future))
      (nullOrPast .replacementReadyAt now)
  | forgetActions cutoff => .and (.test .others) (.compare .attemptedAt .lt cutoff)
  | countActions cutoff => .and (.test .others) (.compare .attemptedAt .ge cutoff)

/-- SQLite selects a row with these stored columns, comparing texts. -/
def TimeQuery.SelectsText (q : TimeQuery) (columns : TimeColumn → Option (List Nat))
    (tests : RowTest → Truth) : Prop :=
  (q.clause.map storedText).Selects columns tests

instance (q : TimeQuery) (columns : TimeColumn → Option (List Nat)) (tests : RowTest → Truth) :
    Decidable (q.SelectsText columns tests) := inferInstanceAs (Decidable (_ = _))

/-- A comparison of the instants would select the row. -/
def TimeQuery.SelectsTime (q : TimeQuery) (columns : TimeColumn → Option DateTime)
    (tests : RowTest → Truth) : Prop :=
  q.clause.Selects columns tests

instance (q : TimeQuery) (columns : TimeColumn → Option DateTime) (tests : RowTest → Truth) :
    Decidable (q.SelectsTime columns tests) := inferInstanceAs (Decidable (_ = _))

theorem selectsText_iff (q : TimeQuery) (columns : TimeColumn → Option DateTime)
    (tests : RowTest → Truth) :
    q.SelectsText (fun c => (columns c).map storedText) tests ↔ q.SelectsTime columns tests :=
  Condition.selects_map storedText_strictMono q.clause

/-- Stored timestamps order as their instants, and the statements select the rows that a comparison
of the instants would select. -/
theorem stored_times_compare :
    (∀ t t' : DateTime,
      (storedText t < storedText t' ↔ t.micros < t'.micros) ∧
      (storedText t ≤ storedText t' ↔ t.micros ≤ t'.micros) ∧
      (storedText t = storedText t' ↔ t.micros = t'.micros)) ∧
    ∀ (q : TimeQuery) (columns : TimeColumn → Option DateTime) (tests : RowTest → Truth),
      q.SelectsText (fun c => (columns c).map storedText) tests ↔ q.SelectsTime columns tests := by
  constructor
  · intro t t'
    refine ⟨storedText_strictMono.lt_iff_lt, storedText_strictMono.le_iff_le, ?_⟩
    rw [storedText_strictMono.injective.eq_iff]
    exact DateTime.micros_injective.eq_iff.symm
  · exact selectsText_iff

/-! ## The clauses of the models -/

/-- The instant on the axis of the models. -/
def timestamp (t : DateTime) : Timestamp := t.micros

@[simp] theorem timestamp_le {t t' : DateTime} : timestamp t ≤ timestamp t' ↔ t ≤ t' := by
  simp [timestamp, DateTime.le_iff]

@[simp] theorem timestamp_lt {t t' : DateTime} : timestamp t < timestamp t' ↔ t < t' := by
  simp [timestamp, DateTime.lt_iff]

variable {columns : TimeColumn → Option DateTime} {tests : RowTest → Truth} {c : TimeColumn}
  {bound : DateTime}

@[simp] theorem selects_nullOrPast :
    (nullOrPast c bound).Selects columns tests ↔ ∀ t ∈ columns c, t ≤ bound := by
  rw [nullOrPast, Condition.selects_or, Condition.selects_isNull, Condition.selects_compare]
  cases columns c <;> simp [Comparison.Holds]

@[simp] theorem selects_setAndPast :
    (setAndPast c bound).Selects columns tests ↔ ∃ t ∈ columns c, t ≤ bound := by
  rw [setAndPast, Condition.selects_and, Condition.selects_notNull, Condition.selects_compare]
  cases columns c <;> simp [Comparison.Holds]

/-- The other conditions hold just when `p` does. -/
def othersAre (p : Prop) [Decidable p] : RowTest → Truth := fun _ => some (decide p)

@[simp] theorem othersAre_eq_true {p : Prop} [Decidable p] {t : RowTest} :
    othersAre p t = some true ↔ p := by simp [othersAre]

section

/-- The instants in the columns of a proxy. -/
structure Proxy.HasTimes (r : Proxy) (columns : TimeColumn → Option DateTime) : Prop where
  archivedAt : r.archivedAt = (columns .archivedAt).map timestamp
  nextCheckAt : r.nextCheckAt = (columns .nextCheckAt).map timestamp
  checkClaimedUntil : r.checkClaimedUntil = (columns .checkClaimedUntil).map timestamp
  earnappNextCheckAt : r.earnappNextCheckAt = (columns .earnappNextCheckAt).map timestamp
  earnappClaimedUntil : r.earnappClaimedUntil = (columns .earnappClaimedUntil).map timestamp
  continuousDeadSince : r.continuousDeadSince = (columns .continuousDeadSince).map timestamp

variable {r : Proxy} (hr : r.HasTimes columns)
include hr

theorem healthDue_iff (db : Db) (now : DateTime) : r.HealthDue db (timestamp now) ↔
    (TimeQuery.claimDueProxies now).SelectsText (fun c => (columns c).map storedText)
      (othersAre (r.OwnerActive db)) := by
  rw [selectsText_iff]
  delta TimeQuery.SelectsTime TimeQuery.clause
  dsimp only
  unfold Proxy.HealthDue Proxy.ClaimExpired
  rw [hr.archivedAt, hr.nextCheckAt, hr.checkClaimedUntil]
  simp [and_assoc]

theorem earnappDue_iff (db : Db) (now : DateTime) : r.EarnappDue db (timestamp now) ↔
    (TimeQuery.claimDueEarnapp now).SelectsText (fun c => (columns c).map storedText)
      (othersAre (r.status = .online ∧ r.OwnerActive db)) := by
  rw [selectsText_iff]
  delta TimeQuery.SelectsTime TimeQuery.clause
  dsimp only
  unfold Proxy.EarnappDue
  rw [hr.archivedAt, hr.earnappNextCheckAt, hr.earnappClaimedUntil]
  simp [and_assoc]

theorem deadSince_iff (cutoff : DateTime) : r.DeadSince (timestamp cutoff) ↔
    (TimeQuery.archiveDueDeadProxies cutoff).SelectsText (fun c => (columns c).map storedText)
      (othersAre (r.status = .offline)) := by
  rw [selectsText_iff]
  delta TimeQuery.SelectsTime TimeQuery.clause
  dsimp only
  unfold Proxy.DeadSince
  rw [hr.archivedAt, hr.continuousDeadSince]
  simp [and_assoc]

end

/-- The entries that `unlockCycle` moves. -/
theorem unlocks_iff {e : LedgerEntry} {startedAt : DateTime}
    (he : e.startedAt = timestamp startedAt) (hcolumn : columns .startedAt = some startedAt)
    (proxyId : Nat) (probation : DateTime) :
    (e.proxyId = proxyId ∧ e.bucket = .pending ∧ timestamp probation ≤ e.startedAt) ↔
      (TimeQuery.unlockPending probation).SelectsText (fun c => (columns c).map storedText)
        (othersAre (e.proxyId = proxyId ∧ e.bucket = .pending)) := by
  rw [selectsText_iff, he]
  delta TimeQuery.SelectsTime TimeQuery.clause
  dsimp only
  simp [hcolumn, Comparison.Holds, and_assoc]

/-- The attempts that a gate keeps. -/
theorem attempt_kept_iff {a : Attempt} {attemptedAt : DateTime}
    (ha : a.attemptedAt = attemptedAt.isoformat) (hcolumn : columns .attemptedAt = some attemptedAt)
    (cutoff : DateTime) : ¬ TextLe a.attemptedAt cutoff.isoformat ↔
      ¬ (TimeQuery.forgetAttempts cutoff).SelectsText (fun c => (columns c).map storedText)
        tests := by
  rw [selectsText_iff, ha, isoformat_le_iff]
  delta TimeQuery.SelectsTime TimeQuery.clause
  dsimp only
  simp [hcolumn, Comparison.Holds, DateTime.le_iff]

namespace Swap

section

variable {j : Job} (hj : j.claimedUntil = (columns .claimedUntil).map timestamp)
include hj

theorem leaseOver_iff (now : DateTime) : j.LeaseOver (timestamp now) ↔
    (TimeQuery.releaseSwaps now).SelectsText (fun c => (columns c).map storedText)
      (othersAre (j.state = .running)) := by
  rw [selectsText_iff]
  delta TimeQuery.SelectsTime TimeQuery.clause
  dsimp only
  unfold Job.LeaseOver
  rw [hj]
  simp

theorem claimable_iff (db : Db) (jobId : Option Nat) (now : DateTime) :
    j.Claimable db (timestamp now) jobId ↔
      (TimeQuery.claimNextSwap now).SelectsText (fun c => (columns c).map storedText)
        (othersAre ((∀ i ∈ jobId, j.id = i) ∧ j.state = .pending ∧ ¬ db.SiblingInFlight j)) := by
  rw [selectsText_iff]
  delta TimeQuery.SelectsTime TimeQuery.clause
  dsimp only
  have huntil : (∀ until_ ∈ j.claimedUntil, until_ ≤ timestamp now) ↔
      ∀ until_ ∈ columns .claimedUntil, until_ ≤ now := by
    rw [hj]
    simp
  unfold Job.Claimable
  rw [huntil, Condition.selects_and, Condition.selects_test, othersAre_eq_true, selects_nullOrPast]
  constructor
  · rintro ⟨hid, hstate, hover, hfree⟩
    exact ⟨⟨hid, hstate, hfree⟩, hover⟩
  · rintro ⟨⟨hid, hstate, hfree⟩, hover⟩
    exact ⟨hid, hstate, hover, hfree⟩

end

section

variable {run : SyncRun} (hrun : run.claimedUntil = (columns .claimedUntil).map timestamp)
include hrun

theorem abandoned_iff (now : DateTime) : run.Abandoned (timestamp now) ↔
    (TimeQuery.expireSyncLeases now).SelectsText (fun c => (columns c).map storedText)
      (othersAre (run.status = .running)) := by
  rw [selectsText_iff]
  delta TimeQuery.SelectsTime TimeQuery.clause
  dsimp only
  unfold SyncRun.Abandoned
  rw [hrun]
  simp

theorem owned_iff (token : String) (now : DateTime) : run.Owned token (timestamp now) ↔
    (TimeQuery.activeSyncRun now).SelectsText (fun c => (columns c).map storedText)
      (othersAre (run.status = .running ∧ run.claimToken = some token)) := by
  rw [selectsText_iff]
  delta TimeQuery.SelectsTime TimeQuery.clause
  dsimp only
  unfold SyncRun.Owned
  rw [hrun]
  simp [Comparison.Holds, and_assoc]

end

end Swap

end EarnProxy
