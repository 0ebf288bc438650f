import EarnProxy.Library.IsoFormat
import EarnProxy.Library.Transaction
import EarnProxy.Swap.Schema

/-!
# The guards of a swap

`SwapDecision.for_subscription` refuses at the first guard that does not pass. Error codes are taken
from a closed vocabulary before they are stored.
-/

namespace EarnProxy.Swap

/-- The reasons of a decision. -/
inductive GuardReason where
  | ready | manualActionRequired | notLive | duplicateEgress | notRisk | providerIneligible
  | dashboardStale | connectionsLimit | quotaExhausted | cooldown | subscriptionMutationInProgress
  deriving DecidableEq, Repr

def GuardReason.code : GuardReason → String
  | .ready => "ready"
  | .manualActionRequired => "manual_action_required"
  | .notLive => "not_live"
  | .duplicateEgress => "duplicate_egress"
  | .notRisk => "not_risk"
  | .providerIneligible => "provider_ineligible"
  | .dashboardStale => "dashboard_stale"
  | .connectionsLimit => "connections_limit"
  | .quotaExhausted => "quota_exhausted"
  | .cooldown => "cooldown"
  | .subscriptionMutationInProgress => "subscription_mutation_in_progress"

structure SwapDecision where
  allowed : Bool
  reason : GuardReason
  subscriptionId : Nat
  assignmentId : Option Nat := none
  deriving DecidableEq, Repr

/-- `str(value or "").strip().lower()`. -/
def normalized (text : String) : String := Text.lower (Text.strip text)

/-- The text is there and is not blank. -/
def present (text : Option String) : Bool := text.any fun t => Text.strip t ≠ ""

/-! ## Expiries -/

/-- The days from 1970-01-01 to a date. -/
def daysFromEpoch (year month day : Nat) : Int :=
  ((year - 1) * 365 + (year - 1) / 4 - (year - 1) / 100 + (year - 1) / 400 : Nat) +
    (((List.range month).tail.map (IsoFormat.daysInMonth year)).sum : Nat) + day - 719163

/-- The instant of a date `YYYYMMDD` and a time of day `HHMMSS`, if there are such. -/
def isoInstant (date time hundredths : Nat) : Option Timestamp :=
  let year := date / 10000
  let month := date / 100 % 100
  let day := date % 100
  let hour := time / 10000
  let minute := time / 100 % 100
  let second := time % 100
  if (0 < month ∧ month ≤ 12) ∧ (0 < day ∧ day ≤ IsoFormat.daysInMonth year month) ∧
      hour < 24 ∧ minute < 60 ∧ second < 60 then
    some (seconds
        (daysFromEpoch year month day * 86400 + (hour * 3600 + minute * 60 + second : Nat)) +
      hundredths * 10000)
  else none

/-- `datetime.fromisoformat` on the digits of an integer: a date, a digit in the place of the
separator, and `HHMM`, `HHMMSS` or `HHMMSS` with hundredths. Below twelve digits an integer is a
datetime itself; from eighteen on, one that a column can hold raises or has no such month. -/
def isoDigits (n : Nat) : Option Timestamp :=
  if 10 ^ 12 ≤ n ∧ n < 10 ^ 13 then isoInstant (n / 10 ^ 5) (n % 10 ^ 4 * 100) 0
  else if 10 ^ 14 ≤ n ∧ n < 10 ^ 15 then isoInstant (n / 10 ^ 7) (n % 10 ^ 6) 0
  else if 10 ^ 16 ≤ n ∧ n < 10 ^ 17 then isoInstant (n / 10 ^ 9) (n / 100 % 10 ^ 6) (n % 100)
  else none

/-- `gmtime` has no calendar year for the epoch, as the nearest floating-point number. From
`2 ** 63` on the epoch is no `time_t`, which is another error. -/
def NoGmtime (epoch : Int) : Prop :=
  (67768036191676796 ≤ epoch ∧ epoch < 9223372036854775296) ∨ epoch ≤ -67768040609740805

instance (epoch : Int) : Decidable (NoGmtime epoch) := inferInstanceAs (Decidable (_ ∨ _))

/-- `_expiry_is_past` of an epoch. The `OSError` of `gmtime` is not caught; an epoch that is no
datetime for another reason is read as an ISO text, and counts as past if it is none. -/
def expiryIsPast (expiresAt : Option Int) (now : Timestamp) : Tx Bool :=
  match expiresAt with
  | none => pure false
  | some epoch =>
    if -62135596800 ≤ epoch ∧ epoch ≤ 253402300799 then pure (decide (seconds epoch ≤ now))
    else if NoGmtime epoch then throw .osError
    else pure ((isoDigits epoch.toNat).all fun expiry => decide (expiry ≤ now))

example : expiryIsPast (some 2027010100000) 0 = .ok false ∧
    expiryIsPast (some 253402300800) 0 = .ok true ∧
    expiryIsPast (some 1700000000000000000) 0 = .error .osError := by decide

/-! ## Decisions -/

/-- The refusal of the first check that fails. -/
def refusal (checks : List (Bool × GuardReason)) : Option GuardReason :=
  (checks.find? Prod.fst).map Prod.snd

/-- `status IN ('active','current')`. -/
def Assignment.InUse (a : Assignment) : Prop := a.status = "active" ∨ a.status = "current"

instance (a : Assignment) : Decidable a.InUse := inferInstanceAs (Decidable (_ ∨ _))

/-- The guards on the row of a subscription. -/
def Subscription.refusal (s : Subscription) (current : Timestamp) : Tx (Option GuardReason) :=
  if normalized s.status ∉ ["active", "ready"] ∨ s.missingAt.isSome then
    pure (some .manualActionRequired)
  else do
    let past ← expiryIsPast s.expiresAt current
    pure (if past then some .manualActionRequired else none)

/-- `max(60, max_age)`, or `none` for a setting that is no number. -/
def dashboardMaxAge? (db : Db) : Option Int :=
  (db.settings.dashboardMaxAgeSeconds.read? 900).map (max 60)

/-- The dashboard was observed neither too long ago nor ahead of time. -/
def freshAt (maxAge : Int) (current observedAt : Timestamp) : Bool :=
  decide (current - observedAt ≤ seconds maxAge) && decide (observedAt - current ≤ seconds 60)

/-- The guards on the row of an assignment. -/
def Assignment.refusal (db : Db) (a : Assignment) (current : Timestamp) : Option GuardReason :=
  let fresh := (dashboardMaxAge? db).any fun maxAge =>
    a.dashboardObservedAt.any fun observedAt => freshAt maxAge current observedAt
  Swap.refusal
    [(decide (normalized a.liveStatus ∉ ["live", "online"]), .notLive),
      (a.duplicateEgress, .duplicateEgress),
      (decide (normalized a.qualification ≠ "risk"), .notRisk),
      (!a.providerEligible, .providerIneligible),
      (!present a.dashboardAssignmentId || a.dashboardObservedAt.isNone, .dashboardStale),
      (!fresh, .dashboardStale),
      (a.dashboardEligible.isNone, .dashboardStale),
      (a.dashboardEligible == some false, .providerIneligible),
      (a.dashboardConnections.isNone, .dashboardStale),
      (a.dashboardConnections.any (· < 0), .dashboardStale),
      (a.dashboardConnections.any (1000 ≤ ·), .connectionsLimit)]

/-- `eligible_count`, or the count of the dashboard rows where the official count is missing. -/
def eligibleCount (db : Db) (s : Subscription) (current : Timestamp) : Int :=
  s.eligibleCount.getD
    (db.assignments.filter fun a => a.subscriptionId = s.id ∧ a.InUse ∧ a.missingAt = none ∧
      a.dashboardEligible = some true ∧ ∃ maxAge ∈ dashboardMaxAge? db,
        ∃ observedAt ∈ a.dashboardObservedAt, freshAt maxAge current observedAt).length

/-- The jobs that hold a part of the quota. -/
def reservedJobs (db : Db) (subscriptionId : Nat) (excludeJobId : Option Nat) : List Job :=
  db.jobs.filter fun j =>
    j.subscriptionId = subscriptionId ∧ j.state.Active ∧ some j.id ≠ excludeJobId

/-- `quota >= 0 and quota <= used + reserved`. -/
def quotaExhausted (db : Db) (s : Subscription) (excludeJobId : Option Nat) : Bool :=
  decide (0 ≤ s.swapQuota ∧ s.swapQuota ≤ s.swapUsed + (reservedJobs db s.id excludeJobId).length)

/-- The assignment that a decision is about. -/
def decisionAssignment? (db : Db) (subscriptionId : Nat) : Option Nat → Option Assignment
  | none => (db.assignments.filter fun a => a.subscriptionId = subscriptionId ∧ a.InUse).argmax
      Assignment.id
  | some i => (db.assignment? i).filter fun a =>
      a.subscriptionId = subscriptionId ∧ a.InUse ∧ a.missingAt = none

/-- The guards behind those of the rows. -/
def countRefusal (db : Db) (s : Subscription) (a : Assignment) (current : Timestamp)
    (threshold : Int) (excludeJobId : Option Nat) : Option GuardReason :=
  let eligible := eligibleCount db s current
  refusal
    [(s.eligibleCount.isNone && decide (eligible ≤ 0), .manualActionRequired),
      (decide (max 1 threshold ≤ eligible), .providerIneligible),
      (quotaExhausted db s excludeJobId, .quotaExhausted),
      (a.replacementReadyAt.any fun ready => decide (current < ready), .cooldown)]

/-- `SwapDecision.for_subscription` behind the guards of the subscription. -/
def SwapDecision.forAssignment (db : Db) (s : Subscription) (current : Timestamp) (threshold : Int)
    (assignmentId excludeJobId : Option Nat) : SwapDecision :=
  let refuse (reason : GuardReason) (i : Option Nat) : SwapDecision :=
    { allowed := false, reason, subscriptionId := s.id, assignmentId := i }
  match decisionAssignment? db s.id assignmentId with
  | none => refuse .manualActionRequired none
  | some a =>
    match (a.refusal db current).or (countRefusal db s a current threshold excludeJobId) with
    | some reason => refuse reason (some a.id)
    | none =>
      { allowed := true, reason := .ready, subscriptionId := s.id, assignmentId := some a.id }

/-- `SwapDecision.for_subscription`. -/
def SwapDecision.forSubscription (db : Db) (subscriptionId : Nat) (current : Timestamp)
    (threshold : Int) (assignmentId excludeJobId : Option Nat) : Tx SwapDecision :=
  match db.subscription? subscriptionId with
  | none => pure { allowed := false, reason := .manualActionRequired, subscriptionId }
  | some s => do
    match ← s.refusal current with
    | some reason => pure { allowed := false, reason, subscriptionId }
    | none => pure (forAssignment db s current threshold assignmentId excludeJobId)

theorem refusal_eq_none {checks : List (Bool × GuardReason)} (h : refusal checks = none) :
    ∀ check ∈ checks, check.1 = false := by
  have hnone := List.find?_eq_none.mp (Option.map_eq_none_iff.mp h)
  intro check hcheck
  simpa using hnone check hcheck

/-- The guards come to the expiry of the subscription, which `gmtime` has no year for. -/
def Db.ExpiryRaises (db : Db) (subscriptionId : Nat) : Prop :=
  ∃ s ∈ db.subscription? subscriptionId, normalized s.status ∈ ["active", "ready"] ∧
    s.missingAt = none ∧ ∃ epoch ∈ s.expiresAt, NoGmtime epoch

theorem expiryIsPast_cases (expiresAt : Option Int) (now : Timestamp) :
    (∃ epoch ∈ expiresAt, NoGmtime epoch) ∧ expiryIsPast expiresAt now = .error .osError ∨
    (¬ ∃ epoch ∈ expiresAt, NoGmtime epoch) ∧ ∃ past, expiryIsPast expiresAt now = .ok past := by
  cases expiresAt with
  | none => exact .inr ⟨nofun, false, rfl⟩
  | some epoch =>
    simp only [Option.mem_some_iff, exists_eq_left', expiryIsPast]
    by_cases hrange : -62135596800 ≤ epoch ∧ epoch ≤ 253402300799
    · have hyear : ¬ NoGmtime epoch := by
        unfold NoGmtime
        omega
      exact .inr ⟨hyear, _, if_pos hrange⟩
    · rw [if_neg hrange]
      by_cases hyear : NoGmtime epoch
      · exact .inl ⟨hyear, if_pos hyear⟩
      · exact .inr ⟨hyear, _, if_neg hyear⟩

/-- A decision is made unless the expiry raises. -/
theorem SwapDecision.forSubscription_cases (db : Db) (subscriptionId : Nat) (current : Timestamp)
    (threshold : Int) (assignmentId excludeJobId : Option Nat) :
    db.ExpiryRaises subscriptionId ∧
      forSubscription db subscriptionId current threshold assignmentId excludeJobId =
        .error .osError ∨
    ¬ db.ExpiryRaises subscriptionId ∧ ∃ decision,
      forSubscription db subscriptionId current threshold assignmentId excludeJobId =
        .ok decision := by
  unfold Db.ExpiryRaises forSubscription
  cases db.subscription? subscriptionId with
  | none => exact .inr ⟨nofun, _, rfl⟩
  | some s =>
    simp only [Option.mem_some_iff, exists_eq_left', Subscription.refusal]
    by_cases hclosed : normalized s.status ∉ ["active", "ready"] ∨ s.missingAt.isSome
    · refine .inr ⟨?_, _, by rw [if_pos hclosed]; rfl⟩
      rintro ⟨hstatus, hmissing, -⟩
      rcases hclosed with h | h
      · exact h hstatus
      · rw [hmissing] at h
        cases h
    · obtain ⟨hstatus, hmissing⟩ := not_or.mp hclosed
      rw [if_neg hclosed]
      rcases expiryIsPast_cases s.expiresAt current with ⟨hyear, h⟩ | ⟨hyear, past, h⟩
      · rw [h]
        exact .inl ⟨⟨not_not.mp hstatus, by simpa using hmissing, hyear⟩, rfl⟩
      · rw [h]
        refine .inr ⟨fun hraises => hyear hraises.2.2, ?_⟩
        cases past <;> exact ⟨_, rfl⟩

/-- What an allowed decision has checked about the quota. -/
theorem SwapDecision.forSubscription_allowed {db : Db} {subscriptionId : Nat} {current : Timestamp}
    {threshold : Int} {assignmentId excludeJobId : Option Nat} {decision : SwapDecision}
    (h : forSubscription db subscriptionId current threshold assignmentId excludeJobId =
      .ok decision)
    (hallowed : decision.allowed) :
    ∃ s, db.subscription? subscriptionId = some s ∧ quotaExhausted db s excludeJobId = false := by
  unfold forSubscription at h
  cases hs : db.subscription? subscriptionId with
  | none =>
    rw [hs] at h
    obtain rfl := Except.ok.inj h
    cases hallowed
  | some s =>
    rw [hs] at h
    obtain ⟨refused, -, h⟩ := Transaction.ok_of_bind h
    refine ⟨s, rfl, ?_⟩
    cases refused with
    | some reason =>
      obtain rfl := Except.ok.inj h
      cases hallowed
    | none =>
      obtain rfl := Except.ok.inj h
      unfold forAssignment at hallowed
      split at hallowed
      · cases hallowed
      · rename_i a _
        split at hallowed
        · cases hallowed
        · rename_i hnone
          obtain ⟨-, hcount⟩ := Option.or_eq_none_iff.mp hnone
          exact refusal_eq_none hcount (quotaExhausted db s excludeJobId, .quotaExhausted) (by simp)

/-! ## Error codes -/

def isSafeChar (c : Char) : Bool :=
  ('a' ≤ c && c ≤ 'z') || ('0' ≤ c && c ≤ '9') || c == '_' || c == ':' || c == '-'

/-- `_SAFE_CODE.sub("_", …)`: each run of other characters becomes one underscore. -/
def collapseUnsafe : Bool → List Char → List Char
  | _, [] => []
  | inRun, c :: cs =>
    if isSafeChar c then c :: collapseUnsafe false cs
    else if inRun then collapseUnsafe true cs else '_' :: collapseUnsafe true cs

/-- The candidate of `_safe_code` and `_safe_guard_code`. -/
def codeCandidate (value : String) : String :=
  let cs := collapseUnsafe false (normalized value).toList
  let stripped := ((cs.dropWhile (· == '_')).reverse.dropWhile (· == '_')).reverse
  String.ofList (stripped.take 64)

/-- `SAFE_ERROR_CODES`. -/
def safeErrorCodes : List String :=
  ["captcha_required", "captcha_provider_error", "captcha_timeout", "csrf_failed",
    "fingerprint_failed", "login_failed", "manual_action_required", "session_expired",
    "subscription_scope_mismatch", "quota_exhausted", "stock_unavailable", "provider_forbidden",
    "provider_conflict", "provider_mutation_rejected", "provider_response_unconfirmed",
    "provider_timeout", "provider_error", "dashboard_stale", "reconciliation_required",
    "reconciled_no_provider_change"]

/-- `GUARD_ERROR_CODES`. -/
def guardErrorCodes : List String :=
  ["not_live", "not_risk", "provider_ineligible", "connections_limit", "quota_exhausted",
    "cooldown", "duplicate_egress", "subscription_mutation_in_progress", "manual_action_required"]

/-- `MANUAL_ACTION_CODES`. -/
def manualActionCodes : List String :=
  ["captcha_required", "captcha_provider_error", "captcha_timeout", "csrf_failed",
    "fingerprint_failed", "login_failed", "manual_action_required", "session_expired",
    "subscription_scope_mismatch", "quota_exhausted", "stock_unavailable", "provider_forbidden"]

/-- `_safe_code`. -/
def safeCode (value default : String) : String :=
  let candidate := codeCandidate value
  if candidate ∈ safeErrorCodes then candidate else default

/-- `_safe_guard_code`. -/
def safeGuardCode (value : String) : String :=
  let candidate := codeCandidate value
  if candidate ∈ guardErrorCodes ∨ candidate = "dashboard_stale" then candidate
  else "manual_action_required"

example : safeCode " Provider-Timeout!! " "provider_error" = "provider_error" := by decide +kernel

example : safeCode " provider timeout! " "provider_error" = "provider_timeout" := by decide +kernel

end EarnProxy.Swap
