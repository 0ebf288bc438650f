import Mathlib.Algebra.Group.Int.Defs
import EarnProxy.Swap.System

/-!
# `app/services/proxiware_credentials.py`

The session of the provider, and the two settings of auto-swap: the runtime gate and the intent of
the administrator. The audit events are left out.
-/

namespace EarnProxy.Swap

/-- A text that a date is read from. -/
inductive Expiry where
  | absent | unreadable
  | moment (t : Timestamp)
  deriving DecidableEq, Repr

/-- What `load_provider_session` reads; no cookies and an empty set of them are `absent`. -/
inductive Cookies where
  | absent | unreadable | stored
  deriving DecidableEq, Repr

/-- The row of `provider_sessions`. -/
structure Session where
  state : String
  expiresAt : Expiry := .absent
  cookies : Cookies := .absent
  workerCookies : Cookies := .absent
  lastErrorCode : String := ""
  renewAttemptedAt : Option Timestamp := none
  renewNextAttemptAt : Option Timestamp := none
  renewalFailures : Nat := 0
  updatedAt : Timestamp
  deriving DecidableEq, Repr

/-- The cookies that a process of the profile can read. -/
def Session.loaded (session : Session) : Profile → Cookies
  | .web => session.cookies
  | .worker => session.workerCookies

/-- `SAFE_SESSION_ERROR_CODES`. -/
def safeSessionErrorCodes : List String :=
  ["captcha_required", "captcha_provider_error", "captcha_timeout", "csrf_failed",
    "fingerprint_failed", "invalid_session", "login_failed", "manual_action_required",
    "session_expired", "provider_error"]

/-- The code that is stored of a session error. -/
def safeSessionCode (errorCode : String) : String :=
  let candidate := normalized (orDefault errorCode "manual_action_required")
  if candidate ∈ safeSessionErrorCodes then candidate else "manual_action_required"

/-- The row that `mark_manual_action_required` leaves. -/
def manualSession (session : Option Session) (errorCode : String) (now : Timestamp) : Session :=
  match session with
  | none =>
    { state := "manual_action_required", lastErrorCode := safeSessionCode errorCode
      updatedAt := now }
  | some session =>
    { session with
      state := "manual_action_required", lastErrorCode := safeSessionCode errorCode
      updatedAt := now }

/-- `record_session_renewal_failure`, after it has marked the session. -/
def Session.renewalFailed (session : Session) (cooldownSeconds : Int) (now : Timestamp) : Session :=
  let count := session.renewalFailures + 1
  let delay := min 3600 (max 60 cooldownSeconds * 2 ^ min (count - 1) 3)
  { session with
    renewAttemptedAt := some now, renewNextAttemptAt := some (now + seconds delay)
    renewalFailures := count, updatedAt := now }

/-- `store_provider_session` in a process of the profile. -/
def storedSession (profile : Profile) (expiresAt : Expiry) (now : Timestamp) : Session :=
  { state := "active", expiresAt, workerCookies := .stored, renewAttemptedAt := some now
    cookies := match profile with
      | .web => .stored
      | .worker => .absent
    updatedAt := now }

/-- The error code of an expiry, empty for one to come. -/
def Expiry.error (expiresAt : Expiry) (wall : Timestamp) : String :=
  match expiresAt with
  | .absent => ""
  | .unreadable => "invalid_session"
  | .moment t => if t ≤ wall then "session_expired" else ""

/-- `ProxiwareSwapRunner._configured_session`: the error code, empty for a live session. -/
def configuredSession (session : Option Session) (profile : Profile) (wall : Timestamp) : String :=
  match session.filter fun session => normalized session.state = "active" with
  | none => "session_expired"
  | some session =>
    if session.expiresAt.error wall ≠ "" then session.expiresAt.error wall
    else
      match session.loaded profile with
      | .unreadable => "invalid_session"
      | .absent => "session_expired"
      | .stored => ""

/-- A failed renewal keeps the next one waiting: the error code, if it does. -/
def renewalWaits (session : Option Session) (wall : Timestamp) : Option String :=
  match session with
  | none => none
  | some session =>
    match session.renewNextAttemptAt with
    | some t => if wall < t then some (orDefault session.lastErrorCode "session_expired") else none
    | none => none

/-! ## The gate and the intent -/

/-- `get_setting(db, "proxiware_auto_swap_intent", "0") == "1"`. -/
def Settings.intends (s : Settings) : Bool := s.autoSwapIntent.getD false

/-- The settings that `_pause_auto_swap_no_commit` leaves, and `mark_manual_action_required` as
well. -/
def Settings.paused (s : Settings) : Settings :=
  { s with autoSwapIntent := some (s.autoSwapIntent.getD s.autoSwap), autoSwap := false }

/-- The part of `ensure_proxiware_swap_schema` that seeds the intent. -/
def Settings.seeded (s : Settings) : Settings :=
  { s with autoSwapIntent := some (s.autoSwapIntent.getD s.autoSwap) }

end EarnProxy.Swap
