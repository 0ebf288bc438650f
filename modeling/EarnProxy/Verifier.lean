import Mathlib.Data.Prod.Lex
import EarnProxy.Library.Fencing
import EarnProxy.Reservations

/-!
# `app/payout_verifier_service.py`

Any number of workers verify submitted payouts while administrators go on submitting transactions.
A worker claims a payout, reads it again, asks the chain, and applies what it found; between two of
its transactions anything may happen, and it may stop for good after each of them.
-/

namespace EarnProxy

def claimMinutes : Int := 5

/-- The `WHERE` clause of the query in `_claim_one`. -/
def Payout.Claimable (now : Timestamp) (p : Payout) : Prop :=
  p.status = .verifying ∧ (∀ t ∈ p.nextVerificationAt, t ≤ now) ∧
    ∀ t ∈ p.verificationClaimedUntil, t ≤ now

instance (now : Timestamp) (p : Payout) : Decidable (p.Claimable now) :=
  inferInstanceAs (Decidable (_ ∧ _))

/-- The row that `_claim_one` finds. -/
def claimablePayout? (db : Db) (now : Timestamp) : Option Payout :=
  (db.payouts.filter fun p => p.Claimable now).argmin fun p =>
    toLex (p.nextVerificationAt.getD p.createdAt, p.id)

/-- The transaction of `_claim_one`: the new database and the id of the claimed row. -/
def claimOne (db : Db) (now : Timestamp) (token : String) : Option (Db × Nat) :=
  (claimablePayout? db now).map fun row =>
    (db.updatePayouts (fun p => p.id = row.id ∧ p.status = .verifying ∧
        ∀ t ∈ p.verificationClaimedUntil, t ≤ now)
      fun p => { p with verificationClaimedUntil := some (now + minutes claimMinutes)
                        verificationClaimToken := some token }, row.id)

/-- `_release_claim`. -/
def releaseClaim (db : Db) (payoutId : Nat) (claimToken : String) : Db :=
  db.updatePayouts (fun p => p.id = payoutId ∧ p.verificationClaimToken = some claimToken ∧
      p.status = .verifying)
    fun p => { p with verificationClaimedUntil := none, verificationClaimToken := none }

/-- `str(row["verification_claim_token"] or "")`. -/
def Payout.claimToken (p : Payout) : String := p.verificationClaimToken.getD ""

/-- Where a worker stands in `run_batch`. -/
inductive VerifierWorker where
  | idle
  /-- The claim is committed; the row has not been read again. -/
  | claimed (payoutId : Nat) (current : Timestamp)
  | verifying (row : Payout) (current : Timestamp)
  | verified (row : Payout) (result : VerificationResult) (current : Timestamp)
  /-- An exception was raised; the claim is about to be released. -/
  | failing (payoutId : Nat) (claimToken : String)

structure VerifierState where
  db : Db
  workers : Nat → VerifierWorker := fun _ => .idle
  /-- The claim tokens so far. No claim is made with the empty token. -/
  issued : List String := [""]

inductive VerifierAction where
  /-- A call of a service. -/
  | service (ev : Event)
  | claim (worker : Nat) (current : Timestamp) (token : String)
  | reread (worker : Nat)
  /-- The verifier returns, or raises. -/
  | verify (worker : Nat) (result : Option VerificationResult)
  | apply (worker : Nat)
  | release (worker : Nat)
  | crash (worker : Nat)
  deriving DecidableEq

def VerifierState.setWorker (s : VerifierState) (worker : Nat) (at_ : VerifierWorker) :
    VerifierState :=
  { s with workers := Function.update s.workers worker at_ }

/-- The calls of `apply_payout_verification`; only the verifier makes them. -/
def Op.verifies : Op → Bool
  | .applyPayoutVerification .. => true
  | _ => false

/-- One transaction or one computation of a worker, or one call of a service. `secrets` never
returns a token twice. -/
def VerifierState.next (s : VerifierState) : VerifierAction → Option VerifierState
  | .service ev => if ev.op.verifies then none else some { s with db := exec s.db ev }
  | .claim worker current token =>
    match s.workers worker with
    | .idle =>
      if token ∈ s.issued then none
      else match claimOne s.db current token with
        | none => some s
        | some (db, payoutId) =>
          some ({ s with db, issued := token :: s.issued }.setWorker worker
            (.claimed payoutId current))
    | _ => none
  | .reread worker =>
    match s.workers worker with
    | .claimed payoutId current =>
      match s.db.payout? payoutId with
      | none => some (s.setWorker worker .idle)
      | some row => some (s.setWorker worker (.verifying row current))
    | _ => none
  | .verify worker result =>
    match s.workers worker, result with
    | .verifying row current, some result =>
      some (s.setWorker worker (.verified row result current))
    | .verifying row _, none => some (s.setWorker worker (.failing row.id row.claimToken))
    | _, _ => none
  | .apply worker =>
    match s.workers worker with
    | .verified row result current =>
      match applyPayoutVerification s.db row.id result (some row.claimToken) current with
      | .ok db => some ({ s with db }.setWorker worker .idle)
      | .error _ => some (s.setWorker worker (.failing row.id row.claimToken))
    | _ => none
  | .release worker =>
    match s.workers worker with
    | .failing payoutId claimToken =>
      some ({ s with db := releaseClaim s.db payoutId claimToken }.setWorker worker .idle)
    | _ => none
  | .crash worker => some (s.setWorker worker .idle)

/-- The actions of `h`, newest first, lead from `s₀` to `s`. -/
def VerifierRuns (s₀ : VerifierState) (h : List (VerifierAction × VerifierState))
    (s : VerifierState) : Prop :=
  History.Run (fun s a s' => s.next a = some s') s₀ h s

end EarnProxy
