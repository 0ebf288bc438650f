import EarnProxy.Earnings
import EarnProxy.Wallets
import EarnProxy.Library.Transaction

/-!
# `app/services/payouts.py` and `app/services/payout_verification.py`

A payout reserves available earnings from its request until it fails. Approval and transaction
submission are administrator steps; `applyPayoutVerification` records what a verifier found.
-/

namespace EarnProxy

/-- `NONTERMINAL_PAYOUT_STATUSES`. -/
def PayoutStatus.Nonterminal (s : PayoutStatus) : Prop :=
  s = .requested ∨ s = .approved ∨ s = .verifying

instance (s : PayoutStatus) : Decidable s.Nonterminal := inferInstanceAs (Decidable (_ ∨ _))

/-- The statuses whose amounts stay reserved. -/
def PayoutStatus.Reserving (s : PayoutStatus) : Prop := s.Nonterminal ∨ s = .confirmed ∨ s = .sent

instance (s : PayoutStatus) : Decidable s.Reserving := inferInstanceAs (Decidable (_ ∨ _))

def maxPayoutMicroUsd : Int := 1000000000000000
def minPayoutMicroUsd : Int := 10000000
def feeTierThresholdMicroUsd : Nat := 50000000
def feeTierLowBps : Nat := 1000
def feeTierHighBps : Nat := 200

structure PayoutQuote where
  amountMicroUsd : Nat
  feeBps : Nat
  feeMicroUsd : Nat
  netMicroUsd : Nat
  deriving DecidableEq, Repr

/-- `quote_payout`. -/
def quotePayout (amountMicroUsd : Int) : Tx PayoutQuote :=
  if amountMicroUsd < minPayoutMicroUsd then .error (.valueError "The minimum payout is $10.00")
  else if maxPayoutMicroUsd < amountMicroUsd then
    .error (.valueError "Payout amount is above the supported maximum")
  else
    let amount := amountMicroUsd.toNat
    let feeBps := if feeTierThresholdMicroUsd ≤ amount then feeTierHighBps else feeTierLowBps
    let fee := amount * feeBps / 10000
    .ok { amountMicroUsd := amount, feeBps, feeMicroUsd := fee, netMicroUsd := amount - fee }

/-- `_outstanding_limit`; `none` is a missing or unreadable limit. -/
def outstandingLimit (value : Option Int) : Nat := (max 1 (min 1000 (value.getD 10))).toNat

def outstandingPayouts (db : Db) (userId : Nat) : Nat :=
  (db.payouts.filter fun p => p.userId = userId ∧ p.status.Nonterminal).length

/-- The sum both admission checks compare with the available balance. -/
def reservedMicroUsd (db : Db) (userId : Nat) (exceptId : Option Nat) : Nat :=
  ((db.payouts.filter fun p =>
    p.userId = userId ∧ (∀ i ∈ exceptId, p.id ≠ i) ∧ p.status.Reserving).map
      Payout.amountMicroUsd).sum

def Db.payout? (db : Db) (id : Nat) : Option Payout := Table.lookup Payout.id id db.payouts

/-- `UPDATE payouts SET f WHERE p`. -/
def Db.updatePayouts (db : Db) (p : Payout → Prop) [DecidablePred p] (f : Payout → Payout) : Db :=
  { db with payouts := Table.update p f db.payouts }

/-- `request_payout`; returns the new id. -/
def requestPayout (db : Db) (userId : Nat) (amountMicroUsd : Int) (maxOutstanding : Option Int)
    (now : Timestamp) : Tx (Db × Nat) := do
  let quote ← quotePayout amountMicroUsd
  match db.wallet? userId with
  | none => .error (.valueError "Set a wallet before requesting payout")
  | some wallet =>
    if now < wallet.lockedUntil then
      .error (.valueError "Wallet is still under the 48-hour security lock")
    else
      let limit := outstandingLimit maxOutstanding
      if limit ≤ outstandingPayouts db userId then
        .error (.payoutQuotaExceeded ("Maximum number of outstanding payouts reached (" ++
          toString limit ++ "); wait for processing before requesting another payout"))
      else if (balanceForUser db userId .available : Int) - reservedMicroUsd db userId none <
          quote.amountMicroUsd then
        .error (.valueError "Payout amount exceeds available balance")
      else
        let payout : Payout :=
          { id := Table.nextKey Payout.id db.payouts, userId, walletId := wallet.id
            walletAddress := wallet.address, amountMicroUsd := quote.amountMicroUsd
            feeBps := quote.feeBps, feeMicroUsd := quote.feeMicroUsd
            netMicroUsd := quote.netMicroUsd, processingDueAt := now + hours 48, createdAt := now }
        .ok ({ db with payouts := db.payouts ++ [payout] }, payout.id)

/-- `approve_payout`. -/
def approvePayout (db : Db) (payoutId : Nat) : Tx Db :=
  if ∃ p ∈ db.payouts, p.id = payoutId ∧ p.status = .requested then
    .ok (db.updatePayouts (fun p => p.id = payoutId ∧ p.status = .requested)
      fun p => { p with status := .approved })
  else .error (.lookupError "Payout not found or not awaiting approval")

def isHexDigit (c : Char) : Bool := c.isDigit || ('a' ≤ c && c ≤ 'f') || ('A' ≤ c && c ≤ 'F')

/-- `TX_HASH_RE.fullmatch`. -/
def isTxHash (text : String) : Bool :=
  match text.toList with
  | '0' :: 'x' :: digits => digits.length == 64 && digits.all isHexDigit
  | _ => false

/-- `normalize_tx_hash`. -/
def normalizeTxHash (value : String) : Tx String :=
  let text := Text.lower (Text.strip value)
  if isTxHash text then .ok text
  else .error (.valueError "Transaction hash must be a 32-byte 0x-prefixed hexadecimal value")

/-- The `SET` list of `submit_payout_transaction`. -/
def Payout.submitted (p : Payout) (txHash : String) (now : Timestamp) : Payout :=
  { p with
    status := .verifying, txHash, verificationError := "", verificationAttempts := 0
    nextVerificationAt := some now, verifiedAt := none, confirmations := 0, txBlockNumber := none
    verificationClaimedUntil := none, verificationClaimToken := none }

def PayoutStatus.Submittable (s : PayoutStatus) : Prop :=
  s = .approved ∨ s = .failed ∨ s = .verifying

instance (s : PayoutStatus) : Decidable s.Submittable := inferInstanceAs (Decidable (_ ∨ _))

/-- `submit_payout_transaction`; `mark_payout_sent` is its old name. The partial index
`payouts_tx_hash_uidx` constrains hashes of 66 characters, which the duplicate check has already
kept apart. -/
def submitPayoutTransaction (db : Db) (payoutId : Nat) (txHash : String) (now : Timestamp) :
    Tx Db := do
  let value ← normalizeTxHash txHash
  match db.payout? payoutId with
  | none => .error (.lookupError "Payout not found or not awaiting transaction verification")
  | some payout =>
    if payout.status = .failed ∧ (balanceForUser db payout.userId .available : Int) -
        reservedMicroUsd db payout.userId (some payoutId) < payout.amountMicroUsd then
      .error (.valueError "Payout retry exceeds available balance")
    else if ∃ p ∈ db.payouts, Text.asciiLower p.txHash = value ∧ p.id ≠ payoutId then
      .error (.valueError "Transaction hash is already assigned to another payout")
    else if ∃ p ∈ db.payouts, p.id = payoutId ∧ p.status.Submittable then
      .ok (db.updatePayouts (fun p => p.id = payoutId ∧ p.status.Submittable)
        fun p => p.submitted value now)
    else .error (.lookupError "Payout not found or not awaiting transaction verification")

/-- The statuses a verifier reports. -/
inductive VerificationStatus where
  | pending | confirmed | failed
  deriving DecidableEq, Repr

structure VerificationResult where
  status : VerificationStatus
  error : String := ""
  confirmations : Int := 0
  blockNumber : Option Nat := none
  deriving DecidableEq, Repr

def VerificationStatus.persisted : VerificationStatus → PayoutStatus
  | .pending => .verifying
  | .confirmed => .confirmed
  | .failed => .failed

/-- The `SET` list of `apply_payout_verification`. -/
def Payout.verified (p : Payout) (result : VerificationResult) (now : Timestamp) : Payout :=
  { p with
    status := result.status.persisted
    verificationError := String.ofList (result.error.toList.take 500)
    verificationAttempts := p.verificationAttempts + 1
    nextVerificationAt := if result.status = .pending then some (now + minutes 5) else none
    verifiedAt := if result.status = .pending then none else some now
    confirmations := result.confirmations.toNat, txBlockNumber := result.blockNumber
    verificationClaimedUntil := none, verificationClaimToken := none }

/-- The `WHERE` clause of `apply_payout_verification`. -/
def Payout.Awaits (payoutId : Nat) (claimToken : Option String) (p : Payout) : Prop :=
  p.id = payoutId ∧ p.status = .verifying ∧ ∀ t ∈ claimToken, p.verificationClaimToken = some t

instance (payoutId : Nat) (claimToken : Option String) (p : Payout) :
    Decidable (p.Awaits payoutId claimToken) := inferInstanceAs (Decidable (_ ∧ _))

/-- `apply_payout_verification`. -/
def applyPayoutVerification (db : Db) (payoutId : Nat) (result : VerificationResult)
    (claimToken : Option String) (now : Timestamp) : Tx Db :=
  if ∃ p ∈ db.payouts, p.Awaits payoutId claimToken then
    .ok (db.updatePayouts (fun p => p.Awaits payoutId claimToken) fun p => p.verified result now)
  else .error (.lookupError "Payout not found or no longer awaiting verification")

/-! ## What the operations do when they succeed -/

open Transaction

/-- A payout that `request_payout` admitted: it fits into the queue and into the balance. -/
structure Admitted (db : Db) (userId : Nat) (limit : Option Int) (payout : Payout) : Prop where
  id : payout.id = Table.nextKey Payout.id db.payouts
  owner : payout.userId = userId
  status : payout.status = .requested
  unsubmitted : payout.txHash = ""
  unclaimed : payout.verificationClaimToken = none
  quota : outstandingPayouts db userId < outstandingLimit limit
  funded : reservedMicroUsd db userId none + payout.amountMicroUsd ≤
    balanceForUser db userId .available

/-- The payout goes to the user's wallet, whose lock has run out. -/
structure Unlocked (db : Db) (userId : Nat) (now : Timestamp) (payout : Payout) : Prop where
  wallet : ∃ w, db.wallet? userId = some w ∧ w.lockedUntil ≤ now ∧ payout.walletId = w.id ∧
    payout.walletAddress = w.address
  createdAt : payout.createdAt = now

theorem requestPayout_ok {db db' : Db} {userId id : Nat} {amount : Int} {limit : Option Int}
    {now : Timestamp} (h : requestPayout db userId amount limit now = .ok (db', id)) :
    ∃ payout, Admitted db userId limit payout ∧ Unlocked db userId now payout ∧
      db' = { db with payouts := db.payouts ++ [payout] } := by
  unfold requestPayout at h
  obtain ⟨quote, _, h⟩ := ok_of_bind h
  cases hwallet : db.wallet? userId with
  | none =>
    rw [hwallet] at h
    cases h
  | some wallet =>
    simp only [hwallet] at h
    split at h
    · cases h
    · split at h
      · cases h
      · split at h
        · cases h
        · rename_i hlocked hquota hfunds
          obtain rfl := (Prod.mk.inj (Except.ok.inj h)).1
          refine ⟨_, ⟨rfl, rfl, rfl, rfl, rfl, not_le.mp hquota, ?_⟩,
            ⟨⟨wallet, hwallet, not_lt.mp hlocked, rfl, rfl⟩, rfl⟩, rfl⟩
          show reservedMicroUsd db userId none + quote.amountMicroUsd ≤ _
          omega

theorem approvePayout_ok {db db' : Db} {payoutId : Nat} (h : approvePayout db payoutId = .ok db') :
    ∃ payout ∈ db.payouts, payout.id = payoutId ∧ payout.status = .requested ∧
      db' = db.updatePayouts (fun p => p.id = payoutId ∧ p.status = .requested)
        fun p => { p with status := .approved } := by
  unfold approvePayout at h
  split at h
  · rename_i hfound
    obtain ⟨payout, hmem, hid, hstatus⟩ := hfound
    exact ⟨payout, hmem, hid, hstatus, (Except.ok.inj h).symm⟩
  · cases h

/-- A transaction hash that `submit_payout_transaction` may assign to `payout`: no other payout has
it, and the amount of a failed payout fits into the balance again. -/
structure Submits (db : Db) (txHash value : String) (payout : Payout) : Prop where
  hash : normalizeTxHash txHash = .ok value
  unique : ∀ p ∈ db.payouts, Text.asciiLower p.txHash = value → p.id = payout.id
  funded : payout.status = .failed → reservedMicroUsd db payout.userId (some payout.id) +
    payout.amountMicroUsd ≤ balanceForUser db payout.userId .available

theorem submitPayoutTransaction_ok {db db' : Db} {payoutId : Nat} {txHash : String}
    {now : Timestamp} (h : submitPayoutTransaction db payoutId txHash now = .ok db') :
    ∃ payout ∈ db.payouts, ∃ payout' ∈ db.payouts, ∃ value, payout.id = payoutId ∧
      payout'.id = payoutId ∧ payout'.status.Submittable ∧ Submits db txHash value payout ∧
      db' = db.updatePayouts (fun p => p.id = payoutId ∧ p.status.Submittable)
        fun p => p.submitted value now := by
  unfold submitPayoutTransaction at h
  obtain ⟨value, hvalue, h⟩ := ok_of_bind h
  cases hpayout : db.payout? payoutId with
  | none =>
    rw [hpayout] at h
    cases h
  | some payout =>
    obtain rfl : payout.id = payoutId := Table.key_of_lookup hpayout
    simp only [hpayout] at h
    split at h
    · cases h
    · split at h
      · cases h
      · split at h
        · rename_i hfunds hunique hfound
          obtain ⟨payout', hmem', hid', hstatus'⟩ := hfound
          refine ⟨payout, Table.mem_of_lookup hpayout, payout', hmem', value, rfl, hid', hstatus',
            ⟨hvalue, fun p hp heq => ?_, fun hfailed => ?_⟩, (Except.ok.inj h).symm⟩
          · by_contra hne
            exact hunique ⟨p, hp, heq, hne⟩
          · have hle := not_lt.mp fun hlt => hfunds ⟨hfailed, hlt⟩
            omega
        · cases h

theorem applyPayoutVerification_ok {db db' : Db} {payoutId : Nat} {result : VerificationResult}
    {claimToken : Option String} {now : Timestamp}
    (h : applyPayoutVerification db payoutId result claimToken now = .ok db') :
    ∃ payout ∈ db.payouts, payout.Awaits payoutId claimToken ∧
      db' = db.updatePayouts (fun p => p.Awaits payoutId claimToken)
        fun p => p.verified result now := by
  unfold applyPayoutVerification at h
  split at h
  · rename_i hfound
    obtain ⟨payout, hmem, hawaits⟩ := hfound
    exact ⟨payout, hmem, hawaits, (Except.ok.inj h).symm⟩
  · cases h

end EarnProxy
