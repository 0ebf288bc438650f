import EarnProxy.Schema

/-!
# `app/services/wallets.py`

A user has at most one wallet, and an address belongs to at most one user. An inactive user keeps
an address only while a payout refers to the wallet.
-/

namespace EarnProxy

def Db.wallet? (db : Db) (userId : Nat) : Option Wallet :=
  Table.lookup Wallet.userId userId db.wallets

/-- `re.fullmatch(r"0x[0-9a-f]{40}", …)`. -/
def isWalletAddress (text : String) : Bool :=
  match text.toList with
  | '0' :: 'x' :: digits =>
    digits.length == 40 && digits.all fun c => c.isDigit || ('a' ≤ c && c ≤ 'f')
  | _ => false

/-- The wallet's owner still reserves the address. -/
def Db.Reserves (db : Db) (w : Wallet) : Prop :=
  ∃ u ∈ db.user? w.userId, u.status = .pending ∨ u.status = .active

instance (db : Db) (w : Wallet) : Decidable (db.Reserves w) :=
  inferInstanceAs (Decidable (∃ u ∈ _, _))

/-- A wallet of an inactive user that no payout refers to. -/
def Db.Released (db : Db) (w : Wallet) : Prop :=
  (∃ u ∈ db.user? w.userId, u.status ≠ .pending ∧ u.status ≠ .active) ∧
    ∀ p ∈ db.payouts, p.walletId ≠ w.id

instance (db : Db) (w : Wallet) : Decidable (db.Released w) := inferInstanceAs (Decidable (_ ∧ _))

/-- `set_wallet`. -/
def setWallet (db : Db) (userId : Nat) (address : String) (now : Timestamp) : Tx Db :=
  let normalized := Text.lower (Text.strip address)
  if isWalletAddress normalized = false then
    .error (.valueError "Wallet must be a valid USDT BEP20 address")
  else if ∃ w ∈ db.wallet? userId, now < w.lockedUntil then
    .error (.walletLocked "Wallet cannot be changed during the 48-hour security lock")
  else if ∃ w ∈ db.wallets, (Text.asciiLower w.address = normalized ∧ w.userId ≠ userId) ∧
      db.Reserves w then
    .error (.walletInUse "Wallet is already assigned to another active account")
  else
    let wallets := db.wallets.filter fun w =>
      ¬ ((Text.asciiLower w.address = normalized ∧ w.userId ≠ userId) ∧ db.Released w)
    -- the unique address and the foreign key fail with one message
    if (∃ w ∈ wallets, Text.asciiLower w.address = normalized ∧ w.userId ≠ userId) ∨
        db.user? userId = none then
      .error (.walletInUse "Wallet is retained by an inactive account's payout history")
    else if db.wallet? userId = none then
      .ok { db with
        wallets := wallets ++
          [{ id := db.walletSequence + 1, userId, address := normalized
             lockedUntil := now + hours 48 }]
        walletSequence := db.walletSequence + 1 }
    else
      -- the conflicting insert has drawn an id
      .ok { db with
        wallets := Table.update (fun w => w.userId = userId)
          (fun w => { w with address := normalized, lockedUntil := now + hours 48 }) wallets
        walletSequence := db.walletSequence + 1 }

end EarnProxy
