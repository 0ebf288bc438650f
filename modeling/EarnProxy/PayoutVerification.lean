import Mathlib.Algebra.Ring.Int.Defs
import EarnProxy.Json
import EarnProxy.Numbers
import EarnProxy.Payouts

/-!
# `verify_bsc_payout` of `app/services/payout_verification.py`

What the chain says about the transaction of a payout. The RPC client is not trusted: it answers
with any value, or raises one of the exceptions that the `except` clause names. Each of its methods
is called once at most, so a client is a function of the method.
-/

namespace EarnProxy

def transferTopic : String := "0xddf252ad1be2c89b69c2b068fc378daa952ba7f163c4a11628f55a4df523b3ef"
def expectedChainId : Nat := 56

/-- The columns of the payout; `net_micro_usd` is `none` where it is missing or no number. -/
structure PayoutTransfer where
  txHash : String
  walletAddress : String
  amountMicroUsd : Int
  netMicroUsd : Option Int := none
  deriving DecidableEq, Repr

structure TokenConfig where
  tokenContract : String
  tokenDecimals : Int
  minConfirmations : Int
  deriving DecidableEq, Repr

inductive RpcMethod where
  | chainId
  | transactionReceipt (txHash : String)
  | blockNumber
  deriving DecidableEq, Repr

/-- An exception carries its text. -/
abbrev Rpc := RpcMethod → Except String Json

/-- `ADDRESS_RE.fullmatch`. -/
def isAddress (text : String) : Bool :=
  match text.toList with
  | '0' :: 'x' :: digits => digits.length == 40 && digits.all isHexDigit
  | _ => false

/-- `_normalize_address`, of `str(value or "")`. -/
def normalizeAddress (value label : String) : Except String String :=
  let text := Text.lower (Text.strip value)
  if isAddress text then .ok text else .error (label ++ " must be a valid EVM address")

/-- `_parse_quantity`. -/
def parseQuantity (value : Json) (label : String) : Except String Nat :=
  match value with
  | .text s =>
    match Text.hexInt? s with
    | some parsed => .ok parsed
    | none => .error ("RPC returned an invalid " ++ label)
  | _ => .error ("RPC returned an invalid " ++ label)

/-- `_topic_to_address`. -/
def topicToAddress (value : Json) : Option String :=
  let text := Text.lower value.strOrEmpty
  if isTxHash text then some ("0x" ++ String.ofList (text.toList.drop (text.length - 40))) else none

/-- `max(1, min(1000, int(min_confirmations)))`. -/
def confirmationsRequired (config : TokenConfig) : Int := max 1 (min 1000 config.minConfirmations)

/-- `max(0, current_block - block_number + 1)`. -/
def confirmationCount (currentBlock blockNumber : Nat) : Int :=
  max 0 ((currentBlock : Int) - blockNumber + 1)

/-- The micro-USD that are paid out: the positive net amount, or else the gross amount. -/
def PayoutTransfer.microUsd (payout : PayoutTransfer) : Int :=
  let transfer := payout.netMicroUsd.getD payout.amountMicroUsd
  if transfer ≤ 0 then payout.amountMicroUsd else transfer

def expectedUnits (payout : PayoutTransfer) (decimals : Nat) : Int :=
  payout.microUsd * 10 ^ decimals / 1000000

/-- What the loop goes over for `receipt.get("logs") or []`. -/
def logItems (logs : Json) : Except String (List Json) :=
  if ¬ logs.truthy then .ok []
  else match logs with
    | .list items _ => .ok items
    | .dict fields _ => .ok (fields.map fun field => .text field.1)
    | .text s => .ok (s.toList.map fun c => .text (String.singleton c))
    | _ => .error ("'" ++ logs.typeName ++ "' object is not iterable")

/-- How far a log gets before the loop skips it. -/
inductive LogEvidence where
  | foreign | contract | recipient | transfer
  deriving DecidableEq, Repr

/-- The body of the loop. -/
def logEvidence (contract destination : String) (units : Int) (log : Json) : LogEvidence :=
  match log with
  | .dict fields _ =>
    if normalizeAddress (Json.get fields "address").strOrEmpty "Log contract" ≠ .ok contract then
      .foreign
    else match Json.get fields "topics" with
      | .list (topic :: _ :: recipient :: _) _ =>
        if Text.lower topic.str ≠ transferTopic then .contract
        else if topicToAddress recipient ≠ some destination then .contract
        else match parseQuantity (Json.get fields "data") "transfer amount" with
          | .ok amount => if (amount : Int) = units then .transfer else .recipient
          | .error _ => .recipient
      | _ => .contract
  | _ => .foreign

/-- `matching_contract` and `matching_recipient`. -/
structure Matching where
  contract : Bool := false
  recipient : Bool := false
  deriving DecidableEq, Repr

/-- The loop over the logs; `none` when it has returned. -/
def scanLogs (evidence : Json → LogEvidence) : Matching → List Json → Option Matching
  | matching, [] => some matching
  | matching, log :: logs =>
    match evidence log with
    | .foreign => scanLogs evidence matching logs
    | .contract => scanLogs evidence { matching with contract := true } logs
    | .recipient => scanLogs evidence { contract := true, recipient := true } logs
    | .transfer => none

/-- The text of the error after the loop. -/
def Matching.error (matching : Matching) : String :=
  if ¬ matching.contract then "Transaction has no transfer from the configured USDT contract"
  else if ¬ matching.recipient then "USDT transfer recipient does not match the payout wallet"
  else "USDT transfer amount does not match the approved payout"

/-- What is returned after the loop, or from it. -/
def scanResult (scan : Option Matching) (confirmations : Int) (blockNumber : Nat) :
    VerificationResult :=
  match scan with
  | none => { status := .confirmed, confirmations, blockNumber := some blockNumber }
  | some matching =>
    { status := .failed, error := matching.error, confirmations, blockNumber := some blockNumber }

@[simp] theorem scanResult_status (scan : Option Matching) (confirmations : Int)
    (blockNumber : Nat) : (scanResult scan confirmations blockNumber).status =
      if scan.isNone then .confirmed else .failed := by
  cases scan <;> rfl

/-- A check that raises. -/
def raiseIf (p : Prop) [Decidable p] (message : String) : Except String Unit :=
  if p then .error message else .ok ()

/-- The receipt, once the chain is known to be the right one. -/
def examineReceipt (payout : PayoutTransfer) (config : TokenConfig) (rpc : Rpc)
    (contract destination : String) (receipt : List (String × Json)) :
    Except String VerificationResult := do
  let status ← parseQuantity (Json.get receipt "status") "receipt status"
  let blockNumber ← parseQuantity (Json.get receipt "blockNumber") "receipt block"
  let currentBlock ← parseQuantity (← rpc .blockNumber) "current block"
  let confirmations := confirmationCount currentBlock blockNumber
  if status ≠ 1 then
    return {
      status := .failed, error := "Transaction reverted on-chain", confirmations
      blockNumber := some blockNumber }
  if confirmations < confirmationsRequired config then
    return {
      status := .pending
      error := "Waiting for " ++ toString (confirmationsRequired config) ++ " confirmations"
      confirmations, blockNumber := some blockNumber }
  let logs ← logItems (Json.get receipt "logs")
  let evidence := logEvidence contract destination (expectedUnits payout config.tokenDecimals.toNat)
  return scanResult (scanLogs evidence {} logs) confirmations blockNumber

/-- The `try` block. -/
def examinePayout (payout : PayoutTransfer) (config : TokenConfig) (rpc : Rpc) :
    Except String VerificationResult := do
  let txHash ← (match normalizeTxHash payout.txHash with
    | .ok txHash => .ok txHash
    | .error _ => .error "Transaction hash must be a 32-byte 0x-prefixed hexadecimal value")
  let destination ← normalizeAddress payout.walletAddress "Payout wallet"
  let contract ← normalizeAddress config.tokenContract "USDT contract"
  raiseIf (config.tokenDecimals < 0 ∨ 36 < config.tokenDecimals)
    "Token decimals are outside the supported range"
  let chainId ← parseQuantity (← rpc .chainId) "chain id"
  if chainId ≠ expectedChainId then
    return { status := .pending, error := "RPC endpoint is not BNB Smart Chain" }
  match ← rpc (.transactionReceipt txHash) with
  | .null => return { status := .pending, error := "Transaction receipt is not available yet" }
  | .dict receipt _ => examineReceipt payout config rpc contract destination receipt
  | _ => return { status := .pending, error := "RPC returned an invalid receipt" }

/-- `verify_bsc_payout`. -/
def verifyBscPayout (payout : PayoutTransfer) (config : TokenConfig) (rpc : Rpc) :
    VerificationResult :=
  match examinePayout payout config rpc with
  | .ok result => result
  | .error message => { status := .pending, error := String.ofList (message.toList.take 500) }

/-! ## What the verdict rests on -/

/-- All checks up to the status of the receipt have passed: what they have read. -/
structure Examined (payout : PayoutTransfer) (config : TokenConfig) (rpc : Rpc)
    (contract destination : String) (receipt : List (String × Json))
    (status blockNumber currentBlock : Nat) : Prop where
  wallet : normalizeAddress payout.walletAddress "Payout wallet" = .ok destination
  token : normalizeAddress config.tokenContract "USDT contract" = .ok contract
  decimals : 0 ≤ config.tokenDecimals ∧ config.tokenDecimals ≤ 36
  chain : ∃ value, rpc .chainId = .ok value ∧ parseQuantity value "chain id" = .ok expectedChainId
  found : ∃ txHash str, normalizeTxHash payout.txHash = .ok txHash ∧
    rpc (.transactionReceipt txHash) = .ok (.dict receipt str)
  status : parseQuantity (Json.get receipt "status") "receipt status" = .ok status
  block : parseQuantity (Json.get receipt "blockNumber") "receipt block" = .ok blockNumber
  current : ∃ value, rpc .blockNumber = .ok value ∧
    parseQuantity value "current block" = .ok currentBlock

/-- The transaction has the confirmations that the configuration requires. -/
def TokenConfig.DeepEnough (config : TokenConfig) (currentBlock blockNumber : Nat) : Prop :=
  confirmationsRequired config ≤ confirmationCount currentBlock blockNumber

instance (config : TokenConfig) (currentBlock blockNumber : Nat) :
    Decidable (config.DeepEnough currentBlock blockNumber) := inferInstanceAs (Decidable (_ ≤ _))

section Verdict

variable {payout : PayoutTransfer} {config : TokenConfig} {rpc : Rpc}
    {contract destination : String}
  {receipt : List (String × Json)} {status blockNumber currentBlock : Nat}

theorem Examined.read {currentValue : Json} (h : Examined payout config rpc contract destination
      receipt status blockNumber currentBlock) (hcurrent : rpc .blockNumber = .ok currentValue)
    (hcurrentBlock : parseQuantity currentValue "current block" = .ok currentBlock) :
    examineReceipt payout config rpc contract destination receipt =
      if status ≠ 1 then
        .ok {
          status := .failed, error := "Transaction reverted on-chain"
          confirmations := confirmationCount currentBlock blockNumber
          blockNumber := some blockNumber }
      else if confirmationCount currentBlock blockNumber < confirmationsRequired config then
        .ok {
          status := .pending
          error := "Waiting for " ++ toString (confirmationsRequired config) ++ " confirmations"
          confirmations := confirmationCount currentBlock blockNumber
          blockNumber := some blockNumber }
      else (logItems (Json.get receipt "logs")).map fun logs =>
        scanResult (scanLogs (logEvidence contract destination
          (expectedUnits payout config.tokenDecimals.toNat)) {} logs)
          (confirmationCount currentBlock blockNumber) blockNumber := by
  unfold examineReceipt
  rw [h.status, h.block, hcurrent]
  show (parseQuantity currentValue "current block" >>= fun current => _) = _
  rw [hcurrentBlock]
  rfl

/-- The verdict once everything is read. -/
theorem Examined.verdict (h : Examined payout config rpc contract destination receipt status
      blockNumber currentBlock) :
    (verifyBscPayout payout config rpc).status =
      if status ≠ 1 then .failed
      else if ¬ config.DeepEnough currentBlock blockNumber then .pending
      else match logItems (Json.get receipt "logs") with
        | .ok logs =>
          if (scanLogs (logEvidence contract destination
              (expectedUnits payout config.tokenDecimals.toNat)) {} logs).isNone then .confirmed
          else .failed
        | .error _ => .pending := by
  obtain ⟨chainValue, hchain, hchainId⟩ := h.chain
  obtain ⟨txHash, str, hhash, hreceipt⟩ := h.found
  obtain ⟨currentValue, hcurrent, hcurrentBlock⟩ := h.current
  have hdecimals : ¬ (config.tokenDecimals < 0 ∨ 36 < config.tokenDecimals) := by
    have := h.decimals
    omega
  have hexamine : examinePayout payout config rpc =
      examineReceipt payout config rpc contract destination receipt := by
    unfold examinePayout
    rw [hhash, h.wallet, h.token, raiseIf, if_neg hdecimals, hchain]
    show (parseQuantity chainValue "chain id" >>= fun chainId => _) = _
    rw [hchainId]
    show (rpc (.transactionReceipt txHash) >>= fun value => _) = _
    rw [hreceipt]
    rfl
  unfold verifyBscPayout TokenConfig.DeepEnough
  rw [hexamine, h.read hcurrent hcurrentBlock]
  by_cases hstatus : status ≠ 1
  · rw [if_pos hstatus, if_pos hstatus]
  rw [if_neg hstatus, if_neg hstatus]
  by_cases hdepth : confirmationCount currentBlock blockNumber < confirmationsRequired config
  · rw [if_pos hdepth, if_pos (not_le.mpr hdepth)]
  rw [if_neg hdepth, if_neg (not_not.mpr (not_lt.mp hdepth))]
  cases hlogs : logItems (Json.get receipt "logs") with
  | error message => rfl
  | ok logs => exact scanResult_status _ _ _

/-- A final verdict has read everything up to the status. -/
theorem examined_of_final (hfinal : (verifyBscPayout payout config rpc).status ≠ .pending) :
    ∃ contract destination receipt status blockNumber currentBlock,
      Examined payout config rpc contract destination receipt status blockNumber currentBlock := by
  unfold verifyBscPayout at hfinal
  split at hfinal
  · rename_i result hresult
    unfold examinePayout at hresult
    obtain ⟨txHash, hhash, hresult⟩ := Transaction.ok_of_bind hresult
    obtain ⟨destination, hwallet, hresult⟩ := Transaction.ok_of_bind hresult
    obtain ⟨contract, htoken, hresult⟩ := Transaction.ok_of_bind hresult
    obtain ⟨_, hdecimals, hresult⟩ := Transaction.ok_of_bind hresult
    obtain ⟨chainValue, hchain, hresult⟩ := Transaction.ok_of_bind hresult
    obtain ⟨chainId, hchainId, hresult⟩ := Transaction.ok_of_bind hresult
    split at hresult
    · obtain rfl := Except.ok.inj hresult
      exact absurd rfl hfinal
    rename_i hexpected
    obtain ⟨value, hreceipt, hresult⟩ := Transaction.ok_of_bind hresult
    split at hresult
    · obtain rfl := Except.ok.inj hresult
      exact absurd rfl hfinal
    · rename_i receipt str
      unfold examineReceipt at hresult
      obtain ⟨status, hstatus, hresult⟩ := Transaction.ok_of_bind hresult
      obtain ⟨blockNumber, hblock, hresult⟩ := Transaction.ok_of_bind hresult
      obtain ⟨currentValue, hcurrent, hresult⟩ := Transaction.ok_of_bind hresult
      obtain ⟨currentBlock, hcurrentBlock, hresult⟩ := Transaction.ok_of_bind hresult
      refine ⟨contract, destination, receipt, status, blockNumber, currentBlock, ?_⟩
      exact
        { wallet := hwallet
          token := htoken
          decimals := by
            unfold raiseIf at hdecimals
            split at hdecimals
            · cases hdecimals
            · omega
          chain := ⟨chainValue, hchain, not_not.mp hexpected ▸ hchainId⟩
          found := by
            split at hhash
            · rename_i found hfound
              obtain rfl := Except.ok.inj hhash
              exact ⟨_, str, hfound, hreceipt⟩
            · cases hhash
          status := hstatus
          block := hblock
          current := ⟨currentValue, hcurrent, hcurrentBlock⟩ }
    · obtain rfl := Except.ok.inj hresult
      exact absurd rfl hfinal
  · exact absurd rfl hfinal

end Verdict

/-! ## Final verdicts -/

/-- The RPC has reported the right chain, and a block of the receipt of the transaction that has the
required confirmations at the block it reports as the current one. -/
def ReportedDeep (payout : PayoutTransfer) (config : TokenConfig) (rpc : Rpc) : Prop :=
  (∃ value, rpc .chainId = .ok value ∧ parseQuantity value "chain id" = .ok expectedChainId) ∧
    ∃ txHash receipt str blockNumber value currentBlock,
      normalizeTxHash payout.txHash = .ok txHash ∧
      rpc (.transactionReceipt txHash) = .ok (.dict receipt str) ∧
      parseQuantity (Json.get receipt "blockNumber") "receipt block" = .ok blockNumber ∧
      rpc .blockNumber = .ok value ∧ parseQuantity value "current block" = .ok currentBlock ∧
      config.DeepEnough currentBlock blockNumber

/-- The receipt is readable, says that the transaction was reverted, and is not deep enough. -/
def ReportedShallowRevert (payout : PayoutTransfer) (config : TokenConfig) (rpc : Rpc) : Prop :=
  ∃ contract destination receipt status blockNumber currentBlock,
    Examined payout config rpc contract destination receipt status blockNumber currentBlock ∧
      status ≠ 1 ∧ ¬ config.DeepEnough currentBlock blockNumber

/-- The revert is taken for final at once. -/
theorem ReportedShallowRevert.final {payout : PayoutTransfer} {config : TokenConfig} {rpc : Rpc}
    (h : ReportedShallowRevert payout config rpc) :
    (verifyBscPayout payout config rpc).status = .failed ∧ ¬ ReportedDeep payout config rpc := by
  obtain ⟨contract, destination, receipt, status, blockNumber, currentBlock, h, hreverted,
    hshallow⟩ := h
  refine ⟨h.verdict.trans (if_pos hreverted), ?_⟩
  rintro ⟨-, txHash, receipt', str, blockNumber', value, currentBlock', hhash, hreceipt, hblock,
    hvalue, hcurrent, hdeep⟩
  -- both read the same receipt and the same block
  obtain ⟨txHash₀, str₀, hhash₀, hreceipt₀⟩ := h.found
  obtain ⟨value₀, hvalue₀, hcurrent₀⟩ := h.current
  obtain rfl := Except.ok.inj (hhash₀.symm.trans hhash)
  obtain ⟨rfl, rfl⟩ := Json.dict.inj (Except.ok.inj (hreceipt₀.symm.trans hreceipt))
  obtain rfl := Except.ok.inj (h.block.symm.trans hblock)
  obtain rfl := Except.ok.inj (hvalue₀.symm.trans hvalue)
  obtain rfl := Except.ok.inj (hcurrent₀.symm.trans hcurrent)
  exact hshallow hdeep

/-- A verdict is final only at the required depth, unless the receipt reports a revert before it. -/
theorem final_at_depth_iff (payout : PayoutTransfer) (config : TokenConfig) (rpc : Rpc) :
    ((verifyBscPayout payout config rpc).status ≠ .pending → ReportedDeep payout config rpc) ↔
      ¬ ReportedShallowRevert payout config rpc := by
  constructor
  · intro hdeep hshallow
    obtain ⟨hfailed, hnot⟩ := hshallow.final
    refine hnot (hdeep ?_)
    rw [hfailed]
    decide
  · intro hnever hfinal
    obtain ⟨contract, destination, receipt, status, blockNumber, currentBlock, h⟩ :=
      examined_of_final hfinal
    have hdeep : config.DeepEnough currentBlock blockNumber := by
      by_contra hshallow
      have hverdict := h.verdict
      by_cases hstatus : status = 1
      · rw [if_neg (not_not.mpr hstatus), if_pos hshallow] at hverdict
        exact hfinal hverdict
      · exact hnever ⟨contract, destination, receipt, status, blockNumber, currentBlock, h, hstatus,
          hshallow⟩
    obtain ⟨txHash, str, hhash, hreceipt⟩ := h.found
    obtain ⟨value, hvalue, hcurrent⟩ := h.current
    exact ⟨h.chain, txHash, receipt, str, blockNumber, value, currentBlock, hhash, hreceipt,
      h.block, hvalue, hcurrent, hdeep⟩

namespace Scenario

def usdt : String := "0x55d398326f99059ff775485246999027b3197955"
def payoutHash : String := "0x" ++ String.ofList (List.replicate 64 'a')
def payoutWallet : String := "0x1111111111111111111111111111111111111111"

/-- A payout of 1.5 USD whose transaction was submitted. -/
def submittedPayout : PayoutTransfer :=
  { txHash := payoutHash, walletAddress := payoutWallet, amountMicroUsd := 1500000 }

def tenConfirmations : TokenConfig :=
  { tokenContract := usdt, tokenDecimals := 18, minConfirmations := 10 }

/-- An RPC that knows one receipt. -/
def rpcOf (receipt : List (String × Json)) (currentBlock : String) : Rpc
  | .chainId => .ok (.text "0x38")
  | .transactionReceipt _ => .ok (.dict receipt "{…}")
  | .blockNumber => .ok (.text currentBlock)

def revertedReceipt : List (String × Json) :=
  [("status", .text "0x0"), ("blockNumber", .text "0x64"), ("logs", .list [] "[]")]

end Scenario

open Scenario in
/-- A transaction that the head block has reverted fails its payout after one confirmation out of
ten. -/
theorem final_before_depth_revertedAtHead :
    ¬ ((verifyBscPayout submittedPayout tenConfirmations (rpcOf revertedReceipt "0x64")).status ≠
        .pending →
      ReportedDeep submittedPayout tenConfirmations (rpcOf revertedReceipt "0x64")) := by
  have hshallow : ReportedShallowRevert submittedPayout tenConfirmations
      (rpcOf revertedReceipt "0x64") := by
    refine ⟨usdt, payoutWallet, revertedReceipt, 0, 100, 100, ?_, by decide, by decide⟩
    exact
      { wallet := by decide +kernel
        token := by decide +kernel
        decimals := by decide
        chain := ⟨_, rfl, by decide +kernel⟩
        found := ⟨payoutHash, _, by decide +kernel, rfl⟩
        status := by decide +kernel
        block := by decide +kernel
        current := ⟨_, rfl, by decide +kernel⟩ }
  obtain ⟨hfailed, hnot⟩ := hshallow.final
  intro hdeep
  refine hnot (hdeep ?_)
  rw [hfailed]
  decide

/-! ## The logs of a receipt -/

/-- The log reports the transfer that the payout waits for: by the token contract, to the wallet, of
the amount. -/
structure PaysOut (contract destination : String) (units : Int) (fields : List (String × Json))
    (topic recipient : Json) : Prop where
  address : normalizeAddress (Json.get fields "address").strOrEmpty "Log contract" = .ok contract
  topics :
    ∃ second rest str, Json.get fields "topics" = .list (topic :: second :: recipient :: rest) str
  transfer : Text.lower topic.str = transferTopic
  recipient : topicToAddress recipient = some destination
  amount : ∃ amount, parseQuantity (Json.get fields "data") "transfer amount" = .ok amount ∧
    (amount : Int) = units

/-- The payout is carried out by a log. -/
def CarriesOut (contract destination : String) (units : Int) (log : Json) : Prop :=
  ∃ fields str topic recipient, log = .dict fields str ∧
    PaysOut contract destination units fields topic recipient

theorem logEvidence_eq_transfer {contract destination : String} {units : Int} {log : Json} :
    logEvidence contract destination units log = .transfer ↔
      CarriesOut contract destination units log := by
  constructor
  · intro h
    unfold logEvidence at h
    split at h
    · rename_i fields str
      split at h
      · cases h
      rename_i haddress
      split at h
      · rename_i topic second recipient rest topicsStr htopics
        split at h
        · cases h
        rename_i htransfer
        split at h
        · cases h
        rename_i hrecipient
        split at h
        · rename_i amount hamount
          split at h
          · rename_i hunits
            exact ⟨fields, str, topic, recipient, rfl, not_not.mp haddress,
              ⟨second, rest, topicsStr, htopics⟩, not_not.mp htransfer, not_not.mp hrecipient,
              amount, hamount, hunits⟩
          · cases h
        · cases h
      · cases h
    · cases h
  · rintro ⟨fields, str, topic, recipient, rfl, h⟩
    obtain ⟨second, rest, topicsStr, htopics⟩ := h.topics
    obtain ⟨amount, hamount, hunits⟩ := h.amount
    simp [logEvidence, h.address, htopics, h.transfer, h.recipient, hamount, hunits]

/-- The loop returns exactly when it comes to a transfer; what it has noted before does not
matter. -/
theorem scanLogs_isNone (evidence : Json → LogEvidence) (logs : List Json) :
    ∀ matching, (scanLogs evidence matching logs).isNone ↔
      ∃ log ∈ logs, evidence log = .transfer := by
  induction logs with
  | nil => simp [scanLogs]
  | cons log logs ih =>
    intro matching
    rw [List.exists_mem_cons_iff]
    unfold scanLogs
    cases hlog : evidence log <;> simp [ih]

section Logs

variable {payout : PayoutTransfer} {config : TokenConfig} {rpc : Rpc}
    {contract destination : String}
  {receipt : List (String × Json)} {blockNumber currentBlock : Nat}

theorem Examined.scanned (h : Examined payout config rpc contract destination receipt 1 blockNumber
      currentBlock) (hdeep : config.DeepEnough currentBlock blockNumber) {logs : List Json}
    (hlogs : logItems (Json.get receipt "logs") = .ok logs) :
    ((verifyBscPayout payout config rpc).status = .confirmed ↔ ∃ log ∈ logs,
      CarriesOut contract destination (expectedUnits payout config.tokenDecimals.toNat) log) ∧
    ((verifyBscPayout payout config rpc).status = .failed ↔ ∀ log ∈ logs,
      ¬ CarriesOut contract destination (expectedUnits payout config.tokenDecimals.toNat) log) := by
  have hverdict := h.verdict
  rw [if_neg (by simp), if_neg (not_not.mpr hdeep), hlogs] at hverdict
  have hscan := scanLogs_isNone
    (logEvidence contract destination (expectedUnits payout config.tokenDecimals.toNat)) logs {}
  simp only [logEvidence_eq_transfer] at hscan
  rw [hverdict]
  dsimp only
  split
  · rename_i hnone
    obtain ⟨log, hmem, hcarries⟩ := hscan.mp hnone
    exact ⟨⟨fun _ => ⟨log, hmem, hcarries⟩, fun _ => rfl⟩,
      ⟨fun h => (by cases h), fun hnot => absurd hcarries (hnot log hmem)⟩⟩
  · rename_i hsome
    have hnot : ∀ log ∈ logs, ¬ CarriesOut contract destination
        (expectedUnits payout config.tokenDecimals.toNat) log :=
      fun log hmem hcarries => hsome (hscan.mpr ⟨log, hmem, hcarries⟩)
    refine ⟨⟨fun h => (by cases h), ?_⟩, ⟨fun _ => hnot, fun _ => rfl⟩⟩
    rintro ⟨log, hmem, hcarries⟩
    exact absurd hcarries (hnot log hmem)

/-- Once the chain, the status and the depth are right, the verdict is whether some log carries the
payout out. Neither the order of the logs nor other logs among them matter. A receipt whose logs
cannot be gone through leaves the payout pending. -/
theorem confirmed_iff_carried (h : Examined payout config rpc contract destination receipt 1
      blockNumber currentBlock) (hdeep : config.DeepEnough currentBlock blockNumber) :
    (∀ logs, logItems (Json.get receipt "logs") = .ok logs →
      ((verifyBscPayout payout config rpc).status = .confirmed ↔ ∃ log ∈ logs,
        CarriesOut contract destination (expectedUnits payout config.tokenDecimals.toNat) log) ∧
      ((verifyBscPayout payout config rpc).status = .failed ↔ ∀ log ∈ logs,
        ¬ CarriesOut contract destination (expectedUnits payout config.tokenDecimals.toNat) log)) ∧
    (∀ message, logItems (Json.get receipt "logs") = .error message →
      (verifyBscPayout payout config rpc).status = .pending) ∧
    ∀ rpc' receipt' blockNumber' currentBlock',
      Examined payout config rpc' contract destination receipt' 1 blockNumber' currentBlock' →
      config.DeepEnough currentBlock' blockNumber' → ∀ logs logs' others,
      logItems (Json.get receipt "logs") = .ok logs →
      logItems (Json.get receipt' "logs") = .ok logs' → logs'.Perm (logs ++ others) →
      (∀ log ∈ others,
        ¬ CarriesOut contract destination (expectedUnits payout config.tokenDecimals.toNat) log) →
      (verifyBscPayout payout config rpc').status = (verifyBscPayout payout config rpc).status := by
  refine ⟨fun logs hlogs => h.scanned hdeep hlogs, fun message hlogs => ?_, ?_⟩
  · have hverdict := h.verdict
    rwa [if_neg (by simp), if_neg (not_not.mpr hdeep), hlogs] at hverdict
  · intro rpc' receipt' blockNumber' currentBlock' h' hdeep' logs logs' others hlogs hlogs' hperm
      hothers
    obtain ⟨hconfirmed, hfailed⟩ := h.scanned hdeep hlogs
    obtain ⟨hconfirmed', hfailed'⟩ := h'.scanned hdeep' hlogs'
    by_cases hcarries : ∃ log ∈ logs,
        CarriesOut contract destination (expectedUnits payout config.tokenDecimals.toNat) log
    · obtain ⟨log, hmem, hlog⟩ := hcarries
      have hmem' : log ∈ logs' := hperm.mem_iff.mpr (List.mem_append_left _ hmem)
      rw [hconfirmed.mpr ⟨log, hmem, hlog⟩, hconfirmed'.mpr ⟨log, hmem', hlog⟩]
    · have hnone : ∀ log ∈ logs', ¬ CarriesOut contract destination
          (expectedUnits payout config.tokenDecimals.toNat) log := by
        intro log hmem' hlog
        rcases List.mem_append.mp (hperm.mem_iff.mp hmem') with hmem | hmem
        · exact hcarries ⟨log, hmem, hlog⟩
        · exact hothers log hmem hlog
      rw [hfailed.mpr fun log hmem hlog => hcarries ⟨log, hmem, hlog⟩, hfailed'.mpr hnone]

end Logs

namespace Scenario

/-- A log of the token contract. -/
def transferLog (recipient data : String) : Json :=
  .dict [("address", .text usdt), ("data", .text data),
    ("topics", .list [.text transferTopic, .null, .text recipient] "[…]")] "{…}"

def walletTopic : String :=
  "0x" ++ String.ofList (List.replicate 24 '0' ++ List.replicate 40 '1')

/-- The receipt lists a foreign value, a transfer of another amount and the transfer. -/
def paidReceipt : List (String × Json) :=
  [("status", .text "0x1"), ("blockNumber", .text "0x64"),
    ("logs",
      .list [.null, transferLog walletTopic "0x1", transferLog walletTopic "0x14d1120d7b160000"]
      "[…]")]

/-- What stands for the logs is a number. -/
def garbledReceipt : List (String × Json) :=
  [("status", .text "0x1"), ("blockNumber", .text "0x64"), ("logs", .number false "7")]

theorem examined (receipt : List (String × Json))
    (hstatus : Json.get receipt "status" = .text "0x1")
    (hblock : Json.get receipt "blockNumber" = .text "0x64") :
    Examined submittedPayout tenConfirmations (rpcOf receipt "0x6e") usdt payoutWallet receipt 1 100
      110 where
  wallet := by decide +kernel
  token := by decide +kernel
  decimals := by decide
  chain := ⟨_, rfl, by decide +kernel⟩
  found := ⟨payoutHash, _, by decide +kernel, rfl⟩
  status := by
    rw [hstatus]
    decide +kernel
  block := by
    rw [hblock]
    decide +kernel
  current := ⟨_, rfl, by decide +kernel⟩

end Scenario

open Scenario in
theorem confirmed_iff_carried_paidReceipt :
    (verifyBscPayout submittedPayout tenConfirmations (rpcOf paidReceipt "0x6e")).status =
        .confirmed ↔ ∃ log ∈ [.null, transferLog walletTopic "0x1",
          transferLog walletTopic "0x14d1120d7b160000"],
        CarriesOut usdt payoutWallet (expectedUnits submittedPayout 18) log :=
  ((confirmed_iff_carried (Scenario.examined _ rfl rfl) (by decide)).1 _ rfl).1

open Scenario in
/-- The payout with the garbled receipt is neither confirmed nor failed. -/
theorem neither_confirmed_nor_failed_garbledReceipt :
    ¬ ∀ payout config rpc contract destination receipt blockNumber currentBlock,
      Examined payout config rpc contract destination receipt 1 blockNumber currentBlock →
      config.DeepEnough currentBlock blockNumber →
      (verifyBscPayout payout config rpc).status = .confirmed ∨
        (verifyBscPayout payout config rpc).status = .failed := by
  intro hall
  have h := Scenario.examined garbledReceipt rfl rfl
  have hdeep : tenConfirmations.DeepEnough 110 100 := by decide
  have hverdict := h.verdict
  rw [if_neg (by simp), if_neg (not_not.mpr hdeep)] at hverdict
  have hpending : (verifyBscPayout submittedPayout tenConfirmations
      (rpcOf garbledReceipt "0x6e")).status = .pending := hverdict
  have hfinal := hall _ _ _ _ _ _ _ _ h hdeep
  rw [hpending] at hfinal
  revert hfinal
  decide

end EarnProxy
