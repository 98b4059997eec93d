/-
The settlement service (internal/settlement/service.go and wait.go): admission, the broadcast pipeline
shared by HTTP and the worker, confirmation, and the wait of an HTTP request for a final outcome.
-/
import Eth402.Settlement.Calls

namespace Eth402.Settlement

open Lib Store Verification

variable (lib : Libraries) (cfg : Config)

/-! ## Fees and signing -/

/-- The fee pair from the latest block, or the reason there is none. -/
def initialFees (block : Block) : Except Err (Int × Int) :=
  match setString10 block.baseFee, setString10 cfg.maxPriorityFeeGas, setString10 cfg.maxFeePerGas with
  | none, _, _ => .error (.text ("latest block reports invalid base fee " ++ block.baseFee))
  | _, none, _ => .error (.text ("configured priority fee " ++ cfg.maxPriorityFeeGas ++ " is not a decimal integer"))
  | _, _, none => .error (.text ("configured max fee " ++ cfg.maxFeePerGas ++ " is not a decimal integer"))
  | some baseFee, some tip, some ceiling => estimateFeesFrom baseFee tip ceiling

/-- `estimateFees`. -/
def estimateFees : P (Except Err (Int × Int)) := do
  match ← blockByNumber none with
  | .error e => pure (.error e)
  | .ok block => pure (initialFees cfg block)

/-! ## The broadcast pipeline -/

/-- The end of `broadcastClaimed`: the signed bytes are recorded, sent once, and the result recorded. -/
def sendSigned (work : Work) (actor : String) (signed : SignedTransaction) (fees : Int × Int) :
    P (Except Err String) := do
  let rawHash := rawHashOf lib signed.raw
  let expectedTxHash := "0x" ++ rawHash
  match ← inStore (.markTxSigned work.transactionId rawHash (hexEncode signed.sigHash) cfg.gasLimit fees.1 fees.2) with
  | .error e => pure (.error (.wrap "record signed transaction" e))
  | .ok _ =>
    let sent ← sendRawTransaction ⟨.broadcastClaimed, work.paymentId, work.transactionId⟩ signed.raw
    match sent.bind fun returned => requireBroadcastHash returned expectedTxHash with
    | .error e =>
      -- the outcome is unknown: the provider may have accepted the transaction
      match ← inStore (.markTxAmbiguous work.paymentId work.transactionId actor) with
      | .error markErr => pure (.error (.join (.wrap "broadcast" e) (.wrap "mark ambiguous" markErr)))
      | .ok _ => pure (.error (.wrap "broadcast" e))
    | .ok _ =>
      match ← inStore (.markTxBroadcast work.paymentId work.transactionId expectedTxHash actor) with
      | .error e => pure (.error (.wrap "record broadcast" e))
      | .ok _ => pure (.ok expectedTxHash)

/-- The middle of `broadcastClaimed`: price and sign the committed intent. -/
def signIntent (work : Work) (actor : String) (calldata : Bytes) : P (Except Err String) := do
  match ← estimateFees cfg with
  | .error e => pure (.error (.wrap "estimate fees" e))
  | .ok fees =>
    match ← signTransaction ⟨work.nonce, calldata, cfg.gasLimit, fees.1, fees.2⟩ work.authorization.wire with
    | .error e => pure (.error (.wrap "sign settlement transaction" e))
    | .ok signed => sendSigned lib cfg work actor signed fees

/-- `broadcastClaimed` from the point where the authorization is known to be live. -/
def simulateIntent (work : Work) (actor : String) : P (Except Err String) :=
  match transferWithAuthorizationData lib work.authorization with
  | .error e => pure (.error (.wrap "build calldata" e))
  | .ok calldata => do
    match ← simulate work.signerAddress calldata with
    | .error e =>
      if e.is .simulationReverted then
        match ← inStore (.markIntentUnsettleable work.paymentId work.transactionId actor) with
        | .error markErr => pure (.error (.wrap "retire unsettleable intent" markErr))
        | .ok _ => pure (.error (.sentinel .paymentUnsettleable))
      else pure (.error (.wrap "simulate transfer" e))
    | .ok _ => signIntent lib cfg work actor calldata

/-- `broadcastClaimed`. -/
def broadcastClaimed (work : Work) (actor : String) : P (Except Err String) := do
  if work.txHash ≠ "" then pure (.ok work.txHash)
  else if work.ambiguousBroadcast then
    -- a previous attempt crashed between the send and its record: never sent again from here
    match ← inStore (.markTxAmbiguous work.paymentId work.transactionId actor) with
    | .error e => pure (.error (.wrap "mark ambiguous broadcast" e))
    | .ok _ => pure (.error (.text "broadcast outcome is ambiguous; payment moved to manual review"))
  else if ¬ work.broadcastPending then
    pure (.error (.text ("transaction " ++ toString work.transactionId ++ " in unexpected status")))
  else
    let now ← askNow
    if ¬ work.authorization.validBefore > now + cfg.expiryMargin then
      match ← inStore (.markIntentExpired work.paymentId work.transactionId actor) with
      | .error e => pure (.error (.wrap "retire expired intent" e))
      | .ok _ => pure (.error (.sentinel .authorizationExpiring))
    else simulateIntent lib cfg work actor

/-- `Broadcast`: claim the lease, run the pipeline, release. -/
def broadcast (paymentId : Nat) (actor : String) : P (Except Err String) := do
  let now ← askNow
  match ← inStore (.claimPayment paymentId actor cfg.leaseDuration now) with
  | .error e =>
    if e.is .leaseUnavailable then pure (.error (.sentinel .broadcastPending))
    else pure (.error (.wrap "claim payment" e))
  | .ok _ =>
    match ← loadSettlementWork paymentId with
    | .error e => do
      release paymentId actor
      pure (.error (.wrap "load settlement work" e))
    | .ok work => do
      let result ← broadcastClaimed lib cfg work actor
      release paymentId actor
      pure result

/-! ## Confirmation -/

/-- `Confirmation`: observe one leased payment's transaction once. -/
def confirmation (paymentId : Nat) (actor : String) : P (Except Err Unit) := do
  match ← loadSettlementWork paymentId with
  | .error e => pure (.error (.wrap "load settlement work" e))
  | .ok work =>
    if work.txHash = "" then
      pure (.error (.text ("payment " ++ toString paymentId ++ " in state " ++ work.state.text ++
        " has no transaction hash")))
    else match ← transactionReceipt work.txHash with
    | .error e => pure (.error (.wrap "fetch receipt" e))
    | .ok none =>
      -- seen mined before and now without a receipt: its block was reorganised out
      if work.transactionStatus = .confirming then
        inStore (.markTxReorgedOut paymentId work.transactionId actor)
      else pure (.ok ())
    | .ok (some receipt) =>
      match ← blockByNumber (some receipt.blockNumber) with
      | .error e => pure (.error (.wrap "fetch canonical receipt block" e))
      | .ok canonical =>
        if ¬ equalFold canonical.hash receipt.blockHash then
          if work.transactionStatus = .confirming then
            inStore (.markTxReorgedOut paymentId work.transactionId actor)
          else pure (.ok ())
        else match ← blockNumber with
        | .error e => pure (.error (.wrap "fetch block number" e))
        | .ok current =>
          if depthAt current receipt.blockNumber < cfg.confirmations then
            inStore (.markTxConfirming paymentId work.transactionId receipt.blockNumber receipt.blockHash actor)
          else if receipt.status = 0 then
            inStore (.markTxReverted paymentId work.transactionId receipt.gasUsed receipt.effectiveGasPrice actor)
          else
            inStore (.markTxConfirmed paymentId work.transactionId receipt.blockNumber receipt.blockHash
              receipt.gasUsed receipt.effectiveGasPrice actor)

/-! ## Waiting for a final outcome -/

inductive Observation
  | pending
  | confirmed (receipt : Receipt)
  | reverted (receipt : Receipt)
  deriving DecidableEq

/-- `observeSettlement`: read the chain once. -/
def observeSettlement (txHash : String) : P (Except Err Observation) := do
  match ← transactionReceipt txHash with
  | .error e => pure (.error e)
  | .ok none => pure (.ok .pending)
  | .ok (some receipt) =>
    match ← blockByNumber (some receipt.blockNumber) with
    | .error e => pure (.error e)
    | .ok canonical =>
      if ¬ equalFold canonical.hash receipt.blockHash then pure (.ok .pending)
      else match ← blockNumber with
      | .error e => pure (.error e)
      | .ok current =>
        if depthAt current receipt.blockNumber < cfg.confirmations then pure (.ok .pending)
        else if receipt.status = 0 then pure (.ok (.reverted receipt))
        else pure (.ok (.confirmed receipt))

/-- The polling loop of `waitForSettlement`. How often it polls before its deadline is not the code's
to say, so it is bounded by an arbitrary number. -/
def pollSettlement (txHash : String) : Nat → P Observation
  | 0 => pure .pending
  | polls + 1 => do
    match ← observeSettlement cfg txHash with
    | .ok (.confirmed receipt) => pure (.confirmed receipt)
    | .ok (.reverted receipt) => pure (.reverted receipt)
    | .ok .pending | .error _ =>
      let done ← contextDone
      if done then pure .pending else pollSettlement txHash polls

/-- `waitForSettlement`. -/
def waitForSettlement (polls : Nat) (txHash : String) : P Observation :=
  if cfg.responseWait ≤ 0 then pure .pending else pollSettlement cfg txHash polls

/-! ## Responses -/

structure SettleResponse where
  success : Bool
  errorReason : String
  errorMessage : String
  transaction : String
  payer : String
  network : String
  amount : String
  deriving DecidableEq, Repr

def wireReasonInvalidRequest := "invalid_request"
def wireReasonTransactionFailed := "invalid_exact_evm_transaction_failed"
def wireReasonFailedToGetReceipt := "invalid_exact_evm_failed_to_get_receipt"
def wireReasonBroadcastFailed := "broadcast_failed"

def rejected (reason : String) (payment : Option ParsedPayment) : SettleResponse where
  success := false
  errorReason := reason
  errorMessage := ""
  transaction := ""
  payer := (payment.map (·.payer)).getD ""
  network := mainnetNetwork
  amount := (payment.map (·.amount)).getD ""

def settled (payment : ParsedPayment) (txHash : String) : SettleResponse where
  success := true
  errorReason := ""
  errorMessage := ""
  transaction := txHash
  payer := payment.payer
  network := mainnetNetwork
  amount := payment.amount

def revertedTx (payment : ParsedPayment) : SettleResponse := rejected wireReasonTransactionFailed payment

def receiptUnavailable (payment : ParsedPayment) : SettleResponse := rejected wireReasonFailedToGetReceipt payment

/-- The actor the waiting request passes when it records a final outcome. -/
def waitActor := "http-wait"

/-- `respondWithTx`: wait for the outcome, record it, and answer. -/
def respondWithTx (polls : Nat) (payment : ParsedPayment) (paymentId transactionId : Nat) (txHash : String) :
    P SettleResponse := do
  match ← waitForSettlement cfg polls txHash with
  | .confirmed receipt =>
    match ← inStore (.markTxConfirmed paymentId transactionId receipt.blockNumber receipt.blockHash
        receipt.gasUsed receipt.effectiveGasPrice waitActor) with
    | .error _ => pure (receiptUnavailable payment)
    | .ok _ => pure (settled payment txHash)
  | .reverted receipt =>
    match ← inStore (.markTxReverted paymentId transactionId receipt.gasUsed receipt.effectiveGasPrice
        waitActor) with
    | .error _ => pure (receiptUnavailable payment)
    | .ok _ => pure (revertedTx payment)
  | .pending => pure (receiptUnavailable payment)

/-! ## Settle -/

/-- The refusals of admission that are answered as such, in the order they are tested. -/
def admissionReasons : List (Sentinel × String) := [
  (.paymentNotFound, reasonPaymentNotFound), (.paymentNotVerified, reasonPaymentNotVerified),
  (.recipientNotMerchant, reasonRecipientNotMerchant), (.authorizationExpiring, reasonAuthorizationExpiring),
  (.merchantQuotaExceeded, reasonMerchantQuotaExceeded), (.globalQuotaExceeded, reasonGlobalQuotaExceeded)]

/-- The answer to an error of admission. -/
def admissionAnswer (payment : ParsedPayment) (e : Err) : Except Err SettleResponse :=
  match admissionReasons.find? fun r => e.is r.1 with
  | some (_, reason) => .ok (rejected reason payment)
  | none => .error (.wrap "create settlement intent" e)

/-- A broadcast that did not happen here; the durable intent remains. -/
def broadcastFailed (payment : ParsedPayment) (message : String) : SettleResponse :=
  { rejected wireReasonBroadcastFailed payment with errorMessage := message }

/-- The answer when the inline broadcast returned an error: another actor may have recorded a hash. -/
def afterBroadcastError (polls : Nat) (payment : ParsedPayment) (intent : Intent) (e : Err) :
    P SettleResponse := do
  if e.is .authorizationExpiring then pure (rejected reasonAuthorizationExpiring payment)
  else if e.is .paymentUnsettleable then pure (rejected reasonSimulationReverted payment)
  else
    let failed := if e.is .broadcastPending then
        broadcastFailed payment "payment broadcast is already in progress; retry to observe it"
      else broadcastFailed payment
        "transaction broadcast failed; the durable intent remains for the settlement worker"
    match ← loadSettlementWork intent.paymentId with
    | .ok work =>
      if work.txHash ≠ "" then respondWithTx cfg polls payment intent.paymentId work.transactionId work.txHash
      else pure failed
    | .error _ => pure failed

/-- The answer once an intent exists. -/
def settleIntent (polls : Nat) (payment : ParsedPayment) (intent : Intent) : P SettleResponse := do
  if intent.txHash ≠ "" then
    if intent.reverted then pure (revertedTx payment)
    else if intent.confirmed then pure (settled payment intent.txHash)
    else if intent.duplicate then pure (receiptUnavailable payment)
    else respondWithTx cfg polls payment intent.paymentId intent.transactionId intent.txHash
  else
    match ← broadcast lib cfg intent.paymentId "http" with
    | .ok txHash => respondWithTx cfg polls payment intent.paymentId intent.transactionId txHash
    | .error e => afterBroadcastError cfg polls payment intent e

/-- The request for an intent that `Settle` makes at time `now`. -/
def intentRequest (payment : ParsedPayment) (now : Time) : IntentRequest where
  paymentIdentity := payment.identity
  signerAddress := cfg.signerAddress
  payerSignature := payment.signature
  expiryMargin := cfg.expiryMargin
  quota := cfg.merchantQuota
  quotaWindow := cfg.quotaWindow
  globalQuota := cfg.globalQuota
  now := now

/-- `Settle`. Only an internal failure is an error. -/
def settle (polls : Nat) (request : Request) : P (Except Err SettleResponse) :=
  match parseRequest lib request with
  | .error reason => pure (.ok { rejected wireReasonInvalidRequest none with
      errorMessage := "payment is not acceptable to this facilitator: " ++ reason.text lib })
  | .ok payment => do
    let now ← askNow
    match ← inStore (.createSettlementIntent (intentRequest cfg payment now)) with
    | .error e => pure (admissionAnswer payment e)
    | .ok intent => do
      let response ← settleIntent lib cfg polls payment intent
      pure (.ok response)

end Eth402.Settlement
