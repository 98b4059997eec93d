/-
Admission to settlement (internal/store/signer.go and settlement.go): the nonce sequence of a signer,
and `CreateSettlementIntent`, which checks a request, allocates a nonce and records the intent in one
transaction. A refusal is committed as an attempt row and returned as an error, so the method is a
transaction whose result may itself be an error.
-/
import Eth402.Store.Lifecycle

namespace Eth402.Store

open Lib Settlement

/-- `walletproof.NormalizeAddress`. -/
def normalizeAddress (address : String) : Except Err String :=
  if address.utf8ByteSize ≠ 42 ∨ ¬ hasPrefix "0x" address then
    .error (.text "ethereum address must be 20-byte 0x-prefixed hex")
  else if hexDecode ((chars address).drop 2) = none then
    .error (.text "ethereum address contains invalid hex")
  else if equalFold address "0x0000000000000000000000000000000000000000" then
    .error (.text "zero address is not permitted")
  else .ok (lower address)

/-- A value the code computed before or between statements. -/
def Txn.lift {α : Type} : Except Err α → Txn α
  | .ok a => pure a
  | .error e => Txn.fail e

theorem Txn.lift_ok {α : Type} {x : Except Err α} {db db' : DB} {a : α} (h : Txn.lift x db = .ok (a, db')) :
    x = .ok a ∧ db' = db := by
  cases x with
  | ok b => cases h; exact ⟨rfl, rfl⟩
  | error e => cases h

/-! ## The nonce sequence -/

def Tables.nextNonce (t : Tables) (address : String) : Option Nat :=
  (t.signerAccounts.find? fun a => a.signerAddress = address).map (·.nextNonce)

/-- The sequence of `address` set to `n`. -/
def Tables.setNonce (address : String) (n : Nat) (t : Tables) : Tables :=
  { t with signerAccounts := t.signerAccounts.map fun a =>
      if a.signerAddress = address then { a with nextNonce := n } else a }

/-- `SeedSignerAccount`: never lowers a sequence. -/
def seedSignerAccount (signerAddress : String) (chainNonce : Nat) : Txn Nat := do
  let address ← Txn.lift ((normalizeAddress signerAddress).mapError (.wrap "signer address"))
  let stored ← Txn.read (·.nextNonce address)
  match stored with
  | some next => do
    Txn.write (Tables.setNonce address (max next chainNonce))
    Txn.lift (parseNonce (max next chainNonce))
  | none => do
    Txn.write fun t => { t with signerAccounts := t.signerAccounts ++ [⟨address, chainNonce⟩] }
    Txn.lift (parseNonce chainNonce)

/-- `AllocateNonce`, inside the caller's transaction. -/
def allocateNonce (signerAddress : String) : Txn Nat := do
  let address ← Txn.lift ((normalizeAddress signerAddress).mapError (.wrap "signer address"))
  let stored ← Txn.read (·.nextNonce address)
  match stored with
  | some next => do
    Txn.write (Tables.setNonce address (next + 1))
    Txn.lift (parseNonce next)
  | none => Txn.fail (.sentinel .signerAccountUnknown)

/-! ## The intent -/

def nullString (value : String) : Option String := if value = "" then none else some value

/-- `rejectSettlement`: the refused attempt is committed, then the cause is returned. -/
def rejectSettlement (paymentId : Option Nat) (identity reason : String) (cause : Err) : Txn (Except Err Intent) := do
  insertSettlementAttempt ⟨paymentId, nullString identity, .rejected, some reason⟩
  pure (.error cause)

/-- The row of a fresh intent. -/
def intentRow (env : DbEnv) (paymentId : Nat) (signerAddress : String) (nonce : Nat) : Transaction where
  id := env.freshId
  paymentId := paymentId
  txHash := none
  signerAddress := signerAddress
  transactionNonce := nonce
  rawTransactionHash := none
  sighash := none
  status := .intent
  blockNumber := none
  blockHash := none
  gasLimit := none
  gasUsed := none
  effectiveGasPrice := none
  maxFeePerGas := none
  maxPriorityFeePerGas := none
  replacedById := none
  broadcastAttemptedAt := none
  firstSeenAt := none
  confirmedAt := none
  updatedAt := env.now
  rawTransaction := none
  ambiguousAttempts := 0

/-- The terminal row a duplicate of a confirmed or reverted payment reports: the latest of those with
a hash. -/
def terminalRow (env : DbEnv) (p : Payment) (t : Tables) : Option (Transaction × String) :=
  let status := if p.state = .confirmed then TxStatus.confirmed else .reverted
  if p.state ∈ [.confirmed, .reverted] then
    (((env.arrange (·.1.id) (t.transactions.filterMap fun r =>
      if r.paymentId = p.id ∧ r.status = status then r.txHash.map (r, ·) else none)).insertionSort
        fun a b => b.1.updatedAt ≤ a.1.updatedAt).head?)
  else none

/-- Report an intent that already exists. -/
def duplicateIntent (p : Payment) (request : IntentRequest) (r : Transaction) (txHash : String)
    (terminal : Bool) : Txn (Except Err Intent) := do
  let nonce ← Txn.lift (parseNonce r.transactionNonce)
  insertSettlementAttempt ⟨some p.id, some request.paymentIdentity, .duplicate, none⟩
  pure (.ok {
    paymentId := p.id, paymentIdentity := request.paymentIdentity, transactionId := r.id
    signerAddress := r.signerAddress, nonce := nonce, txHash := txHash
    reverted := terminal && p.state = .reverted, confirmed := terminal && p.state = .confirmed
    duplicate := true })

/-- The settlement intents committed in the window, of one merchant or of all. -/
def settledSince (since : Time) (merchant : Option Nat) (t : Tables) : Nat :=
  t.payments.countP fun p =>
    p.settlementRequestedAt.any (· > since) ∧ (merchant.isNone ∨ p.merchantId = merchant)

/-- The refusal a verified payment without an intent meets, if any, in the order of the checks. -/
def refusal (env : DbEnv) (request : IntentRequest) (p : Payment) (t : Tables) : Option (String × Err) :=
  let since := env.now - request.quotaWindow
  if ¬ canTransition p.state .broadcasting then
    some (reasonPaymentNotVerified, .wrap p.state.text (.sentinel .paymentNotVerified))
  else if ¬ (p.merchantId.any fun m => t.merchants.any fun r => r.id = m ∧ r.status = .active) then
    some (reasonRecipientNotMerchant, .sentinel .recipientNotMerchant)
  else if ¬ (p.validBefore.any (· > request.now + request.expiryMargin)) then
    some (reasonAuthorizationExpiring, .sentinel .authorizationExpiring)
  else if (settledSince since p.merchantId t : Int) ≥ request.quota then
    some (reasonMerchantQuotaExceeded, .sentinel .merchantQuotaExceeded)
  else if (settledSince since none t : Int) ≥ request.globalQuota then
    some (reasonGlobalQuotaExceeded, .sentinel .globalQuotaExceeded)
  else none

/-- Allocate the nonce, move the payment to broadcasting and insert the intent row. -/
def commitIntent (env : DbEnv) (request : IntentRequest) (signerAddress : String) (p : Payment) :
    Txn (Except Err Intent) := do
  let nonce ← allocateNonce signerAddress
  let n ← updatePayments (fun q => q.id = p.id ∧ q.state = p.state)
    fun q => { q with
      state := .broadcasting, settlementRequestedAt := some env.now
      payerSignature := some request.payerSignature, updatedAt := env.now }
  if n ≠ 1 then
    Txn.fail (.text ("payment " ++ request.paymentIdentity ++ " changed state during settlement"))
  insertTransition ⟨p.id, p.state, .broadcasting, none, "http"⟩
  insertTransaction (intentRow env p.id signerAddress nonce)
  insertSettlementAttempt ⟨some p.id, some request.paymentIdentity, .accepted, none⟩
  pure (.ok {
    paymentId := p.id, paymentIdentity := request.paymentIdentity, transactionId := env.freshId
    signerAddress := signerAddress, nonce := nonce, txHash := "", reverted := false, confirmed := false
    duplicate := false })

/-- The admission of a payment that exists, under its row lock. -/
def admitPayment (env : DbEnv) (request : IntentRequest) (signerAddress : String) (p : Payment) :
    Txn (Except Err Intent) := do
  let terminal ← Txn.read (terminalRow env p)
  match terminal with
  | some (r, txHash) => duplicateIntent p request r txHash true
  | none => do
    let existing ← Txn.read fun t => t.transactions.find? fun r => r.paymentId = p.id ∧ r.active
    match existing with
    | some r => duplicateIntent p request r (r.txHash.getD "") false
    | none => do
      let refused ← Txn.read (refusal env request p)
      match refused with
      | some (reason, cause) => rejectSettlement (some p.id) request.paymentIdentity reason cause
      | none =>
        if p.payerSignature.any (· ≠ request.payerSignature) then
          Txn.fail (.text ("payment " ++ request.paymentIdentity ++
            ": stored payer signature conflicts with the settlement request"))
        else commitIntent env request signerAddress p

/-- `CreateSettlementIntent`. -/
def createSettlementIntent (env : DbEnv) (request : IntentRequest) : Txn (Except Err Intent) := do
  match request.validate with
  | some e => Txn.fail e
  | none => do
    let signerAddress ← Txn.lift ((normalizeAddress request.signerAddress).mapError (.wrap "signer address"))
    let payment ← Txn.read fun t =>
      t.payments.find? fun p => p.paymentIdentity = padTo 68 request.paymentIdentity
    match payment with
    | none => rejectSettlement none request.paymentIdentity reasonPaymentNotFound (.sentinel .paymentNotFound)
    | some p => admitPayment env request signerAddress p

end Eth402.Store
