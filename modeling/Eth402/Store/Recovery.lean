/-
The store methods of recovery (internal/store/recovery.go): ambiguous broadcasts, replacements,
originals that landed, reorganised transactions, and the fillers of nonce gaps.
-/
import Eth402.Store.Lifecycle

namespace Eth402.Store

open Lib Settlement

/-! ## Ambiguous broadcasts -/

/-- `MarkTxRecoveredBroadcast`. -/
def markTxRecoveredBroadcast (env : DbEnv) (paymentId transactionId : Nat) (txHash actor : String) : Txn Unit := do
  let n ← updateTransactions (rowOf paymentId transactionId [.ambiguous])
    fun r => { r with
      status := .broadcast, txHash := some txHash, broadcastAttemptedAt := some env.now, updatedAt := env.now }
  expectOne n ("recover transaction " ++ toString transactionId)
  transitionPayment env.now paymentId .manualReview .broadcast actor

/-- `MarkAmbiguousRetry`. -/
def markAmbiguousRetry (env : DbEnv) (paymentId transactionId : Nat) : Txn Unit := do
  let n ← updateTransactions (rowOf paymentId transactionId [.ambiguous])
    fun r => { r with ambiguousAttempts := r.ambiguousAttempts + 1, updatedAt := env.now }
  expectOne n ("record ambiguous retry for " ++ toString transactionId)

/-! ## Replacements -/

/-- The row a replacement inserts: signer and nonce are those of the row it replaces. -/
def replacementRow (env : DbEnv) (old : Transaction) (r : Replacement) (sighash : Option String)
    (raw : Option Bytes) : Transaction where
  id := env.freshId
  paymentId := old.paymentId
  txHash := some r.txHash
  signerAddress := old.signerAddress
  transactionNonce := old.transactionNonce
  rawTransactionHash := some r.rawHash
  sighash := sighash
  status := .broadcast
  blockNumber := none
  blockHash := none
  gasLimit := some r.gasLimit
  gasUsed := none
  effectiveGasPrice := none
  maxFeePerGas := some r.maxFee
  maxPriorityFeePerGas := some r.priorityFee
  replacedById := none
  broadcastAttemptedAt := some env.now
  firstSeenAt := none
  confirmedAt := none
  updatedAt := env.now
  rawTransaction := raw
  ambiguousAttempts := 0

/-- `INSERT ... SELECT` of the replacement of the row `oldTxId`, linked from it. -/
def insertReplacement (env : DbEnv) (paymentId oldTxId : Nat) (row : Transaction → Transaction) : Txn Unit := do
  let old ← Txn.read fun t => t.transactions.find? fun r => r.id = oldTxId ∧ r.paymentId = paymentId
  match old with
  | none => Txn.fail .noRows
  | some r => do
    insertTransaction (row r)
    let _ ← updateTransactions (fun r => r.id = oldTxId ∧ r.paymentId = paymentId)
      fun r => { r with replacedById := some env.freshId }

/-- `MarkTxAmbiguousReplaced`: the original's hash is derived from its raw hash, so that it stays watched. -/
def markTxAmbiguousReplaced (env : DbEnv) (paymentId oldTxId : Nat) (replacement : Replacement)
    (actor : String) : Txn Unit := do
  let n ← updateTransactions (rowOf paymentId oldTxId [.ambiguous])
    fun r => { r with
      status := .replaced, txHash := r.rawTransactionHash.map ("0x" ++ ·), updatedAt := env.now }
  expectOne n ("replace ambiguous transaction " ++ toString oldTxId)
  insertReplacement env paymentId oldTxId fun old => replacementRow env old replacement old.sighash none
  transitionPayment env.now paymentId .manualReview .replaced actor

/-- `MarkTxReplaced`. -/
def markTxReplaced (env : DbEnv) (paymentId oldTxId : Nat) (replacement : Replacement) (actor : String) :
    Txn Unit := do
  let n ← updateTransactions (rowOf paymentId oldTxId [.broadcast])
    fun r => { r with status := .replaced, updatedAt := env.now }
  expectOne n ("replace transaction " ++ toString oldTxId)
  insertReplacement env paymentId oldTxId fun old => replacementRow env old replacement none none
  let previous ← Txn.read (stateOf paymentId)
  let moved ← updatePayments (fun p => p.id = paymentId ∧ p.state ∈ [.broadcast, .replaced])
    fun p => { p with state := .replaced, updatedAt := env.now }
  match previous, moved with
  | some .broadcast, 1 => recordTransition paymentId .broadcast .replaced actor
  -- a replacement that is bumped again: only the first one is audited
  | some _, 1 => pure ()
  | _, _ => Txn.fail (.wrap ("replace transaction " ++ toString oldTxId) (.sentinel .settlementRace))

/-- `MarkReplacementLanded`: the network mined an original; its replacement leaves the active set. -/
def markReplacementLanded (env : DbEnv) (paymentId minedTxId : Nat) (succeeded : Bool) (blockNumber : Nat)
    (blockHash : String) (gasUsed : Nat) (gasPrice : Int) (actor : String) : Txn Unit := do
  let dropped ← updateTransactions (fun r => r.paymentId = paymentId ∧ r.status ∈ activeTransactionStatuses)
    fun r => { r with status := .dropped, updatedAt := env.now }
  expectOne dropped ("drop superseded replacement for " ++ toString minedTxId)
  let landed ← updateTransactions (rowOf paymentId minedTxId [.replaced])
    fun r =>
      if succeeded then
        { r with
          status := .confirming, blockNumber := some blockNumber, blockHash := some blockHash
          firstSeenAt := some (r.firstSeenAt.getD env.now), updatedAt := env.now }
      else
        { r with
          status := .reverted, gasUsed := some gasUsed, effectiveGasPrice := some gasPrice
          updatedAt := env.now }
  expectOne landed ("land replaced transaction " ++ toString minedTxId)
  -- confirming to confirming is no edge
  let source : List State := if succeeded then [.replaced, .broadcast] else [.replaced, .broadcast, .confirming]
  let target : State := if succeeded then .confirming else .reverted
  transitionPaymentIn env.now paymentId source target actor fun p => { p with state := target }

/-- `MarkTxReorgedOut`. -/
def markTxReorgedOut (env : DbEnv) (paymentId transactionId : Nat) (actor : String) : Txn Unit := do
  let n ← updateTransactions (rowOf paymentId transactionId [.confirming])
    fun r => { r with status := .broadcast, blockNumber := none, blockHash := none, updatedAt := env.now }
  expectOne n ("reorg transaction " ++ toString transactionId ++ " out")
  transitionPayment env.now paymentId .confirming .broadcast actor

/-! ## Watches -/

/-- The state of the payment a row belongs to. -/
def Tables.ownerState (t : Tables) (r : Transaction) : Option State := stateOf r.paymentId t

/-- A scan into a plain string fails on a null. -/
def scanText : Option String → Except Err String
  | some s => .ok s
  | none => .error scanNull

/-- `ListReplacedPending`. -/
def listReplacedPending (env : DbEnv) : Txn (List TrackedTransaction) :=
  Txn.query fun t =>
    (env.arrange (·.id) (t.transactions.filter fun r =>
      r.status = .replaced ∧ (t.ownerState r).any (· ∈ [.replaced, .confirming, .broadcast]))).mapM fun r => do
        let h ← scanText r.txHash
        pure ⟨r.paymentId, r.id, h, none, []⟩

/-- `ListDroppedBlockingGaps`: retired intents past their authorization whose nonce blocks a later one. -/
def listDroppedBlockingGaps (env : DbEnv) (signerAddress : String) (expiredBefore : Time) : Txn (List Work) :=
  Txn.query fun t =>
    (env.arrange (·.1.id) (t.transactions.filterMap fun r =>
      match t.payments.find? (fun p => p.id = r.paymentId) with
      | some p =>
        if r.status = .dropped ∧ r.signerAddress = signerAddress ∧ r.rawTransactionHash = none ∧
            p.state ∈ [.expired, .failed] ∧ p.validBefore.any (· ≤ expiredBefore) ∧
            t.transactions.any (fun later => later.signerAddress = r.signerAddress ∧
              later.transactionNonce > r.transactionNonce ∧ later.active)
        then some (r, p) else none
      | none => none)).mapM fun (r, p) => do
        let authorization ← p.authorization
        let nonce ← parseNonce r.transactionNonce
        -- the columns that are not selected keep Go's zero values
        pure {
          paymentId := p.id, paymentIdentity := p.paymentIdentity, state := p.state
          authorization := authorization, transactionId := r.id, transactionStatus := .dropped
          nonce := nonce, txHash := "", rawHash := "", sighash := "", signerAddress := "", gasLimit := 0
          maxFeePerGas := none, maxPriorityFeePerGas := none, broadcastAttemptedAt := none
          transactionUpdatedAt := zeroTime, ambiguousAttempts := 0, dbNow := zeroTime }

/-- `ListGapFillers`. -/
def listGapFillers (env : DbEnv) : Txn (List TrackedTransaction) :=
  Txn.query fun t =>
    (env.arrange (·.id) (t.transactions.filter fun r =>
      r.status ∈ [.broadcast, .replaced] ∧ (t.ownerState r).any (· ∈ [.expired, .failed]) ∧
        r.rawTransactionHash.isSome ∧ r.rawTransaction.isSome)).mapM fun r => do
          let h ← scanText r.txHash
          pure ⟨r.paymentId, r.id, h, some r.status, r.rawTransaction.getD []⟩

/-- `ListStuckGapFillers`, on the database's clock. -/
def listStuckGapFillers (env : DbEnv) (signerAddress : String) (stuckFor : Int) : Txn (List Work) :=
  Txn.query fun t =>
    (env.arrange (·.1.id) (t.transactions.filterMap fun r =>
      match t.payments.find? (fun p => p.id = r.paymentId) with
      | some p =>
        if r.status = .broadcast ∧ r.signerAddress = signerAddress ∧ r.rawTransaction.isSome ∧
            p.state ∈ [.expired, .failed] ∧ r.broadcastAttemptedAt.any (· < env.now - stuckFor)
        then some (r, p) else none
      | none => none)).mapM fun (r, p) => do
        let authorization ← p.authorization
        let nonce ← parseNonce r.transactionNonce
        let gasLimit ← match r.gasLimit with
          | some g => (parseNonce g).mapError (.wrap "gas limit")
          | none => .error scanNull
        let maxFee ← match r.maxFeePerGas with
          | some f => .ok f
          | none => .error scanNull
        let priorityFee ← match r.maxPriorityFeePerGas with
          | some f => .ok f
          | none => .error scanNull
        pure {
          paymentId := p.id, paymentIdentity := p.paymentIdentity, state := p.state
          authorization := authorization, transactionId := r.id, transactionStatus := .broadcast
          nonce := nonce, txHash := r.txHash.getD "", rawHash := "", sighash := ""
          signerAddress := r.signerAddress, gasLimit := gasLimit
          maxFeePerGas := some maxFee, maxPriorityFeePerGas := some priorityFee, broadcastAttemptedAt := none
          transactionUpdatedAt := zeroTime, ambiguousAttempts := 0, dbNow := zeroTime }

/-! ## Gap fillers -/

/-- `MarkGapFillerPrepared`: the exact signed bytes are recorded before they are sent. -/
def markGapFillerPrepared (env : DbEnv) (transactionId : Nat) (rawHash txHash : String) (raw : Bytes)
    (gasLimit : Nat) (maxFee priorityFee : Int) : Txn Unit := do
  let n ← updateTransactions (fun r => r.id = transactionId ∧ r.status = .dropped)
    fun r => { r with
      status := .broadcast, rawTransactionHash := some rawHash, txHash := some txHash
      rawTransaction := some raw, gasLimit := some gasLimit, maxFeePerGas := some maxFee
      maxPriorityFeePerGas := some priorityFee, broadcastAttemptedAt := some env.now, updatedAt := env.now }
  expectOne n ("broadcast gap filler " ++ toString transactionId)

/-- `MarkGapFillerReplaced`: `MarkTxReplaced` for a payment that is already terminal. -/
def markGapFillerReplaced (env : DbEnv) (paymentId oldTxId : Nat) (replacement : Replacement) (raw : Bytes) :
    Txn Unit := do
  let n ← updateTransactions
    (fun r => r.id = oldTxId ∧ r.paymentId = paymentId ∧ r.status = .broadcast ∧ r.rawTransaction.isSome)
    fun r => { r with status := .replaced, updatedAt := env.now }
  expectOne n ("replace gap filler " ++ toString oldTxId)
  insertReplacement env paymentId oldTxId fun old => replacementRow env old replacement none (some raw)

/-- `MarkGapFillerResolved`: the filler reverted, and its sibling can never mine. -/
def markGapFillerResolved (env : DbEnv) (transactionId gasUsed : Nat) (gasPrice : Int) : Txn Unit := do
  let n ← updateTransactions (fun r => r.id = transactionId ∧ r.status ∈ [.broadcast, .replaced])
    fun r => { r with
      status := .reverted, gasUsed := some gasUsed, effectiveGasPrice := some gasPrice, updatedAt := env.now }
  expectOne n ("resolve gap filler " ++ toString transactionId)
  let owner ← Txn.read fun t => (t.transactions.find? fun r => r.id = transactionId).map (·.paymentId)
  let _ ← updateTransactions
    (fun r => some r.paymentId = owner ∧ r.id ≠ transactionId ∧ r.status ∈ [.broadcast, .replaced])
    fun r => { r with status := .dropped, updatedAt := env.now }

/-- `MarkGapFillerSucceeded`: the chain accepted an authorization believed expired. -/
def markGapFillerSucceeded (env : DbEnv) (paymentId transactionId blockNumber : Nat) (blockHash : String)
    (gasUsed : Nat) (gasPrice : Int) (actor : String) : Txn Unit := do
  let n ← updateTransactions (rowOf paymentId transactionId [.broadcast, .replaced])
    fun r => { r with
      status := .confirming, blockNumber := some blockNumber, blockHash := some blockHash
      gasUsed := some gasUsed, effectiveGasPrice := some gasPrice
      firstSeenAt := some (r.firstSeenAt.getD env.now), updatedAt := env.now }
  expectOne n ("record succeeded gap filler " ++ toString transactionId)
  let _ ← updateTransactions
    (fun r => r.paymentId = paymentId ∧ r.id ≠ transactionId ∧ r.status ∈ [.broadcast, .replaced])
    fun r => { r with status := .dropped, updatedAt := env.now }
  transitionPayment env.now paymentId .expired .manualReview actor

end Eth402.Store
