/-
The background workers (internal/settlement/worker.go and recovery.go): one tick of the broadcast, the
confirmation and the recovery worker. A panic inside a guarded step ends that step; the model has no
step that panics, so the guards have no counterpart.
-/
import Eth402.Settlement.Service

namespace Eth402.Settlement

open Lib Store Verification

variable (lib : Libraries) (cfg : Config)

def workerBatch : Int := 8

/-- One leased payment of a batch: renew the lease, advance the payment, release. -/
def advanceLeased (identity : String) (advance : Nat → P (Except Err Unit)) (lease : Lease) : P Unit := do
  let now ← askNow
  match ← inStore (.renewLease lease.paymentId identity now cfg.leaseDuration) with
  | .error e =>
    if e.is .leaseLost || e.is .canceled then pure () else release lease.paymentId identity
  | .ok _ => do
    let _ ← advance lease.paymentId
    release lease.paymentId identity

/-- `Worker.process`: claim one batch and advance each payment of it. -/
def processBatch (identity : String) (states : List State) (advance : Nat → P (Except Err Unit)) : P Unit := do
  let now ← askNow
  match ← inStore (.claimPayments ⟨identity, states, cfg.leaseDuration, workerBatch, now⟩) with
  | .error _ => pure ()
  | .ok leases => Prog.each contextDone (advanceLeased cfg identity advance) leases

/-- What the broadcast worker does with a payment: load it and run the pipeline. -/
def advanceBroadcast (actor : String) (paymentId : Nat) : P (Except Err Unit) := do
  match ← loadSettlementWork paymentId with
  | .error e => pure (.error (.wrap "load settlement work" e))
  | .ok work => do
    let result ← broadcastClaimed lib cfg work actor
    pure (result.map fun _ => ())

/-- The actor type of the workers' audit rows. -/
def workerActor := "worker"

def broadcastTick (identity : String) : P Unit :=
  processBatch cfg identity [.broadcasting] (advanceBroadcast lib cfg workerActor)

def confirmationTick (identity : String) : P Unit :=
  processBatch cfg identity [.broadcast, .confirming, .replaced] fun paymentId => confirmation cfg paymentId workerActor

/-! ## Recovery of leased payments -/

/-- `ambiguousRetryDelay`: the grace window, doubled per failed attempt up to 32 times. A `Duration` counts nanoseconds
in 64 bits, so a long window wraps; a time of the database passes it at the next microsecond. -/
def ambiguousRetryDelay (attempts : Nat) (grace : Int) : Int :=
  -(-Int.bmod (grace * 1000 * 2 ^ min attempts 5) (2 ^ 64) / 1000)

/-- `signIdentical`: the exact transaction a row records, proved identical by its sighash. -/
def signIdentical (work : Work) (maxFee priorityFee : Int) : P (Except Err (Bytes × String)) :=
  match transferWithAuthorizationData lib work.authorization with
  | .error e => pure (.error (.wrap "build calldata" e))
  | .ok calldata => do
    match ← signTransaction ⟨work.nonce, calldata, work.gasLimit, maxFee, priorityFee⟩ work.authorization.wire with
    | .error e => pure (.error (.wrap "re-sign transaction" e))
    | .ok signed =>
      let rawHash := rawHashOf lib signed.raw
      if work.sighash ≠ "" ∧ hexEncode signed.sigHash ≠ work.sighash then
        pure (.error (.text "re-signed sighash does not match; refusing to broadcast"))
      else if work.sighash = "" ∧ rawHash ≠ work.rawHash then
        pure (.error (.text "re-signed hash does not match; refusing to broadcast"))
      else pure (.ok (signed.raw, rawHash))

/-- The end of `resolveAmbiguous`: send the re-signed transaction. -/
def resendAmbiguous (work : Work) (actor : String) (maxFee priorityFee : Int) (raw : Bytes) (rawHash : String) :
    P (Except Err Unit) := do
  let txHash := "0x" ++ work.rawHash
  if rawHash ≠ work.rawHash then
    -- the same transaction under a fresh signature: recorded as a replacement before it is sent
    let replacement : Replacement :=
      ⟨work.nonce, "0x" ++ rawHash, rawHash, work.gasLimit, maxFee, priorityFee, work.signerAddress⟩
    match ← inStore (.markTxAmbiguousReplaced work.paymentId work.transactionId replacement actor) with
    | .error e => pure (.error (.wrap "record re-signed transaction" e))
    | .ok _ =>
      let sent ← sendRawTransaction ⟨.resolveAmbiguous, work.paymentId, work.transactionId⟩ raw
      pure ((sent.bind fun returned => requireBroadcastHash returned replacement.txHash).mapError
        (.wrap "broadcast re-signed transaction"))
  else
    let sent ← sendRawTransaction ⟨.resolveAmbiguous, work.paymentId, work.transactionId⟩ raw
    match sent.bind fun returned => requireBroadcastHash returned txHash with
    | .error e =>
      match ← inStore (.markAmbiguousRetry work.paymentId work.transactionId) with
      | .error markErr => pure (.error (.join (.wrap "re-broadcast ambiguous transaction" e)
          (.wrap "record ambiguous retry" markErr)))
      | .ok _ => pure (.error (.wrap "re-broadcast ambiguous transaction" e))
    | .ok _ => inStore (.markTxRecoveredBroadcast work.paymentId work.transactionId txHash actor)

/-- `resolveAmbiguous`. -/
def resolveAmbiguous (work : Work) (actor : String) : P (Except Err Unit) := do
  if work.rawHash = "" then
    pure (.error (.text "ambiguous transaction has no raw hash; manual reconciliation required"))
  else
    let txHash := "0x" ++ work.rawHash
    match ← transactionReceipt txHash with
    | .error e => pure (.error (.wrap "fetch receipt" e))
    | .ok (some _) => inStore (.markTxRecoveredBroadcast work.paymentId work.transactionId txHash actor)
    | .ok none =>
      match ← transactionByHash txHash with
      | .error e => pure (.error (.wrap "fetch transaction" e))
      | .ok true => inStore (.markTxRecoveredBroadcast work.paymentId work.transactionId txHash actor)
      | .ok false =>
        if work.dbNow < work.transactionUpdatedAt + ambiguousRetryDelay work.ambiguousAttempts cfg.recoveryGrace then
          pure (.ok ())
        else match work.maxFeePerGas, work.maxPriorityFeePerGas with
        | some maxFee, some priorityFee =>
          if work.gasLimit = 0 then
            pure (.error (.text "ambiguous transaction predates stored fee fields; manual reconciliation required"))
          else match ← signIdentical lib work maxFee priorityFee with
          | .error e => pure (.error e)
          | .ok (raw, rawHash) => resendAmbiguous work actor maxFee priorityFee raw rawHash
        | _, _ =>
          pure (.error (.text "ambiguous transaction predates stored fee fields; manual reconciliation required"))

/-- The fee pair of a replacement from the latest block; `none` when the ceiling leaves no room. -/
def bumpedFees (oldMax oldTip : Int) (block : Block) : Except Err (Option (Int × Int)) :=
  match setString10 block.baseFee, setString10 cfg.maxFeePerGas with
  | none, _ => .error (.text ("latest block reports invalid base fee " ++ block.baseFee))
  | _, none => .error (.text ("configured max fee " ++ cfg.maxFeePerGas ++ " is not a decimal integer"))
  | some baseFee, some ceiling => .ok (bumpFees oldMax oldTip baseFee ceiling)

/-- `replacementFees`. -/
def replacementFees (work : Work) : P (Except Err (Option (Int × Int))) :=
  match work.maxFeePerGas, work.maxPriorityFeePerGas with
  | none, _ => pure (.error (.text "stored max fee is not a decimal integer"))
  | _, none => pure (.error (.text "stored priority fee is not a decimal integer"))
  | some oldMax, some oldTip => do
    match ← blockByNumber none with
    | .error e => pure (.error (.wrap "fetch latest block" e))
    | .ok block => pure (bumpedFees cfg oldMax oldTip block)

/-- `signReplacement`: the signed bytes and the durable record describing them. -/
def signReplacement (work : Work) (fees : Int × Int) : P (Except Err (Bytes × Replacement)) :=
  match transferWithAuthorizationData lib work.authorization with
  | .error e => pure (.error (.wrap "build calldata" e))
  | .ok calldata => do
    match ← signTransaction ⟨work.nonce, calldata, work.gasLimit, fees.1, fees.2⟩ work.authorization.wire with
    | .error e => pure (.error (.wrap "sign replacement" e))
    | .ok signed =>
      let rawHash := rawHashOf lib signed.raw
      pure (.ok (signed.raw,
        ⟨work.nonce, "0x" ++ rawHash, rawHash, work.gasLimit, fees.1, fees.2, work.signerAddress⟩))

/-- A fee-bumped replacement: price it, sign it, record it with `record`, and send it. -/
def bump (site : Site) (what : String) (work : Work) (record : Bytes → Replacement → Op) :
    P (Except Err Unit) := do
  match ← replacementFees cfg work with
  | .error e => pure (.error e)
  | .ok none => pure (.ok ())
  | .ok (some fees) =>
    match ← signReplacement lib work fees with
    | .error e => pure (.error e)
    | .ok (raw, replacement) =>
      match ← inStore (record raw replacement) with
      | .error e => pure (.error (.wrap ("record " ++ what) e))
      | .ok _ =>
        let sent ← sendRawTransaction ⟨site, work.paymentId, work.transactionId⟩ raw
        pure ((sent.bind fun returned => requireBroadcastHash returned replacement.txHash).mapError
          (.wrap ("broadcast " ++ what)))

/-- `replaceStuck`: a row without stored fees is left alone. -/
def replaceStuck (work : Work) (actor : String) : P (Except Err Unit) :=
  if work.maxFeePerGas = none ∨ work.maxPriorityFeePerGas = none ∨ work.gasLimit = 0 then pure (.ok ())
  else bump lib cfg .replaceStuck "replacement" work
    fun _ replacement => .markTxReplaced work.paymentId work.transactionId replacement actor

/-- `recoverPayment`. -/
def recoverPayment (actor : String) (paymentId : Nat) : P (Except Err Unit) := do
  match ← loadSettlementWork paymentId with
  | .error e => pure (.error (.wrap "load settlement work" e))
  | .ok work =>
    if work.transactionStatus = .ambiguous then resolveAmbiguous lib cfg work actor
    else if work.transactionStatus = .broadcast ∧
        work.broadcastAttemptedAt.any (fun at' => work.dbNow - at' > cfg.replacementAfter) then
      replaceStuck lib cfg work actor
    else pure (.ok ())

/-- `recoverLeased`. -/
def recoverLeased (identity : String) : P Unit :=
  processBatch cfg identity [.manualReview, .broadcast, .replaced] (recoverPayment lib cfg workerActor)

/-! ## Watches -/

/-- `underLease`: claim the payment, run the step, release. -/
def underLease (identity : String) (paymentId : Nat) (step : P Unit) : P Unit := do
  let now ← askNow
  match ← inStore (.claimPayment paymentId identity cfg.leaseDuration now) with
  | .error _ => pure ()
  | .ok _ => do
    step
    release paymentId identity

/-- The step of `observeReplacements`: has the network mined this original? -/
def observeReplacement (t : TrackedTransaction) : P Unit := do
  match ← transactionReceipt t.txHash with
  | .error _ => pure ()
  | .ok none => pure ()
  | .ok (some receipt) =>
    let record := inStore (.markReplacementLanded t.paymentId t.transactionId (receipt.status = 1)
      receipt.blockNumber receipt.blockHash receipt.gasUsed receipt.effectiveGasPrice workerActor)
    if receipt.status = 1 then do
      let _ ← record
    else
      match ← blockNumber with
      | .error _ => pure ()
      | .ok current =>
        -- mined but not final: a reorganisation can still undo the revert
        if depthAt current receipt.blockNumber < cfg.confirmations then pure ()
        else do
          let _ ← record

def observeReplacements (identity : String) : P Unit := do
  match ← inStore .listReplacedPending with
  | .error _ => pure ()
  | .ok tracked =>
    Prog.each contextDone (fun t : TrackedTransaction =>
      underLease cfg identity t.paymentId (observeReplacement cfg t)) tracked

/-- `fillNonceGap`. -/
def fillNonceGap (work : Work) : P (Except Err Unit) :=
  match transferWithAuthorizationData lib work.authorization with
  | .error e => pure (.error (.wrap "build calldata" e))
  | .ok calldata => do
    match ← estimateFees cfg with
    | .error e => pure (.error (.wrap "estimate fees" e))
    | .ok fees =>
      match ← signTransaction ⟨work.nonce, calldata, cfg.gasLimit, fees.1, fees.2⟩ work.authorization.wire with
      | .error e => pure (.error (.wrap "sign gap filler" e))
      | .ok signed =>
        let rawHash := rawHashOf lib signed.raw
        let txHash := "0x" ++ rawHash
        match ← inStore (.markGapFillerPrepared work.transactionId rawHash txHash signed.raw cfg.gasLimit fees.1
            fees.2) with
        | .error e => pure (.error (.wrap "prepare gap filler" e))
        | .ok _ =>
          let sent ← sendRawTransaction ⟨.fillNonceGap, work.paymentId, work.transactionId⟩ signed.raw
          pure ((sent.bind fun returned => requireBroadcastHash returned txHash).mapError
            (.wrap "broadcast prepared gap filler"))

/-- `fillNonceGaps`: only authorizations a full margin past their end are used as fillers. -/
def fillNonceGaps (identity : String) : P Unit := do
  let now ← askNow
  match ← inStore (.listDroppedBlockingGaps cfg.signerAddress (now - cfg.expiryMargin)) with
  | .error _ => pure ()
  | .ok works =>
    Prog.each contextDone (fun work : Work => underLease cfg identity work.paymentId (do
      let _ ← fillNonceGap lib cfg work)) works

/-- `observeGapFiller`. -/
def observeGapFiller (t : TrackedTransaction) : P Unit := do
  match ← transactionReceipt t.txHash with
  | .error _ => pure ()
  | .ok none =>
    if t.status = some .replaced then pure ()
    else match ← transactionByHash t.txHash with
    | .error _ => pure ()
    | .ok true => pure ()
    | .ok false => do
      let _ ← sendRawTransaction ⟨.observeGapFiller, t.paymentId, t.transactionId⟩ t.rawTransaction
  | .ok (some receipt) =>
    if receipt.status = 1 then do
      let _ ← inStore (.markGapFillerSucceeded t.paymentId t.transactionId receipt.blockNumber receipt.blockHash
        receipt.gasUsed receipt.effectiveGasPrice workerActor)
    else do
      let _ ← inStore (.markGapFillerResolved t.transactionId receipt.gasUsed receipt.effectiveGasPrice)

def observeGapFillers (identity : String) : P Unit := do
  match ← inStore .listGapFillers with
  | .error _ => pure ()
  | .ok tracked =>
    Prog.each contextDone (fun t : TrackedTransaction =>
      underLease cfg identity t.paymentId (observeGapFiller t)) tracked

/-- `bumpStuckGapFiller`. -/
def bumpStuckGapFiller (work : Work) : P (Except Err Unit) :=
  bump lib cfg .bumpStuckGapFiller "gap filler replacement" work
    fun raw replacement => .markGapFillerReplaced work.paymentId work.transactionId replacement raw

def bumpStuckGapFillers (identity : String) : P Unit := do
  match ← inStore (.listStuckGapFillers cfg.signerAddress cfg.replacementAfter) with
  | .error _ => pure ()
  | .ok works =>
    Prog.each contextDone (fun work : Work => underLease cfg identity work.paymentId (do
      let _ ← bumpStuckGapFiller lib cfg work)) works

/-- `RecoveryWorker.process`: the five concerns in order. -/
def recoveryTick (identity : String) : P Unit := do
  recoverLeased lib cfg identity
  observeReplacements cfg identity
  fillNonceGaps lib cfg identity
  observeGapFillers cfg identity
  bumpStuckGapFillers lib cfg identity

end Eth402.Settlement
