/-
The store's methods as one type of requests, each run as one atomic step on the database.
-/
import Eth402.Store.Recovery
import Eth402.Store.Upkeep

namespace Eth402.Store

open Lib Settlement Verification

/-- A call of the store with its arguments. -/
inductive Op
  | createSettlementIntent (request : IntentRequest)
  | claimPayment (paymentId : Nat) (worker : String) (duration : Int) (now : Time)
  | claimPayments (request : ClaimRequest)
  | renewLease (paymentId : Nat) (worker : String) (now : Time) (duration : Int)
  | releaseLease (paymentId : Nat) (worker : String)
  | loadSettlementWork (paymentId : Nat)
  | markTxSigned (transactionId : Nat) (rawHash sighash : String) (gasLimit : Nat) (maxFee priorityFee : Int)
  | markTxBroadcast (paymentId transactionId : Nat) (txHash actor : String)
  | markTxAmbiguous (paymentId transactionId : Nat) (actor : String)
  | markIntentExpired (paymentId transactionId : Nat) (actor : String)
  | markIntentUnsettleable (paymentId transactionId : Nat) (actor : String)
  | markTxConfirming (paymentId transactionId blockNumber : Nat) (blockHash actor : String)
  | markTxConfirmed (paymentId transactionId blockNumber : Nat) (blockHash : String) (gasUsed : Nat)
      (gasPrice : Int) (actor : String)
  | markTxReverted (paymentId transactionId gasUsed : Nat) (gasPrice : Int) (actor : String)
  | markTxRecoveredBroadcast (paymentId transactionId : Nat) (txHash actor : String)
  | markAmbiguousRetry (paymentId transactionId : Nat)
  | markTxAmbiguousReplaced (paymentId oldTxId : Nat) (replacement : Replacement) (actor : String)
  | markTxReplaced (paymentId oldTxId : Nat) (replacement : Replacement) (actor : String)
  | markReplacementLanded (paymentId minedTxId : Nat) (succeeded : Bool) (blockNumber : Nat)
      (blockHash : String) (gasUsed : Nat) (gasPrice : Int) (actor : String)
  | markTxReorgedOut (paymentId transactionId : Nat) (actor : String)
  | listReplacedPending
  | listDroppedBlockingGaps (signerAddress : String) (expiredBefore : Time)
  | listGapFillers
  | listStuckGapFillers (signerAddress : String) (stuckFor : Int)
  | markGapFillerPrepared (transactionId : Nat) (rawHash txHash : String) (raw : Bytes) (gasLimit : Nat)
      (maxFee priorityFee : Int)
  | markGapFillerReplaced (paymentId oldTxId : Nat) (replacement : Replacement) (raw : Bytes)
  | markGapFillerResolved (transactionId gasUsed : Nat) (gasPrice : Int)
  | markGapFillerSucceeded (paymentId transactionId blockNumber : Nat) (blockHash : String) (gasUsed : Nat)
      (gasPrice : Int) (actor : String)
  | recordVerification (attempt : Attempt) (nonceAlreadyUsed : String)
  | applyRetention (request : RetentionRequest)
  | seedSignerAccount (signerAddress : String) (chainNonce : Nat)

/-- What a call returns when it returns no error. -/
def Op.Result : Op → Type
  | .createSettlementIntent .. => Intent
  | .claimPayment .. => Lease
  | .claimPayments .. => List Lease
  | .renewLease .. => Time
  | .loadSettlementWork .. => Work
  | .listReplacedPending | .listGapFillers => List TrackedTransaction
  | .listDroppedBlockingGaps .. | .listStuckGapFillers .. => List Work
  | .applyRetention .. => Nat × Nat
  | .seedSignerAccount .. => Nat
  | _ => Unit

/-- A transaction whose result may itself be an error: the error is returned after the commit. -/
def Txn.runInner {α : Type} (m : Txn (Except Err α)) (db : DB) : Except Err α × DB :=
  match m db with
  | .ok (r, db') => (r, db')
  | .error e => (.error e, db)

/-- One call of the store. -/
def Op.run (env : DbEnv) : (op : Op) → DB → Except Err op.Result × DB
  | .createSettlementIntent request => (Store.createSettlementIntent env request).runInner
  | .claimPayment p w d n => (Store.claimPayment env p w d n).run
  | .claimPayments request => (Store.claimPayments env request).run
  | .renewLease p w n d => (Store.renewLease p w n d).run
  | .releaseLease p w => (Store.releaseLease env p w).run
  | .loadSettlementWork p => (Store.loadSettlementWork env p).run
  | .markTxSigned t h s g m f => (Store.markTxSigned env t h s g m f).run
  | .markTxBroadcast p t h a => (Store.markTxBroadcast env p t h a).run
  | .markTxAmbiguous p t a => (Store.markTxAmbiguous env p t a).run
  | .markIntentExpired p t a => (Store.markIntentExpired env p t a).run
  | .markIntentUnsettleable p t a => (Store.markIntentUnsettleable env p t a).run
  | .markTxConfirming p t n h a => (Store.markTxConfirming env p t n h a).run
  | .markTxConfirmed p t n h g c a => (Store.markTxConfirmed env p t n h g c a).run
  | .markTxReverted p t g c a => (Store.markTxReverted env p t g c a).run
  | .markTxRecoveredBroadcast p t h a => (Store.markTxRecoveredBroadcast env p t h a).run
  | .markAmbiguousRetry p t => (Store.markAmbiguousRetry env p t).run
  | .markTxAmbiguousReplaced p t r a => (Store.markTxAmbiguousReplaced env p t r a).run
  | .markTxReplaced p t r a => (Store.markTxReplaced env p t r a).run
  | .markReplacementLanded p t s n h g c a => (Store.markReplacementLanded env p t s n h g c a).run
  | .markTxReorgedOut p t a => (Store.markTxReorgedOut env p t a).run
  | .listReplacedPending => (Store.listReplacedPending env).run
  | .listDroppedBlockingGaps s e => (Store.listDroppedBlockingGaps env s e).run
  | .listGapFillers => (Store.listGapFillers env).run
  | .listStuckGapFillers s d => (Store.listStuckGapFillers env s d).run
  | .markGapFillerPrepared t h x raw g m f => (Store.markGapFillerPrepared env t h x raw g m f).run
  | .markGapFillerReplaced p t r raw => (Store.markGapFillerReplaced env p t r raw).run
  | .markGapFillerResolved t g c => (Store.markGapFillerResolved env t g c).run
  | .markGapFillerSucceeded p t n h g c a => (Store.markGapFillerSucceeded env p t n h g c a).run
  | .recordVerification attempt reason => Store.recordVerification env attempt reason
  | .applyRetention request => (Store.applyRetention env request).run
  | .seedSignerAccount s n => (Store.seedSignerAccount s n).run

end Eth402.Store
