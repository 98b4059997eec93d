/-
The store methods of the settlement pipeline (internal/store/settlementwork.go): claiming one payment,
loading its work, and the writes that take a committed intent to a final outcome.

Every method is one database transaction. `DbEnv` is what the database brings itself: its clock, the
id of a row it inserts, the order of a result without `ORDER BY`, the rows other transactions lock.
-/
import Mathlib.Data.List.Sort
import Eth402.Store.Txn

namespace Eth402.Store

open Lib Settlement

structure DbEnv where
  now : Time
  freshId : Nat
  rank : Nat → Nat
  locked : Nat → Bool

/-- Result rows in the order the database happens to give. -/
def DbEnv.arrange {α : Type} (env : DbEnv) (key : α → Nat) (rows : List α) : List α :=
  rows.insertionSort fun a b => env.rank (key a) ≤ env.rank (key b)

@[simp] theorem DbEnv.mem_arrange {α : Type} (env : DbEnv) (key : α → Nat) (rows : List α) (x : α) :
    x ∈ env.arrange key rows ↔ x ∈ rows := List.mem_insertionSort _

/-- A query: it only reads, and its rows may fail to scan. -/
def Txn.query {α : Type} (f : Tables → Except Err α) : Txn α := fun db =>
  match f db.tables with
  | .ok a => .ok (a, db)
  | .error e => .error e

theorem Txn.query_ok {α : Type} {f : Tables → Except Err α} {db db' : DB} {a : α}
    (h : Txn.query f db = .ok (a, db')) : f db.tables = .ok a ∧ db' = db := by
  unfold Txn.query at h
  split at h
  · cases h; exact ⟨‹_›, rfl⟩
  · cases h

theorem Txn.run_query {α : Type} {f : Tables → Except Err α} {db : DB} {a : α} (h : f db.tables = .ok a) :
    (Txn.query f).run db = (.ok a, db) := by
  unfold Txn.run Txn.query
  rw [h]

def scanNull : Err := .text "cannot scan NULL"

/-- The text of a numeric column as a `uint64`. -/
def parseNonce (n : Nat) : Except Err Nat :=
  if n < 2 ^ 64 then .ok n else .error (.text ("nonce " ++ toString n ++ " is not a uint64"))

/-! ## Claiming and loading -/

def leaseOf (worker : String) (p : Payment) (expiresAt : Time) : Lease :=
  ⟨p.id, p.paymentIdentity, p.state, worker, expiresAt⟩

/-- No lease, or one that has lapsed. -/
def Payment.claimable (now : Time) (p : Payment) : Bool :=
  p.claimedBy.isNone ∨ p.claimedUntil.any (· ≤ now)

/-- `ClaimPayment`. -/
def claimPayment (env : DbEnv) (paymentId : Nat) (worker : String) (duration : Int) (now : Time) : Txn Lease := do
  if worker = "" ∨ duration ≤ 0 ∨ now = zeroTime then
    Txn.fail (.text "claim requires a payment, worker, positive duration, and current time")
  let found ← Txn.read fun t => t.payments.find? fun p => p.id = paymentId ∧ p.claimable now
  let _ ← updatePayments (fun p => p.id = paymentId ∧ p.claimable now)
    fun p => { p with claimedBy := some worker, claimedUntil := some (now + duration), updatedAt := env.now }
  match found with
  | some p => pure (leaseOf worker p (now + duration))
  | none => Txn.fail (.sentinel .leaseUnavailable)

/-- The authorization columns, none of which may be null when a row is scanned. -/
def Payment.authorization (p : Payment) : Except Err Authorization :=
  match p.payerAddress, p.recipientAddress, p.authorizationNonce, p.validAfter, p.validBefore, p.payerSignature with
  | some payer, some recipient, some nonce, some after, some before, some signature =>
    .ok ⟨payer, recipient, toString p.amountAtomic, after, before, nonce, signature⟩
  | _, _, _, _, _, _ => .error scanNull

/-- What `LoadSettlementWork` makes of a joined row. -/
def workOf (dbNow : Time) (p : Payment) (t : Transaction) : Except Err Work := do
  let authorization ← p.authorization
  let nonce ← parseNonce t.transactionNonce
  let gasLimit ← match t.gasLimit with
    | some g => (parseNonce g).mapError (.wrap "gas limit")
    | none => .ok 0
  pure {
    paymentId := p.id, paymentIdentity := p.paymentIdentity, state := p.state
    authorization := authorization, transactionId := t.id, transactionStatus := t.status
    nonce := nonce, txHash := t.txHash.getD "", rawHash := t.rawTransactionHash.getD ""
    sighash := t.sighash.getD "", signerAddress := t.signerAddress, gasLimit := gasLimit
    maxFeePerGas := t.maxFeePerGas, maxPriorityFeePerGas := t.maxPriorityFeePerGas
    broadcastAttemptedAt := t.broadcastAttemptedAt, transactionUpdatedAt := t.updatedAt
    ambiguousAttempts := t.ambiguousAttempts, dbNow := dbNow }

/-- `LoadSettlementWork`. -/
def loadSettlementWork (env : DbEnv) (paymentId : Nat) : Txn Work :=
  Txn.query fun t =>
    match t.payments.find? (fun p => p.id = paymentId),
        t.transactions.find? (fun r => r.paymentId = paymentId ∧ r.active) with
    | some p, some r => workOf env.now p r
    | _, _ => .error .noRows

/-! ## From intent to broadcast -/

/-- The row `transactionId` of the payment, in one of the given statuses. -/
def rowOf (paymentId transactionId : Nat) (statuses : List TxStatus) (r : Transaction) : Bool :=
  r.id = transactionId ∧ r.paymentId = paymentId ∧ r.status ∈ statuses

/-- `MarkTxSigned`: the raw hash is recorded before any broadcast attempt. -/
def markTxSigned (env : DbEnv) (transactionId : Nat) (rawHash sighash : String) (gasLimit : Nat)
    (maxFee priorityFee : Int) : Txn Unit := do
  let n ← updateTransactions (fun r => r.id = transactionId ∧ r.status = .intent)
    fun r => { r with
      status := .broadcasting, rawTransactionHash := some rawHash, sighash := some sighash
      gasLimit := some gasLimit, maxFeePerGas := some maxFee, maxPriorityFeePerGas := some priorityFee
      updatedAt := env.now }
  expectOne n ("mark transaction " ++ toString transactionId ++ " signed")

/-- `MarkTxBroadcast`. -/
def markTxBroadcast (env : DbEnv) (paymentId transactionId : Nat) (txHash actor : String) : Txn Unit := do
  let n ← updateTransactions (rowOf paymentId transactionId [.broadcasting])
    fun r => { r with
      status := .broadcast, txHash := some txHash, broadcastAttemptedAt := some env.now, updatedAt := env.now }
  expectOne n ("mark transaction " ++ toString transactionId ++ " broadcast")
  transitionPayment env.now paymentId .broadcasting .broadcast actor

/-- `MarkTxAmbiguous`. -/
def markTxAmbiguous (env : DbEnv) (paymentId transactionId : Nat) (actor : String) : Txn Unit := do
  let n ← updateTransactions (rowOf paymentId transactionId [.broadcasting])
    fun r => { r with status := .ambiguous, updatedAt := env.now }
  expectOne n ("mark transaction " ++ toString transactionId ++ " ambiguous")
  transitionPayment env.now paymentId .broadcasting .manualReview actor

/-- Retire an intent that was never signed: the row is dropped and the payment moves to `target`. -/
def retireIntent (env : DbEnv) (what : String) (target : State) (paymentId transactionId : Nat)
    (actor : String) : Txn Unit := do
  let n ← updateTransactions (rowOf paymentId transactionId [.intent])
    fun r => { r with status := .dropped, updatedAt := env.now }
  expectOne n (what ++ toString transactionId)
  transitionPayment env.now paymentId .broadcasting target actor

/-- `MarkIntentUnsettleable`. -/
def markIntentUnsettleable (env : DbEnv) (paymentId transactionId : Nat) (actor : String) : Txn Unit :=
  retireIntent env "drop unsettleable transaction " .failed paymentId transactionId actor

/-- `MarkIntentExpired`. -/
def markIntentExpired (env : DbEnv) (paymentId transactionId : Nat) (actor : String) : Txn Unit :=
  retireIntent env "drop expired transaction " .expired paymentId transactionId actor

/-! ## From broadcast to a final outcome -/

/-- `MarkTxConfirming`. The number of transaction rows it updated is not looked at. -/
def markTxConfirming (env : DbEnv) (paymentId transactionId blockNumber : Nat) (blockHash actor : String) :
    Txn Unit := do
  let _ ← updateTransactions (rowOf paymentId transactionId [.broadcast, .confirming])
    fun r => { r with
      status := .confirming, blockNumber := some blockNumber, blockHash := some blockHash
      firstSeenAt := some (r.firstSeenAt.getD env.now), updatedAt := env.now }
  let previous ← Txn.read (stateOf paymentId)
  let n ← updatePayments (fun p => p.id = paymentId ∧ p.state ∈ [.broadcast, .replaced])
    fun p => { p with state := .confirming, updatedAt := env.now }
  match previous, n with
  | some s, 1 => recordTransition paymentId s .confirming actor
  -- already confirming, or moved elsewhere: the sighting stays, there is nothing to audit
  | _, _ => pure ()

/-- The payment states a final outcome is recorded from. -/
def unsettledStates : List State := [.broadcast, .confirming, .replaced]

/-- `terminalSettlementMatches`: both the row and the payment already have the outcome. -/
def terminalSettlementMatches (paymentId transactionId : Nat) (status : TxStatus) (state : State)
    (t : Tables) : Bool :=
  t.transactions.any (fun r => r.id = transactionId ∧ r.paymentId = paymentId ∧ r.status = status) &&
    t.payments.any (fun p => p.id = paymentId ∧ p.state = state)

/-- Record a final outcome; an identical outcome that is already recorded is a successful replay. -/
def finalize (env : DbEnv) (paymentId transactionId : Nat) (status : TxStatus) (state : State)
    (word actor : String) (assignRow : Transaction → Transaction) (assign : Payment → Payment) : Txn Unit := do
  let n ← updateTransactions (rowOf paymentId transactionId [.broadcast, .confirming]) assignRow
  if n = 1 then
    transitionPaymentIn env.now paymentId unsettledStates state actor assign
  else
    let matching ← Txn.read (terminalSettlementMatches paymentId transactionId status state)
    if matching then pure ()
    else Txn.fail (.wrap ("mark transaction " ++ toString transactionId ++ word) (.sentinel .settlementRace))

/-- `MarkTxConfirmed`. -/
def markTxConfirmed (env : DbEnv) (paymentId transactionId blockNumber : Nat) (blockHash : String)
    (gasUsed : Nat) (gasPrice : Int) (actor : String) : Txn Unit :=
  finalize env paymentId transactionId .confirmed .confirmed " confirmed" actor
    (fun r => { r with
      status := .confirmed, blockNumber := some blockNumber, blockHash := some blockHash
      gasUsed := some gasUsed, effectiveGasPrice := some gasPrice, confirmedAt := some env.now
      updatedAt := env.now })
    fun p => { p with state := .confirmed, confirmedAt := some env.now }

/-- `MarkTxReverted`. -/
def markTxReverted (env : DbEnv) (paymentId transactionId gasUsed : Nat) (gasPrice : Int) (actor : String) :
    Txn Unit :=
  finalize env paymentId transactionId .reverted .reverted " reverted" actor
    (fun r => { r with
      status := .reverted, gasUsed := some gasUsed, effectiveGasPrice := some gasPrice, updatedAt := env.now })
    fun p => { p with state := .reverted }

end Eth402.Store
