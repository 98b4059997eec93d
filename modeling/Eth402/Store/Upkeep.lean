/-
The remaining store methods that write the settlement tables: leases (internal/store/lease.go), the
recording of verifications (internal/store/store.go) and retention (internal/store/retention.go).
-/
import Eth402.Store.Admission
import Eth402.Verification.Parse

namespace Eth402.Store

open Lib Settlement Verification

/-! ## Leases -/

/-- The payments `ClaimPayments` selects: claimable ones in the requested states, the least recently
updated first, past those another transaction locks. -/
def claimCandidates (env : DbEnv) (request : ClaimRequest) (t : Tables) : List Payment :=
  (((env.arrange (·.id) (t.payments.filter fun p =>
    p.state ∈ request.states ∧ p.claimable request.now)).insertionSort
      fun a b => a.updatedAt ≤ b.updatedAt).filter fun p => ¬ env.locked p.id).take request.limit.toNat

/-- `ClaimPayments`. -/
def claimPayments (env : DbEnv) (request : ClaimRequest) : Txn (List Lease) := do
  match request.validate with
  | some e => Txn.fail e
  | none => do
    let expiresAt := request.now + request.duration
    let chosen ← Txn.read (claimCandidates env request)
    let _ ← updatePayments (fun p => p.id ∈ chosen.map (·.id) ∧ p.claimable request.now)
      fun p => { p with
        claimedBy := some request.worker, claimedUntil := some expiresAt, updatedAt := env.now }
    pure ((env.arrange (·.id) chosen).map fun p => leaseOf request.worker p expiresAt)

/-- `RenewLease`: a lease that has lapsed is never extended. -/
def renewLease (paymentId : Nat) (worker : String) (now : Time) (duration : Int) : Txn Time := do
  if worker = "" ∨ duration ≤ 0 ∨ now = zeroTime then Txn.fail (.sentinel .leaseLost)
  let n ← updatePayments
    (fun p => p.id = paymentId ∧ p.claimedBy = some worker ∧ p.claimedUntil.any (· > now))
    fun p => { p with claimedUntil := some (now + duration) }
  if n ≠ 1 then Txn.fail (.sentinel .leaseLost)
  pure (now + duration)

/-- `ReleaseLease`. -/
def releaseLease (env : DbEnv) (paymentId : Nat) (worker : String) : Txn Unit := do
  if worker = "" then Txn.fail (.sentinel .leaseLost)
  let n ← updatePayments (fun p => p.id = paymentId ∧ p.claimedBy = some worker)
    fun p => { p with claimedBy := none, claimedUntil := none, updatedAt := env.now }
  if n ≠ 1 then Txn.fail (.sentinel .leaseLost)

/-! ## Verification records -/

/-- The oldest active claimant of a recipient address. -/
def claimant (recipient : String) (t : Tables) : Option Nat :=
  (((t.merchants.filter fun m => m.recipientAddress = recipient ∧ m.status = .active).insertionSort
    fun a b => a.createdAt < b.createdAt ∨ (a.createdAt = b.createdAt ∧ a.id ≤ b.id)).head?).map (·.id)

/-- The row of a verified payment: text is padded to the width of its column. -/
def paymentRow (env : DbEnv) (merchant : Option Nat) (p : ParsedPayment) (amount : Int) : Payment where
  id := env.freshId
  paymentIdentity := padTo 68 p.identity
  merchantId := merchant
  network := "eip155:1"
  asset := padTo 42 p.asset
  payerAddress := some (padTo 42 p.payer)
  recipientAddress := some (padTo 42 p.recipient)
  amountAtomic := amount
  authorizationNonce := some (padTo 66 p.nonce)
  validAfter := some p.validAfter
  validBefore := some p.validBefore
  payloadHash := some (padTo 64 p.payloadHash)
  verificationStatus := .pending
  state := .received
  settlementRequestedAt := none
  confirmedAt := none
  updatedAt := env.now
  claimedBy := none
  claimedUntil := none
  payerSignature := none
  redactedAt := none

def insertVerificationAttempt (r : VerificationAttempt) : Txn Unit :=
  Txn.write fun t => { t with verificationAttempts := t.verificationAttempts ++ [r] }

/-- `INSERT ... ON CONFLICT (payment_identity) DO NOTHING`, and the move to verified when it inserted. -/
def insertVerified (env : DbEnv) (p : ParsedPayment) : Txn Nat := do
  let existing ← Txn.read fun t => t.payments.find? fun q => q.paymentIdentity = padTo 68 p.identity
  match existing with
  | some q => pure q.id
  | none =>
    match setString10 p.amount with
    | none => Txn.fail (.sql "22P02")
    | some amount => do
      let merchant ← Txn.read (claimant (padTo 42 p.recipient))
      Txn.write fun t => { t with payments := t.payments ++ [paymentRow env merchant p amount] }
      let _ ← updatePayments (fun q => q.id = env.freshId ∧ q.state = .received)
        fun q => { q with verificationStatus := .verified, state := .verified, updatedAt := env.now }
      insertTransition ⟨env.freshId, .received, .verified, none, "http"⟩
      pure env.freshId

/-- The transaction of `recordVerification`. -/
def recordAttempt (env : DbEnv) (attempt : Attempt) : Txn Unit := do
  let paymentId ←
    if attempt.result = "verified" then
      match attempt.payment with
      | none => Txn.fail (.text "verified attempt requires payment data")
      | some p => some <$> insertVerified env p
    else pure none
  insertVerificationAttempt ⟨paymentId, nullString attempt.paymentIdentity, attempt.result,
    nullString attempt.reasonCode⟩

/-- `recordVerification`: a payment that breaks the authorization's uniqueness is recorded as a failed
attempt after the rollback. (The retry on a deadlock is the caller making the call again.) -/
def recordVerification (env : DbEnv) (attempt : Attempt) (nonceAlreadyUsed : String) (db : DB) :
    Except Err Unit × DB :=
  match recordAttempt env attempt db with
  | .ok (_, db') => (.ok (), db')
  | .error (.sql "23505") =>
    match insertVerificationAttempt ⟨none, some attempt.paymentIdentity, "failed", some nonceAlreadyUsed⟩ db with
    | .ok (_, db') => (.error (.sentinel .authorizationConflict), db')
    | .error e => (.error e, db)
  | .error e => (.error e, db)

/-! ## Retention -/

structure RetentionRequest where
  now : Time
  paymentAfter : Int
  ephemeralAfter : Int
  revokedKeyAfter : Int
  batchSize : Int

def RetentionRequest.validate (r : RetentionRequest) : Option Err :=
  if r.now = zeroTime then some (.text "retention clock is required")
  else if r.paymentAfter ≤ 0 ∨ r.ephemeralAfter ≤ 0 ∨ r.revokedKeyAfter ≤ 0 then
    some (.text "retention periods must be positive")
  else if r.batchSize < 1 ∨ r.batchSize > 10000 then
    some (.text "retention batch size must be between 1 and 10000")
  else none

/-- The verified payments whose authorization is over. -/
def expiryCandidates (env : DbEnv) (request : RetentionRequest) (t : Tables) : List Nat :=
  ((((t.payments.filter fun p => p.state = .verified ∧ p.validBefore.any (· < request.now)).insertionSort
    fun a b => a.validBefore.getD 0 < b.validBefore.getD 0 ∨
      (a.validBefore.getD 0 = b.validBefore.getD 0 ∧ a.id ≤ b.id)).filter fun p => ¬ env.locked p.id).take
        request.batchSize.toNat).map (·.id)

/-- The terminal payments whose authorization may be forgotten: one that failed or expired only when
every transaction it has reverted, since recovery may still need the authorization for its nonce. -/
def redactable (cutoff : Time) (t : Tables) (p : Payment) : Bool :=
  p.redactedAt.isNone ∧ p.state ∈ [.confirmed, .reverted, .failed, .expired, .verificationFailed] ∧
    p.validBefore.any (· < cutoff) ∧ p.confirmedAt.getD p.updatedAt < cutoff ∧
    (p.state ∈ [.confirmed, .reverted, .verificationFailed] ∨
      t.transactions.all fun r => r.paymentId = p.id → r.status = .reverted)

def redactionCandidates (env : DbEnv) (request : RetentionRequest) (t : Tables) : List Nat :=
  ((((t.payments.filter (redactable (request.now - request.paymentAfter) t)).insertionSort
    fun a b => a.confirmedAt.getD a.updatedAt < b.confirmedAt.getD b.updatedAt ∨
      (a.confirmedAt.getD a.updatedAt = b.confirmedAt.getD b.updatedAt ∧ a.id ≤ b.id)).filter
        fun p => ¬ env.locked p.id).take request.batchSize.toNat).map (·.id)

/-- What redaction leaves of a payment. -/
def Payment.redact (now : Time) (p : Payment) : Payment :=
  { p with
    merchantId := none, payerAddress := none, recipientAddress := none, authorizationNonce := none
    validAfter := none, validBefore := none, payloadHash := none, payerSignature := none
    claimedBy := none, claimedUntil := none, redactedAt := some now, updatedAt := now }

/-- Expire the given payments and audit each move, in one statement. -/
def Tables.expire (now : Time) (ids : List Nat) (t : Tables) : Tables :=
  { t with
    payments := t.payments.map fun p =>
      if p.id ∈ ids ∧ p.state = .verified then { p with state := .expired, updatedAt := now } else p
    transitions := t.transitions ++
      (t.payments.filter fun p => p.id ∈ ids ∧ p.state = .verified).map fun p =>
        ⟨p.id, .verified, .expired, some "authorization_expired", "system"⟩ }

/-- Clear the signed bytes and the authorization of the given payments, in one statement. -/
def Tables.redact (now : Time) (ids : List Nat) (t : Tables) : Tables :=
  { t with
    transactions := t.transactions.map fun r =>
      if r.paymentId ∈ ids ∧ r.rawTransaction.isSome then { r with rawTransaction := none, updatedAt := now }
      else r
    payments := t.payments.map fun p => if p.id ∈ ids then p.redact now else p }

/-- `ApplyRetention` on the payment tables; its result counts the payments. The pruning of tokens,
sessions and keys in the same transaction touches no table of settlement. -/
def applyRetention (env : DbEnv) (request : RetentionRequest) : Txn (Nat × Nat) := do
  match request.validate with
  | some e => Txn.fail e
  | none => do
    let expired ← Txn.read (expiryCandidates env request)
    Txn.write (Tables.expire request.now expired)
    let redacted ← Txn.read (redactionCandidates env request)
    Txn.write (Tables.redact request.now redacted)
    pure (expired.length, redacted.length)

end Eth402.Store
