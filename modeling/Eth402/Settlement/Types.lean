/-
The data the settlement service and its store exchange (internal/settlement/intent.go, lease.go,
work.go, settle.go, and the records of internal/ethereum and internal/signer they carry).

Times and durations are counted in microseconds, the resolution of the database's timestamps; row
ids are numbers (a uuid is never empty, so the source's checks for an empty id have no counterpart).
-/
import Eth402.Lib.Text
import Eth402.Settlement.State

namespace Eth402.Settlement

open Lib

abbrev Time := Int

abbrev Bytes := List UInt8

/-- Go's zero `time.Time` (0001-01-01), which `IsZero` tests for. -/
def zeroTime : Time := -62135596800000000

/-! ## Errors -/

/-- The package-level error values that callers test for with `errors.Is`. -/
inductive Sentinel
  | paymentNotFound
  | paymentNotVerified
  | recipientNotMerchant
  | authorizationExpiring
  | merchantQuotaExceeded
  | globalQuotaExceeded
  | paymentUnsettleable
  | leaseLost
  | leaseUnavailable
  | broadcastPending
  | settlementRace
  | signerAccountUnknown
  | simulationReverted
  | authorizationConflict
  | canceled
  deriving DecidableEq, Repr

/-- An error: a sentinel, a PostgreSQL error with its code, pgx's missing row, any other error by
its text, an error wrapped by `fmt.Errorf` with `%w` under its context, or two joined ones. -/
inductive Err
  | sentinel (s : Sentinel)
  | sql (code : String)
  | noRows
  | text (message : String)
  | wrap (context : String) (cause : Err)
  | join (first second : Err)
  deriving DecidableEq, Repr

/-- `errors.Is` against a sentinel. -/
def Err.is : Err → Sentinel → Bool
  | .sentinel s, t => s = t
  | .wrap _ e, t => e.is t
  | .join a b, t => a.is t || b.is t
  | .sql _, _ | .noRows, _ | .text _, _ => false

@[simp] theorem Err.is_sentinel (s t : Sentinel) : (Err.sentinel s).is t = decide (s = t) := rfl

@[simp] theorem Err.is_join (a b : Err) (t : Sentinel) : (Err.join a b).is t = (a.is t || b.is t) := rfl

/-- `errors.Join`: nil when every error is nil. -/
def joinErrors : List Err → Option Err
  | [] => none
  | [e] => some e
  | e :: es => (joinErrors es).map (.join e)

/-- `errors.Join` of the checks that failed, in order. -/
def failedChecks (checks : List (Bool × String)) : Option Err :=
  joinErrors ((checks.filter (·.1)).map fun c => .text c.2)

/-! ## The status of a transaction row -/

inductive TxStatus
  | intent
  | broadcasting
  | broadcast
  | confirming
  | confirmed
  | reverted
  | replaced
  | dropped
  | ambiguous
  deriving DecidableEq, Repr

/-- The in-flight statuses, those of the partial unique index. -/
def activeTransactionStatuses : List TxStatus := [.intent, .broadcasting, .broadcast, .confirming, .ambiguous]

/-! ## Intents -/

def reasonPaymentNotFound := "payment_not_found"
def reasonPaymentNotVerified := "payment_not_verified"
def reasonRecipientNotMerchant := "recipient_not_registered"
def reasonAuthorizationExpiring := "authorization_expiring"
def reasonMerchantQuotaExceeded := "merchant_quota_exceeded"
def reasonGlobalQuotaExceeded := "facilitator_quota_exceeded"
def reasonSimulationReverted := "simulation_reverted"

structure IntentRequest where
  paymentIdentity : String
  signerAddress : String
  payerSignature : String
  expiryMargin : Int
  quota : Int
  quotaWindow : Int
  globalQuota : Int
  now : Time

def IntentRequest.validate (r : IntentRequest) : Option Err := failedChecks [
  (r.paymentIdentity = "", "payment identity is required"),
  (r.signerAddress = "", "signer address is required"),
  ((chars r.payerSignature).length ≠ 132 ∨ ¬ hasPrefix "0x" r.payerSignature,
    "payer signature must be 0x-prefixed 65-byte hex"),
  (r.expiryMargin ≤ 0, "expiry margin must be positive"),
  (r.quota ≤ 0, "merchant settlement quota must be positive"),
  (r.quotaWindow ≤ 0, "merchant settlement quota window must be positive"),
  (r.globalQuota ≤ 0, "global settlement quota must be positive"),
  -- a global ceiling below the per-merchant one could never be reached
  (r.globalQuota > 0 ∧ r.quota > 0 ∧ r.globalQuota < r.quota,
    "global settlement quota must not be below the per-merchant quota"),
  (r.now = zeroTime, "current time is required")]

structure Intent where
  paymentId : Nat
  paymentIdentity : String
  transactionId : Nat
  signerAddress : String
  nonce : Nat
  txHash : String
  reverted : Bool
  confirmed : Bool
  duplicate : Bool
  deriving DecidableEq, Repr

/-! ## Leases -/

structure Lease where
  paymentId : Nat
  paymentIdentity : String
  state : State
  worker : String
  expiresAt : Time
  deriving DecidableEq, Repr

structure ClaimRequest where
  worker : String
  states : List State
  duration : Int
  limit : Int
  now : Time

def ClaimRequest.validate (r : ClaimRequest) : Option Err := failedChecks [
  (r.worker = "", "worker identity is required"),
  (r.states.length = 0, "at least one claimable state is required"),
  (r.duration ≤ 0, "lease duration must be positive"),
  (r.limit ≤ 0, "claim limit must be positive"),
  (r.now = zeroTime, "current time is required")]

/-! ## Work -/

/-- The fields `transferWithAuthorization` calldata needs, as the durable record holds them. -/
structure Authorization where
  source : String
  target : String
  value : String
  validAfter : Time
  validBefore : Time
  nonce : String
  signature : String
  deriving DecidableEq, Repr

/-- One payment with its active transaction row. A hash that is not recorded is the empty text, and
fees that are not recorded are `none`. -/
structure Work where
  paymentId : Nat
  paymentIdentity : String
  state : State
  authorization : Authorization
  transactionId : Nat
  transactionStatus : TxStatus
  nonce : Nat
  txHash : String
  rawHash : String
  sighash : String
  signerAddress : String
  gasLimit : Nat
  maxFeePerGas : Option Int
  maxPriorityFeePerGas : Option Int
  broadcastAttemptedAt : Option Time
  transactionUpdatedAt : Time
  ambiguousAttempts : Nat
  dbNow : Time
  deriving DecidableEq, Repr

def Work.broadcastPending (w : Work) : Bool := w.transactionStatus = .intent

def Work.ambiguousBroadcast (w : Work) : Bool := w.transactionStatus = .broadcasting && w.txHash = ""

structure Replacement where
  nonce : Nat
  txHash : String
  rawHash : String
  gasLimit : Nat
  maxFee : Int
  priorityFee : Int
  signerAddress : String
  deriving DecidableEq, Repr

/-- A transaction outside the active set whose hash is still watched. The store fills in `status` and
`rawTransaction` for gap fillers only. -/
structure TrackedTransaction where
  paymentId : Nat
  transactionId : Nat
  txHash : String
  status : Option TxStatus
  rawTransaction : Bytes
  deriving DecidableEq, Repr

/-! ## What the chain and the signer answer -/

structure Receipt where
  blockNumber : Nat
  blockHash : String
  status : Nat
  gasUsed : Nat
  effectiveGasPrice : Int
  deriving DecidableEq, Repr

structure Block where
  hash : String
  baseFee : String
  deriving DecidableEq, Repr

/-- The transaction handed to the signer; chain id, token and value are constants of the service. -/
structure UnsignedTransaction where
  nonce : Nat
  data : Bytes
  gasLimit : Nat
  maxFeePerGas : Int
  maxPriorityFeePerGas : Int
  deriving DecidableEq, Repr

structure SignedTransaction where
  raw : Bytes
  sigHash : Bytes
  deriving DecidableEq, Repr

end Eth402.Settlement
