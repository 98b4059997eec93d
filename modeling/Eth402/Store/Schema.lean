/-
The tables of the settlement store and the constraints the migrations declare on them
(migrations/000001_initial, 000002, 000003, 000004, 000006, 000007, 000009, 000010).

`Tables` is the raw content; a `DB` is a content that meets every constraint, so a database that
violates one cannot be built.
-/
import Eth402.Lib.Text
import Eth402.Settlement.Types

namespace Eth402.Store

open Lib Settlement

inductive VerificationStatus
  | pending
  | verified
  | failed
  deriving DecidableEq, Repr

inductive MerchantStatus
  | pending
  | manualReview
  | active
  | suspended
  | rejected
  deriving DecidableEq, Repr

inductive AttemptResult
  | accepted
  | duplicate
  | rejected
  deriving DecidableEq, Repr

/-- A row of `payment_records`. The columns `x402_version` and `scheme` hold one constant each. -/
structure Payment where
  id : Nat
  paymentIdentity : String
  merchantId : Option Nat
  network : String
  asset : String
  payerAddress : Option String
  recipientAddress : Option String
  amountAtomic : Int
  authorizationNonce : Option String
  validAfter : Option Time
  validBefore : Option Time
  payloadHash : Option String
  verificationStatus : VerificationStatus
  state : State
  settlementRequestedAt : Option Time
  confirmedAt : Option Time
  updatedAt : Time
  claimedBy : Option String
  claimedUntil : Option Time
  payerSignature : Option String
  redactedAt : Option Time
  deriving DecidableEq, Repr

/-- A row of `ethereum_transactions`. Every insert of the source gives a nonce. -/
structure Transaction where
  id : Nat
  paymentId : Nat
  txHash : Option String
  signerAddress : String
  transactionNonce : Nat
  rawTransactionHash : Option String
  sighash : Option String
  status : TxStatus
  blockNumber : Option Nat
  blockHash : Option String
  gasLimit : Option Nat
  gasUsed : Option Nat
  effectiveGasPrice : Option Int
  maxFeePerGas : Option Int
  maxPriorityFeePerGas : Option Int
  replacedById : Option Nat
  broadcastAttemptedAt : Option Time
  firstSeenAt : Option Time
  confirmedAt : Option Time
  updatedAt : Time
  rawTransaction : Option Bytes
  ambiguousAttempts : Nat
  deriving DecidableEq, Repr

/-- A row of `payment_transitions`. -/
structure Transition where
  paymentId : Nat
  fromState : State
  toState : State
  reasonCode : Option String
  actorType : String
  deriving DecidableEq, Repr

/-- A row of `settlement_attempts`. -/
structure SettlementAttempt where
  paymentId : Option Nat
  paymentIdentity : Option String
  result : AttemptResult
  reasonCode : Option String
  deriving DecidableEq, Repr

/-- A row of `verification_attempts`. -/
structure VerificationAttempt where
  paymentId : Option Nat
  paymentIdentity : Option String
  result : String
  reasonCode : Option String
  deriving DecidableEq, Repr

/-- A row of `signer_accounts`. -/
structure SignerAccount where
  signerAddress : String
  nextNonce : Nat
  deriving DecidableEq, Repr

/-- A row of `merchants`, with the columns settlement reads. -/
structure Merchant where
  id : Nat
  recipientAddress : String
  status : MerchantStatus
  createdAt : Time
  deriving DecidableEq, Repr

structure Tables where
  payments : List Payment
  transactions : List Transaction
  transitions : List Transition
  settlementAttempts : List SettlementAttempt
  verificationAttempts : List VerificationAttempt
  signerAccounts : List SignerAccount
  merchants : List Merchant
  deriving DecidableEq, Repr

/-! ## Row constraints -/

/-- `status` is one of the in-flight statuses. -/
def Transaction.active (t : Transaction) : Bool := t.status ∈ activeTransactionStatuses

def isHex (cs : List Char) : Bool := cs.all fun c => ('0' ≤ c ∧ c ≤ '9') ∨ ('a' ≤ c ∧ c ≤ 'f')

/-- The text has exactly the width of its character column. -/
def width (n : Nat) (s : String) : Bool := (chars s).length = n

/-- The text is not longer than its character column. -/
def within (n : Nat) (s : String) : Bool := (chars s).length ≤ n

def isLower (s : String) : Bool := s = lower s

/-- The pattern `^0x[0-9a-f]{130}$`. -/
def signatureShape (s : String) : Bool :=
  hasPrefix "0x" s ∧ ((chars s).drop 2).length = 130 ∧ isHex ((chars s).drop 2)

def Payment.redactionComplete (p : Payment) : Bool :=
  p.redactedAt.isNone ∨
    (p.merchantId.isNone ∧ p.payerAddress.isNone ∧ p.recipientAddress.isNone ∧ p.authorizationNonce.isNone ∧
      p.validAfter.isNone ∧ p.validBefore.isNone ∧ p.payloadHash.isNone ∧ p.payerSignature.isNone ∧
      p.claimedBy.isNone ∧ p.claimedUntil.isNone)

def Payment.fits (p : Payment) : Bool :=
  width 68 p.paymentIdentity ∧ width 42 p.asset ∧ p.payerAddress.all (width 42) ∧
    p.recipientAddress.all (width 42) ∧ p.authorizationNonce.all (width 66) ∧ p.payloadHash.all (width 64) ∧
    p.payerSignature.all (width 132)

def Payment.check (p : Payment) : Bool :=
  p.network = "eip155:1" ∧ p.amountAtomic > 0 ∧ isLower p.asset ∧ p.payerAddress.all isLower ∧
    p.recipientAddress.all isLower ∧
    (p.validAfter.all fun a => p.validBefore.all fun b => b > a) ∧
    (p.confirmedAt.isNone ∨ p.state = .confirmed) ∧
    (p.claimedBy.isNone = p.claimedUntil.isNone) ∧
    p.payerSignature.all (fun s => isLower s ∧ signatureShape s) ∧ p.redactionComplete

/-- Hashes are written in full by the code that computes them, so the hash columns only bound the
length; `block_number` is a `bigint` and `ambiguous_attempts` an `integer`. -/
def Transaction.fits (t : Transaction) : Bool :=
  t.txHash.all (within 66) ∧ within 42 t.signerAddress ∧ t.rawTransactionHash.all (within 64) ∧
    t.blockHash.all (within 66) ∧
    t.blockNumber.all (· < 2 ^ 63) ∧ t.ambiguousAttempts < 2 ^ 31

def Transaction.check (t : Transaction) : Bool :=
  t.maxFeePerGas.all (· > 0) ∧ t.maxPriorityFeePerGas.all (· ≥ 0) ∧
    t.sighash.all fun s => width 64 s ∧ isHex (chars s)

/-- The actor types the audit table admits. -/
def actorTypes : List String := ["http", "worker", "operator", "system"]

def Transition.check (r : Transition) : Bool := r.actorType ∈ actorTypes

def VerificationAttempt.check (r : VerificationAttempt) : Bool := r.result ∈ ["verified", "failed"]

def SignerAccount.check (a : SignerAccount) : Bool := isLower a.signerAddress

/-! ## Constraints between rows -/

/-- The key of `UNIQUE (network, asset, payer_address, authorization_nonce)`; a null is never equal. -/
def Payment.authorizationKey (p : Payment) : Option (String × String × String × String) :=
  match p.payerAddress, p.authorizationNonce with
  | some a, some n => some (p.network, p.asset, a, n)
  | _, _ => none

def Tables.unique (t : Tables) : Bool :=
  (t.payments.map (·.id)).Nodup ∧ (t.payments.map (·.paymentIdentity)).Nodup ∧
    (t.payments.filterMap (·.authorizationKey)).Nodup ∧ (t.transactions.map (·.id)).Nodup ∧
    (t.transactions.filterMap (·.txHash)).Nodup ∧
    ((t.transactions.filter (·.active)).map (·.paymentId)).Nodup ∧
    (t.signerAccounts.map (·.signerAddress)).Nodup ∧ (t.merchants.map (·.id)).Nodup

def Tables.references (t : Tables) : Bool :=
  (t.transactions.all fun r => r.paymentId ∈ t.payments.map (·.id) ∧
    r.replacedById.all (· ∈ t.transactions.map (·.id))) ∧
  (t.transitions.all fun r => r.paymentId ∈ t.payments.map (·.id)) ∧
  (t.settlementAttempts.all fun r => r.paymentId.all (· ∈ t.payments.map (·.id))) ∧
  (t.verificationAttempts.all fun r => r.paymentId.all (· ∈ t.payments.map (·.id))) ∧
  (t.payments.all fun p => p.merchantId.all (· ∈ t.merchants.map (·.id)))

/-- The first constraint the content violates, by PostgreSQL's error code: a value that does not fit
its column, a check, a uniqueness rule, a reference. -/
def Tables.violation (t : Tables) : Option Err :=
  if ¬ (t.payments.all (·.fits) ∧ t.transactions.all (·.fits)) then some (.sql "22001")
  else if ¬ (t.payments.all (·.check) ∧ t.transactions.all (·.check) ∧ t.transitions.all (·.check) ∧
    t.verificationAttempts.all (·.check) ∧ t.signerAccounts.all (·.check)) then some (.sql "23514")
  else if ¬ t.unique then some (.sql "23505")
  else if ¬ t.references then some (.sql "23503")
  else none

/-- A database: tables that meet every constraint. -/
structure DB where
  tables : Tables
  valid : tables.violation = none

def Tables.empty : Tables := ⟨[], [], [], [], [], [], []⟩

/-- The database after the migrations ran. -/
def DB.empty : DB := ⟨Tables.empty, by decide⟩

/-- The merchants are managed outside settlement; a change that breaks a constraint is refused. -/
def DB.setMerchants (db : DB) (merchants : List Merchant) : DB :=
  if h : ({ db.tables with merchants := merchants } : Tables).violation = none then ⟨_, h⟩ else db

@[ext] theorem DB.ext {a b : DB} (h : a.tables = b.tables) : a = b := by
  cases a; cases b; cases h; rfl

instance : DecidableEq DB := fun a b => decidable_of_iff (a.tables = b.tables) ⟨DB.ext, congrArg _⟩

theorem DB.setMerchants_keeps (db : DB) (merchants : List Merchant) :
    (db.setMerchants merchants).tables.payments = db.tables.payments ∧
      (db.setMerchants merchants).tables.transactions = db.tables.transactions ∧
      (db.setMerchants merchants).tables.signerAccounts = db.tables.signerAccounts := by
  unfold DB.setMerchants
  split <;> exact ⟨rfl, rfl, rfl⟩

theorem DB.setMerchants_transitions (db : DB) (merchants : List Merchant) :
    (db.setMerchants merchants).tables.transitions = db.tables.transitions := by
  unfold DB.setMerchants
  split <;> rfl

/-! ## What the constraints give -/

/-- The constraints the proofs rely on, one by one. -/
structure Wf (t : Tables) : Prop where
  paymentIds : (t.payments.map (·.id)).Nodup
  identities : (t.payments.map (·.paymentIdentity)).Nodup
  authorizations : (t.payments.filterMap (·.authorizationKey)).Nodup
  transactionIds : (t.transactions.map (·.id)).Nodup
  hashes : (t.transactions.filterMap (·.txHash)).Nodup
  oneActive : ((t.transactions.filter (·.active)).map (·.paymentId)).Nodup
  signers : (t.signerAccounts.map (·.signerAddress)).Nodup
  owner : ∀ r ∈ t.transactions, r.paymentId ∈ t.payments.map (·.id)
  actors : ∀ r ∈ t.transitions, r.actorType ∈ actorTypes
  merchantIds : (t.merchants.map (·.id)).Nodup
  payments : ∀ p ∈ t.payments, p.check = true

theorem DB.wf (db : DB) : Wf db.tables := by
  have h := db.valid
  unfold Tables.violation at h
  split at h
  · cases h
  split at h
  · cases h
  rename_i hcheck
  split at h
  · cases h
  rename_i hunique
  split at h
  · cases h
  rename_i hrefs
  simp only [not_not] at hcheck hunique hrefs
  simp only [Tables.unique, decide_eq_true_eq] at hunique
  simp only [Tables.references, decide_eq_true_eq, List.all_eq_true] at hrefs
  obtain ⟨h1, h2, h3, h4, h5, h6, h7, h8⟩ := hunique
  refine ⟨h1, h2, h3, h4, h5, h6, h7, fun r hr => (hrefs.1 r hr).1, fun r hr => ?_, h8, List.all_eq_true.1 hcheck.1⟩
  have := List.all_eq_true.1 hcheck.2.2.1 r hr
  simpa [Transition.check] using this

end Eth402.Store
