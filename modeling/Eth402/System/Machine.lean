/-
The running facilitator: any number of settlement and verification requests, worker ticks, retention
passes and signer seedings over one database, in any interleaving, with stops between any two calls.

Each store call is one atomic step. It may also fail without effect, or commit and still return an
error (a lost connection). Clock readings come from one application clock; the chain, the signer and the
contexts answer whatever the environment of the step says.
-/
import Eth402.Lib.Pool
import Eth402.Settlement.Worker
import Eth402.Verification.Canonical
import Eth402.Verification.Service

namespace Eth402.System

open Lib Store Settlement Verification

/-- How a store call ends: as the method says, with a driver error and no effect, or with a driver
error after its transaction committed. -/
inductive Fault
  | none
  | failed (message : String)
  | lost (message : String)

/-- What one step gets from outside. The chain, the signer and the verifier do not know the errors of
settlement; the one sentinel they report is that of a reverted simulation. -/
structure StepEnv where
  db : DbEnv
  fault : Fault
  answer : (c : Call) → Resp c
  foreign : ∀ c s, Carries s c (answer c) = true → s = .simulationReverted

structure Shared where
  db : DB
  clock : Time

/-- A move nobody's code makes: the clock is set, or the merchants change. -/
inductive Move
  | tick (t : Time)
  | setMerchants (merchants : List Merchant)

/-- Where a process starts. The unleased advance is the broadcast pipeline run by an actor whose lease
lapsed before it loaded its work. -/
inductive Entry
  | settle (request : Request) (polls : Nat)
  | verify (request : Request)
  | broadcastTick (identity : String)
  | confirmationTick (identity : String)
  | recoveryTick (identity : String)
  | advanceUnleased (paymentId : Nat) (actor : String)
  | retention (request : RetentionRequest)
  | seedSigner (signerAddress : String) (chainNonce : Nat)

/-- What a process returns. -/
inductive Out
  | settled (result : Except Err SettleResponse)
  | verified (result : Except Err VerifyResponse)
  | advanced (result : Except Err Unit)
  | done
  deriving DecidableEq

/-- A store call under a fault. -/
def runStore (env : StepEnv) (op : Op) (db : DB) : Except Err op.Result × DB :=
  match env.fault with
  | .none => op.run env.db db
  | .failed message => (.error (.text message), db)
  | .lost message => (.error (.text message), (op.run env.db db).2)

def perform (s : Shared) (env : StepEnv) : (c : Call) → Resp c × Shared
  | .now => (s.clock, s)
  | .store op => ((runStore env op s.db).1, { s with db := (runStore env op s.db).2 })
  | c => (env.answer c, s)

def outside (s : Shared) : Move → Shared
  | .tick t => { s with clock := t }
  | .setMerchants merchants => { s with db := s.db.setMerchants merchants }

def code (lib : Libraries) (cfg : Settlement.Config) : Entry → P Out
  | .settle request polls => Out.settled <$> settle lib cfg polls request
  | .verify request => Out.verified <$> verify lib request
  | .broadcastTick identity => (fun _ => Out.done) <$> broadcastTick lib cfg identity
  | .confirmationTick identity => (fun _ => Out.done) <$> confirmationTick cfg identity
  | .recoveryTick identity => (fun _ => Out.done) <$> recoveryTick lib cfg identity
  | .advanceUnleased paymentId actor => Out.advanced <$> advanceBroadcast lib cfg actor paymentId
  | .retention request => (fun _ => Out.done) <$> inStore (.applyRetention request)
  | .seedSigner address nonce => (fun _ => Out.done) <$> inStore (.seedSignerAccount address nonce)

/-- The facilitator as a machine of processes. -/
def facilitator (lib : Libraries) (cfg : Settlement.Config) : Machine Call Resp where
  State := Shared
  Env := StepEnv
  Move := Move
  Entry := Entry
  Out := Out
  perform := perform
  outside := outside
  code := code lib cfg

abbrev Run (lib : Libraries) (cfg : Settlement.Config) := List (Choice (facilitator lib cfg))

/-- The configuration a run from the empty database reaches. -/
def reach (lib : Libraries) (cfg : Settlement.Config) (run : Run lib cfg) : Lib.Config (facilitator lib cfg) :=
  (Lib.Config.init (M := facilitator lib cfg) (⟨DB.empty, 0⟩ : Shared)).exec run

/-! ## Scripts -/

/-- What a step gets from outside. -/
structure Script where
  db : DbEnv
  receipt : String → Option Receipt
  block : Block
  head : Nat
  known : Bool
  reverts : Bool
  accepts : Bool

/-- A signer whose transactions differ when their nonce or their fee does. -/
def scriptedSignature (tx : UnsignedTransaction) : SignedTransaction :=
  ⟨[UInt8.ofNat tx.nonce, UInt8.ofNat tx.maxFeePerGas.toNat], List.replicate 32 0⟩

def Script.answer (w : Script) : (c : Call) → Resp c
  | .now => zeroTime
  | .contextDone => false
  | .store _ => .error .noRows
  | .transactionReceipt h => .ok (w.receipt h)
  | .transactionByHash _ => .ok w.known
  | .blockByNumber _ => .ok w.block
  | .blockNumber => .ok w.head
  | .simulate .. => if w.reverts then .error (.sentinel .simulationReverted) else .ok ()
  | .signTransaction tx _ => .ok (scriptedSignature tx)
  | .sendRawTransaction _ text => if w.accepts then .ok text else .error (.text "timeout")
  | .getCode _ => .ok []
  | .authorizationState _ => .ok false
  | .schemeVerify _ => .valid

theorem Script.foreign (w : Script) (c : Call) (s : Sentinel) (h : Carries s c (w.answer c) = true) :
    s = .simulationReverted := by
  cases c with
  | simulate source data =>
    change carries s (if w.reverts then _ else _) = true at h
    cases hr : w.reverts <;> rw [hr] at h
    · cases h
    · exact (of_decide_eq_true h).symm
  | sendRawTransaction sending text =>
    change carries s (if w.accepts then _ else _) = true at h
    cases ha : w.accepts <;> rw [ha] at h <;> cases h
  | _ => cases h

def Script.env (w : Script) : StepEnv := ⟨w.db, .none, w.answer, w.foreign⟩

/-- The script with a signer that is down. -/
def Script.unsigned (w : Script) : StepEnv where
  db := w.db
  fault := .none
  answer
    | .signTransaction _ _ => .error (.text "signer unavailable")
    | c => w.answer c
  foreign c s h := by
    cases c with
    | signTransaction => cases h
    | _ => exact w.foreign _ s h

/-! ## A small deployment -/

def sampleSigner := hexText 40 '1'

def sampleConfig : Settlement.Config where
  signerAddress := sampleSigner
  expiryMargin := 10
  merchantQuota := 9
  globalQuota := 9
  quotaWindow := 1000
  leaseDuration := 10
  confirmations := 2
  gasLimit := 1
  maxFeePerGas := "9"
  maxPriorityFeeGas := "1"
  recoveryGrace := 1
  replacementAfter := 1
  responseWait := 1
  confirmations_pos := Nat.two_pos

abbrev SampleRun := Run sampleLib sampleConfig

abbrev SampleChoice := Choice (facilitator sampleLib sampleConfig)

def enter (e : Entry) : SampleChoice := .start e

def tick (t : Time) : SampleChoice := .outside (Move.tick t)

/-- What process `pid` has returned when the run ends. -/
def resultOf (run : SampleRun) (pid : Nat) : Option Out := (reach sampleLib sampleConfig run).output pid

theorem pending_of_result {run : SampleRun} {pid : Nat} (h : resultOf run pid = none) :
    ∀ e out, ¬ (reach sampleLib sampleConfig run).returned pid e out := not_returned_of_output h

/-- The reason process `pid` has answered its request with. -/
def reasonOf (run : SampleRun) (pid : Nat) : Option String :=
  match resultOf run pid with
  | some (.settled (.ok response)) => some response.errorReason
  | _ => none

theorem returned_of_reason {run : SampleRun} {pid : Nat} {e : Entry} {reason : String}
    (he : (started run)[pid]? = some e) (h : reasonOf run pid = some reason) :
    ∃ response, (reach sampleLib sampleConfig run).returned pid e (.settled (.ok response)) ∧
      response.errorReason = reason := by
  unfold reasonOf at h
  split at h
  · rename_i response hr
    exact ⟨response, returned_of_output he hr, Option.some.inj h⟩
  · cases h

/-- The payment `p` has a record under the identity of the request. -/
def onRecord (run : SampleRun) (request : Request) (p : Nat) : Bool :=
  match parseRequest sampleLib request with
  | .ok payment => (reach sampleLib sampleConfig run).shared.db.tables.payments.any fun q =>
      q.id = p ∧ q.paymentIdentity = padTo 68 payment.identity
  | .error _ => false

theorem record_of_onRecord {run : SampleRun} {request : Request} {p : Nat} (h : onRecord run request p = true) :
    ∃ payment, parseRequest sampleLib request = .ok payment ∧
      ∃ q ∈ (reach sampleLib sampleConfig run).shared.db.tables.payments, q.id = p ∧
        q.paymentIdentity = padTo 68 payment.identity := by
  unfold onRecord at h
  split at h
  · rename_i payment hparse
    obtain ⟨q, hq, hid⟩ := List.any_eq_true.1 h
    exact ⟨payment, hparse, q, hq, of_decide_eq_true hid⟩
  · cases h

/-- The process makes its next `n` calls under the script. -/
def calls (n pid : Nat) (w : Script) : SampleRun := List.replicate n (.run pid w.env)

/-- No receipt is there yet, and every send is accepted; the next row gets the id `id`. -/
def calm (id : Nat) : Script where
  db := ⟨20, id, fun n => n, fun _ => false⟩
  receipt _ := none
  block := ⟨"0xb10c", "3"⟩
  head := 10
  known := false
  reverts := false
  accepts := true

/-- The transaction with the hash `h` has a receipt in the block at height `n`. -/
def Script.mined (w : Script) (h : String) (n status : Nat) : Script :=
  { w with receipt := fun x => if x = h then some ⟨n, w.block.hash, status, 1, 1⟩ else none }

/-- Much later than the calm: whoever still holds a lease has lost it. -/
def late (id : Nat) : Script := { calm id with db := ⟨100, id, fun n => n, fun _ => false⟩ }

/-- The script of a later time. -/
def laterAt (id : Nat) (now : Time) : Script := { calm id with db := ⟨now, id, fun n => n, fun _ => false⟩ }

end Eth402.System
