/-
What the settlement code calls: the clock, its context, the store, the chain, the signer and the
verifier. The code is a program over these calls; everything it decides lies between two of them.
-/
import Eth402.Lib.Program
import Eth402.Settlement.Calldata
import Eth402.Settlement.Fees
import Eth402.Store.Op

namespace Eth402.Settlement

open Lib Store Verification

/-- The places that send a signed transaction. -/
inductive Site
  | broadcastClaimed
  | resolveAmbiguous
  | replaceStuck
  | fillNonceGap
  | bumpStuckGapFiller
  | observeGapFiller
  deriving DecidableEq, Repr

/-- What a send is for: the place in the code and the payment and transaction row it works on. The
chain does not see it; results about sends name it. -/
structure Sending where
  site : Site
  paymentId : Nat
  transactionId : Nat
  deriving DecidableEq, Repr

inductive Call
  | now
  | contextDone
  | store (op : Op)
  | transactionReceipt (txHash : String)
  | transactionByHash (txHash : String)
  | blockByNumber (number : Option Nat)
  | blockNumber
  | simulate (source : String) (data : Bytes)
  | signTransaction (tx : UnsignedTransaction) (authorization : Policy.Authorization)
  | sendRawTransaction (sending : Sending) (raw : String)
  | getCode (address : String)
  | authorizationState (payment : ParsedPayment)
  | schemeVerify (request : Request)

/-- The answer of the x402 verifier: valid, invalid with a reason, or no answer. -/
inductive SchemeAnswer
  | valid
  | invalid (reason : String)
  | unavailable (e : Err)

def Resp : Call → Type
  | .now => Time
  | .contextDone => Bool
  | .store op => Except Err op.Result
  | .transactionReceipt _ => Except Err (Option Receipt)
  | .transactionByHash _ => Except Err Bool
  | .blockByNumber _ => Except Err Block
  | .blockNumber => Except Err Nat
  | .simulate .. => Except Err Unit
  | .signTransaction .. => Except Err SignedTransaction
  | .sendRawTransaction .. => Except Err String
  | .getCode _ => Except Err Bytes
  | .authorizationState _ => Except Err Bool
  | .schemeVerify _ => SchemeAnswer

/-- The result is an error that carries `s`. -/
def carries {α : Type} (s : Sentinel) : Except Err α → Bool
  | .error e => e.is s
  | .ok _ => false

/-- The answer is an error that carries `s`. -/
def Carries (s : Sentinel) : (c : Call) → Resp c → Bool
  | .store _, r | .transactionReceipt _, r | .transactionByHash _, r | .blockByNumber _, r | .blockNumber, r
  | .simulate .., r | .signTransaction .., r | .sendRawTransaction .., r | .getCode _, r | .authorizationState _, r =>
    carries s r
  | .schemeVerify _, .unavailable e => e.is s
  | .now, _ | .contextDone, _ | .schemeVerify _, _ => false

/-- A piece of settlement code. -/
abbrev P (α : Type) := Prog Call Resp α

abbrev Ev := Event Call Resp

/-- The settlement configuration. A confirmation depth below one is refused when the configuration is
loaded (internal/config/config.go). -/
structure Config where
  signerAddress : String
  expiryMargin : Int
  merchantQuota : Int
  globalQuota : Int
  quotaWindow : Int
  leaseDuration : Int
  confirmations : Nat
  gasLimit : Nat
  maxFeePerGas : String
  maxPriorityFeeGas : String
  recoveryGrace : Int
  replacementAfter : Int
  responseWait : Int
  confirmations_pos : 1 ≤ confirmations

/-! ## One call each -/

def ask (c : Call) : P (Resp c) := Prog.perform c

def askNow : P Time := ask .now

def contextDone : P Bool := ask .contextDone

def inStore (op : Op) : P (Except Err op.Result) := ask (.store op)

def transactionReceipt (txHash : String) : P (Except Err (Option Receipt)) :=
  ask (.transactionReceipt txHash)

def transactionByHash (txHash : String) : P (Except Err Bool) := ask (.transactionByHash txHash)

def blockByNumber (number : Option Nat) : P (Except Err Block) := ask (.blockByNumber number)

def blockNumber : P (Except Err Nat) := ask .blockNumber

def simulate (source : String) (data : Bytes) : P (Except Err Unit) := ask (.simulate source data)

def signTransaction (tx : UnsignedTransaction) (authorization : Policy.Authorization) :
    P (Except Err SignedTransaction) := ask (.signTransaction tx authorization)

/-- `SendRawTransaction` of the bytes in hexadecimal. -/
def sendRawTransaction (sending : Sending) (raw : Bytes) : P (Except Err String) :=
  ask (.sendRawTransaction sending ("0x" ++ hexEncode raw))

def loadSettlementWork (paymentId : Nat) : P (Except Err Work) := inStore (.loadSettlementWork paymentId)

/-- `release`: a lease that is lost or cannot be released is only logged. -/
def release (paymentId : Nat) (worker : String) : P Unit := do
  let _ ← inStore (.releaseLease paymentId worker)

/-- The hash of a signed transaction, in hexadecimal. -/
def rawHashOf (lib : Libraries) (raw : Bytes) : String := hexEncode (lib.keccak256 raw)

/-- `requireBroadcastHash`. -/
def requireBroadcastHash (returned expected : String) : Except Err Unit :=
  if equalFold returned expected then .ok ()
  else .error (.text ("provider returned transaction hash " ++ returned ++ ", want " ++ expected))

/-- Confirmation depth in 64-bit arithmetic. -/
def depthAt (current height : Nat) : Nat := if current ≥ height then (current - height + 1) % 2 ^ 64 else 0

end Eth402.Settlement
