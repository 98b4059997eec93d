/-
The verification service (internal/verification/service.go): `Verify` parses a request, asks the chain
and the x402 verifier about it, and records the attempt.
-/
import Eth402.Settlement.Calls

namespace Eth402.Verification

open Lib Settlement

variable (lib : Libraries)

structure VerifyResponse where
  isValid : Bool
  invalidReason : String
  payer : String
  deriving DecidableEq, Repr

def record (attempt : Attempt) : P (Except Err Unit) := do
  let answer : Except Err Unit ← inStore (.recordVerification attempt (lib.reasonText .nonceAlreadyUsed))
  pure (answer.mapError (.wrap "record verification"))

/-- Record a failed attempt and answer with its reason. -/
def recordFailed (identity reason payer : String) : P (Except Err VerifyResponse) := do
  match ← record lib ⟨identity, "failed", reason, none⟩ with
  | .error e => pure (.error e)
  | .ok _ => pure (.ok ⟨false, reason, payer⟩)

/-- `unavailable`: the failure is recorded, and the cause is the answer. -/
def unavailable (identity : String) (cause : Err) : P (Except Err VerifyResponse) := do
  match ← record lib ⟨identity, "failed", "verification_unavailable", none⟩ with
  | .error e => pure (.error (.join cause e))
  | .ok _ => pure (.error cause)

/-- Record a verified payment. -/
def recordVerified (payment : ParsedPayment) : P (Except Err VerifyResponse) := do
  match ← record lib ⟨payment.identity, "verified", "", some payment⟩ with
  | .error e =>
    if e.is .authorizationConflict then
      pure (.ok ⟨false, lib.reasonText .nonceAlreadyUsed, payment.payer⟩)
    else pure (.error e)
  | .ok _ => pure (.ok ⟨true, "", payment.payer⟩)

/-- `Verify`. -/
def verify (request : Request) : P (Except Err VerifyResponse) :=
  match parseRequest lib request with
  | .error reason => recordFailed lib "" (reason.text lib) ""
  | .ok payment => do
    match ← ask (.getCode payment.payer) with
    | .error e => unavailable lib payment.identity (.wrap "check payer code" e)
    | .ok code =>
      if code.length ≠ 0 then recordFailed lib payment.identity "unsupported_payer_type" payment.payer
      else match ← ask (.authorizationState payment) with
      | .error e => unavailable lib payment.identity (.wrap "check authorization state" e)
      | .ok true => recordFailed lib payment.identity (lib.reasonText .nonceAlreadyUsed) payment.payer
      | .ok false =>
        match ← ask (.schemeVerify request) with
        | .unavailable e => unavailable lib payment.identity (.wrap "x402 verification" e)
        | .invalid reason => recordFailed lib payment.identity reason payment.payer
        | .valid => recordVerified lib payment

end Eth402.Verification
