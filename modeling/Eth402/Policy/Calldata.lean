/-
The calldata of the policy signing boundary (internal/policy/policy.go): the authorization in wire form
and the bytes the boundary builds from it, apart from the settlement service's own construction.
-/
import Eth402.Verification.Parse

namespace Eth402.Policy

open Lib Settlement Verification

/-- The authorization in wire form; the boundary parses every field itself. -/
structure Authorization where
  source : String
  target : String
  value : String
  validAfter : String
  validBefore : String
  nonce : String
  signature : String
  deriving DecidableEq, Repr

/-- `decodeFixed32`. -/
def decodeFixed32 (value : String) : Except Err Bytes :=
  match trimmedBytes value with
  | some raw => if raw.length = 32 then .ok raw else .error (.text (value ++ " is not 0x-prefixed 32-byte hex"))
  | none => .error (.text (value ++ " is not 0x-prefixed 32-byte hex"))

/-- `splitSignature`: the recovery id is normalised upward, 0 and 1 to 27 and 28. -/
def splitSignature (signature : String) : Except Err (UInt8 × Bytes × Bytes) :=
  match trimmedBytes signature with
  | some raw =>
    if raw.length ≠ 65 then .error (.text ("signature " ++ signature ++ " is not 0x-prefixed 65-byte hex"))
    else
      let v := raw.getD 64 0
      if v = 0 ∨ v = 1 then .ok (v + 27, raw.take 32, (raw.drop 32).take 32)
      else if v = 27 ∨ v = 28 then .ok (v, raw.take 32, (raw.drop 32).take 32)
      else .error (.text "signature recovery id is not 0, 1, 27, or 28")
  | none => .error (.text ("signature " ++ signature ++ " is not 0x-prefixed 65-byte hex"))

/-- `TransferWithAuthorizationData` of the boundary. -/
def transferWithAuthorizationData (lib : Libraries) (auth : Authorization) : Except Err Bytes :=
  if ¬ lib.isHexAddress auth.source ∨ ¬ lib.isHexAddress auth.target then
    .error (.text "authorization addresses must be hex addresses")
  else match (setString10 auth.value).filter (· > 0) with
  | none => .error (.text ("authorization value " ++ auth.value ++ " is not a positive decimal integer"))
  | some value =>
    match (parseInt64 auth.validAfter).filter (0 ≤ ·) with
    | none => .error (.text ("authorization validAfter " ++ auth.validAfter ++ " is not an unsigned integer"))
    | some after =>
      match (parseInt64 auth.validBefore).filter (after < ·) with
      | none => .error (.text ("authorization validBefore " ++ auth.validBefore ++ " must exceed validAfter"))
      | some before => do
        let nonce ← (decodeFixed32 auth.nonce).mapError (.wrap "authorization nonce")
        let (v, r, s) ← splitSignature auth.signature
        (lib.packTransferWithAuthorization
          ⟨lib.hexToAddress auth.source, lib.hexToAddress auth.target, value, after, before, nonce, v, r,
            s⟩).mapError .text

end Eth402.Policy
