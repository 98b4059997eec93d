/-
Settlement calldata (internal/settlement/calldata.go): the bytes of `transferWithAuthorization` from the
durable authorization, and its wire form for the policy boundary.
-/
import Eth402.Policy.Calldata

namespace Eth402.Settlement

open Lib Verification

/-- `Time.Unix`. -/
def unixSeconds (t : Time) : Int := t / 1000000

/-- `Authorization.Wire`. -/
def Authorization.wire (a : Authorization) : Policy.Authorization where
  source := a.source
  target := a.target
  value := a.value
  validAfter := toString (unixSeconds a.validAfter)
  validBefore := toString (unixSeconds a.validBefore)
  nonce := a.nonce
  signature := a.signature

/-- `decodeFixed32`, the same text as the boundary's. -/
def decodeFixed32 (value : String) : Except Err Bytes := Policy.decodeFixed32 value

/-- `splitSignature`, the same text as the boundary's. -/
def splitSignature (signature : String) : Except Err (UInt8 × Bytes × Bytes) := Policy.splitSignature signature

/-- `TransferWithAuthorizationData`. -/
def transferWithAuthorizationData (lib : Libraries) (auth : Authorization) : Except Err Bytes :=
  if ¬ lib.isHexAddress auth.source ∨ ¬ lib.isHexAddress auth.target then
    .error (.text "authorization addresses must be hex addresses")
  else match (setString10 auth.value).filter (· > 0) with
  | none => .error (.text ("authorization value " ++ auth.value ++ " is not a positive decimal integer"))
  | some value => do
    let nonce ← (decodeFixed32 auth.nonce).mapError (.wrap "authorization nonce")
    let (v, r, s) ← splitSignature auth.signature
    (lib.packTransferWithAuthorization
      ⟨lib.hexToAddress auth.source, lib.hexToAddress auth.target, value, unixSeconds auth.validAfter,
        unixSeconds auth.validBefore, nonce, v, r, s⟩).mapError
        fun m => .wrap "pack transferWithAuthorization" (.text m)

end Eth402.Settlement
