/-
The request parser shared by verification and settlement (internal/verification/service.go,
internal/x402/payment.go): `ParseRequest` and the payment identity.

`Libraries` is what the program takes from code outside the repository: hashes, go-ethereum's address
and ABI helpers, the x402 library's payload helpers. They are parameters of the model; where a result
rests on what one of them is documented to do, that is a hypothesis of the result (`GethLaws`).
-/
import Eth402.Lib.Text
import Eth402.Settlement.Types

namespace Eth402.Verification

open Lib Settlement

/-! ## Requests -/

/-- A decoded JSON value. -/
inductive Json
  | null
  | bool (b : Bool)
  | num (n : Int)
  | str (s : String)
  | arr (items : List Json)
  | obj (fields : List (String × Json))

abbrev JsonMap := List (String × Json)

def JsonMap.get (m : JsonMap) (key : String) : Option Json := (m.find? fun f => f.1 = key).map (·.2)

/-- `m[key] == text`, an interface value compared with a string. -/
def JsonMap.isText (m : JsonMap) (key text : String) : Bool :=
  match m.get key with
  | some (.str s) => s = text
  | _ => false

structure PaymentRequirements where
  scheme : String
  network : String
  asset : String
  amount : String
  payTo : String
  maxTimeoutSeconds : Int
  extra : JsonMap

structure PaymentPayload where
  x402Version : Int
  accepted : PaymentRequirements
  payload : JsonMap
  extensions : JsonMap

structure Request where
  x402Version : Int
  paymentPayload : PaymentPayload
  paymentRequirements : PaymentRequirements

/-- The EIP-3009 payload as the x402 library decodes it. -/
structure ExactAuthorization where
  source : String
  target : String
  value : String
  validAfter : String
  validBefore : String
  nonce : String

structure ExactPayload where
  signature : String
  authorization : ExactAuthorization

/-- The nine arguments of `transferWithAuthorization`. -/
structure TransferArguments where
  source : Bytes
  target : Bytes
  value : Int
  validAfter : Int
  validBefore : Int
  nonce : Bytes
  v : UInt8
  r : Bytes
  s : Bytes
  deriving DecidableEq

/-- The rejections whose text is a constant of the x402 library. -/
inductive LibraryReason
  | invalidVersion
  | invalidScheme
  | missingEip712Domain
  | recipientMismatch
  | invalidRequiredAmount
  | unsupportedPayloadType
  | invalidPayload
  | authorizationValueMismatch
  | invalidSignatureFormat
  | nonceAlreadyUsed
  deriving DecidableEq, Repr

structure Libraries where
  keccak256 : Bytes → Bytes
  sha256 : Bytes → Bytes
  isHexAddress : String → Bool
  hexToAddress : String → Bytes
  packTransferWithAuthorization : TransferArguments → Except String Bytes
  deepEqual : PaymentRequirements → PaymentRequirements → Bool
  isPermit2Payload : JsonMap → Bool
  isEIP3009Payload : JsonMap → Bool
  payloadFromMap : JsonMap → Option ExactPayload
  marshalPayload : PaymentPayload → Option Bytes
  reasonText : LibraryReason → String

/-! ## Constants -/

def mainnetNetwork := "eip155:1"
def mainnetUSDC := "0xA0b86991c6218b36c1d19D4a2e9Eb0cE3606eB48"
def usdcName := "USD Coin"
def usdcVersion := "2"
def assetTransferMethodEIP3009 := "eip3009"

def maxUint256 : Int := 2 ^ 256 - 1

/-- A rejection of the parser. -/
inductive Reason
  | library (r : LibraryReason)
  | requirementsMismatch
  | unsupportedNetwork
  | unsupportedAsset
  | unsupportedExtension
  | unsupportedAssetTransferMethod
  deriving DecidableEq, Repr

def Reason.text (lib : Libraries) : Reason → String
  | .library r => lib.reasonText r
  | .requirementsMismatch => "invalid_payment_requirements_mismatch"
  | .unsupportedNetwork => "unsupported_network"
  | .unsupportedAsset => "unsupported_asset"
  | .unsupportedExtension => "unsupported_extension"
  | .unsupportedAssetTransferMethod => "unsupported_asset_transfer_method"

/-! ## The payment -/

/-- What an accepted request denotes (`verification.Payment`). -/
structure ParsedPayment where
  identity : String
  asset : String
  payer : String
  recipient : String
  amount : String
  nonce : String
  validAfter : Time
  validBefore : Time
  payloadHash : String
  signature : String
  deriving DecidableEq, Repr

/-- A recorded verification attempt; `result` is "verified" or "failed". -/
structure Attempt where
  paymentIdentity : String
  result : String
  reasonCode : String
  payment : Option ParsedPayment

structure IdentityFields where
  version : Nat
  scheme : String
  network : String
  asset : String
  source : String
  target : String
  value : String
  validAfter : String
  validBefore : String
  nonce : String
  signature : String

/-- A four-byte big-endian length. -/
def lengthBytes (n : Nat) : Bytes :=
  [UInt8.ofNat (n / 2 ^ 24), UInt8.ofNat (n / 2 ^ 16), UInt8.ofNat (n / 2 ^ 8), UInt8.ofNat n]

/-- `PaymentID`: the hash of the length-prefixed fields. -/
def paymentID (lib : Libraries) (f : IdentityFields) : Option String :=
  let values := [toString f.version, f.scheme, f.network, lower f.asset, lower f.source, lower f.target,
    f.value, f.validAfter, f.validBefore, lower f.nonce, lower f.signature]
  if values.any (· = "") then none
  else if values.any (·.utf8ByteSize > 2 ^ 32 - 1) then none
  else some ("pay_" ++ hexEncode (lib.sha256
    (values.flatMap fun v => lengthBytes v.utf8ByteSize ++ utf8 v)))

/-! ## The parser -/

/-- `unsignedDecimal`: decimal digits only. -/
def unsignedDecimal (value : String) : Option Nat := decimalValue (chars value)

/-- `validUnix`: a second up to the end of year 9999. -/
def validUnix (n : Nat) : Bool := n ≤ 253402300799

/-- `time.Unix(seconds, 0)`. -/
def unixTime (seconds : Int) : Time := seconds * 1000000

/-- The bytes of a text with the prefix `0x`, cut off when present (`strings.TrimPrefix`). -/
def trimmedBytes (s : String) : Option Bytes :=
  hexDecode (if hasPrefix "0x" s then (chars s).drop 2 else chars s)

/-- A `0x`-prefixed hexadecimal text of `n` bytes. -/
def fixedHex (n : Nat) (s : String) : Bool := (trimmedBytes s).any (·.length = n) ∧ hasPrefix "0x" s

def mapLength : Json → Option Nat
  | .obj fields => some fields.length
  | _ => none

/-- The checks on the requirements and on the envelope, in order. -/
def checkRequirements (lib : Libraries) (request : Request) : Except Reason Nat :=
  let payload := request.paymentPayload
  let requirements := request.paymentRequirements
  if request.x402Version ≠ 2 ∨ payload.x402Version ≠ 2 then .error (.library .invalidVersion)
  else if ¬ lib.deepEqual payload.accepted requirements then .error .requirementsMismatch
  else if requirements.scheme ≠ "exact" ∨ payload.accepted.scheme ≠ "exact" then
    .error (.library .invalidScheme)
  else if requirements.network ≠ mainnetNetwork then .error .unsupportedNetwork
  else if ¬ equalFold requirements.asset mainnetUSDC then .error .unsupportedAsset
  else if payload.extensions.length ≠ 0 then .error .unsupportedExtension
  else if (requirements.extra.get "assetTransferMethod").isSome ∧
      ¬ requirements.extra.isText "assetTransferMethod" assetTransferMethodEIP3009 then
    .error .unsupportedAssetTransferMethod
  else if ¬ requirements.extra.isText "name" usdcName ∨ ¬ requirements.extra.isText "version" usdcVersion then
    .error (.library .missingEip712Domain)
  else if ¬ lib.isHexAddress requirements.payTo then .error (.library .recipientMismatch)
  else match unsignedDecimal requirements.amount with
    | none => .error (.library .invalidRequiredAmount)
    | some amount =>
      if amount = 0 ∨ (amount : Int) > maxUint256 then .error (.library .invalidRequiredAmount)
      else .ok amount

/-- The decoded payload, once its shape is checked. -/
def checkPayload (lib : Libraries) (payload : PaymentPayload) : Except Reason ExactPayload :=
  if lib.isPermit2Payload payload.payload ∨ ¬ lib.isEIP3009Payload payload.payload then
    .error (.library .unsupportedPayloadType)
  else match lib.payloadFromMap payload.payload with
    | none => .error (.library .invalidPayload)
    | some evmPayload =>
      if (payload.payload.get "authorization").bind mapLength ≠ some 6 ∨ payload.payload.length ≠ 2 then
        .error (.library .invalidPayload)
      else .ok evmPayload

/-- The authorization's numbers: value, valid-after and valid-before. -/
def checkNumbers (auth : ExactAuthorization) (requiredAmount : Nat) : Except Reason (Nat × Nat × Nat) :=
  match unsignedDecimal auth.value, unsignedDecimal auth.validAfter, unsignedDecimal auth.validBefore with
  | some value, some after, some before =>
    if ¬ validUnix after ∨ ¬ validUnix before ∨ before ≤ after then .error (.library .invalidPayload)
    else if value ≠ requiredAmount then .error (.library .authorizationValueMismatch)
    else .ok (value, after, before)
  | _, _, _ => .error (.library .invalidPayload)

/-- The checks on the authorization against the requirements. -/
def checkAuthorization (lib : Libraries) (payTo : String) (requiredAmount : Nat) (evmPayload : ExactPayload) :
    Except Reason (Nat × Nat × Nat) := do
  let auth := evmPayload.authorization
  if ¬ lib.isHexAddress auth.source ∨ ¬ lib.isHexAddress auth.target ∨ ¬ equalFold auth.target payTo then
    .error (.library .recipientMismatch)
  else
    let numbers ← checkNumbers auth requiredAmount
    if ¬ fixedHex 32 auth.nonce then .error (.library .invalidPayload)
    else if ¬ fixedHex 65 evmPayload.signature then .error (.library .invalidSignatureFormat)
    else .ok numbers

/-- The payment an accepted authorization denotes. -/
def paymentOf (lib : Libraries) (request : Request) (evmPayload : ExactPayload) (value after before : Nat) :
    Except Reason ParsedPayment :=
  let requirements := request.paymentRequirements
  let auth := evmPayload.authorization
  let fields : IdentityFields := {
    version := 2, scheme := requirements.scheme, network := requirements.network
    asset := lower requirements.asset, source := lower auth.source, target := lower auth.target
    value := toString (value : Int), validAfter := toString (after : Int), validBefore := toString (before : Int)
    nonce := lower auth.nonce, signature := lower evmPayload.signature }
  match paymentID lib fields, lib.marshalPayload request.paymentPayload with
  | some identity, some encoded => .ok {
      identity := identity, asset := lower requirements.asset, payer := lower auth.source
      recipient := lower auth.target, amount := toString (value : Int), nonce := lower auth.nonce
      validAfter := unixTime after, validBefore := unixTime before
      payloadHash := hexEncode (lib.sha256 encoded), signature := lower evmPayload.signature }
  | _, _ => .error (.library .invalidPayload)

/-- `ParseRequest`. -/
def parseRequest (lib : Libraries) (request : Request) : Except Reason ParsedPayment := do
  let requiredAmount ← checkRequirements lib request
  let evmPayload ← checkPayload lib request.paymentPayload
  let (value, after, before) ←
    checkAuthorization lib request.paymentRequirements.payTo requiredAmount evmPayload
  paymentOf lib request evmPayload value after before

end Eth402.Verification
