/-
The signing boundary (cmd/policysigner): the handler builds the transaction from the request, has the backend sign it,
and returns the bytes only when they decode to the transaction it built, as far as the fields it compares go.
-/
import Eth402.Policy.Unsigned
import Eth402.Signer.Client
import Mathlib.Logic.Equiv.List
import Mathlib.Tactic.DeriveEncodable

namespace Eth402.Signer

open Lib Ethereum Policy Settlement Verification

/-! ## The handler -/

variable (lib : Libraries) (codec : Codec)

/-- `confirmSigned`. -/
def confirmSigned (raw : Bytes) (want : Ethereum.Transaction) : Except Err Unit :=
  match codec.unmarshalBinary raw with
  | .error e => .error (.wrap "decode signed transaction" e)
  | .ok signed =>
    if codec.chainId signed ≠ codec.chainId want ∨ signed.unsigned.nonce ≠ want.unsigned.nonce ∨
      signed.unsigned.target = none ∨
        signed.unsigned.target ≠ want.unsigned.target ∨ signed.unsigned.value ≠ 0 ∨
        signed.unsigned.gas ≠ want.unsigned.gas ∨
        codec.gasFeeCap signed.unsigned.body ≠ codec.gasFeeCap want.unsigned.body ∨
        codec.gasTipCap signed.unsigned.body ≠ codec.gasTipCap want.unsigned.body ∨
        signed.unsigned.data ≠ want.unsigned.data then
      .error (.text "signed transaction differs from the one built")
    else .ok ()

/-- The transaction as it is handed to the backend. -/
def described (u : Unsigned) : Transaction :=
  ⟨codec.chainId u.newTx % 2 ^ 64, u.nonce, codec.addressHex (u.target.getD []), u.data, "0", u.gas,
    toString (codec.gasFeeCap u.body), toString (codec.gasTipCap u.body)⟩

structure Boundary where
  address : String
  limits : Limits
  token : String

/-- What the handler answers. -/
inductive Reply
  | error (status : Nat) (message : String)
  | signed (rawTransaction signerAddress : String)
  deriving DecidableEq, Repr

def Reply.rawTransaction : Reply → Option String
  | .signed raw _ => some raw
  | .error .. => none

/-- `authorized`: the digests of the tokens are compared. -/
def Boundary.authorized (b : Boundary) (header : String) : Bool :=
  let presented := if hasPrefix "Bearer " header then String.ofList ((chars header).drop 7) else header
  lib.sha256 (utf8 presented) = lib.sha256 (utf8 b.token)

/-- The JSON decoder on a limited body: the request, and whether nothing follows it. -/
abbrev RequestDecoder := Bytes → Option (Policy.Request × Bool)

/-- The answer to a request that is not signed. -/
def refusal : RequestError → Reply
  | .overLimit _ => .error 422 "signing request exceeds configured ceiling"
  | .invalidRequest _ => .error 400 "invalid signing request"

/-- `sign`, with any backend. -/
def Boundary.sign (b : Boundary) (decode : RequestDecoder) (backend : Transaction → Except Err SignedTransaction)
    (header : String) (body : Bytes) : Reply :=
  if ¬ b.authorized lib header then .error 401 "unauthorized"
  else match decode body with
  | none => .error 400 "malformed signing request"
  | some (_, false) => .error 400 "malformed signing request"
  | some (request, true) =>
    match Policy.unsigned lib request b.limits with
    | .error e => refusal e
    | .ok u =>
      match backend (described codec u) with
      | .error _ => .error 502 "signing failed"
      | .ok signed =>
        match confirmSigned codec signed.raw u.newTx with
        | .error _ => .error 502 "signing failed"
        | .ok _ => .signed ("0x" ++ hexEncode signed.raw) b.address

/-! ## What it returns -/

variable {lib codec} {raw : Bytes} {want : Ethereum.Transaction} {request : Policy.Request} {limits : Limits}

/-- A confirmed transaction is the one built in every field that is compared. -/
structure Confirmed (codec : Codec) (want signed : Ethereum.Transaction) : Prop where
  chainId : codec.chainId signed = codec.chainId want
  nonce : signed.unsigned.nonce = want.unsigned.nonce
  target : signed.unsigned.target = want.unsigned.target
  value : signed.unsigned.value = 0
  gas : signed.unsigned.gas = want.unsigned.gas
  feeCap : codec.gasFeeCap signed.unsigned.body = codec.gasFeeCap want.unsigned.body
  tipCap : codec.gasTipCap signed.unsigned.body = codec.gasTipCap want.unsigned.body
  data : signed.unsigned.data = want.unsigned.data

theorem confirmSigned_ok (h : confirmSigned codec raw want = .ok ()) :
    ∃ signed, codec.unmarshalBinary raw = .ok signed ∧ Confirmed codec want signed := by
  unfold confirmSigned at h
  split at h
  · cases h
  rename_i signed hdec
  split at h
  · cases h
  · rename_i hsame
    simp only [not_or, not_not] at hsame
    obtain ⟨hchain, hnonce, -, htarget, hvalue, hgas, hfee, htip, hdata⟩ := hsame
    exact ⟨signed, hdec, hchain, hnonce, htarget, hvalue, hgas, hfee, htip, hdata⟩

/-- A raw transaction is returned only for a request that was built and whose signed bytes were confirmed. -/
theorem sign_some {b : Boundary} {decode : RequestDecoder} {backend : Transaction → Except Err SignedTransaction}
    {header text : String} {body : Bytes}
    (h : (b.sign lib codec decode backend header body).rawTransaction = some text) :
    ∃ request u raw, decode body = some (request, true) ∧ Policy.unsigned lib request b.limits = .ok u ∧
      text = "0x" ++ hexEncode raw ∧ confirmSigned codec raw u.newTx = .ok () := by
  unfold Boundary.sign at h
  split at h
  · cases h
  split at h
  · cases h
  · cases h
  · rename_i request hdec
    split at h
    · rename_i e _
      cases e <;> cases h
    · rename_i u hu
      split at h
      · cases h
      · rename_i signed _
        split at h
        · cases h
        · rename_i hconf
          cases h
          exact ⟨request, u, signed.raw, hdec, hu, rfl, hconf⟩

/-- Whatever the request and the backend, a raw transaction that is returned decodes to a call of canonical USDC on
mainnet without value, with the selector and the nine words of the request's authorization, under the ceilings. -/
theorem signed_within_policy (geth : GethLaws lib) (abi : AbiLaws lib) (b : Boundary) (decode : RequestDecoder)
    (backend : Transaction → Except Err SignedTransaction) (header : String) (body : Bytes) (text : String)
    (h : (b.sign lib codec decode backend header body).rawTransaction = some text) :
    ∃ request raw tx args, decode body = some (request, true) ∧ text = "0x" ++ hexEncode raw ∧
      codec.unmarshalBinary raw = .ok tx ∧ codec.chainId tx = 1 ∧
        tx.unsigned.target = some (lib.hexToAddress mainnetUSDC) ∧
      tx.unsigned.value = 0 ∧ States request.authorization args ∧
      (tx.unsigned.data = transferWithAuthorizationSelector ++ (Store.argumentWords args).flatten ∧
        (Store.argumentWords args).length = 9 ∧ ∀ w ∈ Store.argumentWords args, w.length = 32) ∧
      tx.unsigned.gas ≤ b.limits.maxGasLimit ∧
      codec.gasTipCap tx.unsigned.body ≤ codec.gasFeeCap tx.unsigned.body ∧
      ∃ maxFee maxPriority, b.limits.maxFeePerGasWei = some maxFee ∧
        b.limits.maxPriorityFeePerGasWei = some maxPriority ∧
        (codec.gasFeeCap tx.unsigned.body : Int) ≤ maxFee ∧ (codec.gasTipCap tx.unsigned.body : Int) ≤ maxPriority := by
  obtain ⟨request, u, raw, hdec, hu, htext, hconf⟩ := sign_some h
  obtain ⟨tx, htx, hsame⟩ := confirmSigned_ok hconf
  obtain ⟨htarget, -, hdata, hgas, tip, cap, hbody, hle, maxFee, maxPriority, hmax, hprio, hcap, htip⟩ :=
    unsigned_settles hu
  obtain ⟨args, hstates, hsized, -, -, -, hpack⟩ := transferWithAuthorizationData_ok geth hdata
  rw [abi.pack args hsized] at hpack
  have hchain : codec.chainId u.newTx = 1 := codec.chainId_dynamicFee _ _ _ _ _ hbody
  have hfee : codec.gasFeeCap tx.unsigned.body = cap := hsame.feeCap.trans (by simp [Unsigned.newTx, hbody])
  have htipCap : codec.gasTipCap tx.unsigned.body = tip := hsame.tipCap.trans (by simp [Unsigned.newTx, hbody])
  refine ⟨request, raw, tx, args, hdec, htext, htx, hsame.chainId.trans hchain, hsame.target.trans htarget, hsame.value,
    hstates, ⟨hsame.data.trans (Except.ok.inj hpack).symm, rfl, length_argumentWords hsized⟩, ?_, ?_, maxFee,
      maxPriority,
    hmax, hprio, ?_, ?_⟩
  · rw [hsame.gas]
    exact hgas
  · rw [hfee, htipCap]
    exact hle
  · rw [hfee]
    exact hcap
  · rw [htipCap]
    exact htip

/-! ## A request that is signed -/

instance encodableUInt8 : Encodable UInt8 := Encodable.ofLeftInverse UInt8.toNat UInt8.ofNat fun _ => UInt8.ofNat_toNat

deriving instance Encodable for AccessTuple
deriving instance Encodable for SetCodeAuthorization
deriving instance Encodable for Body
deriving instance Encodable for Unsigned

def sampleRequest : Policy.Request := ⟨7, 21000, "9", "1", sampleAuthorization "1"⟩

def sampleLimits : Limits := ⟨some 9, some 1, 30000⟩

/-- What the boundary builds for the sample request. -/
def sampleUnsigned : Unsigned :=
  ⟨7, some (policyLib.hexToAddress mainnetUSDC), 0, 21000, sampleCalldata, .dynamicFee mainnetChainID 1 9 []⟩

def sampleAccess : List AccessTuple := [⟨List.replicate 20 1, []⟩]

/-- The transaction built with another body. -/
def signedAs (body : Body) : Ethereum.Transaction := ⟨{ sampleUnsigned with body := body }, 0, 1, 1⟩

/-- The body on another chain. -/
def Body.onChain (chain : Nat) : Body → Body
  | .legacy price => .legacy price
  | .accessList _ price list => .accessList chain price list
  | .dynamicFee _ tip cap list => .dynamicFee chain tip cap list
  | .blob _ tip cap list fee hashes => .blob chain tip cap list fee hashes
  | .setCode _ tip cap list auths => .setCode chain tip cap list auths

def Body.chainId : Body → Nat
  | .legacy _ => 0
  | .accessList chain .. | .dynamicFee chain .. | .blob chain .. | .setCode chain .. => chain

def Body.type : Body → Nat
  | .legacy _ => 0
  | .accessList .. => 1
  | .dynamicFee .. => 2
  | .blob .. => 3
  | .setCode .. => 4

theorem Body.type_eq_two (body : Body) :
    Body.type body = 2 ↔ ∃ chain tip cap list, body = .dynamicFee chain tip cap list := by
  cases body <;> simp [Body.type]

/-- Every transaction of the signer's chain has one sender. -/
def sampleSender (signer : Nat) (tx : Ethereum.Transaction) : Except Err Bytes :=
  if Body.chainId tx.unsigned.body = signer then .ok (List.replicate 20 0x11)
  else .error (.text "invalid chain id for signer")

theorem sampleSender_chainId (signer : Nat) (tx : Ethereum.Transaction) (a : Bytes)
    (h : sampleSender signer tx = .ok a) :
    Body.chainId tx.unsigned.body = signer := by
  unfold sampleSender at h
  split at h
  · assumption
  · cases h

/-- A codec that decodes three transactions: the one built, one with an access list, and one that sets code. Hashes are
made of all that is signed. -/
def sampleCodec : Codec where
  unmarshalBinary raw :=
    if raw = [2] then .ok (signedAs sampleUnsigned.body)
    else if raw = [3] then .ok (signedAs (.dynamicFee mainnetChainID 1 9 sampleAccess))
    else if raw = [4] then .ok (signedAs (.setCode mainnetChainID 1 9 [] [⟨1, List.replicate 20 1, 0, 0, 1, 1⟩]))
    else .error (.text "typed transaction too short")
  type := Body.type
  gasFeeCap
    | .legacy price | .accessList _ price _ => price
    | .dynamicFee _ _ cap _ | .blob _ _ cap _ _ _ | .setCode _ _ cap _ _ => cap
  gasTipCap
    | .legacy price | .accessList _ price _ => price
    | .dynamicFee _ tip _ _ | .blob _ tip _ _ _ _ | .setCode _ tip _ _ _ => tip
  accessList
    | .legacy _ => []
    | .accessList _ _ list | .dynamicFee _ _ _ list | .blob _ _ _ list _ _ | .setCode _ _ _ list _ => list
  chainId tx := Body.chainId tx.unsigned.body
  hash signer u := List.replicate (Encodable.encode { u with body := Body.onChain signer u.body }) 0
  sender := sampleSender
  addressHex a := hexText0x true a
  type_eq_two := Body.type_eq_two
  gasFeeCap_dynamicFee _ _ _ _ := rfl
  gasTipCap_dynamicFee _ _ _ _ := rfl
  accessList_dynamicFee _ _ _ _ := rfl
  chainId_dynamicFee _ _ _ _ _ h := congrArg Body.chainId h
  sender_chainId := sampleSender_chainId

def sampleBoundary : Boundary := ⟨hexDigits 40 '1', sampleLimits, "token"⟩

/-- The sample request is signed and returned. -/
theorem signed_within_policy_sample :
    (sampleBoundary.sign policyLib sampleCodec (fun _ => some (sampleRequest, true)) (fun _ =>
    .ok ⟨[2], []⟩) "Bearer token"
      []).rawTransaction = some "0x02" ∧
    ∃ raw tx args, "0x02" = "0x" ++ hexEncode raw ∧ sampleCodec.unmarshalBinary raw = .ok tx ∧
      sampleCodec.chainId tx = 1 ∧
      States (sampleAuthorization "1") args ∧
      tx.unsigned.data = transferWithAuthorizationSelector ++ (Store.argumentWords args).flatten := by
  have hsigned : (sampleBoundary.sign policyLib sampleCodec (fun _ => some (sampleRequest, true)) (fun _ =>
    .ok ⟨[2], []⟩)
      "Bearer token" []).rawTransaction = some "0x02" := by decide +kernel
  obtain ⟨request, raw, tx, args, hdec, htext, htx, hchain, -, -, hstates, ⟨hdata, -⟩, -⟩ :=
    signed_within_policy policyLib_laws policyLib_packs sampleBoundary (fun _ => some (sampleRequest, true))
      (fun _ => .ok ⟨[2], []⟩) "Bearer token" [] "0x02" hsigned
  cases hdec
  exact ⟨hsigned, raw, tx, args, htext, htx, hchain, hstates, hdata⟩

end Eth402.Signer
