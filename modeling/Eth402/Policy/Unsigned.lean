/-
The transaction the boundary is willing to sign (internal/policy/policy.go, `Unsigned`): what it does is fixed, the
caller sets its nonce, its gas and the authorization, and the ceilings are the boundary's own.
-/
import Eth402.Ethereum.Transaction
import Eth402.Policy.Words

namespace Eth402.Policy

open Lib Ethereum Settlement Verification

def mainnetChainID : Nat := 1

structure Request where
  nonce : Nat
  gasLimit : Nat
  maxFeePerGas : String
  maxPriorityFeePerGas : String
  authorization : Authorization
  deriving DecidableEq, Repr

/-- The ceilings of the boundary; one that is not set is `none`, or zero for gas. -/
structure Limits where
  maxFeePerGasWei : Option Int
  maxPriorityFeePerGasWei : Option Int
  maxGasLimit : Nat
  deriving DecidableEq, Repr

/-- `ErrInvalidRequest` and `ErrOverLimit`, with what they wrap. -/
inductive RequestError
  | invalidRequest (detail : Err)
  | overLimit (detail : Err)
  deriving DecidableEq, Repr

/-- The fee pair a request asks for. -/
def requestFees (request : Request) : Except RequestError (Int × Int) :=
  match (setString10 request.maxFeePerGas).filter (0 < ·) with
  | none => .error (.invalidRequest (.text "max fee per gas must be a positive decimal"))
  | some maxFee =>
    match (setString10 request.maxPriorityFeePerGas).filter (0 ≤ ·) with
    | none => .error (.invalidRequest (.text "max priority fee per gas must be an unsigned decimal"))
    | some priorityFee =>
      if priorityFee > maxFee then .error (.invalidRequest (.text "priority fee exceeds max fee"))
      else .ok (maxFee, priorityFee)

/-- The ceilings on the fee pair. -/
def feesWithin (maxFeePerGasWei maxPriorityFeePerGasWei : Int) (fees : Int × Int) : Except RequestError Unit :=
  if fees.1 > maxFeePerGasWei then
    .error (.overLimit (.text ("max fee " ++ toString fees.1 ++ " above " ++ toString maxFeePerGasWei)))
  else if fees.2 > maxPriorityFeePerGasWei then
    .error (.overLimit (.text ("priority fee " ++ toString fees.2 ++ " above " ++ toString maxPriorityFeePerGasWei)))
  else .ok ()

/-- All ceilings; a boundary without them signs nothing. -/
def withinLimits (limits : Limits) (gasLimit : Nat) (fees : Int × Int) : Except RequestError Unit :=
  match limits.maxFeePerGasWei, limits.maxPriorityFeePerGasWei with
  | some maxFee, some maxPriority =>
    if limits.maxGasLimit = 0 then .error (.overLimit (.text "boundary ceilings are not configured"))
    else if gasLimit > limits.maxGasLimit then
      .error (.overLimit (.text ("gas limit " ++ toString gasLimit ++ " above " ++ toString limits.maxGasLimit)))
    else feesWithin maxFee maxPriority fees
  | _, _ => .error (.overLimit (.text "boundary ceilings are not configured"))

/-- `Unsigned`. -/
def unsigned (lib : Libraries) (request : Request) (limits : Limits) : Except RequestError Unsigned :=
  if request.gasLimit = 0 then .error (.invalidRequest (.text "gas limit is required"))
  else do
    let fees ← requestFees request
    withinLimits limits request.gasLimit fees
    let calldata ← (transferWithAuthorizationData lib request.authorization).mapError .invalidRequest
    pure ⟨request.nonce, some (lib.hexToAddress mainnetUSDC), 0, request.gasLimit, calldata,
      .dynamicFee mainnetChainID fees.2.toNat fees.1.toNat []⟩

/-! ## What is built -/

variable {lib : Libraries} {request : Request} {limits : Limits} {fees : Int × Int}

theorem requestFees_ok (h : requestFees request = .ok fees) :
    setString10 request.maxFeePerGas = some fees.1 ∧ setString10 request.maxPriorityFeePerGas = some fees.2 ∧
      0 < fees.1 ∧ 0 ≤ fees.2 ∧ fees.2 ≤ fees.1 := by
  unfold requestFees at h
  split at h
  · cases h
  rename_i maxFee hmax
  split at h
  · cases h
  rename_i priorityFee hprio
  split at h
  · cases h
  · cases h
    obtain ⟨hmax, hpos⟩ := of_filter_some hmax
    obtain ⟨hprio, hnonneg⟩ := of_filter_some hprio
    exact ⟨hmax, hprio, of_decide_eq_true hpos, of_decide_eq_true hnonneg, not_lt.1 ‹_›⟩

theorem feesWithin_ok {maxFee maxPriority : Int} : feesWithin maxFee maxPriority fees = .ok () ↔
    fees.1 ≤ maxFee ∧ fees.2 ≤ maxPriority := by
  unfold feesWithin
  split
  · simp only [reduceCtorEq, false_iff, not_and]
    omega
  · split
    · simp only [reduceCtorEq, false_iff, not_and]
      omega
    · simp only [true_iff]
      omega

theorem withinLimits_ok {gasLimit : Nat} (h : withinLimits limits gasLimit fees = .ok ()) :
    ∃ maxFee maxPriority, limits.maxFeePerGasWei = some maxFee ∧ limits.maxPriorityFeePerGasWei = some maxPriority ∧
      gasLimit ≤ limits.maxGasLimit ∧ fees.1 ≤ maxFee ∧ fees.2 ≤ maxPriority := by
  unfold withinLimits at h
  split at h
  · rename_i maxFee maxPriority hfee hprio
    split at h
    · cases h
    · split at h
      · cases h
      · obtain ⟨hle, hle'⟩ := feesWithin_ok.1 h
        exact ⟨maxFee, maxPriority, hfee, hprio, not_lt.1 ‹_›, hle, hle'⟩
  · cases h

/-- The one kind of transaction the boundary builds. -/
structure Settles (lib : Libraries) (request : Request) (limits : Limits) (u : Unsigned) : Prop where
  target : u.target = some (lib.hexToAddress mainnetUSDC)
  value : u.value = 0
  data : transferWithAuthorizationData lib request.authorization = .ok u.data
  gas : u.gas ≤ limits.maxGasLimit
  body : ∃ tip cap, u.body = .dynamicFee mainnetChainID tip cap [] ∧ tip ≤ cap ∧
    ∃ maxFee maxPriority, limits.maxFeePerGasWei = some maxFee ∧ limits.maxPriorityFeePerGasWei = some maxPriority ∧
      (cap : Int) ≤ maxFee ∧ (tip : Int) ≤ maxPriority

theorem unsigned_settles {u : Unsigned} (h : unsigned lib request limits = .ok u) : Settles lib request limits u := by
  unfold unsigned at h
  split at h
  · cases h
  obtain ⟨fees, hfees, h⟩ := except_bind_ok h
  obtain ⟨_, hlimits, h⟩ := except_bind_ok h
  obtain ⟨calldata, hdata, h⟩ := except_bind_ok h
  cases h
  obtain ⟨-, -, hpos, hnonneg, hle⟩ := requestFees_ok hfees
  obtain ⟨maxFee, maxPriority, hmax, hprio, hgas, hcap, htip⟩ := withinLimits_ok hlimits
  refine ⟨rfl, rfl, except_mapError_ok hdata, hgas, _, _, rfl, by omega, maxFee, maxPriority, hmax, hprio, by
    omega, by omega⟩

end Eth402.Policy
