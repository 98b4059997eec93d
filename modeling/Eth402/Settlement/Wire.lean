/-
The two calldata builders side by side: the settlement service packs the authorization it stores, the policy boundary
the wire form of it, which it parses itself. Both come down to one packing of the same words (`packed`), and the
boundary refuses in addition a window that is not one.
-/
import Eth402.Policy.Words

namespace Eth402.Settlement

open Lib Verification

variable {lib : Libraries} {auth : Authorization} {bytes : Bytes}

/-- The calldata of an authorization whose window is given in seconds. -/
def packed (lib : Libraries) (auth : Authorization) (after before : Int) : Option Bytes := do
  if ¬ lib.isHexAddress auth.source ∨ ¬ lib.isHexAddress auth.target then none
  let value ← (setString10 auth.value).filter (· > 0)
  let nonce ← (Policy.decodeFixed32 auth.nonce).toOption
  let (v, r, s) ← (Policy.splitSignature auth.signature).toOption
  (lib.packTransferWithAuthorization
    ⟨lib.hexToAddress auth.source, lib.hexToAddress auth.target, value, after, before, nonce, v, r, s⟩).toOption

theorem toOption_mapError {ε ε' α : Type} (f : ε → ε') (x : Except ε α) : (x.mapError f).toOption = x.toOption := by
  cases x <;> rfl

theorem toOption_bind {ε α β : Type} (x : Except ε α) (f : α → Except ε β) :
    (x >>= f).toOption = x.toOption.bind fun a => (f a).toOption := by
  cases x <;> rfl

theorem settlement_packs (lib : Libraries) (auth : Authorization) :
    (transferWithAuthorizationData lib auth).toOption =
      packed lib auth (unixSeconds auth.validAfter) (unixSeconds auth.validBefore) := by
  unfold transferWithAuthorizationData packed
  by_cases haddress : ¬ lib.isHexAddress auth.source ∨ ¬ lib.isHexAddress auth.target
  · rw [if_pos haddress, if_pos haddress]
    rfl
  · rw [if_neg haddress, if_neg haddress]
    cases (setString10 auth.value).filter (· > 0) with
    | none => rfl
    | some value =>
      simp only [toOption_bind, toOption_mapError, decodeFixed32, splitSignature]
      rfl

/-- A second is read back from the wire when it fits and passes the check. -/
theorem filter_parseInt64 (n : Int) (w : Int → Bool) :
    (parseInt64 (toString n)).filter w = if (-2 ^ 63 ≤ n ∧ n < 2 ^ 63) ∧ w n = true then some n else none := by
  rw [parseInt64_toString]
  by_cases hfits : -2 ^ 63 ≤ n ∧ n < 2 ^ 63
  · rw [if_pos hfits, Option.filter_some]
    simp only [hfits, true_and]
  · rw [if_neg hfits, if_neg fun h => hfits h.1]
    rfl

/-- The boundary packs the same, when it can read the window and the window is one. -/
theorem policy_packs (lib : Libraries) (auth : Authorization) :
    (Policy.transferWithAuthorizationData lib auth.wire).toOption =
      if 0 ≤ unixSeconds auth.validAfter ∧ unixSeconds auth.validAfter < unixSeconds auth.validBefore ∧
          unixSeconds auth.validBefore < 2 ^ 63 then
        packed lib auth (unixSeconds auth.validAfter) (unixSeconds auth.validBefore)
      else none := by
  have hafter := filter_parseInt64 (unixSeconds auth.validAfter) (0 ≤ ·)
  have hbefore := filter_parseInt64 (unixSeconds auth.validBefore) (unixSeconds auth.validAfter < ·)
  unfold Policy.transferWithAuthorizationData packed Authorization.wire
  generalize unixSeconds auth.validAfter = after at *
  generalize unixSeconds auth.validBefore = before at *
  simp only [decide_eq_true_eq] at hafter hbefore
  by_cases haddress : ¬ lib.isHexAddress auth.source ∨ ¬ lib.isHexAddress auth.target
  · rw [if_pos haddress, if_pos haddress]
    split <;> rfl
  · rw [if_neg haddress, if_neg haddress]
    cases (setString10 auth.value).filter (· > 0) with
    | none =>
      simp only
      by_cases hwindow : 0 ≤ after ∧ after < before ∧ before < 2 ^ 63
      · rw [if_pos hwindow]
        rfl
      · rw [if_neg hwindow]
        rfl
    | some value =>
      simp only
      by_cases hwindow : 0 ≤ after ∧ after < before ∧ before < 2 ^ 63
      · rw [if_pos ⟨by omega, hwindow.1⟩] at hafter
        rw [if_pos ⟨by omega, hwindow.2.1⟩] at hbefore
        rw [if_pos hwindow, hafter]
        simp only [hbefore, toOption_bind, toOption_mapError]
        rfl
      · rw [if_neg hwindow, hafter]
        by_cases hfits : (-2 ^ 63 ≤ after ∧ after < 2 ^ 63) ∧ 0 ≤ after
        · rw [if_pos hfits]
          simp only
          rw [hbefore, if_neg (by omega)]
          rfl
        · rw [if_neg hfits]
          rfl

/-- For every authorization (`Time.Unix` is an `int64`, so the seconds of its window are below 2^63): what the boundary
builds from the wire form the settlement service builds too, and what the service builds the boundary builds when the
window begins at the epoch or later and ends after it begins. -/
theorem builders_agree (lib : Libraries) (auth : Authorization) (htime : unixSeconds auth.validBefore < 2 ^ 63) :
    (∀ bytes, Policy.transferWithAuthorizationData lib auth.wire = .ok bytes →
      transferWithAuthorizationData lib auth = .ok bytes) ∧
    ∀ bytes, transferWithAuthorizationData lib auth = .ok bytes → 0 ≤ unixSeconds auth.validAfter →
      unixSeconds auth.validAfter < unixSeconds auth.validBefore →
        Policy.transferWithAuthorizationData lib auth.wire = .ok bytes := by
  have hsettlement := settlement_packs lib auth
  have hpolicy := policy_packs lib auth
  constructor
  · intro bytes h
    rw [h] at hpolicy
    split at hpolicy
    · refine toOption_ok.1 ?_
      rw [hsettlement, ← hpolicy]
      rfl
    · cases hpolicy
  · intro bytes h hnonneg hlater
    rw [if_pos ⟨hnonneg, hlater, htime⟩, ← hsettlement, h] at hpolicy
    exact toOption_ok.1 hpolicy

/-- The payment of 1 that the boundary's sample states. -/
def storedAuthorization : Authorization :=
  ⟨Policy.hexDigits 40 '1', Policy.hexDigits 40 '2', "1", 0, 1000000, Policy.hexDigits 64 'a',
    Policy.hexDigits 128 'b' ++ "00"⟩

theorem builders_agree_sample : transferWithAuthorizationData Policy.policyLib storedAuthorization =
    .ok Policy.sampleCalldata ∧
    Policy.transferWithAuthorizationData Policy.policyLib storedAuthorization.wire = .ok Policy.sampleCalldata := by
  have hbuilt : transferWithAuthorizationData Policy.policyLib storedAuthorization = .ok Policy.sampleCalldata := by
    decide +kernel
  exact ⟨hbuilt, (builders_agree Policy.policyLib storedAuthorization (by decide)).2 _ hbuilt (by decide) (by decide)⟩

end Eth402.Settlement
