/-
The facilitator's fees against the boundary's ceilings. The first pair of a transaction keeps both ceilings. A
replacement raises the tip above the one it replaces and is capped by the fee ceiling only, while the first tip is
already the configured one: every replacement is above the boundary's ceiling on tips.
-/
import Eth402.Policy.Unsigned
import Eth402.Settlement.Worker

namespace Eth402.Policy

open Lib Settlement

/-- The fee pairs of one transaction and its replacements, the latest first. -/
inductive FeeChain (cfg : Config) : List (Int × Int) → Prop
  | estimate {block : Block} {fees : Int × Int} (h : initialFees cfg block = .ok fees) : FeeChain cfg [fees]
  | bump {block : Block} {old fees : Int × Int} {chain : List (Int × Int)} (hchain : FeeChain cfg (old :: chain))
      (h : bumpedFees cfg old.1 old.2 block = .ok (some fees)) : FeeChain cfg (fees :: old :: chain)

/-- A request with these fees passes the fee checks of `Unsigned` under the ceilings. -/
def FeesPass (maxFee maxPriority : Int) (fees : Int × Int) : Prop :=
  ∀ request : Request, request.maxFeePerGas = toString fees.1 → request.maxPriorityFeePerGas = toString fees.2 →
    requestFees request = .ok fees ∧ feesWithin maxFee maxPriority fees = .ok ()

theorem feesPass_iff {maxFee maxPriority : Int} {fees : Int × Int} (hfee : 0 < fees.1) (htip : 0 ≤ fees.2)
    (hle : fees.2 ≤ fees.1) : FeesPass maxFee maxPriority fees ↔ fees.1 ≤ maxFee ∧ fees.2 ≤ maxPriority := by
  constructor
  · intro h
    exact feesWithin_ok.1 (h ⟨0, 0, toString fees.1, toString fees.2, ⟨"", "", "", "", "", "", ""⟩⟩ rfl rfl).2
  · intro hwithin request hmax hprio
    refine ⟨?_, feesWithin_ok.2 hwithin⟩
    have hdecimal : ∀ n : Int, 0 ≤ n → setString10 (toString n) = some n := by
      intro n hn
      obtain ⟨m, rfl⟩ := Int.eq_ofNat_of_zero_le hn
      exact setString10_natCast m
    unfold requestFees
    rw [hmax, hprio, hdecimal _ (le_of_lt hfee), hdecimal _ htip, Option.filter_some, Option.filter_some,
      if_pos (decide_eq_true hfee), if_pos (decide_eq_true htip)]
    exact if_neg (not_lt.2 hle)

/-! ## Estimates and bumps -/

theorem estimateFeesFrom_ok {baseFee tipCap ceiling : Int} {fees : Int × Int}
    (h : estimateFeesFrom baseFee tipCap ceiling = .ok fees) :
    0 < fees.1 ∧ fees.1 ≤ ceiling ∧ 0 ≤ tipCap ∧ fees.2 = min tipCap fees.1 ∧ (fees.1 < tipCap → fees.1 = ceiling) := by
  unfold estimateFeesFrom at h
  split at h
  · cases h
  split at h
  · cases h
  simp only at h
  split at h
  · cases h
  · cases h
    omega

theorem bumpFees_some {oldMaxFee oldTip baseFee ceiling : Int} {fees : Int × Int}
    (h : bumpFees oldMaxFee oldTip baseFee ceiling = some fees) :
    oldMaxFee < fees.1 ∧ fees.1 ≤ ceiling ∧ oldTip < fees.2 ∧ fees.2 ≤ fees.1 := by
  unfold bumpFees at h
  split at h
  · cases h
  rename_i hold
  simp only at h
  split at h
  · cases h
  rename_i estimate priority hest
  obtain ⟨hpos, hceil, hnonneg, hprio, -⟩ := estimateFeesFrom_ok hest
  simp only at hpos hceil hprio
  split at h
  · cases h
  split at h
  · cases h
  · cases h
    unfold minBump at *
    omega

theorem initialFees_ok {cfg : Config} {block : Block} {fees : Int × Int} (h : initialFees cfg block = .ok fees) :
    ∃ baseFee tip ceiling, setString10 cfg.maxPriorityFeeGas = some tip ∧ setString10 cfg.maxFeePerGas = some ceiling ∧
      estimateFeesFrom baseFee tip ceiling = .ok fees := by
  unfold initialFees at h
  split at h
  · cases h
  · cases h
  · cases h
  · exact ⟨_, _, _, ‹_›, ‹_›, h⟩

theorem bumpedFees_some {cfg : Config} {block : Block} {oldMax oldTip : Int} {fees : Int × Int}
    (h : bumpedFees cfg oldMax oldTip block = .ok (some fees)) :
    ∃ baseFee ceiling, setString10 cfg.maxFeePerGas = some ceiling ∧
      bumpFees oldMax oldTip baseFee ceiling = some fees := by
  unfold bumpedFees at h
  split at h
  · cases h
  · cases h
  · exact ⟨_, _, ‹_›, Except.ok.inj h⟩

/-! ## The chain -/

variable {cfg : Config} {ceiling priority : Int}

/-- The latest pair is a usable one under the ceiling on fees, and either its fee is that ceiling or its tip is at least
the configured one, above it once the pair is a replacement. -/
theorem FeeChain.head {fees : Int × Int} {rest : List (Int × Int)} (hF : setString10 cfg.maxFeePerGas = some ceiling)
    (hP : setString10 cfg.maxPriorityFeeGas = some priority) (h : FeeChain cfg (fees :: rest)) :
    (0 < fees.1 ∧ fees.1 ≤ ceiling ∧ 0 ≤ fees.2 ∧ fees.2 ≤ fees.1) ∧ (fees.1 = ceiling ∨ priority ≤ fees.2) ∧
      (rest = [] → fees.2 ≤ priority) ∧ (rest ≠ [] → priority < fees.2) := by
  generalize hchain : fees :: rest = chain at h
  induction h generalizing fees rest with
  | @estimate block fees' h =>
    cases hchain
    obtain ⟨baseFee, tip, c, htip, hc, hest⟩ := initialFees_ok h
    cases hF.symm.trans hc
    cases hP.symm.trans htip
    obtain ⟨hpos, hle, hnonneg, hprio, hfull⟩ := estimateFeesFrom_ok hest
    refine ⟨⟨hpos, hle, by omega, by omega⟩, ?_, fun _ => by omega, fun h => absurd rfl h⟩
    by_cases hlt : fees'.1 < priority
    · exact .inl (hfull hlt)
    · exact .inr (by omega)
  | @bump block old fees' chain hold h ih =>
    cases hchain
    obtain ⟨baseFee, c, hc, hbump⟩ := bumpedFees_some h
    cases hF.symm.trans hc
    obtain ⟨hmore, hle, htip, hle'⟩ := bumpFees_some hbump
    obtain ⟨⟨hpos, -, hnonneg, -⟩, hfull, -⟩ := ih rfl
    -- a pair at the ceiling on fees is not replaced
    have hat : priority ≤ old.2 := hfull.resolve_left (by omega)
    refine ⟨⟨by omega, hle, by omega, hle'⟩, .inr (by omega), fun h => ?_, fun _ => by omega⟩
    cases h

/-- Under the ceilings the facilitator is configured with, all pairs of a chain pass the boundary's checks exactly when
the chain is the estimate alone. -/
theorem fee_chain_passes_iff {chain : List (Int × Int)} (hF : setString10 cfg.maxFeePerGas = some ceiling)
    (hP : setString10 cfg.maxPriorityFeeGas = some priority) (h : FeeChain cfg chain) :
    (∀ fees ∈ chain, FeesPass ceiling priority fees) ↔ chain.length = 1 := by
  obtain ⟨fees, rest, rfl⟩ : ∃ fees rest, chain = fees :: rest := by cases h <;> exact ⟨_, _, rfl⟩
  obtain ⟨⟨hpos, hle, hnonneg, hle'⟩, -, hfirst, hlater⟩ := h.head hF hP
  have hpass : FeesPass ceiling priority fees ↔ fees.1 ≤ ceiling ∧ fees.2 ≤ priority := feesPass_iff hpos hnonneg hle'
  constructor
  · intro hall
    have hunder := (hpass.1 (hall fees (List.mem_cons_self ..))).2
    by_contra hlen
    have hne : rest ≠ [] := by
      rintro rfl
      exact hlen rfl
    have := hlater hne
    omega
  · intro hlen
    obtain rfl : rest = [] := List.length_eq_zero_iff.1 (by simpa using hlen)
    intro x hx
    obtain rfl := List.mem_singleton.1 hx
    exact hpass.2 ⟨hle, hfirst rfl⟩

/-- A ceiling of 90 on fees and of 10 on tips. -/
def sampleFees : Config where
  signerAddress := ""
  expiryMargin := 0
  merchantQuota := 0
  globalQuota := 0
  quotaWindow := 0
  leaseDuration := 0
  confirmations := 1
  gasLimit := 1
  maxFeePerGas := "90"
  maxPriorityFeeGas := "10"
  recoveryGrace := 0
  replacementAfter := 0
  responseWait := 0
  confirmations_pos := by decide

theorem sampleFees_estimate : FeeChain sampleFees [(50, 10)] :=
  .estimate (show initialFees sampleFees ⟨"", "20"⟩ = .ok (50, 10) by decide +kernel)

theorem fee_chain_passes_iff_sample : FeeChain sampleFees [(50, 10)] ∧
    ∀ fees ∈ [((50 : Int), (10 : Int))], FeesPass 90 10 fees :=
  ⟨sampleFees_estimate, (fee_chain_passes_iff (by decide +kernel) (by decide +kernel) sampleFees_estimate).2 rfl⟩

/-- The replacement raises the tip to 11, which the boundary refuses. -/
theorem replacement_over_tip_ceiling : FeeChain sampleFees [(55, 11), (50, 10)] ∧ ¬ FeesPass 90 10 (55, 11) := by
  have hbump : bumpedFees sampleFees 50 10 ⟨"", "20"⟩ = .ok (some (55, 11)) := by decide +kernel
  refine ⟨.bump sampleFees_estimate hbump, fun h => ?_⟩
  have hpass := (feesPass_iff (by decide) (by decide) (by decide)).1 h
  exact absurd hpass.2 (by decide)

end Eth402.Policy
