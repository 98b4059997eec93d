/-
When a replacement can be paid for (internal/settlement/fees.go): a bump succeeds exactly when the ceiling leaves room
for 110% of both old fees, and then outbids both; since each bump raises the fee cap, a ceiling allows only so many of
them.
-/
import Eth402.Settlement.Fees
import Mathlib.Data.Rat.Floor
import Mathlib.Tactic.Linarith

namespace Eth402.Settlement

variable {oldMaxFee oldTip baseFee ceiling : Int}

/-- The tip a bump aims at: 12.5% more, at least 110%, and at least one more. -/
def bumpedTip (oldTip : Int) : Int := max (max (oldTip * 9 / 8) (minBump oldTip)) (oldTip + 1)

/-- `minBump` is 110%, rounded up. -/
theorem ceil_eq_minBump (n : Int) : ⌈(11 / 10 : ℚ) * n⌉ = minBump n := by
  have hlow : n * 11 ≤ minBump n * 10 := by
    unfold minBump
    omega
  have hhigh : (minBump n - 1) * 10 < n * 11 := by
    unfold minBump
    omega
  have hlow' : (n : ℚ) * 11 ≤ minBump n * 10 := by exact_mod_cast hlow
  have hhigh' : ((minBump n : ℚ) - 1) * 10 < n * 11 := by exact_mod_cast hhigh
  rw [Int.ceil_eq_iff]
  constructor <;> linarith

theorem bumpFees_eq (hbase : 0 ≤ baseFee) (hceil : 0 < ceiling) (hfee : 0 < oldMaxFee) (htip : 0 ≤ oldTip) :
    bumpFees oldMaxFee oldTip baseFee ceiling =
      if minBump oldMaxFee ≤ ceiling ∧ minBump oldTip ≤ ceiling then
        some (max (min (baseFee * 2 + bumpedTip oldTip) ceiling) (minBump oldMaxFee), min (bumpedTip oldTip) ceiling)
      else none := by
  have hpos : 0 < bumpedTip oldTip := by
    unfold bumpedTip
    omega
  have hmin : minBump oldTip ≤ bumpedTip oldTip := by
    unfold bumpedTip
    omega
  -- the estimate: its fee cap is above the tip it is made for, unless the ceiling cuts both
  have hest : estimateFeesFrom baseFee (bumpedTip oldTip) ceiling =
      .ok (min (baseFee * 2 + bumpedTip oldTip) ceiling, min (bumpedTip oldTip) ceiling) := by
    unfold estimateFeesFrom
    rw [if_neg (by omega), if_neg (by omega)]
    simp only
    rw [if_neg (by omega)]
    congr 2
    omega
  unfold bumpFees
  rw [if_neg (by omega)]
  simp only
  rw [show max (max (oldTip * 9 / 8) (minBump oldTip)) (oldTip + 1) = bumpedTip oldTip from rfl, hest]
  simp only
  by_cases hroom : minBump oldMaxFee ≤ ceiling
  · rw [if_neg (by omega)]
    have htop : min (min (bumpedTip oldTip) ceiling)
        (max (min (baseFee * 2 + bumpedTip oldTip) ceiling) (minBump oldMaxFee)) = min (bumpedTip oldTip) ceiling := by
      omega
    rw [htop]
    by_cases hroom' : minBump oldTip ≤ ceiling
    · rw [if_neg (by omega), if_pos ⟨hroom, hroom'⟩]
    · rw [if_pos (by omega), if_neg (fun h => hroom' h.2)]
  · rw [if_pos (by omega), if_neg (fun h => hroom h.1)]

theorem usable_of_bump {fees : Int × Int} (h : bumpFees oldMaxFee oldTip baseFee ceiling = some fees) :
    0 < oldMaxFee ∧ 0 ≤ oldTip ∧ 0 ≤ baseFee ∧ 0 < ceiling := by
  unfold bumpFees at h
  split at h
  · cases h
  rename_i hold
  simp only at h
  split at h
  · cases h
  rename_i hest
  unfold estimateFeesFrom at hest
  split at hest
  · cases hest
  split at hest
  · cases hest
  omega

theorem bump_raises {fees : Int × Int} (h : bumpFees oldMaxFee oldTip baseFee ceiling = some fees) :
    0 < oldMaxFee ∧ oldMaxFee < fees.1 ∧ fees.1 ≤ ceiling := by
  obtain ⟨hfee, htip, hbase, hceil⟩ := usable_of_bump h
  rw [bumpFees_eq hbase hceil hfee htip] at h
  split at h
  · rename_i hroom
    cases h
    have hmore : oldMaxFee < minBump oldMaxFee := by
      unfold minBump
      omega
    refine ⟨hfee, ?_, ?_⟩ <;> simp only <;> omega
  · cases h

/-- A chain of bumps has raised the fee cap by at least one each time. -/
theorem chain_raises {fees : ℕ → Int × Int} {base : ℕ → Int} {n : ℕ}
    (h : ∀ i < n, bumpFees (fees i).1 (fees i).2 (base i) ceiling = some (fees (i + 1))) :
    (fees 0).1 + n ≤ (fees n).1 := by
  induction n with
  | zero => simp
  | succ n ih =>
    have hbefore := ih fun i hi => h i (by omega)
    obtain ⟨-, hmore, -⟩ := bump_raises (h n (by omega))
    push_cast
    omega

/-- For usable fees and a usable ceiling a bump succeeds exactly when the ceiling reaches 110% of the old fee cap and of
the old tip; it then returns at least that for both, a tip above the old one, and a fee cap between the tip and the
ceiling. And under one ceiling no chain of bumps, whatever the base fees, is longer than the ceiling. -/
theorem bumps_exact_and_finite (ceiling : Int) :
    (∀ oldMaxFee oldTip baseFee, 0 ≤ baseFee → 0 < ceiling → 0 < oldMaxFee → 0 ≤ oldTip →
      ((bumpFees oldMaxFee oldTip baseFee ceiling).isSome = true ↔
        ⌈(11 / 10 : ℚ) * oldMaxFee⌉ ≤ ceiling ∧ ⌈(11 / 10 : ℚ) * oldTip⌉ ≤ ceiling) ∧
      ∀ maxFee tip, bumpFees oldMaxFee oldTip baseFee ceiling = some (maxFee, tip) →
        (11 / 10 : ℚ) * oldMaxFee ≤ maxFee ∧ (11 / 10 : ℚ) * oldTip ≤ tip ∧ oldTip < tip ∧ tip ≤ maxFee ∧
          maxFee ≤ ceiling) ∧
    ∀ (fees : ℕ → Int × Int) (baseFee : ℕ → Int) (n : ℕ),
      (∀ i < n, bumpFees (fees i).1 (fees i).2 (baseFee i) ceiling = some (fees (i + 1))) → n ≤ ceiling.toNat := by
  constructor
  · intro oldMaxFee oldTip baseFee hbase hceil hfee htip
    rw [ceil_eq_minBump, ceil_eq_minBump, bumpFees_eq hbase hceil hfee htip]
    refine ⟨by split <;> simp_all, fun maxFee tip h => ?_⟩
    split at h
    · rename_i hroom
      cases h
      have hfloor : minBump oldMaxFee ≤ max (min (baseFee * 2 + bumpedTip oldTip) ceiling) (minBump oldMaxFee) := by
        omega
      have htipFloor : minBump oldTip ≤ min (bumpedTip oldTip) ceiling := by
        unfold bumpedTip
        omega
      refine ⟨Int.le_ceil _ |>.trans ?_, Int.le_ceil _ |>.trans ?_, ?_, ?_, ?_⟩
      · rw [ceil_eq_minBump]
        exact_mod_cast hfloor
      · rw [ceil_eq_minBump]
        exact_mod_cast htipFloor
      · -- the ceiling is above the old tip: it reaches 110% of it, and is positive when the tip is zero
        unfold bumpedTip minBump at *
        omega
      · unfold bumpedTip at *
        omega
      · omega
    · cases h
  · intro fees baseFee n h
    cases n with
    | zero => exact Nat.zero_le _
    | succ n =>
      have hchain := chain_raises h
      obtain ⟨hfirst, -, -⟩ := bump_raises (h 0 (by omega))
      obtain ⟨-, -, hlast⟩ := bump_raises (h n (by omega))
      push_cast at hchain
      omega

/-- A fee cap of 100 and a tip of 10 need a ceiling of 110. -/
theorem bumps_exact_sample : bumpFees 100 10 50 110 = some (110, 11) ∧ bumpFees 100 10 50 109 = none ∧
    ⌈(11 / 10 : ℚ) * (100 : Int)⌉ ≤ 110 := by
  have h : bumpFees 100 10 50 110 = some (110, 11) := by decide
  have hexact := ((bumps_exact_and_finite 110).1 100 10 50 (by decide) (by decide) (by decide) (by decide)).1
  rw [h] at hexact
  exact ⟨h, by decide, (hexact.1 rfl).1⟩

end Eth402.Settlement
