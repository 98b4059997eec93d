/-
Fee estimation (internal/settlement/fees.go). Fees stay inside the operator's ceiling: estimation only
avoids overpaying beneath it and leaves headroom for replacement bumps.
-/
import Eth402.Settlement.Types

namespace Eth402.Settlement

/-- `EstimateFees`: twice the base fee plus the tip, capped by the ceiling, and the tip capped by that. -/
def estimateFeesFrom (baseFee tipCap ceiling : Int) : Except Err (Int × Int) :=
  if ceiling ≤ 0 then .error (.text "fee ceiling must be positive")
  else if baseFee < 0 ∨ tipCap < 0 then .error (.text "base fee and tip must be unsigned")
  else
    let maxFee := min (baseFee * 2 + tipCap) ceiling
    if maxFee = 0 then
      .error (.text ("base fee " ++ toString baseFee ++ " and tip " ++ toString tipCap ++
        " produce a zero max fee"))
    else .ok (maxFee, min tipCap maxFee)

/-- `minBump`: the smallest integer at least 110% of `n`. -/
def minBump (n : Int) : Int := (n * 11 + 9) / 10

/-- `BumpFees`: the fee pair of a replacement, or `none` when the ceiling leaves no room for the
mempool's price-bump rule. -/
def bumpFees (oldMaxFee oldTip baseFee ceiling : Int) : Option (Int × Int) :=
  if oldMaxFee ≤ 0 ∨ oldTip < 0 then none
  else
    let minTip := minBump oldTip
    let bumpedTip := max (max (oldTip * 9 / 8) minTip) (oldTip + 1)
    match estimateFeesFrom baseFee bumpedTip ceiling with
    | .error _ => none
    | .ok (estimate, priority) =>
      let minFee := minBump oldMaxFee
      -- an estimate that does not outbid the original is raised to the floor, if the ceiling allows
      if estimate < minFee ∧ ceiling < minFee then none
      else
        let maxFee := max estimate minFee
        let tip := min priority maxFee
        if tip < minTip ∨ maxFee < minFee then none else some (maxFee, tip)

end Eth402.Settlement
