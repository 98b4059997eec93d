/-
The payment state machine (internal/settlement/state.go): the states of a payment record and the
edges between them.
-/
import Mathlib.Tactic.Common

namespace Eth402.Settlement

/-- The state of a payment; `text` is the constant the source gives it. -/
inductive State
  | received
  | verificationFailed
  | verified
  | broadcasting
  | broadcast
  | confirming
  | confirmed
  | failed
  | reverted
  | replaced
  | expired
  | manualReview
  deriving DecidableEq, Repr

def State.text : State → String
  | .received => "received"
  | .verificationFailed => "verification_failed"
  | .verified => "verified"
  | .broadcasting => "broadcasting"
  | .broadcast => "broadcast"
  | .confirming => "confirming"
  | .confirmed => "confirmed"
  | .failed => "failed"
  | .reverted => "reverted"
  | .replaced => "replaced"
  | .expired => "expired"
  | .manualReview => "manual_review"

/-- The edges out of each state. A state that is no key of the source's map has none. -/
def transitions : State → List State
  | .received => [.verificationFailed, .verified, .expired, .manualReview]
  | .verified => [.broadcasting, .expired, .manualReview]
  | .broadcasting => [.broadcast, .failed, .expired, .manualReview]
  | .broadcast => [.confirming, .confirmed, .reverted, .replaced, .manualReview]
  | .confirming => [.broadcast, .confirmed, .reverted, .replaced, .manualReview]
  | .replaced => [.confirming, .confirmed, .reverted, .manualReview]
  -- expired is otherwise terminal: a gap filler that succeeds contradicts the expiry judgement
  | .expired => [.manualReview]
  | .manualReview => [.verified, .broadcast, .confirming, .replaced, .failed, .expired]
  | .verificationFailed | .confirmed | .failed | .reverted => []

def canTransition (source target : State) : Bool := target ∈ transitions source

theorem canTransition_broadcasting (s : State) : canTransition s .broadcasting = true ↔ s = .verified := by
  cases s <;> decide

end Eth402.Settlement
