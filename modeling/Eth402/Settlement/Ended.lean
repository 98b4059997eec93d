/-
The lives that have ended: a final outcome, or a retired intent whose every row reverted. No move leads out of an ended
life or wakes one of its rows, and whatever nonce a dropped row of it holds was used on the chain.
-/
import Eth402.Settlement.Stable

namespace Eth402.Settlement

open Lib

variable {hash : Bytes → String} {k : Kind} {l l' : Life}

/-- Nothing is left to do for the payment. -/
def Ended (l : Life) : Prop :=
  l.state = some .confirmed ∨ l.state = some .reverted ∨ l.state = some .verificationFailed ∨
    ((l.state = some .expired ∨ l.state = some .failed) ∧ ∀ r ∈ l.rows, r.status = .reverted)

theorem not_has_of_reverted {rows : List Row} (h : ∀ r ∈ rows, r.status = .reverted) {id : Nat} {s : List TxStatus}
    (hs : TxStatus.reverted ∉ s) : ¬ Has id s rows := by
  rintro ⟨r, hr, his⟩
  exact hs (h r hr ▸ (Row.is_iff.1 his).2)

/-- A retired intent whose rows all reverted stays as it is. -/
theorem Retired.ended_move (m : Move hash k l l') (hst : l.state = some .expired ∨ l.state = some .failed)
    (hrows : ∀ r ∈ l.rows, r.status = .reverted) : l'.state = l.state ∧ ∀ r ∈ l'.rows, r.status = .reverted := by
  have hno : ∀ {id s}, TxStatus.reverted ∉ s → ¬ Has id s l.rows := not_has_of_reverted hrows
  cases m with
  | keep => exact ⟨rfl, hrows⟩
  | record | lapse | commit | send | doubt | retire | recover | resign | reorg => rcases hst with h | h <;> cases h
  | sight _ _ _ hs | replace _ _ _ _ hs | land _ _ _ hs | miss _ _ hs =>
    rcases hst with h | h <;> cases h <;> rcases hs with hs | hs <;> cases hs
  | sightAgain _ _ _ hs => rcases hst with h | h <;> cases h <;> rcases hs with hs | hs | hs <;> cases hs
  | confirm _ _ _ hs | revert _ _ _ hs | landReverted _ _ _ hs =>
    rcases hst with h | h <;> cases h <;> simp [waiting] at hs
  | sign _ _ _ _ hr | prepare _ _ _ _ hr | resolve _ _ _ hr | escalate _ _ hr => exact absurd hr (hno (by decide))
  | refill _ _ _ _ hr =>
    obtain ⟨r, hr, his, -⟩ := hr
    exact absurd ⟨r, hr, his⟩ (hno (by decide))
  | forget =>
    refine ⟨rfl, fun r' hr' => ?_⟩
    obtain ⟨r, hr, rfl⟩ := List.mem_map.1 hr'
    exact hrows r hr

theorem Ended.move (m : Move hash k l l') (h : Ended l) : Ended l' := by
  rcases h with h | h | h | ⟨h, hrows⟩
  · exact .inl (m.terminal h rfl)
  · exact .inr (.inl (m.terminal h rfl))
  · exact .inr (.inr (.inl (m.terminal h rfl)))
  · obtain ⟨hst, hrows'⟩ := Retired.ended_move m h hrows
    exact .inr (.inr (.inr ⟨hst ▸ h, hrows'⟩))

/-- The rows of an ended life: one is mined, and no row waits for anything; none, when the payment was never sent. -/
theorem Ended.rows (h : Ended l) (hshape : Shape hash l) {r : Row} (hr : r ∈ l.rows) :
    r.status ∈ [TxStatus.confirmed, .reverted, .replaced, .dropped] ∧ Main [.confirmed, .reverted] l.rows ∧
      (l.state = some .expired ∨ l.state = some .failed → r.status = .reverted) := by
  obtain ⟨state, rows⟩ := l
  rcases h with rfl | rfl | rfl | ⟨hst, hrows⟩
  · obtain ⟨⟨a, ha, has⟩, hall⟩ := hshape
    refine ⟨?_, ⟨a, ha, ?_⟩, fun h => by rcases h with h | h <;> cases h⟩
    · have := (hall r hr).1; simp at this ⊢; tauto
    · simp at has; simp [has]
  · obtain ⟨⟨a, ha, has⟩, hall⟩ := hshape
    refine ⟨?_, ⟨a, ha, ?_⟩, fun h => by rcases h with h | h <;> cases h⟩
    · have := (hall r hr).1; simp at this ⊢; tauto
    · simp at has; simp [has]
  · have hnil : rows = [] := hshape
    rw [hnil] at hr
    cases hr
  · have hrev := hrows r hr
    exact ⟨by simp [hrev], ⟨r, hr, by simp [hrev]⟩, fun _ => hrev⟩

/-! ## One nonce -/

/-- The rows of a payment are on one nonce of one signer. -/
def OneNonce (l : Life) : Prop := ∀ a ∈ l.rows, ∀ b ∈ l.rows, a.signer = b.signer ∧ a.nonce = b.nonce

/-- The first move that gives a payment a row gives it one. -/
theorem Move.rows_of_nil (m : Move hash k l l') (h : l.rows = []) : ∀ a ∈ l'.rows, ∀ b ∈ l'.rows, a = b := by
  cases m <;> simp_all [advance, mapIf, Has]

theorem OneNonce.move (m : Move hash k l l') (hshape : Shape hash l) (h : OneNonce l) : OneNonce l' := by
  intro a ha b hb
  by_cases hnil : l.rows = []
  · obtain rfl := m.rows_of_nil hnil a ha b hb
    exact ⟨rfl, rfl⟩
  · obtain ⟨a₀, ha₀, hsa, hna⟩ := (m.origin hshape a ha).resolve_left hnil
    obtain ⟨b₀, hb₀, hsb, hnb⟩ := (m.origin hshape b hb).resolve_left hnil
    obtain ⟨hs, hn⟩ := h a₀ ha₀ b₀ hb₀
    exact ⟨by rw [hsa, hsb, hs], by rw [hna, hnb, hn]⟩

end Eth402.Settlement
