/-
Numbers given out from sequences: each sequence has the next number it will give, and each owner holds the
numbers it was given. A sequence may be started anywhere and raised; an owner is given one number, once.
`Sound` says that no number has two owners and no owner two numbers; `Covered` that every number below the
next one is owned or was jumped over. Each kind of step keeps both.
-/
import Mathlib.Tactic.Common

namespace Eth402.Lib

variable {σ π : Type}

structure Ledger (σ π : Type) where
  next : σ → Option Nat
  owns : π → σ → Nat → Prop

namespace Ledger

structure Same (l l' : Ledger σ π) : Prop where
  next : ∀ a, l'.next a = l.next a
  owns : ∀ p a n, l'.owns p a n ↔ l.owns p a n

/-- The owner `p`, that holds nothing, is given the next number of `a`. -/
structure Allocates [DecidableEq σ] (p : π) (a : σ) (n : Nat) (l l' : Ledger σ π) : Prop where
  free : ∀ b m, ¬ l.owns p b m
  from_next : l.next a = some n
  next : ∀ b, l'.next b = if b = a then some (n + 1) else l.next b
  owns : ∀ q b m, l'.owns q b m ↔ l.owns q b m ∨ (q = p ∧ b = a ∧ m = n)

/-- The sequence `a` is started at `n`, or raised to it. -/
structure Raises [DecidableEq σ] (a : σ) (n : Nat) (l l' : Ledger σ π) : Prop where
  up : ∀ m, l.next a = some m → m ≤ n
  next : ∀ b, l'.next b = if b = a then some n else l.next b
  owns : ∀ p b m, l'.owns p b m ↔ l.owns p b m

structure Sound (l : Ledger σ π) : Prop where
  owner : ∀ p q a n, l.owns p a n → l.owns q a n → p = q
  number : ∀ p a b n m, l.owns p a n → l.owns p b m → a = b ∧ n = m
  below : ∀ p a n, l.owns p a n → ∃ next, l.next a = some next ∧ n < next

/-- From the first number on, every number below the next one is owned or was jumped over. -/
def Covered (first jumped : σ → Nat → Prop) (l : Ledger σ π) : Prop :=
  ∀ a next, l.next a = some next →
    ∃ v, first a v ∧ ∀ n, v ≤ n → n < next → (∃ p, l.owns p a n) ∨ jumped a n

variable {l l' : Ledger σ π} {first jumped first' jumped' : σ → Nat → Prop}

theorem Same.sound (h : Same l l') (hs : Sound l) : Sound l' where
  owner p q a n hp hq := hs.owner p q a n ((h.owns p a n).1 hp) ((h.owns q a n).1 hq)
  number p a b n m ha hb := hs.number p a b n m ((h.owns p a n).1 ha) ((h.owns p b m).1 hb)
  below p a n hp := by rw [h.next]; exact hs.below p a n ((h.owns p a n).1 hp)

/-- What was covered stays so where numbers stay owned. -/
theorem Covered.keep (hc : Covered first jumped l) (hf : ∀ a v, first a v → first' a v)
    (hj : ∀ a n, jumped a n → jumped' a n) (ho : ∀ p a n, l.owns p a n → l'.owns p a n) (b : σ) (next : Nat)
    (hb : l.next b = some next) :
    ∃ v, first' b v ∧ ∀ m, v ≤ m → m < next → (∃ q, l'.owns q b m) ∨ jumped' b m := by
  obtain ⟨v, hv, hall⟩ := hc b next hb
  refine ⟨v, hf b v hv, fun m hle hlt => (hall m hle hlt).imp ?_ (hj b m)⟩
  rintro ⟨q, hq⟩
  exact ⟨q, ho q b m hq⟩

theorem Same.covered (h : Same l l') (hc : Covered first jumped l) (hf : ∀ a v, first a v → first' a v)
    (hj : ∀ a n, jumped a n → jumped' a n) : Covered first' jumped' l' := by
  intro a next hnext
  rw [h.next] at hnext
  exact hc.keep hf hj (fun p a n hp => (h.owns p a n).2 hp) a next hnext

section
variable [DecidableEq σ] {p : π} {a : σ} {n : Nat}

theorem Allocates.sound (h : Allocates p a n l l') (hs : Sound l) : Sound l' := by
  -- the number given is the next one, so nobody holds it yet
  have hfresh : ∀ q, ¬ l.owns q a n := fun q hq => by
    obtain ⟨next, hnext, hlt⟩ := hs.below q a n hq
    rw [h.from_next] at hnext
    cases hnext
    omega
  refine ⟨fun q r b m hq hr => ?_, fun q b c m k hb hc => ?_, fun q b m hq => ?_⟩
  · rcases (h.owns q b m).1 hq with hq | ⟨hq, hb, hm⟩ <;> rcases (h.owns r b m).1 hr with hr | ⟨hr, hb', hm'⟩
    · exact hs.owner q r b m hq hr
    · rw [hb', hm'] at hq; exact absurd hq (hfresh q)
    · rw [hb, hm] at hr; exact absurd hr (hfresh r)
    · rw [hq, hr]
  · rcases (h.owns q b m).1 hb with hb | ⟨hq, hb, hm⟩ <;> rcases (h.owns q c k).1 hc with hc | ⟨hq', hc, hk⟩
    · exact hs.number q b c m k hb hc
    · rw [hq'] at hb; exact absurd hb (h.free b m)
    · rw [hq] at hc; exact absurd hc (h.free c k)
    · exact ⟨hb.trans hc.symm, hm.trans hk.symm⟩
  · rw [h.next]
    rcases (h.owns q b m).1 hq with hq | ⟨rfl, rfl, rfl⟩
    · obtain ⟨next, hnext, hlt⟩ := hs.below q b m hq
      split
      · subst b
        rw [h.from_next] at hnext
        cases hnext
        exact ⟨n + 1, rfl, by omega⟩
      · exact ⟨next, hnext, hlt⟩
    · exact ⟨m + 1, if_pos rfl, by omega⟩

theorem Allocates.covered (h : Allocates p a n l l') (hc : Covered first jumped l) (hf : ∀ a v, first a v → first' a v)
    (hj : ∀ a n, jumped a n → jumped' a n) : Covered first' jumped' l' := by
  have keep := hc.keep hf hj fun q b m hq => (h.owns q b m).2 (.inl hq)
  intro b next hnext
  rw [h.next] at hnext
  split at hnext
  · subst b
    cases hnext
    obtain ⟨v, hv, hall⟩ := keep a n h.from_next
    refine ⟨v, hv, fun m hle hlt => ?_⟩
    by_cases hm : m = n
    · exact .inl ⟨p, (h.owns p a m).2 (.inr ⟨rfl, rfl, hm⟩)⟩
    · exact hall m hle (by omega)
  · exact keep b next hnext

theorem Raises.sound (h : Raises a n l l') (hs : Sound l) : Sound l' where
  owner p q b m hp hq := hs.owner p q b m ((h.owns p b m).1 hp) ((h.owns q b m).1 hq)
  number p b c m k hb hc := hs.number p b c m k ((h.owns p b m).1 hb) ((h.owns p c k).1 hc)
  below p b m hp := by
    obtain ⟨next, hnext, hlt⟩ := hs.below p b m ((h.owns p b m).1 hp)
    rw [h.next]
    split
    · subst b
      have := h.up next hnext
      exact ⟨n, rfl, by omega⟩
    · exact ⟨next, hnext, hlt⟩

/-- A sequence that is started begins its first numbers; one that is raised jumps over the rest. -/
theorem Raises.covered (h : Raises a n l l') (hc : Covered first jumped l) (hf : ∀ a v, first a v → first' a v)
    (hj : ∀ a n, jumped a n → jumped' a n) (hstart : l.next a = none → first' a n)
    (hjump : ∀ m, l.next a = some m → ∀ k, m ≤ k → k < n → jumped' a k) : Covered first' jumped' l' := by
  have keep := hc.keep hf hj fun q b m hq => (h.owns q b m).2 hq
  intro b next hnext
  rw [h.next] at hnext
  split at hnext
  · subst b
    cases hnext
    cases hold : l.next a with
    | none => exact ⟨n, hstart hold, fun m hle hlt => by omega⟩
    | some old =>
      obtain ⟨v, hv, hall⟩ := keep a old hold
      refine ⟨v, hv, fun m hle hlt => ?_⟩
      by_cases hm : m < old
      · exact hall m hle hm
      · exact .inr (hjump old hold m (by omega) hlt)
  · exact keep b next hnext

end

end Ledger

end Eth402.Lib
