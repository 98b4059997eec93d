/-
Leases: a table says under which name each key is held and until when, and sessions that were given a key act on it
until they give it back or their lease lapses. Several sessions may go by one name, so the table alone does not tell
them apart. `Sound` is what makes leases exclude each other; it is kept when a key is granted to a session while no
other session is live on it (`Sound.grant`), and when nothing is taken from a live session (`Sound.keep`).
-/
import Mathlib.Tactic.Common

namespace Eth402.Lib

variable {κ σ ν : Type}

structure Leases (κ σ ν : Type) where
  clock : Int
  lease : κ → Option (ν × Int)
  held : σ → κ → Option Int

/-- The session holds the key under a lease that has not lapsed. -/
def Leases.Live (l : Leases κ σ ν) (s : σ) (k : κ) : Prop := ∃ u, l.held s k = some u ∧ l.clock < u

instance (l : Leases κ σ ν) (s : σ) (k : κ) : Decidable (l.Live s k) :=
  decidable_of_iff ((l.held s k).any (l.clock < ·) = true) <| by
    unfold Leases.Live
    cases l.held s k <;> simp

/-- Every live session is backed by the table, and no two of them are on one key. -/
structure Sound (name : σ → ν) (l : Leases κ σ ν) : Prop where
  backed : ∀ s k u, l.held s k = some u → l.clock < u → ∃ v, l.lease k = some (name s, v) ∧ u ≤ v
  alone : ∀ s s' k, l.Live s k → l.Live s' k → s = s'

variable {name name' : σ → ν} {l l' : Leases κ σ ν} {s : σ}

theorem Sound.not_live (h : Sound name l) {k : κ} (hfree : ∀ w u, l.lease k = some (w, u) → u ≤ l.clock) (s : σ) :
    ¬ l.Live s k := by
  rintro ⟨u, hu, hlt⟩
  obtain ⟨v, hv, hle⟩ := h.backed s k u hu hlt
  have hlapsed := hfree _ _ hv
  omega

theorem Sound.name_of_live (h : Sound name l) {k : κ} (hl : l.Live s k) {w : ν} {u : Int}
    (hk : l.lease k = some (w, u)) : w = name s ∧ l.clock < u := by
  obtain ⟨v, hv, hlt⟩ := hl
  obtain ⟨u', hu', hle⟩ := h.backed s k v hv hlt
  rw [hk] at hu'
  cases hu'
  exact ⟨rfl, by omega⟩

/-- Whatever is live was so before, under the same name and the same lease. -/
theorem Sound.keep (h : Sound name l)
    (hlive : ∀ s k u, l'.held s k = some u → l'.clock < u →
      l.held s k = some u ∧ l.clock < u ∧ l'.lease k = l.lease k ∧ name' s = name s) : Sound name' l' where
  backed s k u hu hlt := by
    obtain ⟨hu', hlt', hlease, hname⟩ := hlive s k u hu hlt
    rw [hlease, hname]
    exact h.backed s k u hu' hlt'
  alone s s' k := by
    rintro ⟨u, hu, hlt⟩ ⟨u', hu', hlt'⟩
    obtain ⟨hu, hlt, -⟩ := hlive s k u hu hlt
    obtain ⟨hu', hlt', -⟩ := hlive s' k u' hu' hlt'
    exact h.alone s s' k ⟨u, hu, hlt⟩ ⟨u', hu', hlt'⟩

/-- The session `s` is granted the keys `K`, on which no other session is live; it may not learn of it. -/
theorem Sound.grant (h : Sound name l) (K : κ → Prop) (upto : Int) (hclock : l'.clock = l.clock)
    (hlone : ∀ k, K k → ∀ s', l.Live s' k → s' = s)
    (hlater : ∀ k, K k → ∀ u, l.held s k = some u → l.clock < u → u ≤ upto)
    (hlease : ∀ k, K k → l'.lease k = some (name s, upto)) (hother : ∀ k, ¬ K k → l'.lease k = l.lease k)
    (hheld : ∀ s' k u, l'.held s' k = some u → l.held s' k = some u ∨ s' = s ∧ K k ∧ u = upto) : Sound name l' where
  backed s' k u hu hlt := by
    rw [hclock] at hlt
    by_cases hk : K k
    · refine ⟨upto, ?_⟩
      rcases hheld s' k u hu with hold | ⟨rfl, -, rfl⟩
      · obtain rfl := hlone k hk s' ⟨u, hold, hlt⟩
        exact ⟨hlease k hk, hlater k hk u hold hlt⟩
      · exact ⟨hlease k hk, Int.le_refl _⟩
    · rcases hheld s' k u hu with hold | ⟨-, hk', -⟩
      · rw [hother k hk]
        exact h.backed s' k u hold hlt
      · exact absurd hk' hk
  alone s₁ s₂ k := by
    -- on a granted key every live session is the one it was granted to
    have granted : K k → ∀ s', l'.Live s' k → s' = s := by
      rintro hk s' ⟨u, hu, hlt⟩
      rw [hclock] at hlt
      rcases hheld s' k u hu with hold | ⟨rfl, -⟩
      · exact hlone k hk s' ⟨u, hold, hlt⟩
      · rfl
    have old : ¬ K k → ∀ s', l'.Live s' k → l.Live s' k := by
      rintro hk s' ⟨u, hu, hlt⟩
      rw [hclock] at hlt
      rcases hheld s' k u hu with hold | ⟨-, hk', -⟩
      · exact ⟨u, hold, hlt⟩
      · exact absurd hk' hk
    intro h₁ h₂
    by_cases hk : K k
    · exact (granted hk s₁ h₁).trans (granted hk s₂ h₂).symm
    · exact h.alone s₁ s₂ k (old hk s₁ h₁) (old hk s₂ h₂)

end Eth402.Lib
