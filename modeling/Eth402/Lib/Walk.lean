/-
Walks along the edges of a state machine, kept as the list of their steps: each step is an edge and starts where the
one before it ended.
-/
import Mathlib.Tactic.Common

namespace Eth402.Lib

variable {σ : Type} {E : σ → σ → Prop}

def Walk (E : σ → σ → Prop) : σ → List (σ × σ) → σ → Prop
  | s, [], s' => s = s'
  | s, (a, b) :: w, s' => a = s ∧ E a b ∧ Walk E b w s'

theorem Walk.append {s t u : σ} {w w' : List (σ × σ)} (h : Walk E s w t) (h' : Walk E t w' u) :
    Walk E s (w ++ w') u := by
  induction w generalizing s with
  | nil =>
    cases h
    exact h'
  | cons e w ih =>
    obtain ⟨ha, hb, hrest⟩ := h
    exact ⟨ha, hb, ih hrest⟩

theorem Walk.single {s t : σ} (h : E s t) : Walk E s [(s, t)] t := ⟨rfl, h, rfl⟩

theorem Walk.eq_nil {s t : σ} {w : List (σ × σ)} (h : Walk E s w t) (hs : ∀ t, ¬ E s t) : w = [] ∧ t = s := by
  cases w with
  | nil => exact ⟨rfl, h.symm⟩
  | cons e w =>
    obtain ⟨rfl, he, -⟩ := h
    exact absurd he (hs _)

end Eth402.Lib
