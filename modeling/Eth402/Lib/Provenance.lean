/-
A tree filled from the members of another tree. A write names the place it fills, as a path of steps, and the member it
comes from, as a path of positions; the writes below one node come in blocks, one for each member. No place is filled
from two members exactly when the members go to different places and this holds within each of them.
-/
import Mathlib.Data.List.Nodup
import Mathlib.Tactic.Common

namespace Eth402.Lib

variable {α β : Type}

/-- A place and the member it is filled from. -/
abbrev Write (α β : Type) := List α × List β

/-- One member of a node: the step it fills, its position, and the writes below it. -/
structure Block (α β : Type) where
  step : α
  position : β
  inner : List (Write α β)

/-- The write of the member itself, and those below it. -/
def Block.writes (b : Block α β) : List (Write α β) :=
  ([b.step], [b.position]) :: b.inner.map fun w => (b.step :: w.1, b.position :: w.2)

/-- No place is filled from two members. -/
def Unambiguous (ws : List (Write α β)) : Prop := ∀ p s s', (p, s) ∈ ws → (p, s') ∈ ws → s = s'

theorem Block.head_mem (b : Block α β) : ([b.step], [b.position]) ∈ b.writes := List.mem_cons_self ..

theorem Block.mem_writes {b : Block α β} {p : List α} {s : List β} (h : (p, s) ∈ b.writes) :
    (p = [b.step] ∧ s = [b.position]) ∨ ∃ q r, p = b.step :: q ∧ s = b.position :: r ∧ (q, r) ∈ b.inner := by
  rcases List.mem_cons.1 h with h | h
  · exact .inl (Prod.mk.inj h)
  · obtain ⟨⟨q, r⟩, hmem, heq⟩ := List.mem_map.1 h
    obtain ⟨hp, hs⟩ := Prod.mk.inj heq
    exact .inr ⟨q, r, hp.symm, hs.symm, hmem⟩

/-- All paths below a node have a step, so that the member's own write is apart from those below it. -/
def Proper (ws : List (Write α β)) : Prop := ∀ w ∈ ws, w.1 ≠ []

theorem Block.proper (b : Block α β) : Proper b.writes := by
  rintro ⟨p, s⟩ hw
  rcases b.mem_writes hw with ⟨rfl, -⟩ | ⟨q, r, rfl, -, -⟩ <;> exact List.cons_ne_nil _ _

theorem proper_flatMap (blocks : List (Block α β)) : Proper (blocks.flatMap Block.writes) := by
  intro w hw
  obtain ⟨b, -, hb⟩ := List.mem_flatMap.1 hw
  exact b.proper w hb

theorem unambiguous_block {b : Block α β} (hproper : Proper b.inner) : Unambiguous b.writes ↔ Unambiguous b.inner := by
  constructor
  · intro h p s s' hs hs'
    have := h (b.step :: p) (b.position :: s) (b.position :: s') (List.mem_cons_of_mem _ (List.mem_map.2 ⟨(p, s),
      hs, rfl⟩))
      (List.mem_cons_of_mem _ (List.mem_map.2 ⟨(p, s'), hs', rfl⟩))
    exact (List.cons.inj this).2
  · intro h p s s' hs hs'
    rcases b.mem_writes hs with ⟨rfl, rfl⟩ | ⟨q, r, rfl, rfl, hq⟩
    · rcases b.mem_writes hs' with ⟨-, rfl⟩ | ⟨q, r, hp, -, hq⟩
      · rfl
      · exact absurd (List.cons.inj hp).2.symm (hproper (q, r) hq)
    · rcases b.mem_writes hs' with ⟨hp, -⟩ | ⟨q', r', hp, rfl, hq'⟩
      · exact absurd (List.cons.inj hp).2 (hproper (q, r) hq)
      · obtain rfl := (List.cons.inj hp).2
        rw [h q r r' hq hq']

/-- The members of a node, at different positions. -/
theorem unambiguous_flatMap {blocks : List (Block α β)} (hproper : ∀ b ∈ blocks, Proper b.inner)
    (hposition : (blocks.map Block.position).Nodup) :
    Unambiguous (blocks.flatMap Block.writes) ↔
      (blocks.map Block.step).Nodup ∧ ∀ b ∈ blocks, Unambiguous b.inner := by
  have hhead : ∀ {b : Block α β} {p s}, (p, s) ∈ b.writes → p.head? = some b.step ∧ s.head? = some b.position := by
    intro b p s h
    rcases b.mem_writes h with ⟨rfl, rfl⟩ | ⟨q, r, rfl, rfl, -⟩ <;> exact ⟨rfl, rfl⟩
  constructor
  · intro h
    constructor
    · refine (List.nodup_map_iff_inj_on ?_).2 ?_
      · exact List.Nodup.of_map _ hposition
      · intro b hb c hc hstep
        have := h [b.step] [b.position] [c.position] (List.mem_flatMap.2 ⟨b, hb, b.head_mem⟩)
          (List.mem_flatMap.2 ⟨c, hc, hstep ▸ c.head_mem⟩)
        exact List.inj_on_of_nodup_map hposition hb hc (List.cons.inj this).1
    · intro b hb
      rw [← unambiguous_block (hproper b hb)]
      intro p s s' hs hs'
      exact h p s s' (List.mem_flatMap.2 ⟨b, hb, hs⟩) (List.mem_flatMap.2 ⟨b, hb, hs'⟩)
  · rintro ⟨hstep, hinner⟩ p s s' hs hs'
    obtain ⟨b, hb, hs⟩ := List.mem_flatMap.1 hs
    obtain ⟨c, hc, hs'⟩ := List.mem_flatMap.1 hs'
    -- the first step of the place tells the member
    have hsame : b.step = c.step := Option.some.inj ((hhead hs).1.symm.trans (hhead hs').1)
    obtain rfl := List.inj_on_of_nodup_map hstep hb hc hsame
    exact (unambiguous_block (hproper b hb)).2 (hinner b hb) p s s' hs hs'

end Eth402.Lib
