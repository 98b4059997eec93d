/-
Programs that talk to the outside through typed calls: a program either returns or makes one
call and goes on with its answer. `wp` is the weakest precondition of a program over the calls
it has made so far, for every answer the outside may give: each call must be allowed by a
discipline `J` of what was called before, and the result must meet the postcondition.
-/
import Mathlib.Data.List.Infix
import Mathlib.Tactic.Common

namespace Eth402.Lib

/-- A program with calls `C`, answers `R` and result `α`. -/
inductive Prog (C : Type) (R : C → Type) (α : Type) : Type
  | pure (a : α)
  | call (c : C) (k : R c → Prog C R α)

/-- A call with its answer. -/
structure Event (C : Type) (R : C → Type) where
  call : C
  answer : R call

variable {C : Type} {R : C → Type} {α β : Type}

namespace Prog

/-- Sequencing: the second program starts where the first returns. -/
def bind : Prog C R α → (α → Prog C R β) → Prog C R β
  | .pure a, f => f a
  | .call c k, f => .call c fun r => (k r).bind f

instance : Monad (Prog C R) where
  pure := Prog.pure
  bind := Prog.bind

/-- Make one call and return its answer. -/
def perform (c : C) : Prog C R (R c) := .call c .pure

/-- Run `f` on each element, in order, asking `stop` before each one. -/
def each (stop : Prog C R Bool) (f : β → Prog C R Unit) : List β → Prog C R Unit
  | [] => .pure ()
  | x :: xs => stop.bind fun halted =>
      if halted then .pure () else (f x).bind fun _ => each stop f xs

/-! ## Weakest preconditions -/

/-- From the past `past`, every call of the program is allowed by `J` given what was called
before it, and whatever the answers, the result meets `Q`. -/
def wp (J : List (Event C R) → C → Prop) :
    List (Event C R) → Prog C R α → (List (Event C R) → α → Prop) → Prop
  | past, .pure a, Q => Q past a
  | past, .call c k, Q => J past c ∧ ∀ r, wp J (past ++ [⟨c, r⟩]) (k r) Q

variable {J : List (Event C R) → C → Prop} {past : List (Event C R)}

@[simp] theorem wp_call (c : C) (k : R c → Prog C R α) (Q : List (Event C R) → α → Prop) :
    wp J past (.call c k) Q ↔ J past c ∧ ∀ r, wp J (past ++ [⟨c, r⟩]) (k r) Q := Iff.rfl

@[simp] theorem wp_perform (c : C) (Q : List (Event C R) → R c → Prop) :
    wp J past (perform c) Q ↔ J past c ∧ ∀ r, Q (past ++ [⟨c, r⟩]) r := Iff.rfl

theorem wp_mono {Q Q' : List (Event C R) → α → Prop} (h : ∀ past a, Q past a → Q' past a) :
    ∀ {p : Prog C R α} {past : List (Event C R)}, wp J past p Q → wp J past p Q'
  | .pure a, past, hp => h past a hp
  | .call _ _, _, hp => ⟨hp.1, fun r => wp_mono h (hp.2 r)⟩

theorem wp_bind_def : ∀ (p : Prog C R α) (past : List (Event C R)) (f : α → Prog C R β)
    (Q : List (Event C R) → β → Prop),
    wp J past (p.bind f) Q ↔ wp J past p fun past' a => wp J past' (f a) Q
  | .pure _, _, _, _ => Iff.rfl
  | .call c k, past, f, Q => by
    show (J past c ∧ ∀ r, wp J (past ++ [⟨c, r⟩]) ((k r).bind f) Q) ↔ _
    rw [wp_call]
    constructor
    · rintro ⟨h1, h2⟩; exact ⟨h1, fun r => (wp_bind_def (k r) _ f Q).1 (h2 r)⟩
    · rintro ⟨h1, h2⟩; exact ⟨h1, fun r => (wp_bind_def (k r) _ f Q).2 (h2 r)⟩

@[simp] theorem wp_bind (p : Prog C R α) (f : α → Prog C R β) (Q : List (Event C R) → β → Prop) :
    wp J past (p >>= f) Q ↔ wp J past p fun past' a => wp J past' (f a) Q :=
  wp_bind_def p past f Q

/-- The past a program returns with extends the past it started from. -/
theorem wp_grows {Q : List (Event C R) → α → Prop} :
    ∀ {p : Prog C R α} {past : List (Event C R)}, wp J past p Q →
      wp J past p fun past' a => past <+: past' ∧ Q past' a
  | .pure _, past, h => ⟨List.prefix_refl past, h⟩
  | .call c _, past, h => ⟨h.1, fun r =>
      wp_mono (fun _ _ hq => ⟨(List.prefix_append past [⟨c, r⟩]).trans hq.1, hq.2⟩) (wp_grows (h.2 r))⟩

/-- Sequencing with a first program whose result is not used: the second may run from any
longer past. -/
theorem wp_seq {p : Prog C R α} {f : α → Prog C R β} {Q : List (Event C R) → β → Prop}
    (hp : wp J past p fun _ _ => True) (hf : ∀ past' a, past <+: past' → wp J past' (f a) Q) :
    wp J past (p.bind f) Q := by
  rw [wp_bind_def]
  exact wp_mono (fun past' a h => hf past' a h.1) (wp_grows hp)

theorem wp_ite {c : Prop} [Decidable c] {p q : Prog C R α} {Q : List (Event C R) → α → Prop} (hp : c → wp J past p Q)
    (hq : ¬ c → wp J past q Q) : wp J past (if c then p else q) Q := by
  split
  · exact hp ‹_›
  · exact hq ‹_›

/-- A loop meets its discipline when each round does from every longer past. -/
theorem wp_each {stop : Prog C R Bool} {f : β → Prog C R Unit} {Q : List (Event C R) → Unit → Prop}
    (hstop : ∀ past', past <+: past' → wp J past' stop fun _ _ => True) :
    ∀ (xs : List β), (∀ x ∈ xs, ∀ past', past <+: past' → wp J past' (f x) fun _ _ => True) →
      (∀ past', past <+: past' → Q past' ()) →
      ∀ past', past <+: past' → wp J past' (each stop f xs) Q
  | [], _, hq, past', hp => hq past' hp
  | x :: xs, hf, hq, past', hp => by
    refine wp_seq (hstop past' hp) fun past₁ halted h₁ => ?_
    have hp₁ := hp.trans h₁
    cases halted with
    | true => exact hq past₁ hp₁
    | false =>
      refine wp_seq (hf x (List.mem_cons_self ..) past₁ hp₁) fun past₂ _ h₂ => ?_
      exact wp_each hstop xs (fun y hy => hf y (List.mem_cons_of_mem _ hy)) hq past₂ (hp₁.trans h₂)

/-! ## Running alone -/

section Run

variable {σ : Type} {h : σ → (c : C) → R c × σ}

/-- Run the program against a handler that answers its calls and keeps a state. -/
def run (h : σ → (c : C) → R c × σ) : Prog C R α → σ → α × σ
  | .pure a, s => (a, s)
  | .call c k, s => (k (h s c).1).run h (h s c).2

theorem run_bind (f : α → Prog C R β) : ∀ (p : Prog C R α) (s : σ),
    (p >>= f).run h s = (f (p.run h s).1).run h (p.run h s).2
  | .pure _, _ => rfl
  | .call c k, s => run_bind f (k (h s c).1) (h s c).2

/-- What every call a program is allowed to make preserves, the program preserves. -/
theorem run_inv {J : C → Prop} {I : σ → Prop} (hstep : ∀ s c, J c → I s → I (h s c).2) :
    ∀ {p : Prog C R α} {past : List (Event C R)} {Q : List (Event C R) → α → Prop} {s : σ},
      wp (fun _ => J) past p Q → I s → I (p.run h s).2
  | .pure _, _, _, _, _, hi => hi
  | .call c k, _, _, s, hp, hi => by
    show I ((k (h s c).1).run h (h s c).2).2
    exact run_inv hstep (hp.2 (h s c).1) (hstep s c hp.1 hi)

end Run

end Prog

end Eth402.Lib
