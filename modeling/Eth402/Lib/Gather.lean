/-
Results gathered from workers that run at once. Each worker sends its result once, in whatever order they finish, and
the receiver files it under the worker's index; before any of the receives it may be told to stop instead. Unless it is,
it ends with every worker's result in its place.
-/
import Mathlib.Data.List.FinRange
import Mathlib.Tactic.Common

namespace Eth402.Lib

variable {α ε : Type} {n : Nat}

/-- What the receiver meets: the result of each worker, the order they arrive in, and the number of the receive at which
it is told to stop, if it is. -/
structure Arrivals (n : Nat) (α ε : Type) where
  result : Fin n → α
  order : List (Fin n)
  complete : ∀ i, i ∈ order
  stop : Option (Nat × ε)

/-- The loop of the receiver: `k` results are filed. -/
def gather (result : Fin n → α) (stop : Option (Nat × ε)) : Nat → List (Fin n) → List α → Except ε (List α)
  | _, [], filed => .ok filed
  | k, i :: rest, filed =>
    match stop with
    | some (k', e) => if k' = k then .error e else gather result stop (k + 1) rest (filed.set i (result i))
    | none => gather result stop (k + 1) rest (filed.set i (result i))

/-- All the results, from places that hold `zero` before. -/
def Arrivals.collect (a : Arrivals n α ε) (zero : α) : Except ε (List α) :=
  gather a.result a.stop 0 a.order (List.replicate n zero)

theorem gather_cons {result : Fin n → α} {stop : Option (Nat × ε)} {k : Nat} {i : Fin n} {rest : List (Fin n)}
    {filed l : List α} (h : gather result stop k (i :: rest) filed = .ok l) :
    gather result stop (k + 1) rest (filed.set i (result i)) = .ok l := by
  unfold gather at h
  split at h
  · split at h
    · cases h
    · exact h
  · exact h

/-- In the end every place holds the result of its worker, or what it held if the worker was not heard of. -/
theorem gather_ok {result : Fin n → α} {stop : Option (Nat × ε)} {order : List (Fin n)} {k : Nat} {filed l : List α}
    (h : gather result stop k order filed = .ok l) (hlen : filed.length = n) :
    l.length = n ∧ ∀ i : Fin n, l[i.val]? = some (result i) ∨ (i ∉ order ∧ l[i.val]? = filed[i.val]?) := by
  induction order generalizing k filed with
  | nil =>
    cases h
    exact ⟨hlen, fun i => .inr ⟨by simp, rfl⟩⟩
  | cons j rest ih =>
    obtain ⟨hl, hall⟩ := ih (gather_cons h) (by simpa using hlen)
    refine ⟨hl, fun i => ?_⟩
    rcases hall i with hi | ⟨hno, hi⟩
    · exact .inl hi
    · by_cases hij : i = j
      · subst hij
        refine .inl ?_
        rw [hi, List.getElem?_set_self (by omega)]
      · refine .inr ⟨by simp [hij, hno], ?_⟩
        rw [hi, List.getElem?_set_ne]
        exact fun hv => hij (Fin.ext hv.symm)

theorem Arrivals.collect_ok {a : Arrivals n α ε} {zero : α} {l : List α} (h : a.collect zero = .ok l) :
    l = List.ofFn a.result := by
  obtain ⟨hlen, hall⟩ := gather_ok h (by simp)
  refine List.ext_getElem? fun i => ?_
  by_cases hi : i < n
  · rcases hall ⟨i, hi⟩ with hr | ⟨hno, -⟩
    · rw [hr, List.getElem?_ofFn, dif_pos hi]
    · exact absurd (a.complete _) hno
  · rw [List.getElem?_eq_none (by omega), List.getElem?_eq_none (by simpa using hi)]

end Eth402.Lib
