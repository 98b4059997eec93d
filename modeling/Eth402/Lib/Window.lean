/-
Sliding windows over a log of stamped entries. The stamps need not be in the order of the log: an entry may be
stamped before entries that precede it. A log is throttled when no window of the given width, wherever it
ends, holds more entries than the limit; it stays so when an entry is added that finds fewer than the limit among
the entries stamped later than one width before itself (`Throttled.snoc`).
-/
import Mathlib.Data.List.Perm.Subperm
import Mathlib.Tactic.Common

namespace Eth402.Lib

variable {α β κ : Type}

section Windows

variable (stamp : α → Int) (width : Int)

/-- How many entries are stamped after `since`. -/
def countSince (since : Int) (log : List α) : Nat := log.countP fun x => since < stamp x

/-- How many entries are stamped in the window that ends at `t`. -/
def countWithin (t : Int) (log : List α) : Nat := log.countP fun x => t - width < stamp x ∧ stamp x ≤ t

/-- No window holds more than `limit` entries. -/
def Throttled (limit : Nat) (log : List α) : Prop := ∀ t, countWithin stamp width t log ≤ limit

variable {stamp : α → Int} {width : Int} {limit : Nat} {log : List α}

theorem throttled_nil : Throttled stamp width limit [] := fun _ => Nat.zero_le _

/-- What a window that ends at or after `a` holds was stamped within a width before `a`, or later. -/
theorem countWithin_le_countSince {a t : Int} (h : a ≤ t) :
    countWithin stamp width t log ≤ countSince stamp (a - width) log := by
  refine List.countP_mono_left fun x _ hx => ?_
  simp only [decide_eq_true_eq] at hx ⊢
  omega

theorem Throttled.snoc {x : α} (h : Throttled stamp width limit log)
    (hnew : countSince stamp (stamp x - width) log < limit) : Throttled stamp width limit (log ++ [x]) := by
  intro t
  have hold := h t
  unfold countWithin at hold ⊢
  rw [List.countP_append, List.countP_singleton]
  split
  · -- the window holds the new entry, so the older ones in it are among those the entry counted
    rename_i hx
    have hin : stamp x ≤ t := (of_decide_eq_true hx).2
    have hle : countWithin stamp width t log ≤ countSince stamp (stamp x - width) log := countWithin_le_countSince hin
    unfold countWithin at hle
    omega
  · simpa using hold

end Windows

/-- Entries with different keys are no more than the rows that hold them. -/
theorem countP_le_of_keys (key : α → κ) (key' : β → κ) {p : α → Bool} {q : β → Bool} {xs : List α} {ys : List β}
    (hkeys : (xs.map key).Nodup) (h : ∀ x ∈ xs, p x = true → ∃ y ∈ ys, q y = true ∧ key' y = key x) :
    xs.countP p ≤ ys.countP q := by
  rw [List.countP_eq_length_filter, List.countP_eq_length_filter]
  have hnodup : ((xs.filter p).map key).Nodup := (List.filter_sublist.map key).nodup hkeys
  have hsub : (xs.filter p).map key ⊆ (ys.filter q).map key' := by
    intro k hk
    obtain ⟨x, hx, rfl⟩ := List.mem_map.1 hk
    obtain ⟨hx, hp⟩ := List.mem_filter.1 hx
    obtain ⟨y, hy, hq, hkey⟩ := h x hx hp
    exact List.mem_map.2 ⟨y, List.mem_filter.2 ⟨hy, hq⟩, hkey⟩
  simpa using (List.subperm_of_subset hnodup hsub).length_le

end Eth402.Lib
