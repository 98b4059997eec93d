/-
Big-endian numbers of a fixed width, byte strings made of chunks of one length, and byte strings made of frames that
carry their length. A number that is too large for its width is written as its low digits.
-/
import Mathlib.Data.Nat.ModEq
import Mathlib.Tactic.Common

namespace Eth402.Lib

/-! ## Numbers -/

/-- The `k` low bytes of a number, the highest first. -/
def bigEndian (k n : Nat) : List UInt8 := (List.range k).reverse.map fun i => UInt8.ofNat (n / 256 ^ i)

def fromBigEndian : List UInt8 → Nat
  | [] => 0
  | b :: bs => b.toNat * 256 ^ bs.length + fromBigEndian bs

@[simp] theorem length_bigEndian (k n : Nat) : (bigEndian k n).length = k := by simp [bigEndian]

theorem bigEndian_succ (k n : Nat) : bigEndian (k + 1) n = UInt8.ofNat (n / 256 ^ k) :: bigEndian k n := by
  unfold bigEndian
  rw [List.range_succ, List.reverse_append]
  rfl

theorem fromBigEndian_bigEndian (k n : Nat) : fromBigEndian (bigEndian k n) = n % 256 ^ k := by
  induction k with
  | zero => simp [bigEndian, fromBigEndian, Nat.mod_one]
  | succ k ih =>
    have hbyte : (UInt8.ofNat (n / 256 ^ k)).toNat = n / 256 ^ k % 256 := UInt8.toNat_ofNat'
    rw [bigEndian_succ, fromBigEndian, ih, length_bigEndian, hbyte, Nat.mod_pow_succ, Nat.mul_comm, Nat.add_comm]

/-! ## Chunks -/

variable {α : Type}

/-- The `i`-th chunk of `n` elements. -/
def chunk (n i : Nat) (l : List α) : List α := (l.drop (n * i)).take n

theorem chunk_flatten {n : Nat} {ws : List (List α)} (h : ∀ w ∈ ws, w.length = n) {i : Nat} {w : List α}
    (hi : ws[i]? = some w) : chunk n i ws.flatten = w := by
  induction ws generalizing i with
  | nil => simp at hi
  | cons w₀ ws ih =>
    have hlen := h w₀ (List.mem_cons_self ..)
    unfold chunk
    cases i with
    | zero =>
      obtain rfl : w₀ = w := by simpa using hi
      simp [List.flatten_cons, ← hlen]
    | succ i =>
      have htail := ih (fun w hw => h w (List.mem_cons_of_mem _ hw)) (i := i) (by simpa using hi)
      rw [List.flatten_cons, List.drop_append, List.drop_eq_nil_of_le (by rw [hlen, Nat.mul_succ]; omega),
        List.nil_append,
        hlen, Nat.mul_succ, Nat.add_sub_cancel]
      exact htail

/-! ## Frames -/

/-- A sequence of parts, each preceded by a header that gives its length. -/
def frames (header : Nat → List α) (parts : List (List α)) : List α := parts.flatMap fun p => header p.length ++ p

/-- Frames are taken apart in one way, when the headers have one width and tell the lengths below `bound` apart. -/
theorem frames_inj {header : Nat → List α} {width bound : Nat} (hwidth : ∀ n, (header n).length = width)
    (hpos : 0 < width)
    (hheader : ∀ m < bound, ∀ n < bound, header m = header n → m = n) {xs ys : List (List α)}
    (hx : ∀ x ∈ xs, x.length < bound) (hy : ∀ y ∈ ys, y.length < bound) (h : frames header xs = frames header ys) :
    xs = ys := by
  have hlen : ∀ z zs, 0 < (frames header (z :: zs)).length := fun z zs => by
    simp only [frames, List.flatMap_cons, List.length_append, hwidth]
    omega
  induction xs generalizing ys with
  | nil =>
    cases ys with
    | nil => rfl
    | cons y ys => exact absurd (congrArg List.length h) (Nat.ne_of_lt (hlen y ys))
  | cons x xs ih =>
    cases ys with
    | nil => exact absurd (congrArg List.length h).symm (Nat.ne_of_lt (hlen x xs))
    | cons y ys =>
      simp only [frames, List.flatMap_cons, List.append_assoc] at h
      -- the headers agree, so the first parts have one length
      obtain ⟨hhead, hbody⟩ := List.append_inj h (by rw [hwidth, hwidth])
      have hsize := hheader _ (hx x (List.mem_cons_self ..)) _ (hy y (List.mem_cons_self ..)) hhead
      obtain ⟨rfl, hrest⟩ := List.append_inj hbody hsize
      rw [ih (fun z hz => hx z (List.mem_cons_of_mem _ hz)) (fun z hz => hy z (List.mem_cons_of_mem _ hz)) hrest]

end Eth402.Lib
