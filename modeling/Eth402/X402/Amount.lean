/-
Amounts of USDC as text: `FormatUSDC` (internal/x402/payment.go) and the panel's own `formatUSDC`
(internal/merchant/admin.go). Both put the point six digits before the end of the atomic amount; the first checks the
amount and trims its zeros, the second is given the text of a numeric column.
-/
import Eth402.Lib.Text
import Mathlib.Data.List.TakeWhile
import Mathlib.Tactic.Ring
import Mathlib.Data.Rat.Cast.Defs

namespace Eth402

open Lib

namespace X402

/-! ## The formatters -/

/-- The point six digits before the end, with zeros in front of a shorter amount. -/
def pointed (digits : List Char) : String :=
  if digits.length ≤ 6 then String.ofList ('0' :: '.' :: (List.replicate (6 - digits.length) '0' ++ digits))
  else String.ofList (digits.take (digits.length - 6) ++ '.' :: digits.drop (digits.length - 6))

/-- `FormatUSDC`. -/
def formatUSDC (atomic : String) : Except String String :=
  if atomic = "" then .error "amount is required"
  else if (chars atomic).any fun r => r < '0' ∨ r > '9' then .error "amount must be unsigned integer atomic units"
  else
    let digits := (chars atomic).dropWhile (· = '0')
    .ok (pointed (if digits = [] then ['0'] else digits))

end X402

/-- `formatUSDC` of the merchant package. -/
def Merchant.formatUSDC (atomic : String) : String :=
  X402.pointed (if atomic = "" then ['0'] else chars atomic)

namespace X402

/-! ## Decimal texts -/

/-- A non-empty text of decimal digits. -/
def IsDecimal (s : String) : Prop := chars s ≠ [] ∧ ∀ c ∈ chars s, c.isDigit = true

/-- The number a text of digits stands for. -/
def valueOf (cs : List Char) : Nat := Nat.ofDigitChars 10 cs 0

/-- A number is written without superfluous zeros. -/
def Canonical (cs : List Char) : Prop := cs = ['0'] ∨ cs.head? ≠ some '0'

/-- The text is the decimal expansion of `n / 10 ^ 6`: six digits follow the point, and what stands before it is a
number without superfluous zeros. -/
def Expands (text : String) (n : Nat) : Prop :=
  ∃ whole fraction, chars text = whole ++ '.' :: fraction ∧
    (whole ≠ [] ∧ (∀ c ∈ whole, c.isDigit = true) ∧ Canonical whole) ∧
    (fraction.length = 6 ∧ ∀ c ∈ fraction, c.isDigit = true) ∧
    (valueOf whole : ℚ) + (valueOf fraction : ℚ) / 10 ^ 6 = (n : ℚ) / 10 ^ 6

theorem isDigit_iff (c : Char) : c.isDigit = true ↔ ¬ (c < '0' ∨ c > '9') := by
  simp only [Char.isDigit, Bool.and_eq_true, decide_eq_true_eq, not_or, gt_iff_lt, Char.not_lt]
  exact Iff.rfl

theorem valueOf_append (l m : List Char) : valueOf (l ++ m) = 10 ^ m.length * valueOf l + valueOf m := by
  unfold valueOf
  rw [Nat.ofDigitChars_append, Nat.ofDigitChars_eq_ofDigitChars_zero]

theorem valueOf_zeros (n : Nat) : valueOf (List.replicate n '0') = 0 := by
  induction n with
  | zero => rfl
  | succ n ih => rwa [List.replicate_succ, valueOf, Nat.ofDigitChars_cons]

theorem valueOf_dropWhile (cs : List Char) : valueOf (cs.dropWhile (· = '0')) = valueOf cs := by
  have hzeros : ∀ c ∈ cs.takeWhile (· = '0'), c = '0' := fun c hc => by
    have := List.mem_takeWhile_imp hc
    exact of_decide_eq_true this
  conv => rhs; rw [← List.takeWhile_append_dropWhile (p := (· = '0')) (l := cs)]
  rw [valueOf_append, List.eq_replicate_of_mem hzeros, valueOf_zeros, Nat.mul_zero, Nat.zero_add]

theorem canonical_dropWhile (cs : List Char) : Canonical (cs.dropWhile (· = '0')) := by
  refine .inr fun h => ?_
  have := List.head?_dropWhile_not (· = '0') cs
  rw [h] at this
  simp at this

/-- The digits left of a checked amount once its zeros are trimmed. -/
theorem trimmed_spec {cs : List Char} (hd : ∀ c ∈ cs, c.isDigit = true) :
    let digits := if cs.dropWhile (· = '0') = [] then ['0'] else cs.dropWhile (· = '0')
    (∀ c ∈ digits, c.isDigit = true) ∧ Canonical digits ∧ valueOf digits = valueOf cs := by
  intro digits
  by_cases h : cs.dropWhile (· = '0') = []
  · have hdigits : digits = ['0'] := if_pos h
    rw [hdigits, ← valueOf_dropWhile cs, h]
    exact ⟨by simp, .inl rfl, rfl⟩
  · have hdigits : digits = cs.dropWhile (· = '0') := if_neg h
    rw [hdigits]
    exact ⟨fun c hc => hd c ((List.dropWhile_sublist _).subset hc), canonical_dropWhile cs, valueOf_dropWhile cs⟩

/-- Putting the point divides by a million. -/
theorem expands_pointed {digits : List Char} (hd : ∀ c ∈ digits, c.isDigit = true) (hc : Canonical digits) :
    Expands (pointed digits) (valueOf digits) := by
  unfold pointed
  split
  · -- all digits are fraction digits
    rename_i hlen
    refine ⟨['0'], List.replicate (6 - digits.length) '0' ++ digits, by rw [chars_ofList]; rfl,
      ⟨by simp, by simp, .inl rfl⟩, ⟨by simp; omega, fun c hc => ?_⟩, ?_⟩
    · rcases List.mem_append.1 hc with hc | hc
      · rw [List.eq_of_mem_replicate hc]; decide
      · exact hd c hc
    · rw [valueOf_append, valueOf_zeros, Nat.mul_zero, Nat.zero_add]
      simp [valueOf, Nat.ofDigitChars]
  · rename_i hlen
    have hsplit := List.take_append_drop (digits.length - 6) digits
    have hfraction : (digits.drop (digits.length - 6)).length = 6 := by rw [List.length_drop]; omega
    have hwhole : digits.take (digits.length - 6) ≠ [] := by
      intro h
      have := congrArg List.length h
      rw [List.length_take, List.length_nil] at this
      omega
    refine ⟨_, _, chars_ofList _, ⟨hwhole, fun c h => hd c (List.mem_of_mem_take h), ?_⟩,
      ⟨hfraction, fun c h => hd c (List.mem_of_mem_drop h)⟩, ?_⟩
    · -- the first digit stays the first
      refine .inr fun h => ?_
      rw [List.head?_take, if_neg (by omega)] at h
      rcases hc with hc | hc
      · rw [hc] at hlen; simp at hlen
      · exact hc h
    · have hvalue := valueOf_append (digits.take (digits.length - 6)) (digits.drop (digits.length - 6))
      rw [hsplit, hfraction] at hvalue
      rw [hvalue]
      push_cast
      ring

/-- `FormatUSDC` on a text of decimal digits, of any length and with any zeros in front, gives the expansion of a
millionth of its value; it refuses every other text; and on a number written without superfluous zeros the panel's
formatter gives the same text. -/
theorem formatUSDC_exact (s : String) :
    (IsDecimal s → ∃ text, formatUSDC s = .ok text ∧ Expands text (valueOf (chars s))) ∧
    (¬ IsDecimal s → ∃ e, formatUSDC s = .error e) ∧
    (IsDecimal s → Canonical (chars s) → formatUSDC s = .ok (Merchant.formatUSDC s)) := by
  have hempty : s = "" ↔ chars s = [] := by
    rw [chars_eq]; exact String.toList_eq_nil_iff.symm
  have hany : ((chars s).any fun r => decide (r < '0' ∨ r > '9')) = true ↔ ¬ ∀ c ∈ chars s, c.isDigit = true := by
    simp only [List.any_eq_true, decide_eq_true_eq, isDigit_iff]
    push Not
    exact Iff.rfl
  have hok : IsDecimal s → formatUSDC s = .ok (pointed
      (if (chars s).dropWhile (· = '0') = [] then ['0'] else (chars s).dropWhile (· = '0'))) := fun h => by
    unfold formatUSDC
    rw [if_neg (mt hempty.1 h.1), if_neg (fun hb => hany.1 hb h.2)]
  refine ⟨fun h => ?_, fun h => ?_, fun h hc => ?_⟩
  · obtain ⟨hd, hcanon, hvalue⟩ := trimmed_spec h.2
    exact ⟨_, hok h, hvalue ▸ expands_pointed hd hcanon⟩
  · unfold formatUSDC
    by_cases hs : s = ""
    · exact ⟨_, if_pos hs⟩
    · have hd : ¬ ∀ c ∈ chars s, c.isDigit = true := fun hd => h ⟨mt hempty.2 hs, hd⟩
      rw [if_neg hs, if_pos (hany.2 hd)]
      exact ⟨_, rfl⟩
  · have htrim : (if (chars s).dropWhile (· = '0') = [] then ['0'] else (chars s).dropWhile (· = '0')) = chars s := by
      rcases hc with hc | hc
      · rw [hc]; rfl
      · cases hcs : chars s with
        | nil => exact absurd hcs h.1
        | cons c cs =>
          have hc0 : c ≠ '0' := fun h0 => hc (by rw [hcs, h0]; rfl)
          rw [List.dropWhile_cons_of_neg (by simpa using hc0), if_neg (by simp)]
    rw [hok h, htrim, Merchant.formatUSDC, if_neg (mt hempty.1 h.1)]

example : formatUSDC "0001230000" = .ok "1.230000" ∧ formatUSDC "00" = .ok "0.000000" := by decide +kernel

end X402

end Eth402
