/-
The signature of the key service (`ethereumSignature`, internal/signer/kms.go). The service answers with an ECDSA
signature in DER; Ethereum wants r, s and a recovery id, with s in the lower half of the scalar range. The recovery id
is found by trying both against the address of the key.
-/
import Eth402.Lib.Word
import Eth402.Settlement.Types

namespace Eth402.Signer

open Lib Settlement

/-! ## The code -/

/-- `crypto.S256().Params().N`. -/
def order : Nat := 0xFFFFFFFFFFFFFFFFFFFFFFFFFFFFFFFEBAAEDCE6AF48A03BBFD25E8CD0364141

/-- The libraries the conversion calls: `asn1.Unmarshal` into a pair of integers with what trails them,
`crypto.SigToPub` and `crypto.PubkeyToAddress`. -/
structure CurveLibrary where
  unmarshal : Bytes → Except String (Option Int × Option Int × Bytes)
  sigToPub : Bytes → Bytes → Option Bytes
  pubkeyToAddress : Bytes → Bytes
  addressHex : Bytes → String

/-- r, s and v in 65 bytes. -/
def compact (r s : Nat) (v : UInt8) : Bytes := bigEndian 32 r ++ bigEndian 32 s ++ [v]

variable (lib : CurveLibrary)

/-- The address a signature of the digest recovers to. -/
def recovered (digest signature : Bytes) : Option Bytes := (lib.sigToPub digest signature).map lib.pubkeyToAddress

/-- s, or its negative when s is in the upper half. -/
def lowS (s : Nat) : Nat := if s > order / 2 then order - s else s

/-- `ethereumSignature`. -/
def ethereumSignature (sighash der expected : Bytes) : Except String Bytes :=
  match lib.unmarshal der with
  | .error e => .error ("decode DER signature: " ++ e)
  | .ok (r, s, trailing) =>
    if trailing ≠ [] then .error "decode DER signature: trailing data"
    else
      match r, s with
      | some r, some s =>
        if r ≤ 0 ∨ s ≤ 0 ∨ r ≥ order ∨ s ≥ order then
          .error "decode DER signature: r and s must be in the secp256k1 scalar range"
        else
          match ([0, 1] : List UInt8).find? fun v =>
            recovered lib sighash (compact r.toNat (lowS s.toNat) v) = some expected with
          | some v => .ok (compact r.toNat (lowS s.toNat) v)
          | none => .error ("no recovery id reproduces signer address " ++ lib.addressHex expected)
      | _, _ => .error "decode DER signature: r and s must be in the secp256k1 scalar range"

/-! ## Signatures -/

/-- An ECDSA signature of the digest by the key of `address` whose nonce point has its x-coordinate below the order: the
parity of that point recovers the key. -/
structure SignatureOf (digest address : Bytes) (r s : Nat) : Prop where
  rangeR : 0 < r ∧ r < order
  rangeS : 0 < s ∧ s < order
  parity : ∃ v : UInt8, (v = 0 ∨ v = 1) ∧ recovered lib digest (compact r s v) = some address

/-- Negating s and the nonce point gives the same key. -/
def FlipLaw : Prop := ∀ digest r s, ∀ v : UInt8, 0 < s → s < order → (v = 0 ∨ v = 1) →
  recovered lib digest (compact r (order - s) (1 - v)) = recovered lib digest (compact r s v)

theorem lowS_cases {s : Nat} (hpos : 0 < s) (hlt : s < order) :
    (0 < lowS s ∧ lowS s ≤ (order - 1) / 2) ∧ (lowS s = s ∨ lowS s = order - s) := by
  unfold lowS
  -- the order is odd, so its half rounded down is the half of what precedes it
  have hodd : order = 2 * (order / 2) + 1 := by decide
  split
  · exact ⟨⟨by omega, by omega⟩, .inr rfl⟩
  · exact ⟨⟨hpos, by omega⟩, .inl rfl⟩

variable {lib}

/-- A key that is recovered from (r, s) is recovered from (r, lowS s). -/
theorem SignatureOf.low {digest address : Bytes} {r s : Nat} (h : SignatureOf lib digest address r s)
    (hflip : FlipLaw lib) :
    ∃ v : UInt8, (v = 0 ∨ v = 1) ∧ recovered lib digest (compact r (lowS s) v) = some address := by
  obtain ⟨v, hv, hrec⟩ := h.parity
  unfold lowS
  split
  · refine ⟨1 - v, ?_, by rw [hflip digest r s v h.rangeS.1 h.rangeS.2 hv, hrec]⟩
    rcases hv with rfl | rfl
    · exact .inr rfl
    · exact .inl rfl
  · exact ⟨v, hv, hrec⟩

/-- What is returned is the compact form of the DER integers that recovers the address. -/
theorem ethereumSignature_ok {digest der expected signature : Bytes}
    (h : ethereumSignature lib digest der expected = .ok signature) :
    ∃ (r s : Nat) (v : UInt8), lib.unmarshal der = .ok (some (r : Int), some (s : Int), []) ∧
      (0 < r ∧ r < order) ∧ (0 < s ∧ s < order) ∧ (v = 0 ∨ v = 1) ∧ signature = compact r (lowS s) v ∧
      recovered lib digest signature = some expected := by
  unfold ethereumSignature at h
  split at h
  · cases h
  rename_i r s trailing hder
  split at h
  · cases h
  rename_i htrailing
  split at h
  · rename_i r s
    split at h
    · cases h
    rename_i hrange
    push Not at hrange
    obtain ⟨hr, hs, hrn, hsn⟩ := hrange
    split at h
    · rename_i v hfind
      cases h
      have hrec := List.find?_some hfind
      have hv := List.mem_of_find?_eq_some hfind
      refine ⟨r.toNat, s.toNat, v, ?_, by omega, by omega, by simpa using hv, rfl, of_decide_eq_true hrec⟩
      rw [hder, Int.toNat_of_nonneg (by omega), Int.toNat_of_nonneg (by omega), not_not.1 htrailing]
    · cases h
  · cases h

theorem compact_parts (r s : Nat) (v : UInt8) :
    (compact r s v).take 32 = bigEndian 32 r ∧ ((compact r s v).drop 32).take 32 = bigEndian 32 s := by
  rw [compact, List.append_assoc, List.take_left' (length_bigEndian ..), List.drop_left' (length_bigEndian ..),
    List.take_left' (length_bigEndian ..)]
  exact ⟨rfl, rfl⟩

theorem read_scalar {s : Nat} (h : s < order) : fromBigEndian (bigEndian 32 s) = s := by
  rw [fromBigEndian_bigEndian, Nat.mod_eq_of_lt (Nat.lt_trans h (by decide))]

/-- Every signature that is returned has 65 bytes: the r of the DER input, which is a scalar, the s of the DER input or
its negative, in the lower half, and a recovery id that gives the expected address. And every ECDSA signature by the key
of that address whose nonce point has its x-coordinate below the order is converted, whichever half its s is in. -/
theorem ethereumSignature_correct (lib : CurveLibrary) (hflip : FlipLaw lib) (digest der expected : Bytes) :
    (∀ signature, ethereumSignature lib digest der expected = .ok signature →
      ∃ (r s low : Nat) (v : UInt8), lib.unmarshal der = .ok (some (r : Int), some (s : Int), []) ∧
        (0 < r ∧ r < order) ∧ (0 < s ∧ s < order) ∧ signature = compact r low v ∧ signature.length = 65 ∧
        fromBigEndian (signature.take 32) = r ∧ fromBigEndian ((signature.drop 32).take 32) = low ∧
        (0 < low ∧ low ≤ (order - 1) / 2) ∧ (low = s ∨ low = order - s) ∧ (v = 0 ∨ v = 1) ∧
        recovered lib digest signature = some expected) ∧
    ∀ r s : Nat, lib.unmarshal der = .ok (some (r : Int), some (s : Int), []) → SignatureOf lib digest expected r s →
      ∃ signature, ethereumSignature lib digest der expected = .ok signature := by
  refine ⟨fun signature h => ?_, fun r s hder hsig => ?_⟩
  · obtain ⟨r, s, v, hder, hr, hs, hv, rfl, hrec⟩ := ethereumSignature_ok h
    obtain ⟨hhalf, hlow⟩ := lowS_cases hs.1 hs.2
    obtain ⟨hpartR, hpartS⟩ := compact_parts r (lowS s) v
    refine ⟨r, s, lowS s, v, hder, hr, hs, rfl, by simp [compact], ?_, ?_, hhalf, hlow, hv, hrec⟩
    · rw [hpartR, read_scalar hr.2]
    · rw [hpartS, read_scalar (by omega)]
  · obtain ⟨v, hv, hrec⟩ := hsig.low hflip
    have hfind : (([0, 1] : List UInt8).find? fun v =>
        recovered lib digest (compact r (lowS s) v) = some expected).isSome := by
      rw [List.find?_isSome]
      exact ⟨v, by simpa using hv, by simpa using hrec⟩
    obtain ⟨v', hv'⟩ := Option.isSome_iff_exists.1 hfind
    have hr := hsig.rangeR
    have hs := hsig.rangeS
    refine ⟨compact r (lowS s) v', ?_⟩
    unfold ethereumSignature
    rw [hder]
    simp only [ne_eq, not_true_eq_false, if_false, Int.toNat_natCast]
    rw [if_neg (by omega), hv']

/-! ## A signature in the upper half -/

/-- A library whose key is told by the half of s and the recovery id. -/
def halvesLibrary : CurveLibrary where
  unmarshal der := .ok (some 5, some ((order - der.length : Nat) : Int), [])
  sigToPub _ signature :=
    some [bif decide (fromBigEndian ((signature.drop 32).take 32) ≤ order / 2) ==
      (signature.getLast? == some 0) then 1 else 2]
  pubkeyToAddress key := key
  addressHex _ := ""

theorem halves_recovered (digest : Bytes) (r s : Nat) (v : UInt8) (hs : s < order) :
    recovered halvesLibrary digest (compact r s v) = some [bif decide (s ≤ order / 2) == (v == 0) then 1 else 2] := by
  have hlast : (compact r s v).getLast? = some v := by rw [compact, List.getLast?_concat]
  simp only [recovered, halvesLibrary, (compact_parts r s v).2, hlast, read_scalar hs, Option.map_some]
  rfl

theorem halves_flip : FlipLaw halvesLibrary := by
  intro digest r s v hpos hlt hv
  have hodd : order = 2 * (order / 2) + 1 := by decide
  have hhalf : decide (order - s ≤ order / 2) = !decide (s ≤ order / 2) := by
    rw [← decide_not, decide_eq_decide]
    omega
  rw [halves_recovered _ _ _ _ hlt, halves_recovered _ _ _ _ (by omega), hhalf]
  rcases hv with rfl | rfl <;> cases decide (s ≤ order / 2) <;> rfl

/-- The key service's s is `order - 7`; what is returned has 5 and 7. -/
theorem upper_half_converted :
    FlipLaw halvesLibrary ∧ SignatureOf halvesLibrary [] [1] 5 (order - 7) ∧
      ∃ signature, ethereumSignature halvesLibrary [] (List.replicate 7 0) [1] = .ok signature ∧
        fromBigEndian (signature.take 32) = 5 ∧ fromBigEndian ((signature.drop 32).take 32) = 7 := by
  have hder : halvesLibrary.unmarshal (List.replicate 7 0) =
      .ok (some ((5 : Nat) : Int), some ((order - 7 : Nat) : Int), []) := rfl
  have hsig : SignatureOf halvesLibrary [] [1] 5 (order - 7) := by
    refine ⟨by decide, by decide, 1, .inr rfl, ?_⟩
    rw [halves_recovered _ _ _ _ (by decide)]
    rfl
  obtain ⟨hsound, hcomplete⟩ :=
    ethereumSignature_correct halvesLibrary halves_flip [] (List.replicate 7 0) [1]
  obtain ⟨signature, hok⟩ := hcomplete 5 (order - 7) hder hsig
  obtain ⟨r, s, low, v, hder', -, -, -, -, hr, hlow, hhalf, hcases, -⟩ := hsound signature hok
  obtain ⟨hfive, hseven⟩ := Prod.mk.inj (Except.ok.inj (hder.symm.trans hder'))
  have hr5 : (5 : Nat) = r := Int.ofNat.inj (Option.some.inj hfive)
  have hs7 : order - 7 = s := Int.ofNat.inj (Option.some.inj (Prod.mk.inj hseven).1)
  have hodd : order = 2 * (order / 2) + 1 := by decide
  have hbig : 100 < order := by decide
  exact ⟨halves_flip, hsig, signature, hok, by omega, by omega⟩

end Eth402.Signer
