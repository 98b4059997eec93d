/-
The identity of a payment (`PaymentID`, internal/x402/payment.go). Eleven fields, each preceded by its length, are
hashed; so when the hash does not collide, an identity stands for one tuple of fields, up to the letter case of the five
that are folded before they are hashed. The fields are texts, that is valid UTF-8: `ParseRequest` takes them from
decoded JSON, or prints them itself.
-/
import Eth402.Lib.Word
import Eth402.Verification.Parse
import Eth402.Policy.Words

namespace Eth402.X402

open Lib Settlement Verification Policy

/-! ## The hashed bytes -/

/-- `strings.ToLower` over a folding of single characters. -/
def foldCase (toLower : Char → Char) (s : String) : String := String.ofList ((chars s).map toLower)

/-- The fields as texts, as they are given. -/
def fieldTexts (f : IdentityFields) : List String :=
  [toString f.version, f.scheme, f.network, f.asset, f.source, f.target, f.value, f.validAfter, f.validBefore, f.nonce,
    f.signature]

/-- The fields as they are hashed. -/
def hashedTexts (toLower : Char → Char) (f : IdentityFields) : List String :=
  [toString f.version, f.scheme, f.network, foldCase toLower f.asset, foldCase toLower f.source,
    foldCase toLower f.target, f.value, f.validAfter, f.validBefore, foldCase toLower f.nonce,
    foldCase toLower f.signature]

/-- What is hashed: each field after its length. -/
def hashedBytes (toLower : Char → Char) (f : IdentityFields) : Bytes :=
  frames lengthBytes ((hashedTexts toLower f).map utf8)

/-- `PaymentID` over any folding of characters. -/
def identity (toLower : Char → Char) (lib : Libraries) (f : IdentityFields) : Option String :=
  if (hashedTexts toLower f).any (· = "") then none
  else if (hashedTexts toLower f).any (·.utf8ByteSize > 2 ^ 32 - 1) then none
  else some ("pay_" ++ hexEncode (lib.sha256 (hashedBytes toLower f)))

theorem length_utf8 (s : String) : (utf8 s).length = s.utf8ByteSize := by
  rw [utf8, Array.length_toList]; rfl

/-- The parser's identity is the one with the folding of ASCII letters. -/
theorem identity_toLower (lib : Libraries) (f : IdentityFields) : identity Char.toLower lib f = paymentID lib f := by
  have hbytes : hashedBytes Char.toLower f =
      (hashedTexts Char.toLower f).flatMap fun v => lengthBytes v.utf8ByteSize ++ utf8 v := by
    unfold hashedBytes frames
    rw [List.flatMap_map]
    simp only [length_utf8]
  unfold identity
  rw [hbytes]
  rfl

/-! ## Reading the bytes back -/

theorem lengthBytes_eq (n : Nat) : lengthBytes n = bigEndian 4 n := by
  simp [lengthBytes, bigEndian, List.range_succ]

theorem length_lengthBytes (n : Nat) : (lengthBytes n).length = 4 := rfl

theorem lengthBytes_inj (m : Nat) (hm : m < 2 ^ 32) (n : Nat) (hn : n < 2 ^ 32) (h : lengthBytes m = lengthBytes n) :
    m = n := by
  have := congrArg fromBigEndian h
  rw [lengthBytes_eq, lengthBytes_eq, fromBigEndian_bigEndian, fromBigEndian_bigEndian] at this
  rwa [Nat.mod_eq_of_lt (by omega), Nat.mod_eq_of_lt (by omega)] at this

theorem utf8_inj {s t : String} (h : utf8 s = utf8 t) : s = t :=
  String.toByteArray_inj.1 (ByteArray.ext (Array.toList_inj.1 h))

variable {toLower : Char → Char}

theorem hashedTexts_eq {f g : IdentityFields}
    (hf : ∀ v ∈ hashedTexts toLower f, v.utf8ByteSize < 2 ^ 32)
    (hg : ∀ v ∈ hashedTexts toLower g, v.utf8ByteSize < 2 ^ 32)
    (h : hashedBytes toLower f = hashedBytes toLower g) : hashedTexts toLower f = hashedTexts toLower g := by
  have small : ∀ {vs : List String}, (∀ v ∈ vs, v.utf8ByteSize < 2 ^ 32) → ∀ x ∈ vs.map utf8, x.length < 2 ^ 32 := by
    intro vs hvs x hx
    obtain ⟨v, hv, rfl⟩ := List.mem_map.1 hx
    rw [length_utf8]
    exact hvs v hv
  have hparts := frames_inj length_lengthBytes (by decide) lengthBytes_inj (small hf) (small hg) h
  exact List.map_injective_iff.2 (fun _ _ => utf8_inj) hparts

theorem identity_some {lib : Libraries} {f : IdentityFields} {i : String} (h : identity toLower lib f = some i) :
    (∀ v ∈ hashedTexts toLower f, v.utf8ByteSize < 2 ^ 32) ∧
      i = "pay_" ++ hexEncode (lib.sha256 (hashedBytes toLower f)) := by
  unfold identity at h
  split at h
  · cases h
  split at h
  · cases h
  · rename_i hsize
    refine ⟨fun v hv => ?_, (Option.some.inj h).symm⟩
    have hle := List.any_eq_false.1 (Bool.not_eq_true _ ▸ hsize) v hv
    rw [decide_eq_true_eq] at hle
    omega

/-! ## Which fields share an identity -/

/-- The fields agree: six of them as they are given, five of them up to letter case. -/
structure SameFields (toLower : Char → Char) (f g : IdentityFields) : Prop where
  version : f.version = g.version
  scheme : f.scheme = g.scheme
  network : f.network = g.network
  value : f.value = g.value
  validAfter : f.validAfter = g.validAfter
  validBefore : f.validBefore = g.validBefore
  asset : foldCase toLower f.asset = foldCase toLower g.asset
  source : foldCase toLower f.source = foldCase toLower g.source
  target : foldCase toLower f.target = foldCase toLower g.target
  nonce : foldCase toLower f.nonce = foldCase toLower g.nonce
  signature : foldCase toLower f.signature = foldCase toLower g.signature

theorem toString_nat_inj {m n : Nat} (h : toString m = toString n) : m = n := by
  have hm : setString10 (toString (m : Int)) = setString10 (toString (n : Int)) := congrArg setString10 h
  rw [setString10_natCast, setString10_natCast] at hm
  exact Int.ofNat.inj (Option.some.inj hm)

theorem sameFields_iff {f g : IdentityFields} :
    SameFields toLower f g ↔ hashedTexts toLower f = hashedTexts toLower g := by
  constructor
  · intro h
    unfold hashedTexts
    rw [h.version, h.scheme, h.network, h.value, h.validAfter, h.validBefore, h.asset, h.source, h.target, h.nonce,
      h.signature]
  · intro h
    simp only [hashedTexts, List.cons.injEq, and_true] at h
    obtain ⟨hversion, hscheme, hnetwork, hasset, hsource, htarget, hvalue, hafter, hbefore, hnonce, hsignature⟩ := h
    exact ⟨toString_nat_inj hversion, hscheme, hnetwork, hvalue, hafter, hbefore, hasset, hsource, htarget, hnonce,
      hsignature⟩

/-- From `f` to `g` characters move between the neighbouring fields `k` and `k + 1`. -/
def Shifted (f g : IdentityFields) (k : Nat) : Prop :=
  ∃ a b a' b', (fieldTexts f)[k]? = some a ∧ (fieldTexts f)[k + 1]? = some b ∧ (fieldTexts g)[k]? = some a' ∧
    (fieldTexts g)[k + 1]? = some b' ∧ a ++ b = a' ++ b' ∧ a ≠ a'

/-- Folding keeps the number of characters of every field. -/
theorem lengths_eq {f g : IdentityFields} (h : hashedTexts toLower f = hashedTexts toLower g) :
    (fieldTexts f).map (fun s => (chars s).length) = (fieldTexts g).map (fun s => (chars s).length) := by
  have hfold : ∀ s, (chars (foldCase toLower s)).length = (chars s).length := fun s => by
    rw [foldCase, chars_ofList, List.length_map]
  have hlen : ∀ f, (hashedTexts toLower f).map (fun s => (chars s).length) =
      (fieldTexts f).map (fun s => (chars s).length) := fun f => by
    simp only [hashedTexts, fieldTexts, List.map_cons, List.map_nil, hfold]
  rw [← hlen f, ← hlen g, h]

theorem not_shifted {f g : IdentityFields} (h : hashedTexts toLower f = hashedTexts toLower g) (k : Nat) :
    ¬ Shifted f g k := by
  rintro ⟨a, b, a', b', ha, -, ha', -, happend, hne⟩
  have hlen : (chars a).length = (chars a').length := by
    have := congrArg (fun l => l[k]?) (lengths_eq h)
    simp only [List.getElem?_map, ha, ha', Option.map_some, Option.some.injEq] at this
    exact this
  have hchars := congrArg String.toList happend
  rw [String.toList_append, String.toList_append] at hchars
  rw [chars_eq, chars_eq] at hlen
  exact hne (String.toList_inj.1 (List.append_inj hchars hlen).1)

/-- Two tuples with an identity, whose hashed bytes do not collide, have the same identity exactly when they agree on
the fields taken as given and, up to letter case, on the folded ones; and no two tuples that differ by characters moved
between neighbouring fields share one. -/
theorem identity_eq_iff (toLower : Char → Char) (lib : Libraries) (f g : IdentityFields) (i j : String)
    (hf : identity toLower lib f = some i) (hg : identity toLower lib g = some j)
    (hsha : lib.sha256 (hashedBytes toLower f) = lib.sha256 (hashedBytes toLower g) →
      hashedBytes toLower f = hashedBytes toLower g) :
    (i = j ↔ SameFields toLower f g) ∧ ∀ k, Shifted f g k → i ≠ j := by
  obtain ⟨hfsize, rfl⟩ := identity_some hf
  obtain ⟨hgsize, rfl⟩ := identity_some hg
  have hiff : "pay_" ++ hexEncode (lib.sha256 (hashedBytes toLower f)) =
      "pay_" ++ hexEncode (lib.sha256 (hashedBytes toLower g)) ↔ hashedTexts toLower f = hashedTexts toLower g := by
    constructor
    · intro h
      exact hashedTexts_eq hfsize hgsize (hsha (hexEncode_inj ((String.append_right_inj _).1 h)))
    · intro h
      unfold hashedBytes
      rw [h]
  refine ⟨hiff.trans sameFields_iff.symm, fun k hshift heq => ?_⟩
  exact not_shifted (hiff.1 heq) k hshift

/-- Two spellings of one payment, and a payment with a digit moved from the value to the field after it; the sample
library hashes bytes to themselves. -/
def sampleFields (asset value after : String) : IdentityFields :=
  ⟨2, "exact", "eip155:1", asset, "0xaa", "0xbb", value, after, "9", "0x01", "0x02"⟩

theorem identity_eq_iff_sample :
    ∃ i j l, identity Char.toLower policyLib (sampleFields "0xAB" "12" "3") = some i ∧
      identity Char.toLower policyLib (sampleFields "0xab" "12" "3") = some j ∧
      identity Char.toLower policyLib (sampleFields "0xab" "1" "23") = some l ∧ i = j ∧ j ≠ l := by
  have hf : ∃ i, identity Char.toLower policyLib (sampleFields "0xAB" "12" "3") = some i := ⟨_, rfl⟩
  have hg : ∃ j, identity Char.toLower policyLib (sampleFields "0xab" "12" "3") = some j := ⟨_, rfl⟩
  have hh : ∃ l, identity Char.toLower policyLib (sampleFields "0xab" "1" "23") = some l := ⟨_, rfl⟩
  have hsha : ∀ bs, policyLib.sha256 bs = bs := fun _ => rfl
  obtain ⟨i, hi⟩ := hf
  obtain ⟨j, hj⟩ := hg
  obtain ⟨l, hl⟩ := hh
  refine ⟨i, j, l, hi, hj, hl, ?_, ?_⟩
  · refine (identity_eq_iff _ _ _ _ i j hi hj fun h => by rwa [hsha, hsha] at h).1.2 ?_
    exact ⟨rfl, rfl, rfl, rfl, rfl, rfl, by decide +kernel, rfl, rfl, rfl, rfl⟩
  · refine (identity_eq_iff _ _ _ _ j l hj hl fun h => by rwa [hsha, hsha] at h).2 6 ?_
    exact ⟨"12", "3", "1", "23", rfl, rfl, rfl, rfl, by decide, by decide⟩

end Eth402.X402
