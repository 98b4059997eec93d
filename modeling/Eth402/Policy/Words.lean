/-
The boundary's calldata read back. Each argument has its word, and the words give the authorization back, but for a
value that does not fit its word: the builder takes any positive decimal, and the encoder writes the low 256 bits.
-/
import Eth402.Lib.Word
import Eth402.Store.Rebuild

namespace Eth402.Policy

open Lib Settlement Store Verification

variable {lib : Libraries} {auth auth' : Authorization} {args args' : TransferArguments} {calldata : Bytes}

/-! ## The encoder -/

/-- The selector of `transferWithAuthorization` with v, r and s. -/
def transferWithAuthorizationSelector : Bytes := [0xe3, 0xee, 0x16, 0x0e]

/-- The arguments have the sizes of their Go types; an integer may be of any size. -/
structure Sized (a : TransferArguments) : Prop where
  addresses : a.source.length = 20 ∧ a.target.length = 20
  integers : 0 ≤ a.value ∧ 0 ≤ a.validAfter ∧ 0 ≤ a.validBefore
  words : a.nonce.length = 32 ∧ a.r.length = 32 ∧ a.s.length = 32

/-- The encoder writes the selector and one word per argument, an integer as its low 256 bits. -/
structure AbiLaws (lib : Libraries) : Prop where
  pack : ∀ a, Sized a → lib.packTransferWithAuthorization a =
    .ok (transferWithAuthorizationSelector ++ (argumentWords a).flatten)

theorem length_argumentWords (h : Sized args) : ∀ w ∈ argumentWords args, w.length = 32 := by
  obtain ⟨⟨hsource, htarget⟩, -, hnonce, hr, hs⟩ := h
  simp [argumentWords, addressWord, uintWord, hsource, htarget, hnonce, hr, hs]

/-! ## Reading words back -/

/-- The `i`-th argument word of a call. -/
def callWord (calldata : Bytes) (i : Nat) : Bytes := chunk 32 i (calldata.drop 4)

/-- The arguments that the nine words of a call hold. -/
def decodeCall (calldata : Bytes) : TransferArguments where
  source := (callWord calldata 0).drop 12
  target := (callWord calldata 1).drop 12
  value := fromBigEndian (callWord calldata 2)
  validAfter := fromBigEndian (callWord calldata 3)
  validBefore := fromBigEndian (callWord calldata 4)
  nonce := callWord calldata 5
  v := UInt8.ofNat (fromBigEndian (callWord calldata 6))
  r := callWord calldata 7
  s := callWord calldata 8

theorem fromBigEndian_uintWord {n : Int} (h : 0 ≤ n) : (fromBigEndian (uintWord n) : Int) = n % 2 ^ 256 := by
  change ((fromBigEndian (bigEndian 32 n.toNat) : Nat) : Int) = _
  rw [fromBigEndian_bigEndian, Int.natCast_mod, Int.toNat_of_nonneg h]
  rfl

theorem callWord_argumentWords (h : Sized args) {i : Nat} {w : Bytes} (hi : (argumentWords args)[i]? = some w) :
    callWord (transferWithAuthorizationSelector ++ (argumentWords args).flatten) i = w :=
  chunk_flatten (length_argumentWords h) hi

/-- The words of sized arguments give them back, the integers modulo the size of a word. -/
theorem decodeCall_words (h : Sized args) :
    decodeCall (transferWithAuthorizationSelector ++ (argumentWords args).flatten) =
      { args with
        value := args.value % 2 ^ 256
        validAfter := args.validAfter % 2 ^ 256
        validBefore := args.validBefore % 2 ^ 256 } := by
  obtain ⟨hvalue, hafter, hbefore⟩ := h.integers
  have hv : UInt8.ofNat (fromBigEndian (uintWord (args.v.toNat : Int))) = args.v := by
    have hmod := fromBigEndian_uintWord (Int.natCast_nonneg args.v.toNat)
    have hlt := args.v.toNat_lt
    have hsame : fromBigEndian (uintWord (args.v.toNat : Int)) = args.v.toNat := by omega
    rw [hsame, UInt8.ofNat_toNat]
  unfold decodeCall
  rw [callWord_argumentWords h (i := 0) rfl, callWord_argumentWords h (i := 1) rfl,
    callWord_argumentWords h (i := 2) rfl, callWord_argumentWords h (i := 3) rfl,
    callWord_argumentWords h (i := 4) rfl, callWord_argumentWords h (i := 5) rfl,
    callWord_argumentWords h (i := 6) rfl, callWord_argumentWords h (i := 7) rfl,
    callWord_argumentWords h (i := 8) rfl, hv, fromBigEndian_uintWord hvalue, fromBigEndian_uintWord hafter,
    fromBigEndian_uintWord hbefore]
  rfl

/-! ## What an authorization states -/

/-- The arguments an authorization states: addresses and words as bytes, numbers as integers, and the recovery id in the
form the contract expects. -/
structure States (auth : Authorization) (args : TransferArguments) : Prop where
  source : hexDecode (addressDigits auth.source) = some args.source
  target : hexDecode (addressDigits auth.target) = some args.target
  value : setString10 auth.value = some args.value
  validAfter : setString10 auth.validAfter = some args.validAfter
  validBefore : setString10 auth.validBefore = some args.validBefore
  nonce : trimmedBytes auth.nonce = some args.nonce
  signature : ∃ v, trimmedBytes auth.signature = some (args.r ++ args.s ++ [v]) ∧ args.v = normalizedV v
  recovery : args.v = 27 ∨ args.v = 28

theorem decodeFixed32_ok {value : String} {raw : Bytes} (h : decodeFixed32 value = .ok raw) :
    trimmedBytes value = some raw ∧ raw.length = 32 := by
  unfold decodeFixed32 at h
  split at h
  · split at h
    · cases h
      exact ⟨‹_›, ‹_›⟩
    · cases h
  · cases h

theorem splitSignature_ok {signature : String} {v : UInt8} {r s : Bytes}
    (h : splitSignature signature = .ok (v, r, s)) :
    (∃ v₀, trimmedBytes signature = some (r ++ s ++ [v₀]) ∧ v = normalizedV v₀) ∧ (v = 27 ∨ v = 28) ∧
      r.length = 32 ∧ s.length = 32 := by
  unfold splitSignature at h
  split at h
  · rename_i raw hraw
    split at h
    · cases h
    · rename_i hlen
      rw [not_not] at hlen
      -- a signature is its two words and the recovery id
      have hsplit : raw = raw.take 32 ++ (raw.drop 32).take 32 ++ [raw.getD 64 0] := by
        have hlast : raw.drop 64 = [raw.getD 64 0] := by
          rw [List.drop_eq_getElem_cons (by omega), List.drop_eq_nil_of_le (by omega), List.getD_eq_getElem?_getD,
            List.getElem?_eq_getElem (by omega), Option.getD_some]
        rw [List.append_assoc, ← hlast, show raw.drop 64 = (raw.drop 32).drop 32 by rw [List.drop_drop],
          List.take_append_drop, List.take_append_drop]
      simp only at h
      split at h
      · rename_i hv
        cases h
        refine ⟨⟨_, by rw [← hsplit]; exact hraw, by unfold normalizedV; rw [if_pos hv]⟩, ?_, by simp; omega, by
          simp; omega⟩
        rcases hv with hv | hv <;> rw [hv] <;> decide
      · split at h
        · rename_i hv hv'
          cases h
          exact ⟨⟨_, by rw [← hsplit]; exact hraw, by unfold normalizedV; rw [if_neg hv]⟩, hv', by simp; omega, by
            simp; omega⟩
        · cases h
  · cases h

theorem of_filter_some {α : Type} {p : α → Bool} {o : Option α} {a : α} (h : o.filter p = some a) :
    o = some a ∧ p a = true := by
  simpa [Option.filter_eq_some_iff] using h

theorem of_parseInt64 {s : String} {n : Int} (h : parseInt64 s = some n) : setString10 s = some n ∧ n < 2 ^ 63 := by
  obtain ⟨hs, hn⟩ := of_filter_some h
  exact ⟨hs, (of_decide_eq_true hn).2⟩

/-- What the builder packs is what the authorization states. -/
theorem transferWithAuthorizationData_ok (geth : GethLaws lib)
    (h : transferWithAuthorizationData lib auth = .ok calldata) :
    ∃ args, States auth args ∧ Sized args ∧ 0 < args.value ∧ args.validAfter < 2 ^ 63 ∧ args.validBefore < 2 ^ 63 ∧
      lib.packTransferWithAuthorization args = .ok calldata := by
  unfold transferWithAuthorizationData at h
  split at h
  · cases h
  rename_i haddress
  simp only [not_or, not_not] at haddress
  obtain ⟨source, hsource, hslen⟩ := (geth.isHexAddress _).1 haddress.1
  obtain ⟨target, htarget, htlen⟩ := (geth.isHexAddress _).1 haddress.2
  rw [geth.hexToAddress _ _ hsource hslen, geth.hexToAddress _ _ htarget htlen] at h
  split at h
  · cases h
  rename_i value hvalue
  split at h
  · cases h
  rename_i after hafter
  split at h
  · cases h
  rename_i before hbefore
  obtain ⟨hvalue, hpos⟩ := of_filter_some hvalue
  obtain ⟨hafter, hnonneg⟩ := of_filter_some hafter
  obtain ⟨hbefore, hlater⟩ := of_filter_some hbefore
  obtain ⟨hafter, hafter63⟩ := of_parseInt64 hafter
  obtain ⟨hbefore, hbefore63⟩ := of_parseInt64 hbefore
  obtain ⟨nonce, hnonce, h⟩ := except_bind_ok h
  obtain ⟨⟨v, r, s⟩, hsig, h⟩ := except_bind_ok h
  obtain ⟨hnonce, hnlen⟩ := decodeFixed32_ok (except_mapError_ok hnonce)
  obtain ⟨hsig, hv, hr, hs⟩ := splitSignature_ok hsig
  have hpos' : 0 < value := of_decide_eq_true hpos
  have hnonneg' : 0 ≤ after := of_decide_eq_true hnonneg
  have hlater' : after < before := of_decide_eq_true hlater
  refine ⟨⟨source, target, value, after, before, nonce, v, r, s⟩,
    ⟨hsource, htarget, hvalue, hafter, hbefore, hnonce, hsig, hv⟩, ⟨⟨hslen, htlen⟩, ⟨?_, ?_, ?_⟩, hnlen, hr, hs⟩,
    hpos', hafter63, hbefore63, except_mapError_ok h⟩
  · exact le_of_lt hpos'
  · exact hnonneg'
  · change 0 ≤ before
    omega

/-- An accepted authorization is read back from its calldata exactly when its value fits a word, and two whose values do
have the same calldata only when they state the same payment. -/
theorem calldata_states_authorization (geth : GethLaws lib) (abi : AbiLaws lib)
    (h : transferWithAuthorizationData lib auth = .ok calldata) :
    ∃ args, States auth args ∧ (decodeCall calldata = args ↔ args.value < 2 ^ 256) ∧
      ∀ auth', transferWithAuthorizationData lib auth' = .ok calldata →
        ∃ args', States auth' args' ∧ (args.value < 2 ^ 256 → args'.value < 2 ^ 256 → args' = args) := by
  have hread : ∀ {auth}, transferWithAuthorizationData lib auth = .ok calldata → ∃ args, States auth args ∧
      0 < args.value ∧ decodeCall calldata = { args with value := args.value % 2 ^ 256 } := by
    intro auth h
    obtain ⟨args, hstates, hsized, hpos, hafter, hbefore, hpack⟩ := transferWithAuthorizationData_ok geth h
    rw [abi.pack args hsized] at hpack
    obtain ⟨-, hafter0, hbefore0⟩ := hsized.integers
    refine ⟨args, hstates, hpos, ?_⟩
    rw [← Except.ok.inj hpack, decodeCall_words hsized, Int.emod_eq_of_lt hafter0 (by omega),
      Int.emod_eq_of_lt hbefore0 (by omega)]
  -- a value below the size of a word is its own remainder
  have hfits : ∀ args : TransferArguments, 0 < args.value → args.value < 2 ^ 256 →
      { args with value := args.value % 2 ^ 256 } = args := by
    intro args hpos hlt
    rw [Int.emod_eq_of_lt (le_of_lt hpos) hlt]
  obtain ⟨args, hstates, hpos, hdecode⟩ := hread h
  refine ⟨args, hstates, ?_, fun auth' h' => ?_⟩
  · rw [hdecode]
    constructor
    · intro heq
      rw [← congrArg TransferArguments.value heq]
      exact Int.emod_lt_of_pos _ (by decide)
    · exact hfits args hpos
  · obtain ⟨args', hstates', hpos', hdecode'⟩ := hread h'
    refine ⟨args', hstates', fun hlt hlt' => ?_⟩
    rw [← hfits args hpos hlt, ← hfits args' hpos' hlt', ← hdecode, ← hdecode']

/-! ## A value that does not fit -/

/-- Libraries with go-ethereum's address helpers and encoder. -/
def policyLib : Libraries where
  keccak256 raw := raw
  sha256 bs := bs
  isHexAddress s := (hexDecode (addressDigits s)).any (·.length = 20)
  hexToAddress s := (hexDecode (addressDigits s)).getD []
  packTransferWithAuthorization a := .ok (transferWithAuthorizationSelector ++ (argumentWords a).flatten)
  deepEqual _ _ := true
  isPermit2Payload _ := false
  isEIP3009Payload _ := true
  payloadFromMap _ := none
  marshalPayload _ := none
  reasonText _ := ""

theorem policyLib_laws : GethLaws policyLib where
  isHexAddress s := by simp only [policyLib, Option.any_eq_true, decide_eq_true_eq]
  hexToAddress s bs h _ := by simp only [policyLib, h, Option.getD_some]

theorem policyLib_packs : AbiLaws policyLib := ⟨fun _ _ => rfl⟩

def hexDigits (n : Nat) (c : Char) : String := String.ofList ('0' :: 'x' :: List.replicate n c)

def sampleAuthorization (value : String) : Authorization :=
  ⟨hexDigits 40 '1', hexDigits 40 '2', value, "0", "1", hexDigits 64 'a', hexDigits 128 'b' ++ "00"⟩

/-- The calldata both sample authorizations are given below. -/
def sampleCalldata : Bytes := transferWithAuthorizationSelector ++ (argumentWords
  ⟨List.replicate 20 0x11, List.replicate 20 0x22, 1, 0, 1, List.replicate 32 0xaa, 27, List.replicate 32 0xbb,
    List.replicate 32 0xbb⟩).flatten

theorem sampleAuthorization_built : transferWithAuthorizationData policyLib
    (sampleAuthorization "1") = .ok sampleCalldata := by
  decide +kernel

theorem calldata_states_authorization_sample : ∃ args, States (sampleAuthorization "1") args ∧ args.value = 1 ∧
    decodeCall sampleCalldata = args := by
  obtain ⟨args, hstates, hiff, -⟩ := calldata_states_authorization policyLib_laws policyLib_packs
    sampleAuthorization_built
  have hvalue : args.value = 1 := Option.some.inj (hstates.value.symm.trans (by decide +kernel))
  exact ⟨args, hstates, hvalue, hiff.2 (by omega)⟩

/-- A payment of 1 and one of 2 ^ 256 + 1 are signed as the same call. -/
theorem large_value_collides : ∃ large, setString10 large = some (2 ^ 256 + 1) ∧
    transferWithAuthorizationData policyLib (sampleAuthorization "1") = .ok sampleCalldata ∧
    transferWithAuthorizationData policyLib (sampleAuthorization large) = .ok sampleCalldata ∧
    (decodeCall sampleCalldata).value = 1 := by
  refine ⟨"115792089237316195423570985008687907853269984665640564039457584007913129639937", ?_⟩
  decide +kernel

end Eth402.Policy
