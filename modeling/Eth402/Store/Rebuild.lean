/-
From an accepted request to calldata: the authorization is stored in columns, read back, and encoded twice, by the
settlement service and by the policy boundary. Both builders give the same nine words for it, as long as the addresses
carry their prefix: a bare address comes back from its column with blanks.

What the ABI encoder does with arguments that fit their types enters as the hypothesis `PackLaws`.
-/
import Eth402.Settlement.Calldata
import Eth402.Store.Lifecycle
import Eth402.Verification.Canonical

namespace Eth402.Store

open Lib Settlement Verification

variable {lib : Libraries}

/-! ## Calldata words -/

/-- A number as a word of 32 bytes. -/
def uintWord (n : Int) : Bytes := (List.range 32).reverse.map fun i => UInt8.ofNat (n.toNat / 256 ^ i)

def addressWord (a : Bytes) : Bytes := List.replicate 12 0 ++ a

/-- The argument words of a call. -/
def argumentWords (a : TransferArguments) : List Bytes :=
  [addressWord a.source, addressWord a.target, uintWord a.value, uintWord a.validAfter, uintWord a.validBefore, a.nonce,
    uintWord a.v.toNat, a.r, a.s]

/-- The arguments are values of their types. -/
structure Fits (a : TransferArguments) : Prop where
  addresses : a.source.length = 20 ∧ a.target.length = 20
  value : 0 ≤ a.value ∧ a.value ≤ maxUint256
  window : (0 ≤ a.validAfter ∧ a.validAfter ≤ maxUint256) ∧ 0 ≤ a.validBefore ∧ a.validBefore ≤ maxUint256
  words : a.nonce.length = 32 ∧ a.r.length = 32 ∧ a.s.length = 32

/-- The encoder writes the selector and one word per argument. -/
structure PackLaws (lib : Libraries) (selector : Bytes) : Prop where
  pack : ∀ a, Fits a → lib.packTransferWithAuthorization a = .ok (selector ++ (argumentWords a).flatten)

/-! ## The authorization a request denotes -/

/-- The recovery id in the form the contract expects. -/
def normalizedV (v : UInt8) : UInt8 := if v = 0 ∨ v = 1 then v + 27 else v

/-- The arguments an accepted payload denotes. -/
structure Arguments (lib : Libraries) (e : ExactPayload) (a : TransferArguments) : Prop where
  source : a.source = lib.hexToAddress e.authorization.source
  target : a.target = lib.hexToAddress e.authorization.target
  value : (unsignedDecimal e.authorization.value).map Int.ofNat = some a.value
  validAfter : (unsignedDecimal e.authorization.validAfter).map Int.ofNat = some a.validAfter
  validBefore : (unsignedDecimal e.authorization.validBefore).map Int.ofNat = some a.validBefore
  nonce : trimmedBytes e.authorization.nonce = some a.nonce
  signature : ∃ raw, trimmedBytes e.signature = some raw ∧ a.v = normalizedV (raw.getD 64 0) ∧ a.r = raw.take 32 ∧
    a.s = (raw.drop 32).take 32

/-- The row holds the columns of the parsed payment, with the signature its intent wrote. -/
structure Stored (p : ParsedPayment) (q : Payment) : Prop where
  payer : q.payerAddress = some (padTo 42 p.payer)
  recipient : q.recipientAddress = some (padTo 42 p.recipient)
  amount : setString10 p.amount = some q.amountAtomic
  nonce : q.authorizationNonce = some (padTo 66 p.nonce)
  window : q.validAfter = some p.validAfter ∧ q.validBefore = some p.validBefore
  signature : q.payerSignature = some (padTo 132 p.signature)

theorem stored_iff {p : ParsedPayment} {q : Payment} : Stored p q ↔
    (q.payerAddress = some (padTo 42 p.payer) ∧ q.recipientAddress = some (padTo 42 p.recipient)) ∧
      setString10 p.amount = some q.amountAtomic ∧ q.authorizationNonce = some (padTo 66 p.nonce) ∧
      (q.validAfter = some p.validAfter ∧ q.validBefore = some p.validBefore) ∧
      q.payerSignature = some (padTo 132 p.signature) :=
  ⟨fun h => ⟨⟨h.payer, h.recipient⟩, h.amount, h.nonce, h.window, h.signature⟩,
    fun ⟨⟨h₁, h₂⟩, h₃, h₄, h₅, h₆⟩ => ⟨h₁, h₂, h₃, h₄, h₅, h₆⟩⟩

instance (p : ParsedPayment) (q : Payment) : Decidable (Stored p q) := decidable_of_iff _ stored_iff.symm

/-! ## Text that comes back -/

theorem has0xPrefix_hexText0x (bs : Bytes) : has0xPrefix (hexText0x true bs) = true := by
  unfold has0xPrefix
  rw [chars_hexText0x]
  rfl

/-- The digits of a canonical address. -/
theorem digits_hexText0x (bs : Bytes) : hexDecode (addressDigits (hexText0x true bs)) = some bs := by
  unfold addressDigits
  rw [has0xPrefix_hexText0x, if_pos rfl, chars_hexText0x]
  exact hexDecode_hexChars bs

theorem trimmedBytes_hexText0x (bs : Bytes) : trimmedBytes (hexText0x true bs) = some bs := by
  have hp : hasPrefix "0x" (hexText0x true bs) = true := by
    unfold hasPrefix
    rw [chars_hexText0x]
    exact decide_eq_true ⟨hexChars bs, rfl⟩
  unfold trimmedBytes
  rw [if_pos hp, chars_hexText0x]
  exact hexDecode_hexChars bs

/-- A text that fills its column comes back as it is. -/
theorem padTo_hexText0x (bs : Bytes) : padTo (2 * bs.length + 2) (hexText0x true bs) = hexText0x true bs :=
  padTo_of_length (Nat.le_of_eq (length_hexText0x true bs).symm)

theorem hexDecode_blank : ∀ {cs : List Char}, ' ' ∈ cs → hexDecode cs = none
  | [_], _ => rfl
  | a :: b :: cs, h => by
    have blank : hexVal ' ' = none := by decide
    simp only [List.mem_cons] at h
    rcases h with rfl | rfl | h
    · simp [hexDecode, blank]
    · simp [hexDecode, blank]
    · simp [hexDecode, hexDecode_blank h]

/-- A bare address comes back with blanks and is refused. -/
theorem padded_bare_refused (geth : GethLaws lib) {bs : Bytes} (hlen : bs.length = 20) :
    lib.isHexAddress (padTo 42 (hexText0x false bs)) = false := by
  have hchars : chars (padTo 42 (hexText0x false bs)) = hexChars bs ++ [' ', ' '] := by
    unfold padTo
    rw [chars_ofList, length_hexText0x, chars_hexText0x, hlen]
    rfl
  have hblank : ∀ cs : List Char, cs = addressDigits (padTo 42 (hexText0x false bs)) → ' ' ∈ cs := by
    rintro cs rfl
    unfold addressDigits
    rw [hchars]
    split
    · have hdrop : (hexChars bs ++ [' ', ' ']).drop 2 = (hexChars bs).drop 2 ++ [' ', ' '] :=
        List.drop_append_of_le_length (by rw [length_hexChars]; omega)
      rw [hdrop]; simp
    · simp
  rw [Bool.eq_false_iff]
  intro h
  obtain ⟨raw, hraw, -⟩ := (geth.isHexAddress _).1 h
  rw [hexDecode_blank (hblank _ rfl)] at hraw
  cases hraw

/-- An address comes back from its column, and is accepted, exactly when it carries its prefix. -/
theorem stored_address (geth : GethLaws lib) {s : String} (h : lib.isHexAddress s = true) :
    (lib.isHexAddress (padTo 42 (lower s)) = true ↔ has0xPrefix s = true) ∧
      (has0xPrefix s = true → lib.hexToAddress (padTo 42 (lower s)) = lib.hexToAddress s) ∧
      (lib.hexToAddress s).length = 20 := by
  obtain ⟨bs, hbs, hlen⟩ := (geth.isHexAddress s).1 h
  rw [geth.hexToAddress s bs hbs hlen, lower_of_digits hbs]
  cases hp : has0xPrefix s with
  | true =>
    have hpad : padTo 42 (hexText0x true bs) = hexText0x true bs := by
      have := padTo_hexText0x bs
      rwa [hlen] at this
    rw [hpad]
    exact ⟨⟨fun _ => rfl, fun _ => (geth.isHexAddress _).2 ⟨bs, digits_hexText0x bs, hlen⟩⟩,
      fun _ => geth.hexToAddress _ bs (digits_hexText0x bs) hlen, hlen⟩
  | false =>
    rw [padded_bare_refused geth hlen]
    exact ⟨Iff.rfl, fun h => (by cases h), hlen⟩

/-! ## The builders -/

/-- What both builders check and decode of the nonce and the signature. -/
theorem decoded_fields {nonce signature : Bytes} (hn : nonce.length = 32) (hs : signature.length = 65)
    (hv : signature.getD 64 0 ∈ [(0 : UInt8), 1, 27, 28]) :
    Policy.decodeFixed32 (padTo 66 (hexText0x true nonce)) = .ok nonce ∧
      Policy.splitSignature (padTo 132 (hexText0x true signature)) =
        .ok (normalizedV (signature.getD 64 0), signature.take 32, (signature.drop 32).take 32) := by
  have hpadn : padTo 66 (hexText0x true nonce) = hexText0x true nonce := by
    have := padTo_hexText0x nonce
    rwa [hn] at this
  have hpads : padTo 132 (hexText0x true signature) = hexText0x true signature := by
    have := padTo_hexText0x signature
    rwa [hs] at this
  rw [hpadn, hpads]
  constructor
  · unfold Policy.decodeFixed32
    rw [trimmedBytes_hexText0x]
    exact if_pos hn
  · unfold Policy.splitSignature normalizedV
    rw [trimmedBytes_hexText0x]
    simp only [hs, ne_eq, not_true_eq_false, if_false]
    simp only [List.mem_cons, List.not_mem_nil, or_false] at hv
    by_cases h01 : signature.getD 64 0 = 0 ∨ signature.getD 64 0 = 1
    · rw [if_pos h01, if_pos h01]
    · rw [if_neg h01, if_neg h01, if_pos ((or_assoc.2 hv).resolve_left h01)]

theorem unixSeconds_unixTime (n : Int) : unixSeconds (unixTime n) = n := Int.mul_ediv_cancel _ (by decide)

/-- A second up to the year 9999 passes through the wire. -/
theorem parseInt64_seconds {n : Nat} (h : validUnix n = true) :
    parseInt64 (toString (unixSeconds (unixTime n))) = some (n : Int) := by
  unfold validUnix at h
  have hle : n ≤ 253402300799 := by simpa using h
  have hrange : -2 ^ 63 ≤ (n : Int) ∧ (n : Int) < 2 ^ 63 := ⟨by omega, by omega⟩
  unfold parseInt64
  rw [unixSeconds_unixTime, setString10_natCast, Option.filter_some, if_pos (decide_eq_true hrange)]

section Builders

variable {selector : Bytes} {request : Request} {p : ParsedPayment} {e : ExactPayload} {value after before : Nat}
  {q : Payment}

theorem Stored.authorization (hs : Stored p q) : q.authorization = .ok ⟨padTo 42 p.payer, padTo 42 p.recipient,
    toString q.amountAtomic, p.validAfter, p.validBefore, padTo 66 p.nonce, padTo 132 p.signature⟩ := by
  unfold Payment.authorization
  rw [hs.payer, hs.recipient, hs.nonce, hs.window.1, hs.window.2, hs.signature]

/-- Neither builder accepts an address that does not read back. -/
theorem refused_address {auth : Settlement.Authorization}
    (h : ¬ (lib.isHexAddress auth.source = true ∧ lib.isHexAddress auth.target = true)) (data : Bytes) :
    Settlement.transferWithAuthorizationData lib auth ≠ .ok data := by
  unfold Settlement.transferWithAuthorizationData
  rw [if_pos (by rw [← not_and_or]; exact h)]
  exact fun h => by cases h

/-- With both prefixes the columns read back as the accepted arguments, and both builders encode them. -/
theorem built_of_prefixes (geth : GethLaws lib) (abi : PackLaws lib selector)
    (hacc : Accepted lib request p e value after before) (hs : Stored p q)
    (hv : ∀ raw, trimmedBytes e.signature = some raw → raw.getD 64 0 ∈ [(0 : UInt8), 1, 27, 28])
    (hsource : has0xPrefix e.authorization.source = true) (htarget : has0xPrefix e.authorization.target = true) :
    ∃ auth args, q.authorization = .ok auth ∧ Arguments lib e args ∧
      Settlement.transferWithAuthorizationData lib auth = .ok (selector ++ (argumentWords args).flatten) ∧
      Policy.transferWithAuthorizationData lib auth.wire = .ok (selector ++ (argumentWords args).flatten) := by
  obtain ⟨-, hpayer, hrecipient, hamount, hnonce, hafter, hbefore, hsig⟩ := paymentOf_ok hacc.payment
  obtain ⟨hsok, hsback, hslen⟩ := stored_address geth hacc.source
  obtain ⟨htok, htback, htlen⟩ := stored_address geth hacc.target
  obtain ⟨nonce, hnb, hnlen, hnlower⟩ := lower_of_fixedHex hacc.nonce
  obtain ⟨raw, hrb, hrlen, hrlower⟩ := lower_of_fixedHex hacc.signature
  obtain ⟨hdecode, hsplit⟩ := decoded_fields hnlen hrlen (hv raw hrb)
  obtain ⟨hva, hvb, hord⟩ := hacc.window
  have hq : q.amountAtomic = (value : Int) := by
    have := hs.amount
    rw [hamount, setString10_natCast] at this
    exact (Option.some.inj this).symm
  have hvalue : (setString10 (toString q.amountAtomic)).filter (fun n => decide (n > 0)) = some (value : Int) := by
    rw [hq, setString10_natCast, Option.filter_some]
    exact if_pos (decide_eq_true (by have := hacc.amount.1; omega))
  let args : TransferArguments := ⟨lib.hexToAddress e.authorization.source, lib.hexToAddress e.authorization.target,
    value, after, before, nonce, normalizedV (raw.getD 64 0), raw.take 32, (raw.drop 32).take 32⟩
  have hargs : Arguments lib e args := by
    refine ⟨rfl, rfl, ?_, ?_, ?_, hnb, raw, hrb, rfl, rfl, rfl⟩
    · rw [hacc.numbers.1]; rfl
    · rw [hacc.numbers.2.1]; rfl
    · rw [hacc.numbers.2.2]; rfl
  have hfits : Fits args := by
    have hmax : (253402300799 : Int) ≤ maxUint256 := by decide
    have hle : ∀ {n : Nat}, validUnix n = true → (n : Int) ≤ maxUint256 := fun {n} h => by
      have : n ≤ 253402300799 := by simpa [validUnix] using h
      omega
    refine ⟨⟨hslen, htlen⟩, ⟨Int.natCast_nonneg _, hacc.amount.2⟩, ⟨⟨Int.natCast_nonneg _, hle hva⟩,
      Int.natCast_nonneg _, hle hvb⟩, hnlen, ?_, ?_⟩
    · simp [args, hrlen]
    · simp [args, hrlen]
  have haccepted : ¬ (¬ lib.isHexAddress (padTo 42 p.payer) = true ∨
    ¬ lib.isHexAddress (padTo 42 p.recipient) = true) := by
    rw [hpayer, hrecipient, hsok.2 hsource, htok.2 htarget]
    simp
  have hpack := abi.pack args hfits
  refine ⟨_, args, hs.authorization, hargs, ?_, ?_⟩
  · unfold Settlement.transferWithAuthorizationData Settlement.decodeFixed32 Settlement.splitSignature
    simp only
    rw [if_neg haccepted, hvalue]
    simp only
    rw [hnonce, hnlower, hsig, hrlower, hdecode, hsplit, hpayer, hrecipient, hsback hsource, htback htarget, hafter,
      hbefore, unixSeconds_unixTime, unixSeconds_unixTime]
    change (lib.packTransferWithAuthorization args).mapError _ = _
    rw [hpack]
    rfl
  · have hwafter : (parseInt64 (toString (unixSeconds p.validAfter))).filter (fun n =>
      decide (0 ≤ n)) = some (after : Int) := by
      rw [hafter, parseInt64_seconds hva, Option.filter_some]
      exact if_pos (decide_eq_true (Int.natCast_nonneg _))
    have hwbefore : (parseInt64 (toString (unixSeconds p.validBefore))).filter (fun n => decide ((after : Int) < n)) =
        some (before : Int) := by
      rw [hbefore, parseInt64_seconds hvb, Option.filter_some]
      exact if_pos (decide_eq_true (Int.ofNat_lt.2 hord))
    unfold Policy.transferWithAuthorizationData Settlement.Authorization.wire
    simp only
    rw [if_neg haccepted, hvalue]
    simp only
    rw [hwafter]
    simp only
    rw [hwbefore]
    simp only
    rw [hnonce, hnlower, hsig, hrlower, hdecode, hsplit, hpayer, hrecipient, hsback hsource, htback htarget]
    change (lib.packTransferWithAuthorization args).mapError _ = _
    rw [hpack]
    rfl

end Builders

end Eth402.Store
