/-
How an accepted request spells its authorization. Nonce and signature carry the prefix `0x` and are lower case once
parsed, so each has one spelling; an address is accepted with the prefix or bare, and the parser keeps what it
was given.
-/
import Eth402.Lib.Table
import Eth402.Verification.Parse

namespace Eth402.Verification

open Lib Settlement

/-! ## Addresses -/

/-- `has0xPrefix` of go-ethereum. -/
def has0xPrefix (s : String) : Bool :=
  match chars s with
  | '0' :: c :: _ => c = 'x' ∨ c = 'X'
  | _ => false

/-- The digits of an address text, without its prefix. -/
def addressDigits (s : String) : List Char := if has0xPrefix s then (chars s).drop 2 else chars s

/-- What go-ethereum's address helpers do: a text of twenty bytes in hexadecimal, with or without a prefix. -/
structure GethLaws (lib : Libraries) : Prop where
  isHexAddress : ∀ s, lib.isHexAddress s = true ↔ ∃ bs, hexDecode (addressDigits s) = some bs ∧ bs.length = 20
  hexToAddress : ∀ s bs, hexDecode (addressDigits s) = some bs → bs.length = 20 → lib.hexToAddress s = bs

/-- The canonical text of some bytes, with or without a prefix. -/
def hexText0x (withPrefix : Bool) (bs : Bytes) : String :=
  bif withPrefix then String.ofList ('0' :: 'x' :: hexChars bs) else String.ofList (hexChars bs)

theorem chars_hexText0x (b : Bool) (bs : Bytes) :
    chars (hexText0x b bs) = bif b then '0' :: 'x' :: hexChars bs else hexChars bs := by
  cases b <;> exact chars_ofList _

theorem length_hexText0x (b : Bool) (bs : Bytes) :
    (chars (hexText0x b bs)).length = 2 * bs.length + bif b then 2 else 0 := by
  rw [chars_hexText0x]
  cases b
  · exact length_hexChars bs
  · simp only [cond_true, List.length_cons, length_hexChars]

theorem chars_of_has0xPrefix {s : String} (h : has0xPrefix s = true) :
    ∃ c, (c = 'x' ∨ c = 'X') ∧ chars s = '0' :: c :: (chars s).drop 2 := by
  unfold has0xPrefix at h
  split at h
  · rename_i c rest hs
    exact ⟨c, of_decide_eq_true h, by rw [hs]; rfl⟩
  · cases h

/-- In lower case an address is spelled by its bytes and by whether it has the prefix. -/
theorem lower_of_digits {s : String} {bs : Bytes} (h : hexDecode (addressDigits s) = some bs) :
    lower s = hexText0x (has0xPrefix s) bs := by
  unfold addressDigits at h
  cases hp : has0xPrefix s with
  | true =>
    rw [hp, if_pos rfl] at h
    obtain ⟨c, hc, hs⟩ := chars_of_has0xPrefix hp
    unfold lower hexText0x
    rw [hs, List.map_cons, List.map_cons, map_toLower_of_hexDecode h]
    rcases hc with rfl | rfl <;> rfl
  | false =>
    rw [hp, if_neg (by decide)] at h
    unfold lower hexText0x
    rw [map_toLower_of_hexDecode h]
    rfl

theorem hexText0x_inj {b b' : Bool} {bs bs' : Bytes} (hlen : bs.length = bs'.length)
    (h : hexText0x b bs = hexText0x b' bs') : b = b' := by
  have := congrArg (fun s => (chars s).length) h
  simp only [length_hexText0x, hlen] at this
  cases b <;> cases b' <;> simp_all

/-! ## Fixed-width fields -/

/-- A field of `n` bytes carries the prefix and has one spelling. -/
theorem lower_of_fixedHex {n : Nat} {s : String} (h : fixedHex n s = true) :
    ∃ bs, trimmedBytes s = some bs ∧ bs.length = n ∧ lower s = hexText0x true bs := by
  unfold fixedHex at h
  obtain ⟨hany, hpre⟩ := of_decide_eq_true h
  obtain ⟨bs, hbs, hlen⟩ := (Option.any_eq_true _ _).1 hany
  refine ⟨bs, hbs, of_decide_eq_true hlen, ?_⟩
  unfold trimmedBytes at hbs
  rw [if_pos hpre] at hbs
  unfold hasPrefix at hpre
  obtain ⟨rest, hrest⟩ := of_decide_eq_true hpre
  have hs : chars s = '0' :: 'x' :: rest := by rw [← hrest]; rfl
  rw [hs] at hbs
  change hexDecode rest = some bs at hbs
  unfold lower hexText0x
  rw [hs, List.map_cons, List.map_cons, map_toLower_of_hexDecode hbs]
  rfl

/-! ## What acceptance says -/

/-- The request was accepted, with the payload `e` and its three numbers. -/
structure Accepted (lib : Libraries) (request : Request) (p : ParsedPayment) (e : ExactPayload)
    (value after before : Nat) : Prop where
  payload : lib.payloadFromMap request.paymentPayload.payload = some e
  asset : lower request.paymentRequirements.asset = lower mainnetUSDC
  source : lib.isHexAddress e.authorization.source = true
  target : lib.isHexAddress e.authorization.target = true
  numbers : unsignedDecimal e.authorization.value = some value ∧
    unsignedDecimal e.authorization.validAfter = some after ∧ unsignedDecimal e.authorization.validBefore = some before
  amount : 0 < value ∧ (value : Int) ≤ maxUint256
  window : validUnix after = true ∧ validUnix before = true ∧ after < before
  nonce : fixedHex 32 e.authorization.nonce = true
  signature : fixedHex 65 e.signature = true
  payment : paymentOf lib request e value after before = .ok p

variable {lib : Libraries} {request : Request}

theorem checkRequirements_ok {n : Nat} (h : checkRequirements lib request = .ok n) :
    lower request.paymentRequirements.asset = lower mainnetUSDC ∧ 0 < n ∧ (n : Int) ≤ maxUint256 := by
  unfold checkRequirements at h
  obtain ⟨-, h⟩ := ite_error_ok h
  obtain ⟨-, h⟩ := ite_error_ok h
  obtain ⟨-, h⟩ := ite_error_ok h
  obtain ⟨-, h⟩ := ite_error_ok h
  obtain ⟨hasset, h⟩ := ite_error_ok h
  obtain ⟨-, h⟩ := ite_error_ok h
  obtain ⟨-, h⟩ := ite_error_ok h
  obtain ⟨-, h⟩ := ite_error_ok h
  obtain ⟨-, h⟩ := ite_error_ok h
  cases hn : unsignedDecimal request.paymentRequirements.amount with
  | none => rw [hn] at h; cases h
  | some amount =>
    rw [hn] at h
    obtain ⟨hrange, h⟩ := ite_error_ok h
    cases h
    push Not at hrange
    exact ⟨of_decide_eq_true (not_not.1 hasset), Nat.pos_of_ne_zero hrange.1, hrange.2⟩

theorem checkPayload_ok {payload : PaymentPayload} {e : ExactPayload} (h : checkPayload lib payload = .ok e) :
    lib.payloadFromMap payload.payload = some e := by
  unfold checkPayload at h
  obtain ⟨-, h⟩ := ite_error_ok h
  cases he : lib.payloadFromMap payload.payload with
  | none => rw [he] at h; cases h
  | some e' =>
    rw [he] at h
    obtain ⟨-, h⟩ := ite_error_ok h
    cases h
    rfl

theorem checkNumbers_ok {auth : ExactAuthorization} {required value after before : Nat}
    (h : checkNumbers auth required = .ok (value, after, before)) :
    (unsignedDecimal auth.value = some value ∧ unsignedDecimal auth.validAfter = some after ∧
      unsignedDecimal auth.validBefore = some before) ∧
      value = required ∧ validUnix after = true ∧ validUnix before = true ∧ after < before := by
  unfold checkNumbers at h
  split at h
  · rename_i hval hafter hbefore
    obtain ⟨hvalid, h⟩ := ite_error_ok h
    obtain ⟨hvalue, h⟩ := ite_error_ok h
    cases h
    push Not at hvalid
    exact ⟨⟨hval, hafter, hbefore⟩, not_not.1 hvalue, hvalid⟩
  · cases h

theorem checkAuthorization_ok {payTo : String} {required value after before : Nat} {e : ExactPayload}
    (h : checkAuthorization lib payTo required e = .ok (value, after, before)) :
    (lib.isHexAddress e.authorization.source = true ∧ lib.isHexAddress e.authorization.target = true) ∧
      checkNumbers e.authorization required = .ok (value, after, before) ∧
      fixedHex 32 e.authorization.nonce = true ∧ fixedHex 65 e.signature = true := by
  unfold checkAuthorization at h
  obtain ⟨haddr, h⟩ := ite_error_ok h
  obtain ⟨numbers, hnumbers, hrest⟩ := except_bind_ok h
  obtain ⟨hnonce, hrest⟩ := ite_error_ok hrest
  obtain ⟨hsig, hrest⟩ := ite_error_ok hrest
  cases hrest
  push Not at haddr
  exact ⟨⟨haddr.1, haddr.2.1⟩, hnumbers, not_not.1 hnonce, not_not.1 hsig⟩

theorem accepted_of_parse {p : ParsedPayment} (h : parseRequest lib request = .ok p) :
    ∃ e value after before, Accepted lib request p e value after before := by
  unfold parseRequest at h
  obtain ⟨required, hreq, hrest⟩ := except_bind_ok h
  obtain ⟨e, he, hrest⟩ := except_bind_ok hrest
  obtain ⟨⟨value, after, before⟩, hauth, hpay⟩ := except_bind_ok hrest
  obtain ⟨hasset, hpos, hmax⟩ := checkRequirements_ok hreq
  obtain ⟨⟨hs, ht⟩, hnums, hnonce, hsig⟩ := checkAuthorization_ok hauth
  obtain ⟨hnumbers, rfl, hafter, hbefore, hord⟩ := checkNumbers_ok hnums
  exact ⟨e, value, after, before, checkPayload_ok he, hasset, hs, ht, hnumbers, ⟨hpos, hmax⟩,
    ⟨hafter, hbefore, hord⟩, hnonce, hsig, hpay⟩

/-- The fields of the parsed payment that come from the authorization. -/
theorem paymentOf_ok {e : ExactPayload} {value after before : Nat} {p : ParsedPayment}
    (h : paymentOf lib request e value after before = .ok p) :
    p.asset = lower request.paymentRequirements.asset ∧ p.payer = lower e.authorization.source ∧
      p.recipient = lower e.authorization.target ∧ p.amount = toString (value : Int) ∧
      p.nonce = lower e.authorization.nonce ∧ p.validAfter = unixTime after ∧ p.validBefore = unixTime before ∧
      p.signature = lower e.signature := by
  unfold paymentOf at h
  simp only at h
  split at h
  · cases h
    exact ⟨rfl, rfl, rfl, rfl, rfl, rfl, rfl, rfl⟩
  · cases h

/-! ## Sample requests

The libraries hash by cutting, so that every value can be computed. -/

def textField (m : JsonMap) (key : String) : String :=
  match m.get key with
  | some (.str s) => s
  | _ => ""

def sampleLib : Libraries where
  keccak256 raw := raw.take 32
  -- the last digit of the signature, in what the identity hashes
  sha256 bs := (bs.reverse.drop 2).take 1
  isHexAddress _ := true
  hexToAddress _ := []
  packTransferWithAuthorization _ := .ok []
  deepEqual _ _ := true
  isPermit2Payload _ := false
  isEIP3009Payload _ := true
  payloadFromMap m :=
    match m.get "authorization" with
    | some (.obj a) => some ⟨textField m "signature", textField a "from", textField a "to", textField a "value",
        textField a "validAfter", textField a "validBefore", textField a "nonce"⟩
    | _ => none
  marshalPayload _ := some []
  reasonText _ := "library"

/-- The text `0x` and `n` times the digit `c`. -/
def hexText (n : Nat) (c : Char) : String := String.ofList ('0' :: 'x' :: List.replicate n c)

def sampleMerchant := hexText 40 '2'

def samplePayer := hexText 40 '3'

def sampleRequirements : PaymentRequirements :=
  ⟨"exact", mainnetNetwork, mainnetUSDC, "7", sampleMerchant, 60,
    [("name", .str usdcName), ("version", .str usdcVersion)]⟩

/-- A request to pay the sample merchant, told from others by the digits of its nonce and its signature. Its
authorization ends a second after the epoch. -/
def sampleRequestOf (nonce signature : Char) : Request where
  x402Version := 2
  paymentPayload := ⟨2, sampleRequirements, [("authorization", .obj [("from", .str samplePayer),
    ("to", .str sampleMerchant), ("value", .str "7"), ("validAfter", .str "0"), ("validBefore", .str "1"),
    ("nonce", .str (hexText 64 nonce))]), ("signature", .str (hexText 128 signature ++ "1b"))], []⟩
  paymentRequirements := sampleRequirements

def sampleRequest (c : Char) : Request := sampleRequestOf c c

example : (parseRequest sampleLib (sampleRequestOf 'a' 'b')).toOption.map (fun p => (p.nonce, p.identity)) =
    some (hexText 64 'a', "pay_62") := by decide +kernel

end Eth402.Verification
