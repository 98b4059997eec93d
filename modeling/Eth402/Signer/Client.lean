/-
The facilitator's side of the signing boundary (internal/signer: signer.go and policy.go). A signed transaction that
comes back is decoded and compared with the one that was asked for, field by field, and its sender with the pinned
address.
-/
import Eth402.Ethereum.Transaction
import Eth402.Lib.Table

namespace Eth402.Signer

open Lib Ethereum Settlement Verification

/-- `signer.Transaction`; value and fees are decimal texts. -/
structure Transaction where
  chainID : Nat
  nonce : Nat
  target : String
  data : Bytes
  value : String
  gasLimit : Nat
  maxFeePerGas : String
  maxPriorityFeePerGas : String
  deriving DecidableEq, Repr

/-- `equalWei`: the error, if the fee is another one. -/
def equalWei (got : Nat) (want : String) : Option Err :=
  match setString10 want with
  | none => some (.text (want ++ " is not a decimal wei string"))
  | some expected => if (got : Int) = expected then none else
    some (.text (toString got ++ " is not " ++ toString expected))

/-- One comparison of `verify`: the error, if it fails. -/
def mismatch (ok : Prop) [Decidable ok] (message : String) : Option Err := if ok then none else some (.text message)

variable (codec : Codec)

/-- The recipient of a transaction is the one named by a text, up to the case of its digits. -/
def sameTarget (target : Option Bytes) (text : String) : Prop :=
  ∃ a, target = some a ∧ equalFold (codec.addressHex a) text = true

instance (target : Option Bytes) (text : String) : Decidable (sameTarget codec target text) :=
  match target with
  | none => isFalse (by rintro ⟨a, h, -⟩; cases h)
  | some a => decidable_of_iff (equalFold (codec.addressHex a) text = true)
      ⟨fun h => ⟨a, rfl, h⟩, fun ⟨b, hb, h⟩ => by cases hb; exact h⟩

/-- What `verify` finds to be different. -/
def differences (signed : Ethereum.Transaction) (want : Transaction) : List (Option Err) :=
  [ mismatch (codec.type signed.unsigned.body = 2)
      ("transaction type " ++ toString (codec.type signed.unsigned.body) ++ " is not EIP-1559"),
    -- only the low 64 bits are compared here; recovering the sender compares the rest
    mismatch (codec.chainId signed % 2 ^ 64 = want.chainID)
      ("chain id " ++ toString (codec.chainId signed) ++ " is not " ++ toString want.chainID),
    mismatch (signed.unsigned.nonce = want.nonce)
      ("nonce " ++ toString signed.unsigned.nonce ++ " is not the allocated " ++ toString want.nonce),
    mismatch (sameTarget codec signed.unsigned.target want.target) ("recipient is not " ++ want.target),
    mismatch (signed.unsigned.value = 0) ("value " ++ toString signed.unsigned.value ++ " is not zero"),
    mismatch (signed.unsigned.data = want.data) "calldata does not match the authorization that was sent",
    mismatch (signed.unsigned.gas = want.gasLimit)
      ("gas limit " ++ toString signed.unsigned.gas ++ " is not " ++ toString want.gasLimit),
    (equalWei (codec.gasFeeCap signed.unsigned.body) want.maxFeePerGas).map (.wrap "max fee per gas"),
    (equalWei (codec.gasTipCap signed.unsigned.body) want.maxPriorityFeePerGas).map (.wrap "max priority fee per gas") ]

/-- `errors.Join`. -/
def joinErrors : List Err → Option Err
  | [] => none
  | e :: rest => some (rest.foldl .join e)

/-- `PolicyClient.verify`, for the pinned address. -/
def verify (address : String) (raw : Bytes) (want : Transaction) : Except Err SignedTransaction :=
  match codec.unmarshalBinary raw with
  | .error e => .error (.wrap "decode signed transaction from policy signer" e)
  | .ok signed =>
    match joinErrors ((differences codec signed want).filterMap id) with
    | some e => .error (.wrap "policy signer returned a different transaction" e)
    | none =>
      match codec.sender want.chainID signed with
      | .error e => .error (.wrap "recover signer from policy signer response" e)
      | .ok sender =>
        if equalFold (codec.addressHex sender) address then .ok ⟨raw, codec.hash want.chainID signed.unsigned⟩
        else .error (.text ("policy signer response is signed by " ++ lower
          (codec.addressHex sender) ++ ", not " ++ address))

variable {codec} {address : String} {raw : Bytes} {want : Transaction}

theorem mismatch_none {ok : Prop} [Decidable ok] {message : String} : mismatch ok message = none ↔ ok := by
  unfold mismatch
  split <;> simp_all

theorem equalWei_none {got : Nat} {text : String} : equalWei got text = none ↔ setString10 text = some (got : Int) := by
  unfold equalWei
  split
  · simp_all
  · rename_i expected htext
    rw [htext, Option.some.injEq]
    split
    · rename_i heq
      exact ⟨fun _ => heq.symm, fun _ => rfl⟩
    · rename_i hne
      exact ⟨fun h => absurd h (by simp), fun h => absurd h.symm hne⟩

theorem joinErrors_none {l : List Err} (h : joinErrors l = none) : l = [] := by
  cases l with
  | nil => rfl
  | cons e rest => cases h

/-- The signed transaction is the requested one in every field that is compared. -/
structure Matches (codec : Codec) (want : Transaction) (signed : Ethereum.Transaction) : Prop where
  type : codec.type signed.unsigned.body = 2
  chainId : codec.chainId signed = want.chainID
  nonce : signed.unsigned.nonce = want.nonce
  target : sameTarget codec signed.unsigned.target want.target
  value : signed.unsigned.value = 0
  data : signed.unsigned.data = want.data
  gas : signed.unsigned.gas = want.gasLimit
  maxFee : setString10 want.maxFeePerGas = some (codec.gasFeeCap signed.unsigned.body : Int)
  priorityFee : setString10 want.maxPriorityFeePerGas = some (codec.gasTipCap signed.unsigned.body : Int)

theorem verify_ok {signed : SignedTransaction} (h : verify codec address raw want = .ok signed) :
    ∃ tx sender, codec.unmarshalBinary raw = .ok tx ∧ Matches codec want tx ∧
      codec.sender want.chainID tx = .ok sender ∧
      equalFold (codec.addressHex sender) address = true ∧ signed = ⟨raw, codec.hash want.chainID tx.unsigned⟩ := by
  unfold verify at h
  split at h
  · cases h
  rename_i tx htx
  split at h
  · cases h
  rename_i hnone
  split at h
  · cases h
  rename_i sender hsender
  split at h
  · cases h
    have hall : ∀ d ∈ differences codec tx want, d = none := by
      intro d hd
      by_contra hne
      obtain ⟨e, rfl⟩ := Option.ne_none_iff_exists'.1 hne
      have hmem : e ∈ (differences codec tx want).filterMap id := List.mem_filterMap.2 ⟨_, hd, rfl⟩
      rw [joinErrors_none hnone] at hmem
      cases hmem
    simp only [differences, List.mem_cons, List.not_mem_nil, or_false, forall_eq_or_imp, forall_eq, mismatch_none,
      Option.map_eq_none_iff, equalWei_none] at hall
    obtain ⟨htype, -, hnonce, htarget, hvalue, hdata, hgas, hfee, hprio⟩ := hall
    have hchain : codec.chainId tx = want.chainID := codec.sender_chainId _ _ _ hsender
    exact ⟨tx, sender, htx, ⟨htype, hchain, hnonce, htarget, hvalue, hdata, hgas, hfee, hprio⟩, hsender, ‹_›, rfl⟩
  · cases h

end Eth402.Signer
