/-
go-ethereum's transactions (core/types): the data of the five types, and the library's own functions on them (`Codec`),
of which nothing is known but its laws.
-/
import Eth402.Verification.Parse

namespace Eth402.Ethereum

open Lib Settlement

structure AccessTuple where
  address : Bytes
  storageKeys : List Bytes
  deriving DecidableEq, Repr

structure SetCodeAuthorization where
  chainId : Nat
  address : Bytes
  nonce : Nat
  v : Nat
  r : Nat
  s : Nat
  deriving DecidableEq, Repr

/-- What the types of transaction differ in. -/
inductive Body
  | legacy (gasPrice : Nat)
  | accessList (chainId gasPrice : Nat) (accessList : List AccessTuple)
  | dynamicFee (chainId gasTipCap gasFeeCap : Nat) (accessList : List AccessTuple)
  | blob (chainId gasTipCap gasFeeCap : Nat) (accessList : List AccessTuple) (blobFeeCap : Nat)
    (blobHashes : List Bytes)
  | setCode (chainId gasTipCap gasFeeCap : Nat) (accessList : List AccessTuple) (authList : List SetCodeAuthorization)
  deriving DecidableEq, Repr

/-- A transaction without its signature. -/
structure Unsigned where
  nonce : Nat
  target : Option Bytes
  value : Nat
  gas : Nat
  data : Bytes
  body : Body
  deriving DecidableEq, Repr

structure Transaction where
  unsigned : Unsigned
  v : Nat
  r : Nat
  s : Nat
  deriving DecidableEq, Repr

/-- `types.NewTx`. -/
def Unsigned.newTx (u : Unsigned) : Transaction := ⟨u, 0, 0, 0⟩

/-- The library, as far as the two sides of the signing boundary use it. -/
structure Codec where
  unmarshalBinary : Bytes → Except Err Transaction
  type : Body → Nat
  gasFeeCap : Body → Nat
  gasTipCap : Body → Nat
  accessList : Body → List AccessTuple
  chainId : Transaction → Nat
  /-- `Hash` of the latest signer for a chain. -/
  hash : Nat → Unsigned → Bytes
  /-- `types.Sender`, under the same signer. -/
  sender : Nat → Transaction → Except Err Bytes
  /-- `Address.Hex`. -/
  addressHex : Bytes → String
  type_eq_two : ∀ body, type body = 2 ↔ ∃ chain tip cap list, body = .dynamicFee chain tip cap list
  gasFeeCap_dynamicFee : ∀ chain tip cap list, gasFeeCap (.dynamicFee chain tip cap list) = cap
  gasTipCap_dynamicFee : ∀ chain tip cap list, gasTipCap (.dynamicFee chain tip cap list) = tip
  accessList_dynamicFee : ∀ chain tip cap list, accessList (.dynamicFee chain tip cap list) = list
  chainId_dynamicFee : ∀ tx chain tip cap list, tx.unsigned.body = .dynamicFee chain tip cap list → chainId tx = chain
  /-- A sender is recovered on the transaction's own chain only. -/
  sender_chainId : ∀ chain tx sender', sender chain tx = .ok sender' → chainId tx = chain

attribute [simp] Codec.gasFeeCap_dynamicFee Codec.gasTipCap_dynamicFee Codec.accessList_dynamicFee

/-- A body of type 2 is made of its chain, its fees and its access list. -/
theorem Codec.eq_dynamicFee (codec : Codec) {body : Body} (h : codec.type body = 2) :
    ∃ chain, body = .dynamicFee chain (codec.gasTipCap body) (codec.gasFeeCap body) (codec.accessList body) := by
  obtain ⟨chain, tip, cap, list, rfl⟩ := (codec.type_eq_two body).1 h
  exact ⟨chain, by simp⟩

/-- What is assumed of its cryptography and its texts: under one signer, only a transaction that differs in the chain id
at most has the hash of an EIP-1559 one; an address is twenty bytes, and a text that folds to its `Hex` is read back as
it. -/
structure CodecLaws (lib : Verification.Libraries) (codec : Codec) : Prop where
  hash_dynamicFee : ∀ signer u u' chain tip cap list, u'.body = .dynamicFee chain tip cap list →
    (codec.hash signer u = codec.hash signer u' ↔ ∃ chain', u = { u' with body := .dynamicFee chain' tip cap list })
  target_length : ∀ raw tx a, codec.unmarshalBinary raw = .ok tx → tx.unsigned.target = some a → a.length = 20
  hexToAddress : ∀ a s, a.length = 20 → equalFold (codec.addressHex a) s = true → lib.hexToAddress s = a

end Eth402.Ethereum
