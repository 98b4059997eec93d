/-
Which transaction a signature is for. The client and the boundary compare a signed transaction with the requested one
field by field; neither looks at the access list, and the boundary does not look at the type. The signing hash covers
both.
-/
import Eth402.Signer.Boundary

namespace Eth402.Signer

open Lib Ethereum Policy Settlement Verification

variable {lib : Libraries} {codec : Codec}

/-! ## The requested transaction -/

/-- An unsigned decimal amount. -/
def weiOf (text : String) : Option Nat := ((setString10 text).filter (0 ≤ ·)).map Int.toNat

/-- The unsigned EIP-1559 transaction that is asked for, with no access list. -/
def requested (lib : Libraries) (want : Transaction) : Option Unsigned := do
  let value ← weiOf want.value
  let maxFee ← weiOf want.maxFeePerGas
  let priorityFee ← weiOf want.maxPriorityFeePerGas
  pure ⟨want.nonce, some (lib.hexToAddress want.target), value, want.gasLimit, want.data,
    .dynamicFee want.chainID priorityFee maxFee []⟩

theorem weiOf_natCast {text : String} {n : Nat} (h : setString10 text = some (n : Int)) : weiOf text = some n := by
  unfold weiOf
  rw [h, Option.filter_some, if_pos (by simp)]
  rfl

/-- The accepted transaction has the signing hash of the requested one exactly when its access list is empty and the
requested value is zero. -/
theorem Matches.hash_iff (laws : CodecLaws lib codec) {want : Transaction} {raw : Bytes} {tx : Ethereum.Transaction}
    (hraw : codec.unmarshalBinary raw = .ok tx) (h : Matches codec want tx) :
    (∃ u, requested lib want = some u ∧ codec.hash want.chainID tx.unsigned = codec.hash want.chainID u) ↔
      codec.accessList tx.unsigned.body = [] ∧ weiOf want.value = some 0 := by
  obtain ⟨a, ha, hfold⟩ := h.target
  have htarget : lib.hexToAddress want.target = a := laws.hexToAddress a _ (laws.target_length raw tx a hraw ha) hfold
  obtain ⟨chain, hbody⟩ := codec.eq_dynamicFee h.type
  constructor
  · rintro ⟨u, hu, hhash⟩
    obtain ⟨value, hvalue, hu⟩ := Option.bind_eq_some_iff.1 hu
    obtain ⟨maxFee, -, hu⟩ := Option.bind_eq_some_iff.1 hu
    obtain ⟨priorityFee, -, hu⟩ := Option.bind_eq_some_iff.1 hu
    cases hu
    obtain ⟨chain', hsame⟩ := (laws.hash_dynamicFee _ _ _ _ _ _ _ rfl).1 hhash
    have hzero : tx.unsigned.value = value := congrArg Unsigned.value hsame
    have hlist := congrArg (fun u => codec.accessList u.body) hsame
    rw [← hzero, h.value] at hvalue
    exact ⟨hlist.trans (codec.accessList_dynamicFee ..), hvalue⟩
  · rintro ⟨hlist, hvalue⟩
    refine ⟨tx.unsigned, ?_, rfl⟩
    have hchain : chain = want.chainID := (codec.chainId_dynamicFee _ _ _ _ _ hbody).symm.trans h.chainId
    have hunsigned : tx.unsigned = ⟨want.nonce, some a, 0, want.gasLimit, want.data,
        .dynamicFee want.chainID (codec.gasTipCap tx.unsigned.body) (codec.gasFeeCap tx.unsigned.body) []⟩ := by
      rw [hlist, hchain] at hbody
      rw [← h.nonce, ← ha, ← h.value, ← h.gas, ← h.data, ← hbody]
    unfold requested
    rw [hvalue, weiOf_natCast h.maxFee, weiOf_natCast h.priorityFee, htarget]
    exact congrArg some hunsigned.symm

/-- The confirmed transaction has the signing hash of the one built exactly when it is of type 2 with an empty access
list. -/
theorem Confirmed.hash_iff (laws : CodecLaws lib codec) {request : Policy.Request} {limits : Limits} {want : Unsigned}
    {tx : Ethereum.Transaction} (hwant : Policy.unsigned lib request limits = .ok want)
    (h : Confirmed codec want.newTx tx) :
    codec.hash mainnetChainID tx.unsigned = codec.hash mainnetChainID want ↔
      codec.type tx.unsigned.body = 2 ∧ codec.accessList tx.unsigned.body = [] := by
  have hbuilt := unsigned_settles hwant
  obtain ⟨tip, cap, hb, -⟩ := hbuilt.body
  rw [laws.hash_dynamicFee _ _ _ _ _ _ _ hb]
  constructor
  · rintro ⟨chain, hsame⟩
    rw [hsame]
    exact ⟨(codec.type_eq_two _).2 ⟨_, _, _, _, rfl⟩, codec.accessList_dynamicFee ..⟩
  · rintro ⟨htype, hlist⟩
    obtain ⟨chain, hbody⟩ := codec.eq_dynamicFee htype
    have hfee : codec.gasFeeCap tx.unsigned.body = cap := h.feeCap.trans (by simp [Unsigned.newTx, hb])
    have htip : codec.gasTipCap tx.unsigned.body = tip := h.tipCap.trans (by simp [Unsigned.newTx, hb])
    rw [hlist, hfee, htip] at hbody
    refine ⟨chain, ?_⟩
    have hnonce := h.nonce
    have htarget := h.target
    have hgas := h.gas
    have hdata := h.data
    have hvalue := h.value.trans hbuilt.value.symm
    revert hnonce htarget hgas hdata hvalue hbody
    cases tx.unsigned
    cases want
    rintro rfl rfl rfl rfl rfl rfl
    rfl

/-- For all bytes that come back: what the client accepts is signed by the pinned address, and has the signing hash of
the requested transaction exactly when its access list is empty (the requested value being zero); what the boundary
confirms has the hash of the transaction it built exactly when it is of type 2 with an empty access list. -/
theorem signing_hash_of_accepted (laws : CodecLaws lib codec) :
    (∀ address raw want signed, verify codec address raw want = .ok signed →
      ∃ tx sender, codec.unmarshalBinary raw = .ok tx ∧ codec.sender want.chainID tx = .ok sender ∧
        equalFold (codec.addressHex sender) address = true ∧ signed.sigHash = codec.hash want.chainID tx.unsigned ∧
        ((∃ u, requested lib want = some u ∧ signed.sigHash = codec.hash want.chainID u) ↔
          codec.accessList tx.unsigned.body = [] ∧ weiOf want.value = some 0)) ∧
    ∀ request limits want raw, Policy.unsigned lib request limits = .ok want →
      confirmSigned codec raw want.newTx = .ok () →
      ∃ tx, codec.unmarshalBinary raw = .ok tx ∧
        (codec.hash mainnetChainID tx.unsigned = codec.hash mainnetChainID want ↔
          codec.type tx.unsigned.body = 2 ∧ codec.accessList tx.unsigned.body = []) := by
  constructor
  · intro address raw want signed h
    obtain ⟨tx, sender, hraw, hmatch, hsender, hpinned, rfl⟩ := verify_ok h
    exact ⟨tx, sender, hraw, hsender, hpinned, rfl, hmatch.hash_iff laws hraw⟩
  · intro request limits want raw hwant hconf
    obtain ⟨tx, hraw, hsame⟩ := confirmSigned_ok hconf
    exact ⟨tx, hraw, hsame.hash_iff laws hwant⟩

/-! ## An access list that nobody compares -/

theorem other_hash_of_accesses (laws : CodecLaws lib codec) {address : String} {raw : Bytes} {want : Transaction}
    {signed : SignedTransaction} {tx : Ethereum.Transaction} (h : verify codec address raw want = .ok signed)
    (htx : codec.unmarshalBinary raw = .ok tx) (hlist : codec.accessList tx.unsigned.body ≠ []) (u : Unsigned)
    (hu : requested lib want = some u) : signed.sigHash ≠ codec.hash want.chainID u := by
  intro hhash
  obtain ⟨tx', sender, htx', hmatch, -, -, rfl⟩ := verify_ok h
  cases htx.symm.trans htx'
  exact hlist ((hmatch.hash_iff laws htx).1 ⟨u, hu, hhash⟩).1

theorem other_hash_of_body (laws : CodecLaws lib codec) {request : Policy.Request} {limits : Limits} {want : Unsigned}
    {raw : Bytes} {tx : Ethereum.Transaction} (hwant : Policy.unsigned lib request limits = .ok want)
    (h : confirmSigned codec raw want.newTx = .ok ()) (htx : codec.unmarshalBinary raw = .ok tx)
    (hbody : codec.type tx.unsigned.body ≠ 2 ∨ codec.accessList tx.unsigned.body ≠ []) :
    codec.hash mainnetChainID tx.unsigned ≠ codec.hash mainnetChainID want := by
  intro hhash
  obtain ⟨tx', htx', hsame⟩ := confirmSigned_ok h
  cases htx.symm.trans htx'
  obtain ⟨htype, hlist⟩ := (hsame.hash_iff laws hwant).1 hhash
  exact hbody.elim (· htype) (· hlist)

/-- The policy's libraries, with addresses read in lower case. -/
def foldedLib : Libraries := { policyLib with hexToAddress := fun s => (hexDecode (addressDigits (lower s))).getD [] }

theorem sampleCodec_laws : CodecLaws foldedLib sampleCodec where
  hash_dynamicFee signer u u' chain tip cap list hu' := by
    have hhash : sampleCodec.hash signer u = sampleCodec.hash signer u' ↔
        { u with body := Body.onChain signer u.body } = { u' with body := Body.onChain signer u'.body } := by
      refine ⟨fun h => ?_, fun h => by simp only [sampleCodec, h]⟩
      have hlen := congrArg List.length h
      simp only [sampleCodec, List.length_replicate] at hlen
      exact Encodable.encode_injective hlen
    rw [hhash, hu']
    cases u with
    | mk nonce target value gas data body => cases body <;> simp [Body.onChain]
  target_length raw tx a h ha := by
    -- every transaction the codec decodes calls USDC
    have htarget : tx.unsigned.target = sampleUnsigned.target := by
      simp only [sampleCodec] at h
      split at h
      · cases h
        rfl
      split at h
      · cases h
        rfl
      split at h
      · cases h
        rfl
      · cases h
    rw [htarget] at ha
    cases ha
    decide +kernel
  hexToAddress a s _ h := by
    have hfold : lower (hexText0x true a) = lower s := of_decide_eq_true h
    rw [lower_of_digits (Store.digits_hexText0x a), Store.has0xPrefix_hexText0x] at hfold
    change (hexDecode (addressDigits (lower s))).getD [] = a
    rw [← hfold, Store.digits_hexText0x]
    rfl

/-- The transaction a client asks for, as the boundary describes it. -/
def sampleWant : Transaction := described sampleCodec sampleUnsigned

theorem sampleUnsigned_built : Policy.unsigned foldedLib sampleRequest sampleLimits = .ok sampleUnsigned := by
  decide +kernel

theorem isOk_iff {ε α : Type} {r : Except ε α} : r.isOk = true ↔ ∃ a, r = .ok a := by
  cases r with
  | error e | ok a => simp [Except.isOk, Except.toBool]

/-- The built transaction is accepted by both sides, with the signing hash of the requested one. -/
theorem signing_hash_of_accepted_sample :
    (∃ signed u, verify sampleCodec (hexDigits 40 '1') [2] sampleWant = .ok signed ∧
      requested foldedLib sampleWant = some u ∧ signed.sigHash = sampleCodec.hash 1 u) ∧
    confirmSigned sampleCodec [2] sampleUnsigned.newTx = .ok () ∧ ∃ tx, sampleCodec.unmarshalBinary [2] = .ok tx ∧
      sampleCodec.hash mainnetChainID tx.unsigned = sampleCodec.hash mainnetChainID sampleUnsigned := by
  obtain ⟨hverify, hconfirm⟩ := signing_hash_of_accepted sampleCodec_laws
  have haccepted : (verify sampleCodec (hexDigits 40 '1') [2] sampleWant).isOk = true := by decide +kernel
  have hconf : confirmSigned sampleCodec [2] sampleUnsigned.newTx = .ok () := by decide +kernel
  have hvalue : weiOf sampleWant.value = some 0 := by decide +kernel
  constructor
  · obtain ⟨signed, hsigned⟩ := isOk_iff.1 haccepted
    obtain ⟨tx, sender, htx, -, -, -, hiff⟩ := hverify _ _ _ signed hsigned
    cases htx
    obtain ⟨u, hu, hhash⟩ := hiff.2 ⟨rfl, hvalue⟩
    exact ⟨signed, u, hsigned, hu, hhash⟩
  · obtain ⟨tx, htx, hiff⟩ := hconfirm _ _ _ _ sampleUnsigned_built hconf
    cases htx
    exact ⟨hconf, _, rfl, hiff.2 ⟨rfl, rfl⟩⟩

/-- Both sides accept the transaction with an access list added, and the boundary one that sets code, but neither has
the signing hash that was asked for. -/
theorem access_list_not_compared :
    (∃ signed, verify sampleCodec (hexDigits 40 '1') [3] sampleWant = .ok signed ∧
      ∀ u, requested foldedLib sampleWant = some u → signed.sigHash ≠ sampleCodec.hash sampleWant.chainID u) ∧
    ∀ raw ∈ [[3], [4]], confirmSigned sampleCodec raw sampleUnsigned.newTx = .ok () ∧
      ∃ tx, sampleCodec.unmarshalBinary raw = .ok tx ∧
        sampleCodec.hash mainnetChainID tx.unsigned ≠ sampleCodec.hash mainnetChainID sampleUnsigned := by
  have haccepted : (verify sampleCodec (hexDigits 40 '1') [3] sampleWant).isOk = true := by decide +kernel
  have hconf₃ : confirmSigned sampleCodec [3] sampleUnsigned.newTx = .ok () := by decide +kernel
  have hconf₄ : confirmSigned sampleCodec [4] sampleUnsigned.newTx = .ok () := by decide +kernel
  constructor
  · obtain ⟨signed, hsigned⟩ := isOk_iff.1 haccepted
    obtain ⟨tx, htx, hlist⟩ : ∃ tx, sampleCodec.unmarshalBinary [3] = .ok tx ∧
        sampleCodec.accessList tx.unsigned.body = sampleAccess :=
      ⟨_, rfl, rfl⟩
    exact ⟨signed, hsigned, other_hash_of_accesses sampleCodec_laws hsigned htx (by rw [hlist]; simp [sampleAccess])⟩
  · intro raw hraw
    simp only [List.mem_cons, List.not_mem_nil, or_false] at hraw
    rcases hraw with rfl | rfl
    · obtain ⟨tx, htx, hlist⟩ : ∃ tx, sampleCodec.unmarshalBinary [3] = .ok tx ∧
        sampleCodec.accessList tx.unsigned.body = sampleAccess :=
        ⟨_, rfl, rfl⟩
      refine ⟨hconf₃, tx, htx, other_hash_of_body sampleCodec_laws sampleUnsigned_built hconf₃ htx (.inr ?_)⟩
      rw [hlist]
      simp [sampleAccess]
    · obtain ⟨tx, htx, htype⟩ : ∃ tx, sampleCodec.unmarshalBinary [4] = .ok tx ∧
        sampleCodec.type tx.unsigned.body = 4 := ⟨_, rfl, rfl⟩
      refine ⟨hconf₄, tx, htx, other_hash_of_body sampleCodec_laws sampleUnsigned_built hconf₄ htx (.inl ?_)⟩
      rw [htype]
      simp

end Eth402.Signer
