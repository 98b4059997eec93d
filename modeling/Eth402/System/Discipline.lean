/-
The discipline of the code: what a process has seen when it makes a call (`Allowed`). Each program of
the facilitator keeps it, whatever the answers it gets (`code_disciplined`), so in every run every call
was allowed by what its own process had called before.
-/
import Eth402.System.Knowledge

namespace Eth402.System

open Lib Store Settlement Verification

variable (lib : Libraries) (cfg : Settlement.Config)

/-! ## What a process has seen -/

def Loaded (past : List Ev) (p : Nat) (work : Work) : Prop :=
  (⟨.store (.loadSettlementWork p), .ok work⟩ : Ev) ∈ past

/-- The process was given a lease on the payment as one that waits for its final outcome. -/
def LeasedWaiting (past : List Ev) (p : Nat) : Prop :=
  ∃ (request : ClaimRequest) (leases : List Lease) (lease : Lease),
    (⟨.store (.claimPayments request), .ok leases⟩ : Ev) ∈ past ∧ (∀ s ∈ request.states, s ∈ waiting) ∧
      lease ∈ leases ∧ lease.paymentId = p

/-- The process read a receipt of `txHash` in a block that was canonical and deep enough. -/
structure SeenFinal (past : List Ev) (txHash : String) (receipt : Receipt) : Prop where
  read : (⟨.transactionReceipt txHash, .ok (some receipt)⟩ : Ev) ∈ past
  canonical : ∃ block : Block, (⟨.blockByNumber (some receipt.blockNumber), .ok block⟩ : Ev) ∈ past ∧
    equalFold block.hash receipt.blockHash = true
  head : ∃ current : Nat, (⟨.blockNumber, .ok current⟩ : Ev) ∈ past ∧
    cfg.confirmations ≤ depthAt current receipt.blockNumber

/-- The process loaded the row `t` of the payment with the hash `h`. -/
def LoadedHash (past : List Ev) (p t : Nat) (h : String) : Prop :=
  ∃ work, Loaded past p work ∧ work.transactionId = t ∧ work.txHash = h ∧ h ≠ ""

/-- The work a request loaded right after it claimed the payment of its intent. -/
def LoadedInline (past : List Ev) (intent : Intent) (work : Work) : Prop :=
  ∃ pre post request w d now lease, past = pre ++ ⟨.store (.claimPayment intent.paymentId w d now), .ok lease⟩ ::
      ⟨.store (.loadSettlementWork intent.paymentId), .ok work⟩ :: post ∧
    (⟨.store (.createSettlementIntent request), .ok intent⟩ : Ev) ∈ pre

/-- The hash of the row behind the work: it was loaded with it, or just broadcast under it. -/
def Obtained (past : List Ev) (work : Work) (h : String) : Prop :=
  (work.txHash = h ∧ h ≠ "") ∨
    ∃ a, (⟨.store (.markTxBroadcast work.paymentId work.transactionId h a), .ok ()⟩ : Ev) ∈ past

/-- The row and the hash a waiting request goes by: both admission's, or the row admission's and the hash that of the
work its inline broadcast loaded. -/
def Given (past : List Ev) (p t : Nat) (h : String) : Prop :=
  ∃ request intent, (⟨.store (.createSettlementIntent request), .ok intent⟩ : Ev) ∈ past ∧ intent.paymentId = p ∧
    intent.transactionId = t ∧
      (intent.txHash = h ∧ h ≠ "" ∨ ∃ work, LoadedInline past intent work ∧ Obtained past work h)

/-- A final outcome may be recorded: seen on the chain, for the hash the process loaded for the row
(or, in a waiting request, was given). -/
def MayFinalize (past : List Ev) (p t : Nat) (actor : String) (receipt : Receipt) : Prop :=
  ∃ txHash, SeenFinal cfg past txHash receipt ∧
    ((actor = waitActor ∧ Given past p t txHash) ∨ LoadedHash past p t txHash)

/-- The process listed the gap of the row `t` a margin after its authorization ended. -/
def ListedGap (past : List Ev) (work : Work) : Prop :=
  ∃ (c : Time) (signer : String) (works : List Work), (⟨.now, c⟩ : Ev) ∈ past ∧
    (⟨.store (.listDroppedBlockingGaps signer (c - cfg.expiryMargin)), .ok works⟩ : Ev) ∈ past ∧ work ∈ works

def ListedFiller (past : List Ev) (t : TrackedTransaction) : Prop :=
  ∃ tracked : List TrackedTransaction, (⟨.store .listGapFillers, .ok tracked⟩ : Ev) ∈ past ∧ t ∈ tracked

def ListedReplaced (past : List Ev) (t : TrackedTransaction) : Prop :=
  ∃ tracked : List TrackedTransaction, (⟨.store .listReplacedPending, .ok tracked⟩ : Ev) ∈ past ∧ t ∈ tracked

/-- The process listed the filler of `work` as stuck, for its own signer. -/
def ListedStuck (past : List Ev) (work : Work) : Prop :=
  ∃ works : List Work, (⟨.store (.listStuckGapFillers cfg.signerAddress cfg.replacementAfter), .ok works⟩ : Ev) ∈ past ∧
    work ∈ works

/-- The process was given these bytes by its signer. -/
def SignedHere (past : List Ev) (raw : Bytes) : Prop :=
  ∃ tx authorization signed, (⟨.signTransaction tx authorization, .ok signed⟩ : Ev) ∈ past ∧ signed.raw = raw

/-- A worker renewed its lease on the payment, loaded `work`, and has made no other call to the store since. -/
def Handling (past : List Ev) (p : Nat) (work : Work) : Prop :=
  ∃ pre w now d u post, past = pre ++ ⟨.store (.renewLease p w now d), .ok u⟩ ::
      ⟨.store (.loadSettlementWork p), .ok work⟩ :: post ∧ ∀ ev ∈ post, ∀ op, ev.call ≠ .store op

/-- The worker handles the row `t` of the payment as an ambiguous one. -/
def HandlesAmbiguous (past : List Ev) (p t : Nat) : Prop :=
  ∃ q work, Handling past q work ∧ work.transactionStatus = .ambiguous ∧ work.paymentId = p ∧ work.transactionId = t

/-- An ambiguous row that is being handled is past its backoff. -/
def MaySign (past : List Ev) : Prop :=
  ∀ p work, Handling past p work → work.transactionStatus = .ambiguous →
    work.transactionUpdatedAt + ambiguousRetryDelay work.ambiguousAttempts cfg.recoveryGrace ≤ work.dbNow

/-- What the sender of `raw` has done before, place by place. -/
def MaySend (past : List Ev) (s : Sending) (raw : Bytes) : Prop :=
  match s.site with
  | .broadcastClaimed =>
    (∃ p work, Loaded past p work ∧ work.paymentId = s.paymentId ∧ work.transactionId = s.transactionId) ∧
      ∃ sighash n m f, past.getLast? =
        some ⟨.store (.markTxSigned s.transactionId (rawHashOf lib raw) sighash n m f), .ok ()⟩
  | .resolveAmbiguous =>
    (∃ p work, Loaded past p work ∧ work.paymentId = s.paymentId ∧ work.transactionId = s.transactionId ∧
        work.transactionStatus = .ambiguous ∧ work.rawHash ≠ "" ∧ work.rawHash = rawHashOf lib raw) ∨
      ∃ r a, (⟨.store (.markTxAmbiguousReplaced s.paymentId s.transactionId r a), .ok ()⟩ : Ev) ∈ past ∧
        r.rawHash = rawHashOf lib raw
  | .replaceStuck =>
    ∃ r a, (⟨.store (.markTxReplaced s.paymentId s.transactionId r a), .ok ()⟩ : Ev) ∈ past ∧
      r.rawHash = rawHashOf lib raw
  | .fillNonceGap =>
    (∃ work, ListedGap cfg past work ∧ work.paymentId = s.paymentId ∧ work.transactionId = s.transactionId) ∧
      ∃ txHash n m f, (⟨.store (.markGapFillerPrepared s.transactionId (rawHashOf lib raw) txHash raw n m f),
        .ok ()⟩ : Ev) ∈ past
  | .bumpStuckGapFiller =>
    ∃ r, (⟨.store (.markGapFillerReplaced s.paymentId s.transactionId r raw), .ok ()⟩ : Ev) ∈ past ∧
      r.rawHash = rawHashOf lib raw
  | .observeGapFiller =>
    ∃ t, ListedFiller past t ∧ t.paymentId = s.paymentId ∧ t.transactionId = s.transactionId ∧ t.rawTransaction = raw

def Entry.recovers : Entry → Bool
  | .recoveryTick _ => true
  | _ => false

/-- The identity a worker claims payments under. -/
def Entry.worker : Entry → Option String
  | .broadcastTick identity | .confirmationTick identity | .recoveryTick identity => some identity
  | _ => none

/-- The identity a process holds leases under: the inline path of every request has the same one. -/
def Entry.holder : Entry → Option String
  | .settle .. => some "http"
  | e => e.worker

theorem Entry.holder_of_worker {e : Entry} {w : String} (h : e.worker = some w) : e.holder = some w := by
  cases e <;> first | exact h | cases h

/-- The process was given a lease on the payment. -/
def Claimed (past : List Ev) (p : Nat) : Prop :=
  (∃ w d now lease, (⟨.store (.claimPayment p w d now), .ok lease⟩ : Ev) ∈ past) ∨
    ∃ (request : ClaimRequest) (leases : List Lease) (lease : Lease),
      (⟨.store (.claimPayments request), .ok leases⟩ : Ev) ∈ past ∧ lease ∈ leases ∧ lease.paymentId = p

/-- The process loaded the row `t` of payment `p`, and the simulation of its calldata just reverted. -/
def MayRetire (past : List Ev) (p t : Nat) : Prop :=
  ∃ p' work calldata err, Loaded past p' work ∧ work.paymentId = p ∧ work.transactionId = t ∧
    Settlement.transferWithAuthorizationData lib work.authorization = .ok calldata ∧ err.is .simulationReverted = true ∧
    past.getLast? = some ⟨.simulate work.signerAddress calldata, .error err⟩

/-- What a process started at `e` has seen before each call. -/
def Allowed (e : Entry) (past : List Ev) : Call → Prop
  -- the configured limits, at the time just read
  | .store (.createSettlementIntent request) =>
    ∃ payment now, request = intentRequest cfg payment now ∧ past.getLast? = some ⟨.now, now⟩
  | .store (.markTxBroadcast _ t txHash _) =>
    ∃ raw sighash n m f, txHash = "0x" ++ raw ∧ (⟨.store (.markTxSigned t raw sighash n m f), .ok ()⟩ : Ev) ∈ past
  | .store (.markTxRecoveredBroadcast q t txHash _) => HandlesAmbiguous past q t ∧
    ∃ p work, Loaded past p work ∧ work.transactionId = t ∧ work.transactionStatus = .ambiguous ∧
      work.rawHash ≠ "" ∧ txHash = "0x" ++ work.rawHash
  | .store (.markAmbiguousRetry p t) => HandlesAmbiguous past p t
  | .store (.markTxConfirming p _ _ _ _) => LeasedWaiting past p
  | .store (.markTxConfirmed p t number hash gasUsed gasPrice actor) =>
    ∃ receipt, MayFinalize cfg past p t actor receipt ∧ number = receipt.blockNumber ∧ hash = receipt.blockHash ∧
      gasUsed = receipt.gasUsed ∧ gasPrice = receipt.effectiveGasPrice ∧ receipt.status ≠ 0
  | .store (.markTxReverted p t gasUsed gasPrice actor) =>
    ∃ receipt, MayFinalize cfg past p t actor receipt ∧ gasUsed = receipt.gasUsed ∧
      gasPrice = receipt.effectiveGasPrice ∧ receipt.status = 0
  -- an intent is retired as unsettleable on the revert of its own call
  | .store (.markIntentUnsettleable p t _) => MayRetire lib past p t
  | .store (.markTxAmbiguousReplaced p t r _) => r.txHash = "0x" ++ r.rawHash ∧ HandlesAmbiguous past p t
  | .store (.markTxReplaced p t r _) => r.txHash = "0x" ++ r.rawHash ∧
    ∃ q work, Loaded past q work ∧ work.paymentId = p ∧ work.transactionId = t
  | .store (.markGapFillerReplaced p t r raw) => r.txHash = "0x" ++ r.rawHash ∧ r.rawHash = rawHashOf lib raw ∧
    SignedHere past raw ∧ ∃ work, ListedStuck cfg past work ∧ work.paymentId = p ∧ work.transactionId = t
  | .store (.markGapFillerPrepared t rawHash txHash raw _ _ _) => SignedHere past raw ∧
    rawHash = rawHashOf lib raw ∧ txHash = "0x" ++ rawHash ∧ ∃ work, ListedGap cfg past work ∧ work.transactionId = t
  -- the watch of a filler ends on the receipt just read
  | .store (.markGapFillerResolved t _ _) =>
    ∃ x receipt, ListedFiller past x ∧ x.transactionId = t ∧
      past.getLast? = some ⟨.transactionReceipt x.txHash, .ok (some receipt)⟩
  | .store (.markGapFillerSucceeded p t _ _ _ _ _) =>
    ∃ x receipt, ListedFiller past x ∧ x.paymentId = p ∧ x.transactionId = t ∧
      past.getLast? = some ⟨.transactionReceipt x.txHash, .ok (some receipt)⟩
  -- leases are taken for the configured time and given back under the process's own identity, at the time just read
  | .store (.claimPayment _ worker duration now) =>
    e.holder = some worker ∧ duration = cfg.leaseDuration ∧ past.getLast? = some ⟨.now, now⟩
  | .store (.claimPayments request) =>
    e.worker = some request.worker ∧ request.duration = cfg.leaseDuration ∧ past.getLast? = some ⟨.now, request.now⟩
  | .store (.renewLease p worker now duration) =>
    e.worker = some worker ∧ duration = cfg.leaseDuration ∧ Claimed past p ∧ past.getLast? = some ⟨.now, now⟩
  | .store (.releaseLease p worker) => e.holder = some worker ∧ Claimed past p
  -- only the watch over replaced originals makes this call, on a receipt of the original; it reads no block by number
  | .store (.markReplacementLanded p t _ number hash gasUsed gasPrice _) => e.recovers = true ∧
    ∃ x receipt, ListedReplaced past x ∧ x.paymentId = p ∧ x.transactionId = t ∧
      (⟨.transactionReceipt x.txHash, .ok (some receipt)⟩ : Ev) ∈ past ∧ number = receipt.blockNumber ∧
      hash = receipt.blockHash ∧ gasUsed = receipt.gasUsed ∧ gasPrice = receipt.effectiveGasPrice
  | .blockByNumber (some _) => e.recovers = false
  -- a process fills and bumps the gaps of its own signer
  | .store (.listDroppedBlockingGaps signer _) | .store (.listStuckGapFillers signer _) => signer = cfg.signerAddress
  | .signTransaction _ _ => MaySign cfg past
  -- what is sent was signed here, but for the recorded bytes of a filler
  | .sendRawTransaction s text => ∃ raw, text = "0x" ++ hexEncode raw ∧ MaySend lib cfg past s raw ∧
    (s.site ≠ .observeGapFiller → SignedHere past raw)
  | _ => True

variable {lib cfg}

variable {past past' : List Ev} {p : Nat}

theorem Loaded.mono (hp : past <+: past') {work : Work} (h : Loaded past p work) :
    Loaded past' p work := hp.subset h

theorem LeasedWaiting.mono (hp : past <+: past') (h : LeasedWaiting past p) : LeasedWaiting past' p := by
  obtain ⟨request, leases, lease, hmem, rest⟩ := h
  exact ⟨request, leases, lease, hp.subset hmem, rest⟩

theorem Claimed.mono (hp : past <+: past') (h : Claimed past p) : Claimed past' p := by
  rcases h with ⟨w, d, now, lease, hmem⟩ | ⟨request, leases, lease, hmem, rest⟩
  · exact .inl ⟨w, d, now, lease, hp.subset hmem⟩
  · exact .inr ⟨request, leases, lease, hp.subset hmem, rest⟩

theorem ListedGap.mono (hp : past <+: past') {work : Work} (h : ListedGap cfg past work) :
    ListedGap cfg past' work := by
  obtain ⟨c, signer, works, hc, hw, hmem⟩ := h
  exact ⟨c, signer, works, hp.subset hc, hp.subset hw, hmem⟩

variable {h : String}

theorem LoadedHash.mono (hp : past <+: past') {t : Nat} (hl : LoadedHash past p t h) : LoadedHash past' p t h := by
  obtain ⟨work, hload, rest⟩ := hl
  exact ⟨work, hload.mono hp, rest⟩

theorem LoadedInline.mono (hp : past <+: past') {intent : Intent} {work : Work}
    (h : LoadedInline past intent work) : LoadedInline past' intent work := by
  obtain ⟨more, rfl⟩ := hp
  obtain ⟨pre, post, request, w, d, now, lease, rfl, hmem⟩ := h
  exact ⟨pre, post ++ more, request, w, d, now, lease, by simp, hmem⟩

theorem Obtained.mono (hp : past <+: past') {work : Work} (ho : Obtained past work h) : Obtained past' work h :=
  ho.imp_right fun ⟨a, ha⟩ => ⟨a, hp.subset ha⟩

theorem Given.mono (hp : past <+: past') {t : Nat} (hg : Given past p t h) : Given past' p t h := by
  obtain ⟨request, intent, hmem, hpay, ht, hhash⟩ := hg
  refine ⟨request, intent, hp.subset hmem, hpay, ht, hhash.imp_right ?_⟩
  rintro ⟨work, hl, ho⟩
  exact ⟨work, hl.mono hp, ho.mono hp⟩

theorem ListedStuck.mono (hp : past <+: past') {work : Work} (h : ListedStuck cfg past work) :
    ListedStuck cfg past' work := by
  obtain ⟨works, hw, hmem⟩ := h
  exact ⟨works, hp.subset hw, hmem⟩

theorem SignedHere.mono (hp : past <+: past') {raw : Bytes} (h : SignedHere past raw) : SignedHere past' raw := by
  obtain ⟨tx, authorization, signed, hmem, hraw⟩ := h
  exact ⟨tx, authorization, signed, hp.subset hmem, hraw⟩

/-- A call that is none to the store leaves the work in hand. -/
theorem Handling.snoc {work : Work} (h : Handling past p work) (ev : Ev)
    (hev : ∀ op, ev.call ≠ .store op) : Handling (past ++ [ev]) p work := by
  obtain ⟨pre, w, now, d, u, post, rfl, hpost⟩ := h
  refine ⟨pre, w, now, d, u, post ++ [ev], by simp, fun x hx => ?_⟩
  rcases List.mem_append.1 hx with hx | hx
  · exact hpost x hx
  · rw [List.mem_singleton.1 hx]
    exact hev

/-- The work in hand was just loaded, or was in hand before a call that is none to the store. -/
theorem Handling.of_snoc {work : Work} {ev : Ev} (h : Handling (past ++ [ev]) p work) :
    ev = ⟨.store (.loadSettlementWork p), .ok work⟩ ∨ (∀ op, ev.call ≠ .store op) ∧ Handling past p work := by
  obtain ⟨pre, w, now, d, u, post, heq, hpost⟩ := h
  rcases List.eq_nil_or_concat post with rfl | ⟨post', x, rfl⟩
  · have hlast := congrArg List.getLast? heq
    simp only [List.getLast?_append, List.getLast?_singleton, List.getLast?_cons_cons, Option.some_or,
      Option.some.injEq] at hlast
    exact .inl hlast
  · rw [List.concat_eq_append, ← List.cons_append, ← List.cons_append, ← List.append_assoc] at heq
    obtain ⟨hpre, hx⟩ := List.append_inj' heq rfl
    cases hx
    refine .inr ⟨hpost ev (by simp), pre, w, now, d, u, post', hpre, fun y hy => hpost y (by simp [hy])⟩

theorem Handling.unique {q : Nat} {work work' : Work} (h : Handling past p work)
    (h' : Handling past q work') : work = work' := by
  induction past using List.reverseRecOn with
  | nil =>
    obtain ⟨pre, w, now, d, u, post, heq, -⟩ := h
    simp at heq
  | append_singleton past ev ih =>
    rcases h.of_snoc with rfl | ⟨hne, hold⟩
    · rcases h'.of_snoc with heq | ⟨hne, -⟩
      · cases heq
        rfl
      · exact absurd rfl (hne _)
    · rcases h'.of_snoc with rfl | ⟨-, hold'⟩
      · exact absurd rfl (hne _)
      · exact ih hold hold'

/-- No ambiguous row is in hand. -/
def NotInDoubt (past : List Ev) : Prop := ∀ p work, Handling past p work → work.transactionStatus ≠ .ambiguous

theorem NotInDoubt.maySign (h : NotInDoubt past) : MaySign cfg past := fun p work hh hs =>
  absurd hs (h p work hh)

theorem NotInDoubt.snoc (h : NotInDoubt past) {ev : Ev}
    (hev : ∀ p work, ev ≠ ⟨.store (.loadSettlementWork p), .ok work⟩) : NotInDoubt (past ++ [ev]) := by
  intro p work hh
  rcases hh.of_snoc with rfl | ⟨-, hh⟩
  · exact absurd rfl (hev p work)
  · exact h p work hh

/-- A call to the store that loads nothing leaves no work in hand. -/
theorem notInDoubt_store (past : List Ev) {ev : Ev} {op : Op} (hop : ev.call = .store op)
    (hload : ∀ p, op ≠ .loadSettlementWork p) : NotInDoubt (past ++ [ev]) := by
  intro p work hh
  rcases hh.of_snoc with rfl | ⟨hne, -⟩
  · cases hop
    exact absurd rfl (hload p)
  · exact absurd hop (hne op)

theorem notInDoubt_load (past : List Ev) {work : Work} (hs : work.transactionStatus ≠ .ambiguous) :
    NotInDoubt (past ++ [⟨.store (.loadSettlementWork p), .ok work⟩]) := by
  intro q work' hh
  rcases hh.of_snoc with heq | ⟨hne, -⟩
  · cases heq
    exact hs
  · exact absurd rfl (hne _)

theorem Handling.loaded {work : Work} (h : Handling past p work) : Loaded past p work := by
  obtain ⟨pre, w, now, d, u, post, rfl, -⟩ := h
  simp [Loaded]

theorem ListedReplaced.mono (hp : past <+: past') {t : TrackedTransaction}
    (h : ListedReplaced past t) : ListedReplaced past' t := by
  obtain ⟨tracked, ht, hmem⟩ := h
  exact ⟨tracked, hp.subset ht, hmem⟩

theorem ListedFiller.mono (hp : past <+: past') {t : TrackedTransaction} (h : ListedFiller past t) :
    ListedFiller past' t := by
  obtain ⟨tracked, ht, hmem⟩ := h
  exact ⟨tracked, hp.subset ht, hmem⟩

/-! ## Calls -/

section Rules

variable {e : Entry} {α β : Type}

/-- The program keeps the discipline; nothing is said of its result. -/
abbrev Abides (lib : Libraries) (cfg : Settlement.Config) (e : Entry) (past : List Ev) (p : P α) : Prop :=
  Prog.wp (Allowed lib cfg e) past p fun _ _ => True

theorem wp_ask {J : List Ev → Call → Prop} {c : Call} {k : Resp c → P β} {Q : List Ev → β → Prop} (hc : J past c)
    (hk : ∀ r, Prog.wp J (past ++ [⟨c, r⟩]) (k r) Q) : Prog.wp J past (ask c >>= k) Q := ⟨hc, hk⟩

theorem wp_then {p : P α} {f : α → P β} {Q : List Ev → β → Prop}
    (hp : Abides lib cfg e past p)
    (hf : ∀ past' a, past <+: past' → Prog.wp (Allowed lib cfg e) past' (f a) Q) :
    Prog.wp (Allowed lib cfg e) past (p >>= f) Q := Prog.wp_seq hp hf

theorem abides_inStore {op : Op} (h : Allowed lib cfg e past (.store op)) : Abides lib cfg e past (inStore op) :=
  ⟨h, fun _ => trivial⟩

theorem abides_release {w : String} (hw : e.holder = some w) (hc : Claimed past p) :
    Abides lib cfg e past (release p w) :=
  wp_ask ⟨hw, hc⟩ fun _ => trivial

end Rules

/-! ## Errors of the broadcast pipeline -/

/-- The calls of the broadcast pipeline. -/
def inPipeline : Call → Bool
  | .store (.claimPayment ..) | .store (.loadSettlementWork _) | .store (.markTxAmbiguous ..)
  | .store (.markIntentExpired ..) | .store (.markIntentUnsettleable ..) | .store (.markTxSigned ..)
  | .store (.markTxBroadcast ..) | .blockByNumber _ | .simulate .. | .signTransaction ..
  | .sendRawTransaction .. => true
  | _ => false

/-- A call of the pipeline reported `s`. -/
def Blamed (past : List Ev) (s : Sentinel) : Prop :=
  ∃ ev ∈ past, inPipeline ev.call = true ∧ Carries s ev.call ev.answer = true

/-- The pipeline retired the intent of `p`, for the reason `s`. -/
def Retires (p : Nat) (past : List Ev) (s : Sentinel) : Prop :=
  (s = .authorizationExpiring ∧ ∃ t a, (⟨.store (.markIntentExpired p t a), .ok ()⟩ : Ev) ∈ past) ∨
    (s = .paymentUnsettleable ∧ ∃ t a, (⟨.store (.markIntentUnsettleable p t a), .ok ()⟩ : Ev) ∈ past)

/-- Where the sentinels in an error of the pipeline come from: a call reported it, or the pipeline itself
retired the intent. -/
def Explained (p : Nat) (past : List Ev) (e : Err) : Prop := ∀ s, e.is s = true → Blamed past s ∨ Retires p past s

def Explains {α : Type} (p : Nat) (past : List Ev) (r : Except Err α) : Prop := ∀ e, r = .error e → Explained p past e

theorem explains_ok {α : Type} (a : α) : Explains p past (.ok a : Except Err α) :=
  fun _ h => by cases h

theorem explained_text (m : String) : Explained p past (.text m) := fun _ h => by cases h

theorem explained_wrap {e : Err} (h : Explained p past e) (c : String) :
    Explained p past (.wrap c e) := fun s hs => h s hs

theorem explained_join {a b : Err} (ha : Explained p past a) (hb : Explained p past b) :
    Explained p past (.join a b) := fun s hs => by
  rw [Err.is_join, Bool.or_eq_true] at hs
  exact hs.elim (ha s) (hb s)

theorem Blamed.mono {s : Sentinel} (hp : past <+: past') (h : Blamed past s) : Blamed past' s := by
  obtain ⟨ev, hev, rest⟩ := h
  exact ⟨ev, hp.subset hev, rest⟩

theorem Retires.mono {s : Sentinel} (hp : past <+: past') (h : Retires p past s) : Retires p past' s := by
  rcases h with ⟨rfl, t, a, hm⟩ | ⟨rfl, t, a, hm⟩
  · exact .inl ⟨rfl, t, a, hp.subset hm⟩
  · exact .inr ⟨rfl, t, a, hp.subset hm⟩

theorem Explained.mono {e : Err} (hp : past <+: past') (h : Explained p past e) :
    Explained p past' e := fun s hs => (h s hs).imp (·.mono hp) (·.mono hp)

theorem explained_last {ev : Ev} {e : Err} (hin : inPipeline ev.call = true)
    (hc : ∀ s, e.is s = true → Carries s ev.call ev.answer = true) : Explained p (past ++ [ev]) e := fun s hs =>
  .inl ⟨ev, by simp, hin, hc s hs⟩

theorem explains_error {α : Type} {e : Err} (h : Explained p past e) :
    Explains p past (.error e : Except Err α) := fun _ he => by cases he; exact h

/-- The error of a send: the provider's, or a wrong hash. -/
theorem sent_error {sent : Except Err String} {expected : String} {e : Err}
    (h : (sent.bind fun returned => requireBroadcastHash returned expected) = .error e) :
    sent = .error e ∨ ∃ m, e = .text m := by
  cases sent with
  | error e' => exact .inl (by simpa [Except.bind] using h)
  | ok returned =>
    simp only [Except.bind, requireBroadcastHash] at h
    split at h <;> cases h
    exact .inr ⟨_, rfl⟩

/-! ## The broadcast pipeline -/

/-- What the pipeline returns: an error it explains, or the hash of the row it was run on. -/
structure Pipelined (work : Work) (past : List Ev) (r : Except Err String) : Prop where
  explains : Explains work.paymentId past r
  hash : ∀ h, r = .ok h → Obtained past work h

variable {err : Err}

section Pipeline

variable {e : Entry} {work : Work}

theorem pipelined_error (h : Explained work.paymentId past err) : Pipelined work past (.error err) :=
  ⟨explains_error h, fun _ hr => by cases hr⟩

theorem pipelined_last {ev : Ev} {c : String} (hin : inPipeline ev.call = true)
    (hc : ∀ s, err.is s = true → Carries s ev.call ev.answer = true) :
    Pipelined work (past ++ [ev]) (.error (.wrap c err)) := pipelined_error (explained_wrap (explained_last hin hc) c)

theorem pipelined_ok (ho : Obtained past work h) : Pipelined work past (.ok h) :=
  ⟨explains_ok h, fun _ hr => by cases hr; exact ho⟩

theorem wp_sendSigned (hl : ∃ p, Loaded past p work) (actor : String) {signed : SignedTransaction}
    (hs : SignedHere past signed.raw) (fees : Int × Int) :
    Prog.wp (Allowed lib cfg e) past (sendSigned lib cfg work actor signed fees) (Pipelined work) := by
  obtain ⟨p, hl⟩ := hl
  refine wp_ask trivial fun r => ?_
  cases r with
  | error err => exact pipelined_last rfl fun _ h => h
  | ok u =>
    refine wp_ask ⟨signed.raw, rfl, ⟨⟨p, work, hl.mono (List.prefix_append ..), rfl, rfl⟩,
      _, _, _, _, List.getLast?_concat⟩, fun _ => hs.mono (List.prefix_append ..)⟩ fun sent => ?_
    cases hsent : sent.bind fun returned => requireBroadcastHash returned ("0x" ++ rawHashOf lib signed.raw) with
    | error err =>
      -- the provider's error, or a wrong hash, is explained by the send itself
      have hexp : Explained work.paymentId
        (past ++ [⟨.store (.markTxSigned work.transactionId (rawHashOf lib signed.raw)
          (hexEncode signed.sigHash) cfg.gasLimit fees.1 fees.2), .ok u⟩] ++ [⟨.sendRawTransaction
          ⟨.broadcastClaimed, work.paymentId, work.transactionId⟩ ("0x" ++ hexEncode signed.raw), sent⟩]) err := by
        rcases sent_error hsent with rfl | ⟨m, rfl⟩
        · exact explained_last rfl fun _ h => h
        · exact explained_text m
      refine wp_ask trivial fun r => ?_
      have hexp' := fun ev => hexp.mono (List.prefix_append _ [ev])
      cases r with
      | error markErr =>
        exact pipelined_error (explained_join (explained_wrap (hexp' _) _)
          (explained_wrap (by exact explained_last rfl fun _ h => h) _))
      | ok _ => exact pipelined_error (explained_wrap (hexp' _) _)
    | ok _ =>
      refine wp_ask ⟨_, _, _, _, _, rfl, List.mem_append_left _ List.mem_concat_self⟩
        fun r => ?_
      cases r with
      | error err => exact pipelined_last rfl fun _ h => h
      | ok _ => exact pipelined_ok (.inr ⟨actor, List.mem_concat_self⟩)

theorem initialFees_text {block : Block} (h : initialFees cfg block = .error err) : ∃ m, err = .text m := by
  unfold initialFees at h
  split at h
  · cases h; exact ⟨_, rfl⟩
  · cases h; exact ⟨_, rfl⟩
  · cases h; exact ⟨_, rfl⟩
  · unfold estimateFeesFrom at h
    split at h
    · cases h; exact ⟨_, rfl⟩
    split at h
    · cases h; exact ⟨_, rfl⟩
    simp only at h
    split at h
    · cases h; exact ⟨_, rfl⟩
    · cases h

theorem wp_estimateFees (hn : NotInDoubt past) (p : Nat) : Prog.wp (Allowed lib cfg e) past (estimateFees cfg)
    fun past' r => past <+: past' ∧ Explains p past' r ∧ ∀ fees, r = .ok fees → MaySign cfg past' := by
  refine wp_ask trivial fun r => ?_
  cases r with
  | error err =>
    exact ⟨List.prefix_append .., explains_error (by exact explained_last rfl fun _ h => h), fun _ h => by cases h⟩
  | ok block =>
    refine ⟨List.prefix_append .., fun err herr => ?_, fun _ _ => (hn.snoc fun _ _ h => by cases h).maySign⟩
    obtain ⟨m, rfl⟩ := initialFees_text herr
    exact explained_text m

theorem wp_signIntent (hl : ∃ p, Loaded past p work) (hn : NotInDoubt past) (actor : String) (calldata : Bytes) :
    Prog.wp (Allowed lib cfg e) past (signIntent lib cfg work actor calldata) (Pipelined work) := by
  obtain ⟨p, hl⟩ := hl
  unfold signIntent
  rw [Prog.wp_bind]
  refine Prog.wp_mono (fun past₁ r h => ?_) (wp_estimateFees hn work.paymentId)
  cases r with
  | error err => exact pipelined_error (explained_wrap (h.2.1 err rfl) _)
  | ok fees =>
    refine wp_ask (h.2.2 fees rfl) fun r => ?_
    cases r with
    | error err => exact pipelined_last rfl fun _ h => h
    | ok signed =>
      exact wp_sendSigned ⟨p, hl.mono (h.1.trans (List.prefix_append ..))⟩ actor
        ⟨_, _, signed, List.mem_concat_self, rfl⟩ fees

theorem decodeFixed32_bare {v : String} (h : Policy.decodeFixed32 v = .error err) (s : Sentinel) :
    err.is s = false := by
  unfold Policy.decodeFixed32 at h
  split at h
  · split at h <;> cases h
    rfl
  · cases h; rfl

theorem splitSignature_bare {v : String} (h : Policy.splitSignature v = .error err) (s : Sentinel) :
    err.is s = false := by
  unfold Policy.splitSignature at h
  split at h
  · split at h
    · cases h; rfl
    simp only at h
    split at h
    · cases h
    · split at h <;> cases h
      rfl
  · cases h; rfl

/-- The errors of the calldata builder are texts. -/
theorem calldata_bare {auth : Authorization}
    (h : Settlement.transferWithAuthorizationData lib auth = .error err) (s : Sentinel) : err.is s = false := by
  unfold Settlement.transferWithAuthorizationData at h
  split at h
  · cases h; rfl
  split at h
  · cases h; rfl
  · cases hn : Settlement.decodeFixed32 auth.nonce with
    | error en =>
      rw [hn] at h
      cases h
      exact decodeFixed32_bare hn s
    | ok nonce =>
      rw [hn] at h
      cases hs : Settlement.splitSignature auth.signature with
      | error es =>
        rw [hs] at h
        cases h
        exact splitSignature_bare hs s
      | ok vrs =>
        rw [hs] at h
        simp only [Except.mapError, bind, Except.bind] at h
        split at h
        · cases h; rfl
        · cases h

theorem wp_simulateIntent (hl : ∃ p, Loaded past p work) (hn : NotInDoubt past) (actor : String) :
    Prog.wp (Allowed lib cfg e) past (simulateIntent lib cfg work actor) (Pipelined work) := by
  obtain ⟨p, hl⟩ := hl
  unfold simulateIntent
  split
  · rename_i err herr
    exact pipelined_error (explained_wrap (fun s hs => by rw [calldata_bare herr s] at hs; cases hs) _)
  · rename_i calldata hdata
    refine wp_ask trivial fun r => ?_
    cases r with
    | error err =>
      simp only
      split
      · refine wp_ask ⟨p, work, calldata, err, hl.mono (List.prefix_append ..), rfl, rfl, hdata, ‹_›,
          List.getLast?_concat⟩ fun r => ?_
        cases r with
        | error markErr => exact pipelined_last rfl fun _ h => h
        | ok u =>
          refine pipelined_error fun s hs => .inr (.inr ⟨?_, _, _, List.mem_concat_self⟩)
          exact (of_decide_eq_true hs).symm
      · exact pipelined_last rfl fun _ h => h
    | ok _ => exact wp_signIntent ⟨p, hl.mono (List.prefix_append ..)⟩ (hn.snoc fun _ _ h => by cases h) actor _

/-- The pipeline on the work just loaded. -/
theorem wp_broadcastClaimed (past : List Ev) (p : Nat) (actor : String) :
    Prog.wp (Allowed lib cfg e) (past ++ [⟨.store (.loadSettlementWork p), .ok work⟩])
      (broadcastClaimed lib cfg work actor)
      (Pipelined work) := by
  have hl : Loaded (past ++ [⟨.store (.loadSettlementWork p), .ok work⟩]) p work :=
    List.mem_concat_self
  unfold broadcastClaimed
  split
  · exact pipelined_ok (.inl ⟨rfl, ‹_›⟩)
  split
  · refine wp_ask trivial fun r => ?_
    cases r with
    | error err => exact pipelined_last rfl fun _ h => h
    | ok _ => exact pipelined_error (explained_text _)
  split
  · exact pipelined_error (explained_text _)
  rename_i hpending
  have hintent : work.transactionStatus = .intent := of_decide_eq_true (not_not.1 hpending)
  refine wp_ask trivial fun now => ?_
  split
  · refine wp_ask trivial fun r => ?_
    cases r with
    | error err => exact pipelined_last rfl fun _ h => h
    | ok u =>
      refine pipelined_error fun s hs => .inr (.inl ⟨?_, _, _, List.mem_concat_self⟩)
      exact (of_decide_eq_true hs).symm
  · refine wp_simulateIntent ⟨p, hl.mono (List.prefix_append ..)⟩ (NotInDoubt.snoc ?_ fun _ _ h => by cases h) actor
    exact notInDoubt_load past (by rw [hintent]; decide)

/-- The sentinels of an error of `Broadcast`. -/
def BroadcastExplains (p : Nat) (past : List Ev) (r : Except Err String) : Prop :=
  ∀ err, r = .error err → ∀ s, err.is s = true →
    s = .broadcastPending ∨ Blamed past s ∨ ∃ work, Loaded past p work ∧ Retires work.paymentId past s

/-- What `Broadcast` returns to a request that came with `past`. -/
structure Broadcasts (past : List Ev) (p : Nat) (past' : List Ev) (r : Except Err String) : Prop where
  explains : BroadcastExplains p past' r
  hash : ∀ h, r = .ok h → ∀ request intent, (⟨.store (.createSettlementIntent request), .ok intent⟩ : Ev) ∈ past →
    intent.paymentId = p → ∃ work, LoadedInline past' intent work ∧ Obtained past' work h

theorem broadcasts_error (h : BroadcastExplains p past' (.error err)) :
    Broadcasts past p past' (.error err) := ⟨h, fun _ hr => by cases hr⟩

theorem wp_broadcast (p : Nat) {actor : String} (ha : e.holder = some actor) :
    Prog.wp (Allowed lib cfg e) past (broadcast lib cfg p actor) (Broadcasts past p) := by
  refine wp_ask trivial fun now => wp_ask ⟨ha, rfl, List.getLast?_concat⟩ fun r => ?_
  cases r with
  | error err =>
    simp only
    split
    · refine broadcasts_error fun err' herr s hs => ?_
      cases herr
      exact .inl (of_decide_eq_true hs).symm
    · refine broadcasts_error fun err' herr s hs => ?_
      cases herr
      exact .inr (.inl ⟨_, List.mem_concat_self, rfl, hs⟩)
  | ok lease =>
    have hc : Claimed
        (past ++ [⟨.now, now⟩] ++ [⟨.store (.claimPayment p actor cfg.leaseDuration now), .ok lease⟩]) p :=
      .inl ⟨_, _, _, _, List.mem_concat_self⟩
    refine wp_ask trivial fun r => ?_
    cases r with
    | error err =>
      refine wp_then (abides_release ha (hc.mono (List.prefix_append ..))) fun past₁ _ hp => ?_
      refine broadcasts_error fun err' herr s hs => ?_
      cases herr
      exact .inr (.inl ⟨_, hp.subset List.mem_concat_self, rfl, hs⟩)
    | ok work =>
      have hl : ∀ past₀, Loaded (past₀ ++ [⟨.store (.loadSettlementWork p), .ok work⟩]) p work := fun _ =>
        List.mem_concat_self
      simp only
      rw [Prog.wp_bind]
      refine Prog.wp_mono (fun past₁ result h => ?_) (Prog.wp_grows (wp_broadcastClaimed _ p actor))
      refine wp_then (abides_release ha (hc.mono ((List.prefix_append ..).trans h.1))) fun past₂ _ hp => ⟨?_, ?_⟩
      · intro err herr s hs
        rcases h.2.explains err herr s hs with hb | hr
        · exact .inr (.inl (hb.mono hp))
        · exact .inr (.inr ⟨work, (hl _).mono (h.1.trans hp), hr.mono hp⟩)
      · rintro hash hok request intent hcreate rfl
        refine ⟨work, LoadedInline.mono (h.1.trans hp) ?_, (h.2.hash hash hok).mono hp⟩
        exact ⟨past ++ [⟨.now, now⟩], [], request, actor, cfg.leaseDuration, now, lease, by simp,
          List.mem_append_left _ hcreate⟩

theorem abides_advanceBroadcast (actor : String) (p : Nat) :
    Abides lib cfg e past (advanceBroadcast lib cfg actor p) := by
  refine wp_ask trivial fun r => ?_
  cases r with
  | error err => trivial
  | ok work =>
    exact wp_then (Prog.wp_mono (fun _ _ _ => trivial) (wp_broadcastClaimed past p actor)) fun _ _ _ => trivial

end Pipeline

/-! ## Confirmation and the waiting request -/

section Confirmation

variable {e : Entry}

theorem abides_confirmation (actor : String) (he : e.recovers = false) (hw : LeasedWaiting past p) :
    Abides lib cfg e past (confirmation cfg p actor) := by
  refine wp_ask trivial fun r => ?_
  cases r with
  | error err => trivial
  | ok work =>
    refine Prog.wp_ite (fun _ => trivial) fun hhash => wp_ask trivial fun r => ?_
    cases r with
    | error err => trivial
    | ok found =>
      cases found with
      | none => exact Prog.wp_ite (fun _ => abides_inStore trivial) fun _ => trivial
      | some receipt =>
        refine wp_ask he fun r => ?_
        cases r with
        | error err => trivial
        | ok canonical =>
          refine Prog.wp_ite (fun _ => Prog.wp_ite (fun _ => abides_inStore trivial) fun _ => trivial) fun hfold =>
            wp_ask trivial fun r => ?_
          cases r with
          | error err => trivial
          | ok current =>
            have hpast : past <+: past ++ [⟨.store (.loadSettlementWork p), .ok work⟩] ++
                [⟨.transactionReceipt work.txHash, .ok (some receipt)⟩] ++
                [⟨.blockByNumber (some receipt.blockNumber), .ok canonical⟩] ++ [⟨.blockNumber, .ok current⟩] := by
              simp only [List.append_assoc]
              exact List.prefix_append ..
            refine Prog.wp_ite (fun _ => abides_inStore (hw.mono hpast)) fun hdepth => ?_
            have hseen : MayFinalize cfg (past ++ [⟨.store (.loadSettlementWork p), .ok work⟩] ++
                [⟨.transactionReceipt work.txHash, .ok (some receipt)⟩] ++
                [⟨.blockByNumber (some receipt.blockNumber), .ok canonical⟩] ++ [⟨.blockNumber, .ok current⟩])
                p work.transactionId actor receipt :=
              ⟨work.txHash, ⟨by simp, ⟨canonical, by simp, by simpa using hfold⟩, current, by simp, by omega⟩,
                .inr ⟨work, by simp [Loaded], rfl, rfl, hhash⟩⟩
            exact Prog.wp_ite (fun hst => abides_inStore ⟨receipt, hseen, rfl, rfl, hst⟩)
              fun hst => abides_inStore ⟨receipt, hseen, rfl, rfl, rfl, rfl, hst⟩

/-- What an observation rests on. -/
def Seen (cfg : Settlement.Config) (txHash : String) (past : List Ev) : Observation → Prop
  | .pending => True
  | .confirmed receipt => SeenFinal cfg past txHash receipt ∧ receipt.status ≠ 0
  | .reverted receipt => SeenFinal cfg past txHash receipt ∧ receipt.status = 0

/-- The calls of the wait, which read the chain and the deadline. -/
def waits : Call → Bool
  | .transactionReceipt _ | .blockByNumber _ | .blockNumber | .contextDone => true
  | _ => false

section Wait

variable {J : List Ev → Call → Prop} (hJ : ∀ past c, waits c = true → J past c)

include hJ

theorem wp_observeSettlement (txHash : String) :
    Prog.wp J past (observeSettlement cfg txHash) fun past' r => ∀ o, r = .ok o → Seen cfg txHash past' o := by
  have pending : ∀ past' : List Ev, ∀ o, (.ok .pending : Except Err Observation) = .ok o → Seen cfg txHash past' o :=
    fun _ o ho => by cases ho; trivial
  have failed : ∀ (past' : List Ev) (err : Err), ∀ o, (.error err : Except Err Observation) = .ok o →
    Seen cfg txHash past' o :=
    fun _ _ o ho => by cases ho
  refine wp_ask (hJ _ _ rfl) fun r => ?_
  cases r with
  | error err => exact failed _ err
  | ok found =>
    cases found with
    | none => exact pending _
    | some receipt =>
      refine wp_ask (hJ _ _ rfl) fun r => ?_
      cases r with
      | error err => exact failed _ err
      | ok canonical =>
        refine Prog.wp_ite (fun _ => pending _) fun hfold => wp_ask (hJ _ _ rfl) fun r => ?_
        cases r with
        | error err => exact failed _ err
        | ok current =>
          refine Prog.wp_ite (fun _ => pending _) fun hdepth => ?_
          have hseen : SeenFinal cfg (past ++ [⟨.transactionReceipt txHash, .ok (some receipt)⟩] ++
              [⟨.blockByNumber (some receipt.blockNumber), .ok canonical⟩] ++ [⟨.blockNumber, .ok current⟩])
              txHash receipt := ⟨by simp, ⟨canonical, by simp, by simpa using hfold⟩, current, by simp, by omega⟩
          exact Prog.wp_ite (fun hst o ho => by cases ho; exact ⟨hseen, hst⟩) fun hst o ho => by
            cases ho; exact ⟨hseen, hst⟩

theorem wp_pollSettlement (txHash : String) : ∀ (polls : Nat) (past : List Ev),
    Prog.wp J past (pollSettlement cfg txHash polls) (Seen cfg txHash)
  | 0, _ => trivial
  | polls + 1, past => by
    unfold pollSettlement
    rw [Prog.wp_bind]
    refine Prog.wp_mono (fun past' r h => ?_) (wp_observeSettlement hJ txHash)
    have again : Prog.wp J past' (contextDone >>= fun done : Bool =>
        if done = true then pure .pending else pollSettlement cfg txHash polls) (Seen cfg txHash) :=
      wp_ask (hJ _ _ rfl) fun done : Bool => by
        cases done with
        | true => trivial
        | false => exact wp_pollSettlement txHash polls _
    cases r with
    | error err => exact again
    | ok o =>
      cases o with
      | pending => exact again
      | confirmed receipt | reverted receipt => exact h _ rfl

theorem wp_waitForSettlement (polls : Nat) (txHash : String) :
    Prog.wp J past (waitForSettlement cfg polls txHash) (Seen cfg txHash) :=
  Prog.wp_ite (fun _ => trivial) fun _ => wp_pollSettlement hJ txHash polls past

end Wait

theorem allowed_waits (he : e.recovers = false) (past : List Ev) (c : Call) (hc : waits c = true) :
    Allowed lib cfg e past c := by
  cases c with
  | blockByNumber n =>
    cases n with
    | none => trivial
    | some n => exact he
  | transactionReceipt | blockNumber | contextDone => trivial
  | _ => cases hc

end Confirmation

/-! ## Settle -/

/-- The reasons a retired intent is answered with. -/
def retiredReasons : List (Sentinel × String) :=
  [(.authorizationExpiring, reasonAuthorizationExpiring), (.paymentUnsettleable, reasonSimulationReverted)]

/-- The row and the hash the process waits for. -/
def Awaits (past : List Ev) (p t : Nat) (h : String) : Prop := Given past p t h ∨ LoadedHash past p t h

theorem Awaits.mono (hp : past <+: past') {t : Nat} (ha : Awaits past p t h) :
    Awaits past' p t h := ha.imp (·.mono hp) (·.mono hp)

/-- The process has just recorded the row it waited for as confirmed. -/
def JustConfirmed (past : List Ev) (p : Nat) (txHash : String) : Prop :=
  ∃ t n h g c a, past.getLast? = some ⟨.store (.markTxConfirmed p t n h g c a), .ok ()⟩ ∧ Awaits past p t txHash

/-- The answer repeats the confirmation that admission found. -/
def Repeated (intent : Intent) (txHash : String) : Prop :=
  intent.confirmed = true ∧ intent.txHash = txHash ∧ txHash ≠ ""

/-- What the answer to a request with an intent rests on. -/
structure Grounded (intent : Intent) (past : List Ev) (response : SettleResponse) : Prop where
  settled : response.success = true →
    Repeated intent response.transaction ∨ JustConfirmed past intent.paymentId response.transaction
  failed : response.errorReason = wireReasonTransactionFailed → intent.reverted = true ∨
    ∃ t g c a, (⟨.store (.markTxReverted intent.paymentId t g c a), .ok ()⟩ : Ev) ∈ past
  retired : ∀ s reason, (s, reason) ∈ retiredReasons → response.errorReason = reason →
    Blamed past s ∨ ∃ work, Loaded past intent.paymentId work ∧ Retires work.paymentId past s

theorem Grounded.success {intent : Intent} {response : SettleResponse}
    (h : Grounded intent past response)
    (hs : response.success = true) : intent.confirmed = true ∨
      ∃ t n h g c a, (⟨.store (.markTxConfirmed intent.paymentId t n h g c a), .ok ()⟩ : Ev) ∈ past := by
  refine (h.settled hs).imp And.left ?_
  rintro ⟨t, n, b, g, c, a, hlast, -⟩
  exact ⟨t, n, b, g, c, a, List.mem_of_getLast? hlast⟩

section Settle

variable {e : Entry} {payment : ParsedPayment} {intent : Intent}

theorem grounded_of {response : SettleResponse}
    (hr : response.errorReason ∉ [reasonAuthorizationExpiring, reasonSimulationReverted])
    (hs : response.success = true →
      Repeated intent response.transaction ∨ JustConfirmed past intent.paymentId response.transaction)
    (hf : response.errorReason = wireReasonTransactionFailed → intent.reverted = true ∨
      ∃ t g c a, (⟨.store (.markTxReverted intent.paymentId t g c a), .ok ()⟩ : Ev) ∈ past) :
    Grounded intent past response := by
  refine ⟨hs, hf, fun s reason hm h => ?_⟩
  simp only [retiredReasons, List.mem_cons, Prod.mk.injEq, List.not_mem_nil, or_false, not_or] at hm hr
  rcases hm with ⟨-, rfl⟩ | ⟨-, rfl⟩
  · exact absurd h hr.1
  · exact absurd h hr.2

theorem grounded_rejected (message : String) {reason : String}
    (hr : reason ∉ [wireReasonTransactionFailed, reasonAuthorizationExpiring, reasonSimulationReverted]) :
    Grounded intent past { rejected reason payment with errorMessage := message } := by
  simp only [List.mem_cons, List.not_mem_nil, or_false, not_or] at hr
  refine grounded_of ?_ (fun h => by cases h) fun h => absurd h hr.1
  simpa [rejected] using hr.2

theorem grounded_receiptUnavailable : Grounded intent past (receiptUnavailable payment) :=
  grounded_rejected "" (by decide)

theorem grounded_settled {txHash : String} (h : Repeated intent txHash ∨ JustConfirmed past intent.paymentId txHash) :
    Grounded intent past (settled payment txHash) := by
  refine grounded_of ?_ (fun _ => h) fun hr => ?_
  · change "" ∉ _
    decide
  · change "" = _ at hr
    exact absurd hr (by decide)

theorem grounded_revertedTx (h : intent.reverted = true ∨
    ∃ t g c a, (⟨.store (.markTxReverted intent.paymentId t g c a), .ok ()⟩ : Ev) ∈ past) :
    Grounded intent past (revertedTx payment) := by
  refine grounded_of ?_ (fun hs => by cases hs) fun _ => h
  change wireReasonTransactionFailed ∉ _
  decide

theorem grounded_retired {reason : String} (hr : reason ≠ wireReasonTransactionFailed)
    (why : ∀ s, (s, reason) ∈ retiredReasons →
      Blamed past s ∨ ∃ work, Loaded past intent.paymentId work ∧ Retires work.paymentId past s) :
    Grounded intent past (rejected reason payment) where
  settled h := by cases h
  failed h := absurd h hr
  retired s reason' hm h := by
    change reason = reason' at h
    subst h
    exact why s hm

theorem wp_respondWithTx (polls : Nat) {t : Nat} {txHash : String} (he : e.recovers = false)
    (ha : Awaits past intent.paymentId t txHash) :
    Prog.wp (Allowed lib cfg e) past (respondWithTx cfg polls payment intent.paymentId t txHash) (Grounded intent) := by
  unfold respondWithTx
  rw [Prog.wp_bind]
  refine Prog.wp_mono (fun past' o h => ?_) (Prog.wp_grows (wp_waitForSettlement (allowed_waits he) polls txHash))
  obtain ⟨hp, h⟩ := h
  have ha' := ha.mono hp
  have hwho : (waitActor = waitActor ∧ Given past' intent.paymentId t txHash) ∨
      LoadedHash past' intent.paymentId t txHash := ha'.imp_left fun hg => ⟨rfl, hg⟩
  cases o with
  | pending => exact grounded_receiptUnavailable
  | confirmed receipt =>
    refine wp_ask ⟨receipt, ⟨txHash, h.1, hwho⟩, rfl, rfl, rfl, rfl, h.2⟩ fun r => ?_
    cases r with
    | error err => exact grounded_receiptUnavailable
    | ok u =>
      exact grounded_settled (.inr ⟨_, _, _, _, _, _, List.getLast?_concat, ha'.mono (List.prefix_append ..)⟩)
  | reverted receipt =>
    refine wp_ask ⟨receipt, ⟨txHash, h.1, hwho⟩, rfl, rfl, h.2⟩ fun r => ?_
    cases r with
    | error err => exact grounded_receiptUnavailable
    | ok u => exact grounded_revertedTx (.inr ⟨_, _, _, _, List.mem_concat_self⟩)

theorem wp_afterBroadcastError (polls : Nat) (he : e.recovers = false)
    (h : BroadcastExplains intent.paymentId past (.error err)) :
    Prog.wp (Allowed lib cfg e) past (afterBroadcastError cfg polls payment intent err) (Grounded intent) := by
  have why : ∀ s, err.is s = true → s ≠ .broadcastPending →
      Blamed past s ∨ ∃ work, Loaded past intent.paymentId work ∧ Retires work.paymentId past s := fun s hs hne =>
    (h err rfl s hs).resolve_left hne
  unfold afterBroadcastError
  refine Prog.wp_ite (fun hexp => ?_) fun _ => Prog.wp_ite (fun hexp => ?_) fun _ => ?_
  · refine grounded_retired (by decide) fun s hm => why s ?_ ?_ <;>
    · simp only [retiredReasons, List.mem_cons, Prod.mk.injEq, List.not_mem_nil, or_false] at hm
      rcases hm with ⟨rfl, -⟩ | ⟨-, hm⟩
      · first | exact hexp | decide
      · exact absurd hm (by decide)
  · refine grounded_retired (by decide) fun s hm => why s ?_ ?_ <;>
    · simp only [retiredReasons, List.mem_cons, Prod.mk.injEq, List.not_mem_nil, or_false] at hm
      rcases hm with ⟨-, hm⟩ | ⟨rfl, -⟩
      · exact absurd hm (by decide)
      · first | exact hexp | decide
  · have failed : ∀ past', Grounded intent past' (if err.is .broadcastPending = true then
        broadcastFailed payment "payment broadcast is already in progress; retry to observe it"
      else broadcastFailed payment
        "transaction broadcast failed; the durable intent remains for the settlement worker") := fun past' => by
      split <;> exact grounded_rejected _ (by decide)
    refine wp_ask trivial fun r => ?_
    cases r with
    | error err' => exact failed _
    | ok work =>
      refine Prog.wp_ite (fun hne => wp_respondWithTx polls he (.inr ⟨work, ?_, rfl, rfl, hne⟩)) fun _ => failed _
      exact List.mem_concat_self

/-- The answer to a request whose intent already has a hash: a final outcome is repeated. -/
structure Repeats (payment : ParsedPayment) (intent : Intent) (response : SettleResponse) : Prop where
  reverted : intent.txHash ≠ "" → intent.reverted = true → response = revertedTx payment
  confirmed : intent.txHash ≠ "" → intent.reverted = false → intent.confirmed = true →
    response = settled payment intent.txHash

theorem wp_settleIntent (polls : Nat) {request : IntentRequest} (he : e.recovers = false) (hw : e.holder = some "http")
    (hi : (⟨.store (.createSettlementIntent request), .ok intent⟩ : Ev) ∈ past) :
    Prog.wp (Allowed lib cfg e) past (settleIntent lib cfg polls payment intent)
      fun past' r => Grounded intent past' r ∧ Repeats payment intent r := by
  have fresh : ∀ (h : intent.txHash = "") r, Repeats payment intent r := fun h r =>
    ⟨fun hne => absurd h hne, fun hne => absurd h hne⟩
  unfold settleIntent
  refine Prog.wp_ite (fun hne => ?_) fun hempty => ?_
  · refine Prog.wp_ite (fun hr => ?_) fun hr => Prog.wp_ite (fun hc => ?_) fun hc =>
      Prog.wp_ite (fun hd => ?_) fun hd => ?_
    · exact ⟨grounded_revertedTx (.inl hr), fun _ _ => rfl, fun _ h => by rw [hr] at h; cases h⟩
    · exact ⟨grounded_settled (.inl ⟨hc, rfl, hne⟩), fun _ h => absurd h hr, fun _ _ _ => rfl⟩
    · exact ⟨grounded_receiptUnavailable, fun _ h => absurd h hr, fun _ _ h => absurd h hc⟩
    · exact Prog.wp_mono (fun _ _ h => ⟨h, fun _ h => absurd h hr, fun _ _ h => absurd h hc⟩)
        (wp_respondWithTx polls he (.inl ⟨request, intent, hi, rfl, rfl, .inl ⟨rfl, hne⟩⟩))
  · have hno := fresh (not_not.1 hempty)
    rw [Prog.wp_bind]
    refine Prog.wp_mono (fun past₁ r h => ?_) (Prog.wp_grows (wp_broadcast intent.paymentId hw))
    obtain ⟨hp, h⟩ := h
    cases r with
    | ok txHash =>
      have hgiven : Given past₁ intent.paymentId intent.transactionId txHash :=
        ⟨request, intent, hp.subset hi, rfl, rfl, .inr (h.hash txHash rfl request intent hi rfl)⟩
      exact Prog.wp_mono (fun _ r h => ⟨h, hno r⟩) (wp_respondWithTx polls he (.inl hgiven))
    | error err => exact Prog.wp_mono (fun _ r h => ⟨h, hno r⟩) (wp_afterBroadcastError polls he h.explains)

/-- What the result of `Settle` rests on: one answer of admission, at once for a refusal, and for an intent what it
grounds. -/
def SettleGrounds (cfg : Settlement.Config) (payment : ParsedPayment) (past : List Ev)
    (r : Except Err SettleResponse) : Prop :=
  ∃ now answer, (⟨.store (.createSettlementIntent (intentRequest cfg payment now)), answer⟩ : Ev) ∈ past ∧
    ((∃ err, answer = .error err ∧ r = admissionAnswer payment err ∧
        past.getLast? = some ⟨.store (.createSettlementIntent (intentRequest cfg payment now)), answer⟩) ∨
      ∃ intent response, answer = .ok intent ∧ r = .ok response ∧ Grounded intent past response ∧
        Repeats payment intent response)

theorem wp_settle (polls : Nat) {request : Request} (he : e.recovers = false) (hw : e.holder = some "http")
    (hpay : parseRequest lib request = .ok payment) :
    Prog.wp (Allowed lib cfg e) past (settle lib cfg polls request) (SettleGrounds cfg payment) := by
  unfold settle
  rw [hpay]
  refine wp_ask trivial fun now => wp_ask ⟨payment, now, rfl, List.getLast?_concat⟩ fun answer => ?_
  cases answer with
  | error err => exact ⟨now, .error err, by simp, .inl ⟨err, rfl, rfl, by simp⟩⟩
  | ok intent =>
    simp only
    rw [Prog.wp_bind]
    refine Prog.wp_mono (fun past₁ response h => ?_)
      (Prog.wp_grows (wp_settleIntent polls he hw List.mem_concat_self))
    exact ⟨now, .ok intent, h.1.subset (by simp), .inr ⟨intent, response, rfl, rfl, h.2.1, h.2.2⟩⟩

end Settle

end Eth402.System
