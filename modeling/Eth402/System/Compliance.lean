/-
Every program of the facilitator keeps the discipline of `System/Discipline.lean`: the workers' ticks, the
watches of recovery, verification and upkeep. `code_disciplined` collects them, with what each process
returns.
-/
import Eth402.System.Discipline

namespace Eth402.System

open Lib Store Settlement Verification

variable {lib : Libraries} {cfg : Settlement.Config} {e : Entry} {past : List Ev}

/-! ## Batches and leases -/

theorem abides_contextDone : Abides lib cfg e past contextDone := ⟨trivial, fun _ => trivial⟩

/-- A loop over what was listed. -/
theorem abides_each {β : Type} {f : β → P Unit} {xs : List β}
    (hf : ∀ x ∈ xs, ∀ past', past <+: past' → Abides lib cfg e past' (f x)) :
    Abides lib cfg e past (Prog.each contextDone f xs) :=
  Prog.wp_each (fun _ _ => abides_contextDone) xs hf (fun _ _ => trivial) past (List.prefix_refl _)

/-- The last call renewed the lease on the payment. -/
def JustRenewed (past : List Ev) (p : Nat) : Prop :=
  ∃ w now d u, past.getLast? = some ⟨.store (.renewLease p w now d), .ok u⟩

theorem JustRenewed.handling {p : Nat} (h : JustRenewed past p) (work : Work) :
    Handling (past ++ [⟨.store (.loadSettlementWork p), .ok work⟩]) p work := by
  obtain ⟨w, now, d, u, hlast⟩ := h
  obtain ⟨pre, rfl⟩ := List.getLast?_eq_some_iff.1 hlast
  exact ⟨pre, w, now, d, u, [], by simp, fun _ h => by cases h⟩

theorem abides_advanceLeased {identity : String} {advance : Nat → P (Except Err Unit)} {lease : Lease}
    (hw : e.worker = some identity) (hc : Claimed past lease.paymentId)
    (ha : ∀ past', past <+: past' → JustRenewed past' lease.paymentId →
    Abides lib cfg e past' (advance lease.paymentId)) :
    Abides lib cfg e past (advanceLeased cfg identity advance lease) := by
  have hh := Entry.holder_of_worker hw
  refine wp_ask trivial fun now =>
    wp_ask ⟨hw, rfl, hc.mono (List.prefix_append ..), List.getLast?_concat⟩ fun r => ?_
  have hp : past <+: past ++ [⟨.now, now⟩] ++
      [⟨.store (.renewLease lease.paymentId identity now cfg.leaseDuration), r⟩] := by
    rw [List.append_assoc]
    exact List.prefix_append ..
  cases r with
  | error err => exact Prog.wp_ite (fun _ => trivial) fun _ => abides_release hh (hc.mono hp)
  | ok u =>
    refine wp_then (ha _ hp ?_) fun _ _ hp' => abides_release hh (hc.mono (hp.trans hp'))
    exact ⟨identity, now, cfg.leaseDuration, u, List.getLast?_concat⟩

theorem abides_processBatch {identity : String} {states : List State} {advance : Nat → P (Except Err Unit)}
    (hw : e.worker = some identity)
    (ha : ∀ (request : ClaimRequest) (leases : List Lease) (past' : List Ev), request.states = states →
      (⟨.store (.claimPayments request), .ok leases⟩ : Ev) ∈ past' → ∀ lease ∈ leases,
        JustRenewed past' lease.paymentId → Abides lib cfg e past' (advance lease.paymentId)) :
    Abides lib cfg e past (processBatch cfg identity states advance) := by
  refine wp_ask trivial fun now => wp_ask ⟨hw, rfl, List.getLast?_concat⟩ fun r => ?_
  cases r with
  | error err => trivial
  | ok leases =>
    refine abides_each fun lease hl past' hp => abides_advanceLeased hw ?_ fun past'' hp' hren => ?_
    · exact .inr ⟨_, leases, lease, hp.subset List.mem_concat_self, hl, rfl⟩
    exact ha _ leases past'' rfl ((hp.trans hp').subset List.mem_concat_self) lease hl hren

theorem abides_broadcastTick {identity : String} (hw : e.worker = some identity) :
    Abides lib cfg e past (broadcastTick lib cfg identity) :=
  abides_processBatch hw fun _ _ _ _ _ _ _ _ => abides_advanceBroadcast ..

theorem abides_confirmationTick {identity : String} (hw : e.worker = some identity) (he : e.recovers = false) :
    Abides lib cfg e past (confirmationTick cfg identity) :=
  abides_processBatch hw fun request leases _ hs hc lease hl _ =>
    abides_confirmation workerActor he ⟨request, leases, lease, hc, fun s hmem => by rw [hs] at hmem; exact hmem,
      hl, rfl⟩

theorem abides_underLease {identity : String} {p : Nat} {step : P Unit} (hw : e.worker = some identity)
    (hs : ∀ past', past <+: past' → NotInDoubt past' → Abides lib cfg e past' step) :
    Abides lib cfg e past (underLease cfg identity p step) := by
  have hh := Entry.holder_of_worker hw
  refine wp_ask trivial fun now => wp_ask ⟨hh, rfl, List.getLast?_concat⟩ fun r => ?_
  cases r with
  | error err => trivial
  | ok lease =>
    have hc : Claimed
        (past ++ [⟨.now, now⟩] ++ [⟨.store (.claimPayment p identity cfg.leaseDuration now), .ok lease⟩]) p :=
      .inl ⟨_, _, _, _, List.mem_concat_self⟩
    refine wp_then (hs _ ?_ (notInDoubt_store _ rfl fun _ h => by cases h)) fun past' _ hp =>
      abides_release hh (hc.mono hp)
    rw [List.append_assoc]
    exact List.prefix_append ..

/-! ## Recovery of leased payments -/

variable {work : Work}

/-- Re-signing the ambiguous row in hand, past its backoff. -/
theorem wp_signIdentical {p : Nat} (hh : Handling past p work)
    (hd : work.transactionUpdatedAt + ambiguousRetryDelay work.ambiguousAttempts cfg.recoveryGrace ≤ work.dbNow)
    (maxFee priorityFee : Int) :
    Prog.wp (Allowed lib cfg e) past (signIdentical lib work maxFee priorityFee) fun past' r =>
      Handling past' p work ∧ ∀ raw rawHash, r = .ok (raw, rawHash) → rawHash = rawHashOf lib raw ∧
        SignedHere past' raw := by
  unfold signIdentical
  split
  · exact ⟨hh, fun _ _ h => by cases h⟩
  · refine wp_ask (fun q work' hh' _ => ?_) fun r => ?_
    · rw [hh'.unique hh]
      exact hd
    have hh' := hh.snoc ⟨.signTransaction _ _, r⟩ fun _ h => by cases h
    cases r with
    | error err => exact ⟨hh', fun _ _ h => by cases h⟩
    | ok signed =>
      refine Prog.wp_ite (fun _ => ?_) fun _ => Prog.wp_ite (fun _ => ?_) fun _ => ?_
      · exact ⟨hh', fun _ _ h => by cases h⟩
      · exact ⟨hh', fun _ _ h => by cases h⟩
      · refine ⟨hh', fun _ _ h => ?_⟩
        cases h
        exact ⟨rfl, _, _, signed, List.mem_concat_self, rfl⟩

/-- The ambiguous row in hand, with a recorded hash. -/
structure LoadedAmbiguous (past : List Ev) (work : Work) : Prop where
  handling : ∃ p, Handling past p work
  status : work.transactionStatus = .ambiguous
  rawHash : work.rawHash ≠ ""

theorem LoadedAmbiguous.snoc (h : LoadedAmbiguous past work) (ev : Ev) (hev : ∀ op, ev.call ≠ .store op) :
    LoadedAmbiguous (past ++ [ev]) work := by
  obtain ⟨⟨p, hh⟩, hs, hr⟩ := h
  exact ⟨⟨p, hh.snoc ev hev⟩, hs, hr⟩

theorem LoadedAmbiguous.handles (h : LoadedAmbiguous past work) :
    HandlesAmbiguous past work.paymentId work.transactionId := by
  obtain ⟨⟨p, hh⟩, hs, -⟩ := h
  exact ⟨p, work, hh, hs, rfl, rfl⟩

theorem LoadedAmbiguous.allowed (h : LoadedAmbiguous past work) (actor : String) :
    Allowed lib cfg e past (.store (.markTxRecoveredBroadcast work.paymentId work.transactionId
      ("0x" ++ work.rawHash) actor)) := by
  refine ⟨h.handles, ?_⟩
  obtain ⟨⟨p, hh⟩, hs, hr⟩ := h
  exact ⟨p, work, hh.loaded, rfl, hs, hr, rfl⟩

theorem abides_resendAmbiguous (h : LoadedAmbiguous past work) (actor : String) (maxFee priorityFee : Int)
    {raw : Bytes} {rawHash : String} (hh : rawHash = rawHashOf lib raw) (hsigned : SignedHere past raw) :
    Abides lib cfg e past (resendAmbiguous work actor maxFee priorityFee raw rawHash) := by
  refine Prog.wp_ite (fun _ => ?_) fun heq => ?_
  · -- a fresh signature: its row is recorded before the send
    refine wp_ask ⟨rfl, h.handles⟩ fun r => ?_
    cases r with
    | error err => trivial
    | ok u =>
      exact wp_ask ⟨raw, rfl, .inr ⟨_, _, List.mem_concat_self, hh⟩,
        fun _ => hsigned.mono (List.prefix_append ..)⟩ fun _ => trivial
  · obtain ⟨p, hl⟩ := h.handling
    refine wp_ask ⟨raw, rfl, .inl ⟨p, work, hl.loaded, rfl, rfl, h.status, h.rawHash, (not_not.1 heq).symm.trans hh⟩,
      fun _ => hsigned⟩ fun sent => ?_
    have h' := h.snoc ⟨.sendRawTransaction _ _, sent⟩ fun _ he => by cases he
    cases sent.bind fun returned => requireBroadcastHash returned ("0x" ++ work.rawHash) with
    | error err =>
      refine wp_ask h'.handles fun r => ?_
      cases r <;> trivial
    | ok u => exact abides_inStore (h'.allowed actor)

theorem abides_resolveAmbiguous (hl : ∃ p, Handling past p work) (hs : work.transactionStatus = .ambiguous)
    (actor : String) : Abides lib cfg e past (resolveAmbiguous lib cfg work actor) := by
  refine Prog.wp_ite (fun _ => trivial) fun hr => wp_ask trivial fun r => ?_
  have h₁ := LoadedAmbiguous.snoc ⟨hl, hs, hr⟩ ⟨.transactionReceipt ("0x" ++ work.rawHash), r⟩ fun _ he => by cases he
  cases r with
  | error err => trivial
  | ok found =>
    cases found with
    | some receipt => exact abides_inStore (h₁.allowed actor)
    | none =>
      refine wp_ask trivial fun r => ?_
      have h₂ := h₁.snoc ⟨.transactionByHash ("0x" ++ work.rawHash), r⟩ fun _ he => by cases he
      cases r with
      | error err => trivial
      | ok known =>
        cases known with
        | true => exact abides_inStore (h₂.allowed actor)
        | false =>
          refine Prog.wp_ite (fun _ => trivial) fun hdelay => ?_
          split
          · refine Prog.wp_ite (fun _ => trivial) fun _ => ?_
            obtain ⟨p, hh⟩ := h₂.handling
            rw [Prog.wp_bind]
            refine Prog.wp_mono (fun past₁ r hr => ?_) (wp_signIdentical hh (not_lt.1 hdelay) _ _)
            cases r with
            | error err => trivial
            | ok signed =>
              obtain ⟨heq, hsigned⟩ := hr.2 _ _ rfl
              exact abides_resendAmbiguous ⟨⟨p, hr.1⟩, hs, h₂.rawHash⟩ actor _ _ heq hsigned
          · trivial

theorem wp_replacementFees (hn : NotInDoubt past) (work : Work) :
    Prog.wp (Allowed lib cfg e) past (replacementFees cfg work) fun past' r =>
    past <+: past' ∧ ∀ fees, r = .ok (some fees) → MaySign cfg past' := by
  unfold replacementFees
  split
  · exact ⟨List.prefix_refl _, fun _ h => by cases h⟩
  · exact ⟨List.prefix_refl _, fun _ h => by cases h⟩
  · refine wp_ask trivial fun r => ?_
    cases r with
    | error err => exact ⟨List.prefix_append .., fun _ h => by cases h⟩
    | ok block => exact ⟨List.prefix_append .., fun _ _ => (hn.snoc fun _ _ h => by cases h).maySign⟩

/-- A signed replacement and its record describe the same bytes. -/
structure Describes (lib : Libraries) (raw : Bytes) (r : Replacement) : Prop where
  rawHash : r.rawHash = rawHashOf lib raw
  txHash : r.txHash = "0x" ++ r.rawHash

theorem wp_signReplacement (hs : MaySign cfg past) (work : Work) (fees : Int × Int) :
    Prog.wp (Allowed lib cfg e) past (signReplacement lib work fees) fun past' r => past <+: past' ∧
      ∀ raw replacement, r = .ok (raw, replacement) → Describes lib raw replacement ∧ SignedHere past' raw := by
  unfold signReplacement
  split
  · exact ⟨List.prefix_refl _, fun _ _ h => by cases h⟩
  · refine wp_ask hs fun r => ?_
    cases r with
    | error err => exact ⟨List.prefix_append .., fun _ _ h => by cases h⟩
    | ok signed =>
      refine ⟨List.prefix_append .., fun raw replacement h => ?_⟩
      cases h
      exact ⟨⟨rfl, rfl⟩, _, _, signed, List.mem_concat_self, rfl⟩

/-- A bump keeps the discipline when its record may be made and then allows the send. -/
theorem abides_bump {site : Site} {what : String} {record : Bytes → Replacement → Op}
    (hn : NotInDoubt past) (hrec : ∀ past' raw r, past <+: past' → Describes lib raw r → SignedHere past' raw →
      Allowed lib cfg e past' (.store (record raw r)))
    (hsend : ∀ past' raw r a, Describes lib raw r →
      MaySend lib cfg (past' ++ [⟨.store (record raw r), .ok a⟩]) ⟨site, work.paymentId, work.transactionId⟩ raw) :
    Abides lib cfg e past (bump lib cfg site what work record) := by
  unfold Abides bump
  rw [Prog.wp_bind]
  refine Prog.wp_mono (fun past₁ r h₁ => ?_) (wp_replacementFees hn work)
  cases r with
  | error err => trivial
  | ok found =>
    cases found with
    | none => trivial
    | some fees =>
      simp only
      rw [Prog.wp_bind]
      refine Prog.wp_mono (fun past₂ r h₂ => ?_) (wp_signReplacement (h₁.2 fees rfl) work fees)
      cases r with
      | error err => trivial
      | ok signed =>
        obtain ⟨raw, replacement⟩ := signed
        obtain ⟨hd, hs⟩ := h₂.2 _ _ rfl
        refine wp_ask (hrec past₂ raw replacement (h₁.1.trans h₂.1) hd hs) fun r => ?_
        cases r with
        | error err => trivial
        | ok u =>
          exact wp_ask ⟨raw, rfl, hsend past₂ raw replacement u hd, fun _ => hs.mono (List.prefix_append ..)⟩ fun _ =>
            trivial

theorem abides_replaceStuck (hn : NotInDoubt past) (hl : ∃ p, Loaded past p work) (actor : String) :
    Abides lib cfg e past (replaceStuck lib cfg work actor) := by
  obtain ⟨p, hl⟩ := hl
  refine Prog.wp_ite (fun _ => trivial) fun _ => abides_bump hn (fun past' _ _ hp hd _ => ?_) fun _ _ r _ hd => ?_
  · exact ⟨hd.txHash, p, work, hl.mono hp, rfl, rfl⟩
  · exact ⟨r, actor, List.mem_concat_self, hd.rawHash⟩

theorem abides_recoverPayment (actor : String) {p : Nat} (hren : JustRenewed past p) :
    Abides lib cfg e past (recoverPayment lib cfg actor p) := by
  refine wp_ask trivial fun r => ?_
  cases r with
  | error err => trivial
  | ok work =>
    refine Prog.wp_ite (fun hs => ?_) fun hs => Prog.wp_ite (fun _ => ?_) fun _ => trivial
    · exact abides_resolveAmbiguous ⟨p, hren.handling work⟩ hs actor
    · exact abides_replaceStuck (notInDoubt_load past hs) ⟨p, List.mem_concat_self⟩ actor

theorem abides_recoverLeased {identity : String} (hw : e.worker = some identity) :
    Abides lib cfg e past (recoverLeased lib cfg identity) :=
  abides_processBatch hw fun _ _ _ _ _ _ _ hren => abides_recoverPayment workerActor hren

/-! ## Watches -/

theorem abides_observeReplacement {t : TrackedTransaction} (h : ListedReplaced past t) (he : e.recovers = true) :
    Abides lib cfg e past (observeReplacement cfg t) := by
  refine wp_ask trivial fun r => ?_
  cases r with
  | error err => trivial
  | ok found =>
    cases found with
    | none => trivial
    | some receipt =>
      have hlist := h.mono (List.prefix_append past [⟨.transactionReceipt t.txHash, .ok (some receipt)⟩])
      refine Prog.wp_ite (fun _ => wp_ask ⟨he, t, receipt, hlist, rfl, rfl, ?_, rfl, rfl, rfl, rfl⟩ fun _ => trivial)
        fun _ => wp_ask trivial fun r => ?_
      · exact List.mem_concat_self
      cases r with
      | error err => trivial
      | ok current =>
        refine Prog.wp_ite (fun _ => trivial) fun _ =>
          wp_ask ⟨he, t, receipt, hlist.mono (List.prefix_append ..), rfl, rfl,
          ?_, rfl, rfl, rfl, rfl⟩ fun _ => trivial
        exact List.mem_append_left _ List.mem_concat_self

theorem abides_observeReplacements {identity : String} (hw : e.worker = some identity) (he : e.recovers = true) :
    Abides lib cfg e past (observeReplacements cfg identity) := by
  refine wp_ask trivial fun r => ?_
  cases r with
  | error err => trivial
  | ok tracked =>
    refine abides_each fun t ht past₁ hp => abides_underLease hw fun past₂ hp' _ => abides_observeReplacement ?_ he
    exact ListedReplaced.mono (hp.trans hp') ⟨tracked, by simp, ht⟩

theorem abides_fillNonceGap (h : ListedGap cfg past work) (hn : NotInDoubt past) :
    Abides lib cfg e past (fillNonceGap lib cfg work) := by
  unfold Abides fillNonceGap
  split
  · trivial
  · rename_i calldata hdata
    rw [Prog.wp_bind]
    refine Prog.wp_mono (fun past₁ r hr => ?_) (wp_estimateFees hn work.paymentId)
    obtain ⟨hp, -, hsign⟩ := hr
    cases r with
    | error err => trivial
    | ok fees =>
      refine wp_ask (hsign fees rfl) fun r => ?_
      cases r with
      | error err => trivial
      | ok signed =>
        have h₁ := fun ev => h.mono (hp.trans (List.prefix_append past₁ [ev]))
        have hs : SignedHere (past₁ ++ [⟨.signTransaction ⟨work.nonce, calldata, cfg.gasLimit, fees.1, fees.2⟩
            work.authorization.wire, .ok signed⟩]) signed.raw :=
          ⟨_, _, signed, List.mem_concat_self, rfl⟩
        refine wp_ask ⟨hs, rfl, rfl, work, h₁ _, rfl⟩ fun r => ?_
        cases r with
        | error err => trivial
        | ok u =>
          refine wp_ask ⟨signed.raw, rfl, ⟨⟨work, (h₁ _).mono (List.prefix_append ..), rfl, rfl⟩, ?_⟩,
            fun _ => hs.mono (List.prefix_append ..)⟩ fun _ => trivial
          exact ⟨_, _, _, _, List.mem_concat_self⟩

theorem abides_fillNonceGaps {identity : String} (hw : e.worker = some identity) :
    Abides lib cfg e past (fillNonceGaps lib cfg identity) := by
  refine wp_ask trivial fun now => wp_ask rfl fun r => ?_
  cases r with
  | error err => trivial
  | ok works =>
    refine abides_each fun work hmem past₁ hp => abides_underLease hw fun past₂ hp' hn => ?_
    refine wp_then (abides_fillNonceGap ?_ hn) fun _ _ _ => trivial
    exact ListedGap.mono (hp.trans hp') ⟨now, cfg.signerAddress, works, by simp, by simp, hmem⟩

theorem abides_observeGapFiller {t : TrackedTransaction} (h : ListedFiller past t) :
    Abides lib cfg e past (observeGapFiller t) := by
  refine wp_ask trivial fun r => ?_
  cases r with
  | error err => trivial
  | ok found =>
    cases found with
    | none =>
      refine Prog.wp_ite (fun _ => trivial) fun _ => wp_ask trivial fun r => ?_
      cases r with
      | error err => trivial
      | ok known =>
        cases known with
        | true => trivial
        | false =>
          refine wp_ask ⟨t.rawTransaction, rfl, ⟨t, ?_, rfl, rfl, rfl⟩, fun hne => absurd rfl hne⟩ fun _ => trivial
          exact (h.mono (List.prefix_append ..)).mono (List.prefix_append ..)
    | some receipt =>
      have hlist := h.mono (List.prefix_append past [⟨.transactionReceipt t.txHash, .ok (some receipt)⟩])
      refine Prog.wp_ite (fun _ => wp_ask ⟨t, receipt, hlist, rfl, rfl, ?_⟩ fun _ => trivial)
        fun _ => wp_ask ⟨t, receipt, hlist, rfl, ?_⟩ fun _ => trivial
      · exact List.getLast?_concat
      · exact List.getLast?_concat

theorem abides_observeGapFillers {identity : String} (hw : e.worker = some identity) :
    Abides lib cfg e past (observeGapFillers cfg identity) := by
  refine wp_ask trivial fun r => ?_
  cases r with
  | error err => trivial
  | ok tracked =>
    refine abides_each fun t ht past₁ hp => abides_underLease hw fun past₂ hp' _ => abides_observeGapFiller ?_
    exact ListedFiller.mono (hp.trans hp') ⟨tracked, by simp, ht⟩

theorem abides_bumpStuckGapFiller (h : ListedStuck cfg past work) (hn : NotInDoubt past) :
    Abides lib cfg e past (bumpStuckGapFiller lib cfg work) :=
  abides_bump hn (fun _ _ _ hp hd hs => ⟨hd.txHash, hd.rawHash, hs, work, h.mono hp, rfl, rfl⟩) fun _ _ r _ hd =>
    ⟨r, List.mem_concat_self, hd.rawHash⟩

theorem abides_bumpStuckGapFillers {identity : String} (hw : e.worker = some identity) :
    Abides lib cfg e past (bumpStuckGapFillers lib cfg identity) := by
  refine wp_ask rfl fun r => ?_
  cases r with
  | error err => trivial
  | ok works =>
    refine abides_each fun work hmem past₁ hp => abides_underLease hw fun past₂ hp' hn => ?_
    refine wp_then (abides_bumpStuckGapFiller ?_ hn) fun _ _ _ => trivial
    exact ListedStuck.mono (hp.trans hp') ⟨works, by simp, hmem⟩

theorem abides_recoveryTick {identity : String} (hw : e.worker = some identity) (he : e.recovers = true) :
    Abides lib cfg e past (recoveryTick lib cfg identity) := by
  refine wp_then (abides_recoverLeased hw) fun _ _ _ => ?_
  refine wp_then (abides_observeReplacements hw he) fun _ _ _ => ?_
  refine wp_then (abides_fillNonceGaps hw) fun _ _ _ => ?_
  refine wp_then (abides_observeGapFillers hw) fun _ _ _ => ?_
  exact abides_bumpStuckGapFillers hw

/-! ## Verification -/

/-- What an answer that the payment is valid rests on: the verified attempt was recorded last. -/
def VerifyGrounds (lib : Libraries) (request : Request) (past : List Ev) (result : Except Err VerifyResponse) : Prop :=
  ∀ response, result = .ok response → response.isValid = true → ∃ payment, parseRequest lib request = .ok payment ∧
    past.getLast? = some ⟨.store (.recordVerification ⟨payment.identity, "verified", "", some payment⟩
      (lib.reasonText .nonceAlreadyUsed)), .ok ()⟩

section Verify

variable {request : Request}

theorem wp_recordFailed (identity reason payer : String) :
    Prog.wp (Allowed lib cfg e) past (recordFailed lib identity reason payer) (VerifyGrounds lib request) :=
  wp_ask trivial fun r => by
    cases r with
    | error err => exact fun _ h => by cases h
    | ok u => exact fun _ h hv => by cases h; cases hv

theorem wp_unavailable (identity : String) (cause : Err) :
    Prog.wp (Allowed lib cfg e) past (unavailable lib identity cause) (VerifyGrounds lib request) :=
  wp_ask trivial fun r => by cases r <;> exact fun _ h => by cases h

theorem wp_recordVerified {payment : ParsedPayment} (hpay : parseRequest lib request = .ok payment) :
    Prog.wp (Allowed lib cfg e) past (recordVerified lib payment) (VerifyGrounds lib request) :=
  wp_ask trivial fun r => by
    cases r with
    | error err => exact Prog.wp_ite (fun _ _ h hv => by cases h; cases hv) fun _ _ h => by cases h
    | ok u => exact fun _ _ _ => ⟨payment, hpay, List.getLast?_concat⟩

theorem wp_verify (request : Request) :
    Prog.wp (Allowed lib cfg e) past (verify lib request) (VerifyGrounds lib request) := by
  unfold verify
  split
  · exact wp_recordFailed ..
  · rename_i payment hpay
    refine wp_ask trivial fun r => ?_
    cases r with
    | error err => exact wp_unavailable ..
    | ok code =>
      refine Prog.wp_ite (fun _ => wp_recordFailed ..) fun _ => wp_ask trivial fun r => ?_
      cases r with
      | error err => exact wp_unavailable ..
      | ok used =>
        cases used with
        | true => exact wp_recordFailed ..
        | false =>
          refine wp_ask trivial fun r => ?_
          cases r with
          | unavailable err => exact wp_unavailable ..
          | invalid reason => exact wp_recordFailed ..
          | valid => exact wp_recordVerified hpay

end Verify

/-! ## Every entry point -/

/-- What a process started at `e` returns. -/
def Returns (lib : Libraries) (cfg : Settlement.Config) : Entry → List Ev → Out → Prop
  | .settle request _, past, out => ∃ result, out = .settled result ∧
    match parseRequest lib request with
    | .error _ => ∃ message, result = .ok { rejected wireReasonInvalidRequest none with errorMessage := message }
    | .ok payment => SettleGrounds cfg payment past result
  | .verify request, past, out => ∃ result, out = .verified result ∧ VerifyGrounds lib request past result
  | _, _, _ => True

/-- A program whose result is only wrapped. -/
theorem wp_map {α β : Type} {p : P α} {f : α → β} {Q : List Ev → β → Prop}
    (h : Prog.wp (Allowed lib cfg e) past p fun past' a => Q past' (f a)) :
    Prog.wp (Allowed lib cfg e) past (f <$> p) Q := (Prog.wp_bind_def p past _ Q).2 h

theorem wp_settle_entry (request : Request) (polls : Nat) :
    Prog.wp (Allowed lib cfg (.settle request polls)) [] (code lib cfg (.settle request polls))
      (Returns lib cfg (.settle request polls)) := by
  refine wp_map ?_
  simp only [Returns, Out.settled.injEq, exists_eq_left']
  cases hpay : parseRequest lib request with
  | error reason =>
    unfold settle
    rw [hpay]
    exact ⟨_, rfl⟩
  | ok payment => exact wp_settle polls rfl rfl hpay

theorem code_disciplined (e : Entry) : Prog.wp (Allowed lib cfg e) [] (code lib cfg e) (Returns lib cfg e) := by
  cases e with
  | settle request polls => exact wp_settle_entry request polls
  | verify request => exact wp_map (Prog.wp_mono (fun _ result h => ⟨result, rfl, h⟩) (wp_verify request))
  | broadcastTick identity => exact wp_map (abides_broadcastTick rfl)
  | confirmationTick identity => exact wp_map (abides_confirmationTick rfl rfl)
  | recoveryTick identity => exact wp_map (abides_recoveryTick rfl rfl)
  | advanceUnleased p actor => exact wp_map (abides_advanceBroadcast actor p)
  | retention request | seedSigner address nonce => exact wp_map (abides_inStore trivial)

end Eth402.System
