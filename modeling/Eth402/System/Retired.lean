/-
Payments that a request reports as dead: its simulation reverted, or its authorization is about to end although
an intent had been committed. Such an answer rests on a retired intent, and a retired intent is only ever sent by
the fillers of nonce gaps, which wait until the authorization has been over for the expiry margin.
-/
import Eth402.Store.Errors
import Eth402.System.Invariant

namespace Eth402.System

open Lib Store Settlement Verification

variable {lib : Libraries} {cfg : Settlement.Config} {log : List (Nat × Ev)} {pid p : Nat}

/-! ## Who reports a retired intent -/

/-- At the step `ch` after `before`, process `pid` answers its request that payment `p` is dead: its simulation
reverted, or its authorization is about to end although its intent had been committed. -/
structure AnswersDead (before : Run lib cfg) (ch : Choice (facilitator lib cfg)) (pid p : Nat) : Prop where
  pending : ∀ e out, ¬ (reach lib cfg before).returned pid e out
  answered : ∃ (request : Request) (polls : Nat) (payment : ParsedPayment) (response : SettleResponse),
    (reach lib cfg (before ++ [ch])).returned pid (.settle request polls) (.settled (.ok response)) ∧
      parseRequest lib request = .ok payment ∧
      (∃ q ∈ (reach lib cfg (before ++ [ch])).shared.db.tables.payments, q.id = p ∧
        q.paymentIdentity = padTo 68 payment.identity) ∧
      (response.errorReason = reasonSimulationReverted ∨ response.errorReason = reasonAuthorizationExpiring ∧
        rowsOf (reach lib cfg (before ++ [ch])).shared.db.tables p ≠ [])

/-- The store's part of the pipeline raises two errors of its own. -/
theorem pipeline_raises {op : Op} (hop : inPipeline (.store op) = true) {env : DbEnv} {db : DB} {s : Sentinel}
    (h : carries s (op.run env db).1 = true) : s ∈ [.leaseUnavailable, .settlementRace] := by
  have raised : ∀ {α : Type} {m : Txn α} {S : List Sentinel}, Txn.Raises S m → carries s (m.run db).1 = true →
    s ∈ S := by
    intro α m S hm hc
    unfold Txn.run at hc
    split at hc
    · cases hc
    · exact hm db _ ‹_› s hc
  have race : s ∈ [.settlementRace] → s ∈ [Sentinel.leaseUnavailable, .settlementRace] := List.mem_cons_of_mem _
  cases op with
  | claimPayment => exact List.mem_cons.2 (.inl (List.mem_singleton.1 (raised (raises_claimPayment _ _ _ _) h)))
  | loadSettlementWork => exact raised (raises_loadSettlementWork _) h
  | markTxSigned => exact race (raised (raises_markTxSigned _ _ _ _ _ _) h)
  | markTxBroadcast => exact race (raised (raises_markTxBroadcast _ _ _ _) h)
  | markTxAmbiguous => exact race (raised (raises_markTxAmbiguous _ _ _) h)
  | markIntentExpired | markIntentUnsettleable => exact race (raised (raises_retireIntent _ _ _ _ _) h)
  | _ => cases hop

/-- No call of the pipeline reports that an intent was retired: the pipeline finds it out itself. -/
theorem not_blamed {run : Run lib cfg} {s : Sentinel} (hs : s = .authorizationExpiring ∨ s = .paymentUnsettleable) :
    ¬ Blamed (own pid (reach lib cfg run).log) s := by
  rintro ⟨ev, hev, hin, hc⟩
  obtain ⟨l₁, l₂, hl⟩ := List.append_of_mem (mem_own.1 hev)
  obtain ⟨before, env, rest, e, -, -, -, hans, -⟩ := called_at hl
  obtain ⟨q, a⟩ := ev
  change (perform (reach lib cfg before).shared env q).1 = a at hans
  subst hans
  have foreign : Carries s q (env.answer q) = true → False := fun h => by
    have := env.foreign q s h
    rcases hs with rfl | rfl <;> cases this
  cases q with
  | store op =>
    change carries s (runStore env op (reach lib cfg before).shared.db).1 = true at hc
    rcases runStore_cases env op (reach lib cfg before).shared.db with hrun | ⟨m, hm, -⟩
    · rw [hrun] at hc
      have := pipeline_raises hin hc
      rcases hs with rfl | rfl <;> simp at this
    · rw [hm] at hc; cases hc
  | now | contextDone => cases hin
  | _ => exact foreign hc

/-- A request refused for its deadline is one of a payment without an intent. -/
theorem unadmitted_of_expiring {s : Shared} {env : StepEnv} {request : IntentRequest} {err : Err}
    (hshape : ∀ q, Shape (rawHashOf lib) (lifeOf s.db.tables q))
    (hans : (perform s env (.store (.createSettlementIntent request))).1 = .error err)
    (his : err.is .authorizationExpiring = true) {q : Payment}
    (hq : q ∈ (perform s env (.store (.createSettlementIntent request))).2.db.tables.payments)
    (hid : q.paymentIdentity = padTo 68 request.paymentIdentity) :
    rowsOf (perform s env (.store (.createSettlementIntent request))).2.db.tables q.id = [] := by
  change (runStore env (.createSettlementIntent request) s.db).1 = .error err at hans
  change q ∈ (runStore env (.createSettlementIntent request) s.db).2.tables.payments at hq
  change rowsOf (runStore env (.createSettlementIntent request) s.db).2.tables q.id = []
  rcases runStore_cases env (.createSettlementIntent request) s.db with hrun | ⟨m, hm, -⟩
  · rw [hrun] at hans hq ⊢
    change ((createSettlementIntent env.db request).runInner s.db).1 = .error err at hans
    change q ∈ ((createSettlementIntent env.db request).runInner s.db).2.tables.payments at hq
    change rowsOf ((createSettlementIntent env.db request).runInner s.db).2.tables q.id = []
    unfold Txn.runInner at hans hq ⊢
    split at hans
    · rename_i r db' hok
      rw [hok] at hq
      obtain ⟨signer, -, ho⟩ := createSettlementIntent_outcome hok
      cases hans
      cases ho with
      | unknown => cases his
      | refused p reason cause hp _ _ href hquiet =>
        have hst := verified_of_expiring href his
        obtain ⟨hpmem, hpid⟩ := requested_some hp
        simp only at hq ⊢
        rw [hquiet.payments] at hq
        obtain rfl : q = p := eq_of_key s.db.wf.identities hq hpmem (hid.trans hpid.symm)
        have hrows := hshape q.id
        unfold Shape lifeOf at hrows
        rw [stateOf_eq_some hpmem, hst] at hrows
        unfold rowsOf at hrows ⊢
        rw [hquiet.transactions]
        exact hrows
    · rename_i e hfail
      cases hans
      have := raises_createSettlementIntent (List.mem_singleton_self _) _ _ _ hfail _ his
      simp at this
  · rw [hm] at hans
    cases hans
    cases his

/-- The refusals of admission, by their reasons. -/
theorem admission_reason {payment : ParsedPayment} {err : Err} {response : SettleResponse}
    (h : (.ok response : Except Err SettleResponse) = admissionAnswer payment err) :
    response.errorReason ≠ reasonSimulationReverted ∧
      (response.errorReason = reasonAuthorizationExpiring → err.is .authorizationExpiring = true) := by
  unfold admissionAnswer at h
  split at h
  · rename_i s reason hf
    cases h
    have his := List.find?_some hf
    have hmem := List.mem_of_find?_eq_some hf
    simp only [admissionReasons, List.mem_cons, Prod.mk.injEq, List.not_mem_nil, or_false] at hmem
    change reason ≠ reasonSimulationReverted ∧ (reason = reasonAuthorizationExpiring → _)
    rcases hmem with ⟨rfl, rfl⟩ | ⟨rfl, rfl⟩ | ⟨rfl, rfl⟩ | ⟨rfl, rfl⟩ | ⟨rfl, rfl⟩ | ⟨rfl, rfl⟩
    case inr.inr.inr.inl => exact ⟨by decide, fun _ => his⟩
    all_goals exact ⟨by decide, fun h => absurd h (by decide)⟩
  · cases h

/-- The intent of a payment that is reported dead was retired. -/
theorem retired_of_dead {before : Run lib cfg} {ch : Choice (facilitator lib cfg)} (h : AnswersDead before ch pid p) :
    Stands (reach lib cfg (before ++ [ch])).shared.db (.retired p) := by
  obtain ⟨hpending, request, polls, payment, response, hret, hpay, ⟨q, hq, rfl, hqid⟩, hreason⟩ := h
  have hi := reach_inv (before ++ [ch])
  obtain ⟨result, hout, hgrounds⟩ := (kept_reach (before ++ [ch])).post hret
  cases hout
  rw [hpay] at hgrounds
  obtain ⟨now, answer, hev, ⟨err, rfl, hresp, hlast⟩ | ⟨intent, response', rfl, hresp, hg, -⟩⟩ := hgrounds
  · -- a refusal is answered at once, and it names the deadline only while the payment has no intent
    obtain ⟨hsim, hexp⟩ := admission_reason hresp
    obtain ⟨hr, hrows⟩ := hreason.resolve_left hsim
    have hstep : reach lib cfg (before ++ [ch]) = (reach lib cfg before).step ch := exec_snoc ..
    rw [hstep] at hret hlast hq hrows
    obtain ⟨env, c, rfl, hshared, hlog⟩ | hnone := (kept_reach before).returns_at hpending hret
    · rw [hlog, own_snoc_self, List.getLast?_concat] at hlast
      obtain ⟨rfl, hans⟩ := Event.mk.inj (Option.some.inj hlast)
      rw [hshared] at hq hrows
      exact absurd (unadmitted_of_expiring (reach_inv before).shape (eq_of_heq hans) (hexp hr) hq hqid) hrows
    · rw [hnone] at hlast
      cases hlast
  · cases hresp
    -- the intent is one of the payment the request is for
    obtain ⟨x, hx, hxid, hxident⟩ := hi.stands hev (.intent _ intent)
    obtain rfl : x = q := eq_of_key (reach lib cfg (before ++ [ch])).shared.db.wf.identities hx hq
      (hxident.trans hqid.symm)
    have why : ∀ s reason, (s, reason) ∈ retiredReasons → response.errorReason = reason →
        Stands (reach lib cfg (before ++ [ch])).shared.db (.retired x.id) := by
      intro s reason hm hr
      have hs : s = .authorizationExpiring ∨ s = .paymentUnsettleable := by
        simp only [retiredReasons, List.mem_cons, Prod.mk.injEq, List.not_mem_nil, or_false] at hm
        exact hm.imp And.left And.left
      obtain ⟨work, hl, hretires⟩ := (hg.retired s reason hm hr).resolve_left (not_blamed hs)
      have hwork : work.paymentId = intent.paymentId := hi.stands hl (.loadedPayment _ work)
      rw [hxid, ← hwork]
      rcases hretires with ⟨-, t, a, hmark⟩ | ⟨-, t, a, hmark⟩
      · exact hi.stands hmark (.expired ..)
      · exact hi.stands hmark (.unsettleable ..)
    rcases hreason with hr | ⟨hr, -⟩
    · exact why .paymentUnsettleable _ (by simp [retiredReasons]) hr
    · exact why .authorizationExpiring _ (by simp [retiredReasons]) hr

/-! ## When a retired intent is sent -/

/-- At some point of the run the payment's record said its authorization ends at `v`. -/
def HadDeadline (run : Run lib cfg) (p : Nat) (v : Time) : Prop :=
  ∃ before rest : Run lib cfg, run = before ++ rest ∧
    ∃ q ∈ (reach lib cfg before).shared.db.tables.payments, q.id = p ∧ q.validBefore = some v

theorem HadDeadline.unique {run : Run lib cfg} {v v' : Time} (h : HadDeadline run p v) (h' : HadDeadline run p v') :
    v = v' := by
  have later : ∀ {before mid : Run lib cfg} {v v' : Time},
      (∃ q ∈ (reach lib cfg before).shared.db.tables.payments, q.id = p ∧ q.validBefore = some v) →
      (∃ q ∈ (reach lib cfg (before ++ mid)).shared.db.tables.payments, q.id = p ∧ q.validBefore = some v') →
        v = v' := by
    rintro before mid v v' ⟨q, hq, hqp, hv⟩ ⟨q', hq', hqp', hv'⟩
    obtain ⟨x, hx, hxp, hxv⟩ := Stands.later (a := .deadline p v) ⟨q, hq, hqp, .inl hv⟩ mid
    have : x = q' := eq_of_key (reach lib cfg (before ++ mid)).shared.db.wf.paymentIds hx hq' (hxp.trans hqp'.symm)
    rw [this, hv'] at hxv
    rcases hxv with hxv | hxv
    · exact (Option.some.inj hxv).symm
    · cases hxv
  obtain ⟨b, r, rfl, hb⟩ := h
  obtain ⟨b', r', hrun, hb'⟩ := h'
  rcases List.append_eq_append_iff.1 hrun with ⟨mid, rfl, -⟩ | ⟨mid, rfl, -⟩
  · exact later hb hb'
  · exact (later hb' hb).symm

/-- Whoever listed the gap of a payment had read a clock past its deadline and the margin. -/
theorem due_of_listed {run more : Run lib cfg} {work : Work} {v : Time}
    (h : ListedGap cfg ((reach lib cfg run).log.map (·.2)) work) (hv : HadDeadline (run ++ more) work.paymentId v) :
    ∃ (n : Nat) (c : Time), (n, (⟨.now, c⟩ : Ev)) ∈ (reach lib cfg run).log ∧ v + cfg.expiryMargin ≤ c := by
  obtain ⟨c, signer, works, hc, hlist, hw⟩ := h
  obtain ⟨⟨n, ev⟩, hn, hev⟩ := List.mem_map.1 hc
  obtain ⟨⟨m, ev'⟩, hm, hev'⟩ := List.mem_map.1 hlist
  cases hev
  cases hev'
  obtain ⟨l₁, l₂, hl⟩ := List.append_of_mem hm
  obtain ⟨before, env, rest, e, rfl, -, -, hrun, -⟩ := stored_at hl
  obtain ⟨-, hall⟩ := listDroppedBlockingGaps_ok (run_ok hrun)
  obtain ⟨q, r, hb, -, hdue, -⟩ := hall work hw
  have hdead : HadDeadline ((before ++ .run m env :: rest) ++ more) work.paymentId work.authorization.validBefore :=
    ⟨before, .run m env :: rest ++ more, List.append_assoc .., q, hb.payment, hb.paymentId.symm, hb.validBefore⟩
  refine ⟨n, c, hn, ?_⟩
  rw [hv.unique hdead]
  exact Int.add_le_of_le_sub_right hdue

/-- Signed bytes are on record only for payments whose gap was listed. -/
def BytesListed (cfg : Settlement.Config) (s : Shared) (log : List (Nat × Ev)) : Prop :=
  ∀ p, (∃ r ∈ rowsOf s.db.tables p, r.raw ≠ none) → ∃ work, ListedGap cfg (log.map (·.2)) work ∧ work.paymentId = p

theorem ListedGap.of_own {work : Work} (h : ListedGap cfg (own pid log) work) : ListedGap cfg (log.map (·.2)) work := by
  obtain ⟨c, signer, works, hc, hlist, hw⟩ := h
  have inLog : ∀ {ev : Ev}, ev ∈ own pid log → ev ∈ log.map (·.2) := fun {ev} h =>
    List.mem_map.2 ⟨(pid, ev), mem_own.1 h, rfl⟩
  exact ⟨c, signer, works, inLog hc, inLog hlist, hw⟩

theorem reach_bytesListed (run : Run lib cfg) : BytesListed cfg (reach lib cfg run).shared (reach lib cfg run).log := by
  refine (run_inv (P := fun _ _ _ _ _ => True) (X := BytesListed cfg) ?_ ?_ ?_ run ?_).2
  · rintro p ⟨r, hr, -⟩
    cases hr
  · intro s log pid env q e hi hbytes hj _ p hraw
    have old : (∃ r ∈ rowsOf s.db.tables p, r.raw ≠ none) →
        ∃ work, ListedGap cfg ((log ++ [(pid, (⟨q, (perform s env q).1⟩ : Ev))]).map Prod.snd) work ∧
          work.paymentId = p := by
      intro h
      obtain ⟨work, hl, hp⟩ := hbytes p h
      exact ⟨work, hl.mono (by rw [List.map_append]; exact List.prefix_append ..), hp⟩
    obtain ⟨k, hk, m⟩ := hi.moves hj env p
    by_cases hprep : k = .prepared
    · subst hprep
      cases q with
      | store op =>
        obtain ⟨t, rh, x, raw, g, mf, pf, rfl⟩ := Kinds.of_prepared hk
        obtain ⟨r, hr, hr'⟩ := hraw
        obtain ⟨-, -, -, work, hl, rfl⟩ := hj
        change r ∈ rowsOf (runStore env _ s.db).2.tables p at hr
        rcases runStore_db env (.markGapFillerPrepared work.transactionId rh x raw g mf pf) s.db with hdb | hdb
        · rw [hdb] at hr
          exact old ⟨r, hr, hr'⟩
        rw [hdb] at hr
        change r ∈ rowsOf ((markGapFillerPrepared env.db work.transactionId rh x raw g mf pf).run s.db).2.tables p at hr
        unfold Txn.run at hr
        split at hr
        · rename_i hok
          rcases markGapFillerPrepared_raw hok hr with hr | ⟨r₀, hr₀, hid⟩
          · exact old ⟨r, hr, hr'⟩
          · -- the prepared row is the listed one, so its payment is the listed payment
            obtain ⟨c, signer, works, -, hlist, hw⟩ := id hl
            obtain ⟨r₁, hr₁, hid₁⟩ := hi.stands hlist (.gap signer _ works work hw)
            obtain ⟨rfl, -⟩ := rowsOf_id s.db hr₀ hr₁ (hid.trans hid₁.symm)
            refine ⟨work, hl.of_own.mono ?_, rfl⟩
            rw [List.map_append]; exact List.prefix_append ..
        · exact old ⟨r, hr, hr'⟩
      | _ => cases hk
    · exact old (m.raw_of hprep hraw)
  · rintro s log m hi hbytes p hraw
    obtain ⟨-, htx, -⟩ := outside_lives s m
    unfold rowsOf at hraw
    rw [htx] at hraw
    exact hbytes p hraw
  · exact along_of_forall (fun _ _ _ _ _ _ _ _ _ => trivial) _ _

/-- A row that was signed in the pipeline is no row of a retired payment. -/
theorem not_retired_of_signed {db : DB} {t : Nat} {h : String} (hrow : Stands db (.row p t))
    (hsigned : Stands db (.signed t h)) : ¬ Stands db (.retired p) := by
  obtain ⟨x, hx, hid⟩ := hrow
  obtain ⟨q, hpipe, r, hr, hrid, -⟩ := hsigned
  obtain ⟨rfl, -⟩ := rowsOf_id db hx hr (hid.trans hrid.symm)
  exact hpipe.not_retired

/-- A call that leaves the payment replaced leaves it broadcast for good. -/
theorem broadcasted_of_replaced {run : Run lib cfg} {op : Op} {r : op.Result}
    (hev : (⟨.store op, .ok r⟩ : Ev) ∈ own pid (reach lib cfg run).log)
    (hstate : ∀ {env : DbEnv} {db db' : DB}, op.run env db = (.ok r, db') → stateOf p db'.tables = some .replaced) :
    Stands (reach lib cfg run).shared.db (.broadcasted p) := by
  obtain ⟨l₁, l₂, hl⟩ := List.append_of_mem (mem_own.1 hev)
  obtain ⟨before, env, rest, e, rfl, -, -, hrun, -⟩ := stored_at hl
  have hthen : Stands (reach lib cfg (before ++ [.run pid env])).shared.db (.broadcasted p) :=
    ⟨.replaced, by simp, hstate hrun⟩
  rw [List.append_cons]
  exact hthen.later rest

/-- A payment with the bytes of a filler on record was listed as a gap. -/
theorem due_of_bytes {run more : Run lib cfg} {v : Time} (hv : HadDeadline (run ++ more) p v)
    (h : ∃ r ∈ rowsOf (reach lib cfg run).shared.db.tables p, r.raw ≠ none) :
    ∃ (n : Nat) (c : Time), (n, (⟨.now, c⟩ : Ev)) ∈ (reach lib cfg run).log ∧ v + cfg.expiryMargin ≤ c := by
  obtain ⟨work, hl, rfl⟩ := reach_bytesListed run p h
  exact due_of_listed hl hv

/-- So was one whose filler a call found on record. -/
theorem due_of_found {run more : Run lib cfg} {v : Time} (hv : HadDeadline (run ++ more) p v) {op : Op} {r : op.Result}
    (hev : (⟨.store op, .ok r⟩ : Ev) ∈ own pid (reach lib cfg run).log)
    (hfound : ∀ {env : DbEnv} {db db' : DB}, op.run env db = (.ok r, db') → ∃ r ∈ rowsOf db.tables p, r.raw ≠ none) :
    ∃ (n : Nat) (c : Time), (n, (⟨.now, c⟩ : Ev)) ∈ (reach lib cfg run).log ∧ v + cfg.expiryMargin ≤ c := by
  obtain ⟨l₁, l₂, hl⟩ := List.append_of_mem (mem_own.1 hev)
  obtain ⟨before, env, rest, e, rfl, hlog, -, hrun, -⟩ := stored_at hl
  rw [List.append_assoc] at hv
  obtain ⟨n, c, hn, hc⟩ := due_of_bytes hv (hfound hrun)
  exact ⟨n, c, (reach_log before (.run pid env :: rest)).subset hn, hc⟩

/-- Whoever may send for a retired payment fills its gap, or bumps or repeats the filler. -/
theorem due_of_maySend {before after : Run lib cfg} {v : Time} {n : Nat} {sending : Sending} {raw : Bytes}
    (hdead : Stands (reach lib cfg (before ++ after)).shared.db (.retired sending.paymentId))
    (hv : HadDeadline (before ++ after) sending.paymentId v)
    (hmay : MaySend lib cfg (own n (reach lib cfg before).log) sending raw) :
    ∃ (m : Nat) (c : Time), (m, (⟨.now, c⟩ : Ev)) ∈ (reach lib cfg before).log ∧ v + cfg.expiryMargin ≤ c := by
  have hi := reach_inv before
  -- in the pipeline the row would be known signed, and a signed payment is never retired
  have signed : ∀ {h : String}, Stands (reach lib cfg before).shared.db (.row sending.paymentId sending.transactionId) →
      Stands (reach lib cfg before).shared.db (.signed sending.transactionId h) → False := fun hrow hsigned =>
    not_retired_of_signed (hrow.later _) (hsigned.later _) hdead
  have replaced : Stands (reach lib cfg before).shared.db (.broadcasted sending.paymentId) → False := fun hb =>
    Pipeline.not_retired (.inl (hb.later after)) hdead
  unfold MaySend at hmay
  split at hmay
  · obtain ⟨⟨p', work, hload, hwp, hwt⟩, sighash, g, m, f, hlast⟩ := hmay
    have hrow := hi.stands hload (.loaded p' work)
    rw [hwp, hwt] at hrow
    exact (signed hrow (hi.stands (List.mem_of_getLast? hlast) (.signed ..))).elim
  · obtain ⟨p', work, hload, hwp, hwt, hs, hh, -⟩ | ⟨r, a, hev, -⟩ := hmay
    · have hrow := hi.stands hload (.loaded p' work)
      have hsigned := hi.stands hload (.ambiguous p' work hs hh)
      rw [hwp, hwt] at hrow
      rw [hwt] at hsigned
      exact (signed hrow hsigned).elim
    · exact (replaced (broadcasted_of_replaced hev fun hrun => markTxAmbiguousReplaced_state (run_ok hrun))).elim
  · obtain ⟨r, a, hev, -⟩ := hmay
    exact (replaced (broadcasted_of_replaced hev fun hrun => markTxReplaced_state (run_ok hrun))).elim
  · obtain ⟨⟨work, hgap, hwp, -⟩, -⟩ := hmay
    rw [← hwp] at hv
    exact due_of_listed hgap.of_own hv
  · obtain ⟨r, hev, -⟩ := hmay
    exact due_of_found hv hev fun hrun => (markGapFillerReplaced_ok (run_ok hrun)).2
  · obtain ⟨t, ⟨tracked, hev, ht⟩, htp, -⟩ := hmay
    refine due_of_found hv hev fun hrun => ?_
    obtain ⟨-, hall⟩ := listGapFillers_ok (run_ok hrun)
    obtain ⟨r, hr, hrp, -, hraw, -⟩ := hall t ht
    exact ⟨r.row, mem_rowsOf.2 ⟨r, hr, hrp.trans htp, rfl⟩, fun hn => by
      change r.rawTransaction = none at hn
      rw [hraw] at hn; cases hn⟩

/-- The call sends transaction bytes for the payment. -/
def sendsFor (p : Nat) : Call → Bool
  | .sendRawTransaction sending _ => sending.paymentId = p
  | _ => false

/-- A payment that is reported dead is not sent, before the answer or after it, until the clock has passed its deadline
and the margin. -/
theorem dead_sent_after_deadline {answered rest : Run lib cfg} {ch : Choice (facilitator lib cfg)} {v : Time}
    (h : AnswersDead answered ch pid p) (hv : HadDeadline (answered ++ [ch] ++ rest) p v)
    {l₁ l₂ : List (Nat × Ev)} {n : Nat} {ev : Ev} (hsend : sendsFor p ev.call = true)
    (hl : (reach lib cfg (answered ++ [ch] ++ rest)).log = l₁ ++ (n, ev) :: l₂) :
    ∃ (m : Nat) (c : Time), (m, (⟨.now, c⟩ : Ev)) ∈ l₁ ∧ v + cfg.expiryMargin ≤ c := by
  have hdead := (retired_of_dead h).later rest
  obtain ⟨before, env, after, e, hrun, rfl, hj, -⟩ := called_at hl
  rw [hrun] at hv hdead
  unfold sendsFor at hsend
  split at hsend
  · rename_i sending text hcall
    rw [hcall] at hj
    obtain ⟨raw, -, hmay, -⟩ := hj
    obtain rfl := of_decide_eq_true hsend
    exact due_of_maySend hdead hv hmay
  · cases hsend

/-! ## A filler ahead of the answer -/

/-- The simulation of payment `10` reverts and its intent is retired, but the lease is not yet released; the payment
`12` takes the next nonce; when both are over, recovery fills the gap and sends. -/
def sampleFilled : SampleRun :=
  sampleVerified ++ [enter (.settle (sampleRequest 'a') 0)] ++ calls 8 2 { calm 11 with reverts := true } ++
    [enter (.verify (sampleRequest 'b'))] ++ calls 4 3 (calm 12) ++
    [enter (.settle (sampleRequest 'b') 0)] ++ calls 2 4 (calm 13) ++
    [tick 1000010, enter (.recoveryTick "recovery")] ++ calls 12 5 (late 14)

/-- The request releases its lease and answers. -/
def sampleAnswers : SampleChoice := .run 2 (late 14).env

/-- What the run comes to, by carrying it out. -/
theorem sampleFilled_run : (resultOf sampleFilled 2 = none ∧
      reasonOf (sampleFilled ++ [sampleAnswers]) 2 = some reasonSimulationReverted ∧
      onRecord (sampleFilled ++ [sampleAnswers]) (sampleRequest 'a') 10 = true) ∧
    (reach sampleLib sampleConfig sampleFilled).log.any (fun x => sendsFor 10 x.2.call) = true ∧
    ((reach sampleLib sampleConfig sampleFilled).shared.db.tables.payments.any fun q =>
      q.id = 10 ∧ q.validBefore = some 1000000) = true := by
  decide +kernel

theorem sampleFilled_sent : ∃ x ∈ (reach sampleLib sampleConfig sampleFilled).log, sendsFor 10 x.2.call = true :=
  List.any_eq_true.1 sampleFilled_run.2.1

theorem answersDead_of_run {before : SampleRun} {ch : SampleChoice} {pid p polls : Nat} {request : Request}
    (he : (started (before ++ [ch]))[pid]? = some (.settle request polls)) (hpending : resultOf before pid = none)
    (hreason : reasonOf (before ++ [ch]) pid = some reasonSimulationReverted)
    (hrecord : onRecord (before ++ [ch]) request p = true) : AnswersDead before ch pid p := by
  obtain ⟨response, hret, hr⟩ := returned_of_reason he hreason
  obtain ⟨payment, hparse, hq⟩ := record_of_onRecord hrecord
  exact ⟨pending_of_result hpending, request, polls, payment, response, hret, hparse, hq, .inl hr⟩

theorem sampleFilled_answers : AnswersDead sampleFilled sampleAnswers 2 10 := by
  obtain ⟨hpending, hreason, hrecord⟩ := sampleFilled_run.1
  exact answersDead_of_run rfl hpending hreason hrecord

theorem sampleFilled_deadline (rest : SampleRun) : HadDeadline (sampleFilled ++ rest) 10 1000000 := by
  obtain ⟨q, hq, h⟩ := List.any_eq_true.1 sampleFilled_run.2.2
  exact ⟨sampleFilled, rest, rfl, q, hq, of_decide_eq_true h⟩

/-- The filler was sent before the answer that the payment is dead. -/
theorem filler_sent_before_answer : AnswersDead sampleFilled sampleAnswers 2 10 ∧
    ∃ x ∈ (reach sampleLib sampleConfig sampleFilled).log, sendsFor 10 x.2.call = true :=
  ⟨sampleFilled_answers, sampleFilled_sent⟩

/-- It was sent at a time past the deadline and the margin. -/
theorem dead_sent_after_deadline_sample : AnswersDead sampleFilled sampleAnswers 2 10 ∧
    ∃ (x : Nat × Ev) (l₁ l₂ : List (Nat × Ev)), sendsFor 10 x.2.call = true ∧
      (reach sampleLib sampleConfig (sampleFilled ++ [sampleAnswers] ++ [])).log = l₁ ++ x :: l₂ ∧
      ∃ (m : Nat) (c : Time), (m, (⟨.now, c⟩ : Ev)) ∈ l₁ ∧ 1000000 + sampleConfig.expiryMargin ≤ c := by
  obtain ⟨x, hx, hsend⟩ := sampleFilled_sent
  have hlater : (reach sampleLib sampleConfig sampleFilled).log <+:
      (reach sampleLib sampleConfig (sampleFilled ++ [sampleAnswers] ++ [])).log := by
    rw [List.append_assoc]
    exact reach_log ..
  obtain ⟨l₁, l₂, hl⟩ := List.append_of_mem (hlater.subset hx)
  have hv : HadDeadline (sampleFilled ++ [sampleAnswers] ++ []) 10 1000000 := by
    rw [List.append_assoc]
    exact sampleFilled_deadline _
  exact ⟨sampleFilled_answers, x, l₁, l₂, hsend, hl, dead_sent_after_deadline sampleFilled_answers hv hsend hl⟩

end Eth402.System
