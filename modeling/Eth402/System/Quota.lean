/-
The settlement quotas over whole runs: however requests, workers and retention passes interleave, and however the
stamps of admissions are ordered against their commits, no window holds more admissions of a merchant than its
quota, nor more admissions overall than the global one.

A stamp is the time the admitting transaction began. Retention takes the merchant from a payment, so a payment that is
redacted while an older admission is still open is missing from that admission's count; what keeps it out of its
window is the margin the payment's authorization had left. That margin has to cover both how long an admission stays
open and how long after reading its clock it begins.
-/
import Eth402.Store.Quota
import Eth402.System.Invariant

namespace Eth402.System

open Lib Store Settlement Verification

variable {lib : Libraries} {cfg : Settlement.Config} {late opened : Int}

/-- The admissions of a run, in the order of their commits. -/
def history (run : Run lib cfg) : List Admission :=
  observed (fun s s' : Shared => admissions s.db.tables s'.db.tables) (start lib cfg) run

/-! ## Time -/

/-- The application and the database read one clock, a payment is kept for at least a window, and an admission begins
at most `late` after its request read the clock and is open for at most `opened`. -/
def OnTime (cfg : Settlement.Config) (late opened : Int) (s : Shared) (env : StepEnv) : Call → Prop
  | .store (.createSettlementIntent request) =>
    request.now ≤ env.db.now ∧ env.db.now ≤ s.clock ∧ env.db.now ≤ request.now + late ∧ s.clock ≤ env.db.now + opened
  | .store (.applyRetention request) =>
    env.db.now ≤ s.clock ∧ request.now ≤ s.clock ∧ cfg.quotaWindow ≤ request.paymentAfter
  | .store _ => env.db.now ≤ s.clock
  | _ => True

/-- The clock never goes back, and every call is on time. -/
def Timely (late opened : Int) (c : Lib.Config (facilitator lib cfg)) : Choice (facilitator lib cfg) → Prop
  | .outside (Move.tick t) => c.shared.clock ≤ t
  | .run pid env => NextCall (OnTime cfg late opened c.shared env) c.procs[pid]?
  | _ => True

instance OnTime.decidable (s : Shared) (env : StepEnv) (q : Call) : Decidable (OnTime cfg late opened s env q) := by
  cases q with
  | store op =>
    cases op with
    | createSettlementIntent request =>
      exact inferInstanceAs (Decidable (request.now ≤ env.db.now ∧ env.db.now ≤ s.clock ∧
        env.db.now ≤ request.now + late ∧ s.clock ≤ env.db.now + opened))
    | applyRetention request =>
      exact inferInstanceAs (Decidable (env.db.now ≤ s.clock ∧ request.now ≤ s.clock ∧
        cfg.quotaWindow ≤ request.paymentAfter))
    | _ => exact inferInstanceAs (Decidable (env.db.now ≤ s.clock))
  | _ => exact .isTrue trivial

instance Timely.decidable (c : Lib.Config (facilitator lib cfg)) :
    (ch : Choice (facilitator lib cfg)) → Decidable (Timely late opened c ch)
  | .outside (Move.tick t) => inferInstanceAs (Decidable (c.shared.clock ≤ t))
  | .outside (Move.setMerchants _) | .start _ | .crash _ => .isTrue trivial
  | .run pid env => @NextCall.decidable _ _ _ _ (OnTime.decidable c.shared env) c.procs[pid]?

/-! ## What the tables hold of the history -/

/-- Every admission has a stamped row. The row still names the merchant, and its authorization ends a margin after the
stamp, or the admission is out of every window that an admission may still count. -/
structure Counted (cfg : Settlement.Config) (late opened : Int) (log : List Admission) (s : Shared) : Prop where
  keys : (log.map (·.payment)).Nodup
  unstamped : Unstamped s.db.tables
  rows : ∀ e ∈ log, ∃ p ∈ s.db.tables.payments, p.id = e.payment ∧ p.settlementRequestedAt = some e.stamp ∧
    ((p.merchantId = e.merchant ∧ ∃ v, p.validBefore = some v ∧ e.stamp + cfg.expiryMargin < v + late) ∨
      e.stamp + cfg.quotaWindow + opened < s.clock)

/-- No window holds more admissions than the quotas allow. -/
structure WithinQuotas (cfg : Settlement.Config) (log : List Admission) : Prop where
  merchant : ∀ m, Throttled (·.stamp) cfg.quotaWindow cfg.merchantQuota.toNat (log.filter (·.merchant = some m))
  overall : Throttled (·.stamp) cfg.quotaWindow cfg.globalQuota.toNat log

section Step

variable {log : List Admission} {s : Shared} {db' : DB} {env : DbEnv} {request : IntentRequest} {signer : String}
  {p : Payment} {nonce : Nat}

/-- A call that admits nothing keeps the rows of the history; what retention takes is out of every open window. -/
theorem Counted.attributed {lapsed : Time → Prop} (hc : Counted cfg late opened log s)
    (h : Attributed lapsed s.db.tables db'.tables) (hm : late + opened ≤ cfg.expiryMargin)
    (hlapsed : ∀ v, lapsed v → v + cfg.quotaWindow < s.clock) : Counted cfg late opened log { s with db := db' } := by
  refine ⟨hc.keys, h.unstamped hc.unstamped, fun e he => ?_⟩
  obtain ⟨p, hp, hid, hst, hrest⟩ := hc.rows e he
  obtain ⟨p', hp', hid', hst', hkept⟩ := h.kept p hp
  refine ⟨p', hp', hid'.trans hid, hst'.trans hst, ?_⟩
  rcases hrest with ⟨hmerchant, v, hv, hlive⟩ | hout
  · rcases hkept with ⟨hm', hv'⟩ | ⟨v', hv', hlapsed'⟩
    · exact .inl ⟨hm'.trans hmerchant, v, hv'.trans hv, hlive⟩
    · obtain rfl : v = v' := Option.some.inj (hv.symm.trans hv')
      have hpast := hlapsed v hlapsed'
      right
      change e.stamp + cfg.quotaWindow + opened < s.clock
      unfold Time at *
      omega
  · exact .inr hout

/-- An admission that is not in the row's window any more is in none the new admission counts. -/
theorem Counted.counts (hc : Counted cfg late opened log s) (hopen : s.clock ≤ env.now + opened) {e : Admission}
    (he : e ∈ log) (hstamp : env.now - cfg.quotaWindow < e.stamp) :
    ∃ p ∈ s.db.tables.payments, p.id = e.payment ∧ p.settlementRequestedAt = some e.stamp ∧
      p.merchantId = e.merchant := by
  obtain ⟨p, hp, hid, hst, ⟨hmerchant, -⟩ | hout⟩ := hc.rows e he
  · exact ⟨p, hp, hid, hst, hmerchant⟩
  · unfold Time at *
    omega

/-- The entries of the history that the quota queries count are no more than the rows they count. -/
theorem Counted.overall_le (hc : Counted cfg late opened log s) (since : Time) :
    countSince (·.stamp) since log ≤ settledSince since none s.db.tables := by
  refine countP_le_of_keys Admission.payment Payment.id hc.keys fun e he hstamp => ?_
  obtain ⟨p, hp, hid, hst, -⟩ := hc.rows e he
  refine ⟨p, hp, ?_, hid⟩
  rw [hst]
  simpa using hstamp

theorem Counted.merchant_le (hc : Counted cfg late opened log s) (hopen : s.clock ≤ env.now + opened) (m : Nat) :
    countSince (·.stamp) (env.now - cfg.quotaWindow) (log.filter (·.merchant = some m)) ≤
      settledSince (env.now - cfg.quotaWindow) (some m) s.db.tables := by
  refine countP_le_of_keys Admission.payment Payment.id (List.filter_sublist.map _ |>.nodup hc.keys)
    fun e he hstamp => ?_
  obtain ⟨he, hm⟩ := List.mem_filter.1 he
  obtain ⟨p, hp, hid, hst, hmerchant⟩ := hc.counts hopen he (of_decide_eq_true hstamp)
  refine ⟨p, hp, ?_, hid⟩
  rw [hst, hmerchant, of_decide_eq_true hm]
  simpa using hstamp

theorem Counted.fresh (hc : Counted cfg late opened log s) (hp : p ∈ s.db.tables.payments)
    (hclear : Cleared env request p s.db.tables) : p.settlementRequestedAt = none ∧ ∀ e ∈ log, e.payment ≠ p.id := by
  have hnone : p.settlementRequestedAt = none := hc.unstamped p hp (by rw [hclear.state]; decide)
  refine ⟨hnone, fun e he hid => ?_⟩
  obtain ⟨q, hq, hqid, hst, -⟩ := hc.rows e he
  obtain rfl := eq_of_key s.db.wf.paymentIds hq hp (hqid.trans hid)
  rw [hnone] at hst
  cases hst

theorem Counted.admits (hc : Counted cfg late opened log s) (hp : p ∈ s.db.tables.payments)
    (hclear : Cleared env request p s.db.tables) (hcommit : Committed env request signer p nonce s.db db')
    (hmargin : request.expiryMargin = cfg.expiryMargin) (hlate : env.now ≤ request.now + late) :
    Counted cfg late opened (log ++ [⟨p.id, p.merchantId, env.now⟩]) { s with db := db' } := by
  obtain ⟨-, hfresh⟩ := hc.fresh hp hclear
  refine ⟨?_, hcommit.unstamped hp hc.unstamped, fun e he => ?_⟩
  · rw [List.map_append, List.nodup_append]
    refine ⟨hc.keys, List.nodup_singleton _, fun a ha b hb hab => ?_⟩
    obtain ⟨e, he, rfl⟩ := List.mem_map.1 ha
    rw [List.map_singleton, List.mem_singleton] at hb
    exact hfresh e he (hab.trans hb)
  · rcases List.mem_append.1 he with he | he
    · obtain ⟨q, hq, hqid, hrest⟩ := hc.rows e he
      exact ⟨q, hcommit.keeps hq (hqid ▸ hfresh e he), hqid, hrest⟩
    · rw [List.mem_singleton.1 he]
      obtain ⟨p', hp', hid, hst, hmerchant, hv'⟩ := hcommit.stamps hp
      obtain ⟨v, hv, hlive⟩ := hclear.live
      refine ⟨p', hp', hid, hst, .inl ⟨hmerchant, v, hv'.trans hv, ?_⟩⟩
      rw [hmargin] at hlive
      change env.now + cfg.expiryMargin < v + late
      unfold Time at *
      omega

theorem WithinQuotas.admits (hq : WithinQuotas cfg log) (hc : Counted cfg late opened log s)
    (hclear : Cleared env request p s.db.tables) (hwindow : request.quotaWindow = cfg.quotaWindow)
    (hquota : request.quota = cfg.merchantQuota) (hglobal : request.globalQuota = cfg.globalQuota)
    (hopen : s.clock ≤ env.now + opened) : WithinQuotas cfg (log ++ [⟨p.id, p.merchantId, env.now⟩]) := by
  have hmerchant := hclear.merchant
  have hoverall := hclear.overall
  rw [hwindow] at hmerchant hoverall
  refine ⟨fun m => ?_, hq.overall.snoc ?_⟩
  · rw [List.filter_append]
    by_cases hm : p.merchantId = some m
    · rw [List.filter_cons_of_pos (by simpa using hm), List.filter_nil]
      have hle := hc.merchant_le hopen m
      rw [hm, hquota] at hmerchant
      exact (hq.merchant m).snoc (by change countSince _ (env.now - _) _ < _; omega)
    · rw [List.filter_cons_of_neg (by simpa using hm), List.filter_nil, List.append_nil]
      exact hq.merchant m
  · have hle := hc.overall_le (env.now - cfg.quotaWindow)
    rw [hglobal] at hoverall
    change countSince _ (env.now - _) _ < _
    omega

/-- What a history and the state it led to keep from step to step. -/
structure Metered (cfg : Settlement.Config) (late opened : Int) (log : List Admission) (s : Shared) : Prop where
  counted : Counted cfg late opened log s
  within : WithinQuotas cfg log

theorem Metered.quiet (h : Metered cfg late opened log s) {lapsed : Time → Prop}
    (hattr : Attributed lapsed s.db.tables db'.tables) (hm : late + opened ≤ cfg.expiryMargin)
    (hlapsed : ∀ v, lapsed v → v + cfg.quotaWindow < s.clock) :
    Metered cfg late opened (log ++ admissions s.db.tables db'.tables) { s with db := db' } := by
  rw [hattr.admissions, List.append_nil]
  exact ⟨h.counted.attributed hattr hm hlapsed, h.within⟩

theorem Metered.unchanged (h : Metered cfg late opened log s) (hm : late + opened ≤ cfg.expiryMargin)
    (hp : db'.tables.payments = s.db.tables.payments) :
    Metered cfg late opened (log ++ admissions s.db.tables db'.tables) { s with db := db' } :=
  h.quiet (.of_eq hp : Attributed (fun _ => False) _ _) hm fun _ hf => hf.elim

theorem Metered.store (h : Metered cfg late opened log s) (hm : late + opened ≤ cfg.expiryMargin) {env : StepEnv}
    {op : Op}
    {e : Entry} {past : List Ev} (hj : Allowed lib cfg e past (.store op))
    (ht : OnTime cfg late opened s env (.store op)) :
    Metered cfg late opened (log ++ admissions s.db.tables (runStore env op s.db).2.tables)
      { s with db := (runStore env op s.db).2 } := by
  rcases runStore_db env op s.db with hdb | hdb
  · rw [hdb]
    exact h.unchanged hm rfl
  · rw [hdb]
    cases run_quota env.db op s.db with
    | same lapsed hattr hlapsed =>
      refine h.quiet hattr hm fun v hv => ?_
      obtain ⟨request, rfl, hcut⟩ := hlapsed v hv
      obtain ⟨-, hnow, hkeep⟩ := ht
      unfold Time at *
      omega
    | admits request signer p nonce hop hp hclear hcommit =>
      subst hop
      obtain ⟨payment, now, rfl, -⟩ := hj
      obtain ⟨-, -, hlate, hopen⟩ := ht
      rw [hcommit.admissions hp (h.counted.fresh hp hclear).1]
      exact ⟨h.counted.admits hp hclear hcommit rfl hlate, h.within.admits h.counted hclear rfl rfl rfl hopen⟩

end Step

/-- Every run on time keeps within the quotas. -/
theorem metered_reach (run : Run lib cfg) (h : Along (Timely late opened) (start lib cfg) run)
    (hm : late + opened ≤ cfg.expiryMargin) : Metered cfg late opened (history run) (reach lib cfg run).shared := by
  induction run using List.reverseRecOn with
  | nil =>
    refine ⟨⟨List.nodup_nil, ?_, ?_⟩, fun _ => throttled_nil, throttled_nil⟩
    · intro p hp; cases hp
    · intro e he; cases he
  | append_singleton run ch ih =>
    obtain ⟨hrun, hch, -⟩ := along_append.1 h
    have hbefore := ih hrun
    have hlog : history (run ++ [ch]) = history run ++ admissions (reach lib cfg run).shared.db.tables
        ((reach lib cfg run).step ch).shared.db.tables := observed_snoc _ _ run ch
    rw [hlog, reach_append]
    refine (kept_reach run).step_inv (I := fun (s : Shared) _ => Metered cfg late opened
      (history run ++ admissions (reach lib cfg run).shared.db.tables s.db.tables) s) ch ?_ ?_ ?_
    · intro pid env q e k hrun' hq hj _
      subst hrun'
      have htime : OnTime cfg late opened (reach lib cfg run).shared env q := by
        change NextCall (OnTime cfg late opened _ env) (reach lib cfg run).procs[pid]? at hch
        rw [hq] at hch
        exact hch
      cases q with
      | store op => exact hbefore.store hm hj htime
      | _ => exact hbefore.unchanged hm rfl
    · intro m hout
      subst hout
      cases m with
      | tick t =>
        change (reach lib cfg run).shared.clock ≤ t at hch
        have hsame : Metered cfg late opened (history run ++ admissions (reach lib cfg run).shared.db.tables
            (reach lib cfg run).shared.db.tables) (reach lib cfg run).shared := hbefore.unchanged hm rfl
        refine ⟨⟨hsame.counted.keys, hsame.counted.unstamped, fun e he => ?_⟩, hsame.within⟩
        obtain ⟨p, hp, hid, hst, hrest⟩ := hsame.counted.rows e he
        refine ⟨p, hp, hid, hst, hrest.imp_right fun hout => ?_⟩
        exact lt_of_lt_of_le hout hch
      | setMerchants merchants => exact hbefore.unchanged hm (outside_lives _ (.setMerchants merchants)).1
    · exact hbefore.unchanged hm rfl

/-- In every run in which the clocks agree, payments are kept for a window, and the margin covers both how late an
admission begins after reading its clock and how long it stays open: every window of every merchant holds at most its
quota of admissions, and every window holds at most the global quota. -/
theorem quotas_hold (run : Run lib cfg) (h : Along (Timely late opened) (start lib cfg) run)
    (hm : late + opened ≤ cfg.expiryMargin) :
    (∀ m t, countWithin (·.stamp) cfg.quotaWindow t
        ((history run).filter (·.merchant = some m)) ≤ cfg.merchantQuota.toNat) ∧
      ∀ t, countWithin (·.stamp) cfg.quotaWindow t (history run) ≤ cfg.globalQuota.toNat :=
  ⟨(metered_reach run h hm).within.merchant, (metered_reach run h hm).within.overall⟩

/-! ## An admission that begins late -/

def tightConfig : Settlement.Config := { sampleConfig with merchantQuota := 2 }

/-- The sample request with an authorization that ends after the given seconds. -/
def requestUntil (c : Char) (seconds : String) : Request :=
  { sampleRequest c with
    paymentPayload := ⟨2, sampleRequirements, [("authorization", .obj [("from", .str samplePayer),
      ("to", .str sampleMerchant), ("value", .str "7"), ("validAfter", .str "0"), ("validBefore", .str seconds),
      ("nonce", .str (hexText 64 c))]), ("signature", .str (hexText 128 c ++ "1b"))], []⟩ }

def acts (n pid : Nat) (t : Time) (w : Script) : Run sampleLib tightConfig :=
  List.replicate n (.run pid { w with db := { w.db with now := t } }.env)

/-- The payments `10`, `20` and `30` are verified. The request for `10` reads the clock 11 before its authorization
ends, and its transaction begins 25 later: the intent is retired as expired. The request for `20` is admitted too. -/
def tightAdmitted : Run sampleLib tightConfig :=
  [.outside (Move.setMerchants [⟨1, sampleMerchant, .active, 0⟩]), .outside (Move.tick 999989),
    .start (.seedSigner sampleSigner 3)] ++ acts 1 0 999989 (calm 0) ++
  [.start (.verify (requestUntil 'a' "1"))] ++ acts 4 1 999989 (calm 10) ++
  [.start (.verify (requestUntil 'b' "2"))] ++ acts 4 2 999989 (calm 20) ++
  [.start (.verify (requestUntil 'c' "2"))] ++ acts 4 3 999989 (calm 30) ++
  [.start (.settle (requestUntil 'a' "1") 0)] ++ acts 1 4 999989 (calm 11) ++
  [.outside (Move.tick 1000014)] ++ acts 7 4 1000014 (calm 11) ++
  [.start (.settle (requestUntil 'b' "2") 0)] ++ acts 2 5 1000014 (calm 21)

/-- A recovery worker fills the nonce of `10`, and the filler reverts. A window later the transaction that admits `30`
begins; while it is open, retention redacts `10`. -/
def tightRun : Run sampleLib tightConfig :=
  tightAdmitted ++ [.start (.recoveryTick "worker")] ++ acts 21 6 1000014 ((calm 12).mined "0x0307" 5 0) ++
  [.outside (Move.tick 1001005), .start (.settle (requestUntil 'c' "2") 0)] ++ acts 1 7 1001005 (calm 31) ++
  [.outside (Move.tick 1001015), .start (.retention ⟨1001015, 1000, 1, 1, 5⟩)] ++ acts 1 8 1001015 (calm 40) ++
  acts 1 7 1001005 (calm 31)

/-- Every transaction that admits is open for at most the margin, and yet three admissions of the merchant fall into
one window under a quota of two. -/
theorem late_admission_exceeds_quota :
    Along (Timely 25 tightConfig.expiryMargin) (start sampleLib tightConfig) tightRun ∧
      tightConfig.merchantQuota = 2 ∧
      countWithin (·.stamp) tightConfig.quotaWindow 1001005 ((history tightRun).filter (·.merchant = some 1)) = 3 := by
  decide +kernel

/-- A run with one admission, made at the time its request read. -/
theorem quotas_hold_sample :
    (∀ m t, countWithin (·.stamp) sampleConfig.quotaWindow t ((history sampleBroadcast).filter (·.merchant = some m)) ≤
        sampleConfig.merchantQuota.toNat) ∧
      ∀ t, countWithin (·.stamp) sampleConfig.quotaWindow t
        (history sampleBroadcast) ≤ sampleConfig.globalQuota.toNat := by
  have hrun : Along (Timely 5 5) (start sampleLib sampleConfig) sampleBroadcast := by decide +kernel
  exact quotas_hold sampleBroadcast hrun (by decide)

end Eth402.System
