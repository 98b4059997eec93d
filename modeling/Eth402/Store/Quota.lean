/-
Admissions as the quotas count them: a payment is stamped once, when its intent is committed, and keeps the stamp
for ever; it keeps the merchant it is counted for until retention redacts it, which needs an authorization that
ended before the retention's cutoff.
-/
import Eth402.Lib.Window
import Eth402.Store.Steps

namespace Eth402.Store

open Lib Settlement

variable {db db' : DB} {env : DbEnv}

/-- An intent that was committed: for which payment, on whose behalf, and the time it is counted under. -/
structure Admission where
  payment : Nat
  merchant : Option Nat
  stamp : Time
  deriving DecidableEq, Repr

/-- The payments that have a stamp in `t'` which they do not have in `t`. -/
def admissions (t t' : Tables) : List Admission :=
  t'.payments.filterMap fun p => p.settlementRequestedAt.bind fun a =>
    if t.payments.any fun q => q.id = p.id ∧ q.settlementRequestedAt = some a then none
    else some ⟨p.id, p.merchantId, a⟩

/-- A payment that was not admitted has no stamp. -/
def Unstamped (t : Tables) : Prop := ∀ p ∈ t.payments, p.state ∈ unadmitted → p.settlementRequestedAt = none

/-! ## What every other call leaves -/

/-- What a payment is counted for is unchanged, but for payments whose authorization is `lapsed`: those may lose their
merchant. -/
structure Attributed (lapsed : Time → Prop) (t t' : Tables) : Prop where
  kept : ∀ p ∈ t.payments, ∃ p' ∈ t'.payments, p'.id = p.id ∧ p'.settlementRequestedAt = p.settlementRequestedAt ∧
    ((p'.merchantId = p.merchantId ∧ p'.validBefore = p.validBefore) ∨ ∃ v, p.validBefore = some v ∧ lapsed v)
  origin : ∀ p' ∈ t'.payments, p'.settlementRequestedAt = none ∨ ∃ p ∈ t.payments, p.id = p'.id ∧
    p.settlementRequestedAt = p'.settlementRequestedAt ∧ (p'.state ∈ unadmitted → p.state ∈ unadmitted)

variable {lapsed : Time → Prop}

theorem Attributed.of_eq {t t' : Tables} (h : t'.payments = t.payments) : Attributed lapsed t t' :=
  ⟨fun p hp => ⟨p, h ▸ hp, rfl, rfl, .inl ⟨rfl, rfl⟩⟩, fun p hp => .inr ⟨p, h ▸ hp, rfl, rfl, fun hs => hs⟩⟩

theorem Attributed.trans {a b c : Tables} (h₁ : Attributed lapsed a b) (h₂ : Attributed lapsed b c) :
    Attributed lapsed a c where
  kept p hp := by
    obtain ⟨q, hq, hid, hst, hrest⟩ := h₁.kept p hp
    obtain ⟨r, hr, hid', hst', hrest'⟩ := h₂.kept q hq
    refine ⟨r, hr, hid'.trans hid, hst'.trans hst, ?_⟩
    rcases hrest with ⟨hm, hv⟩ | hlapsed
    · rcases hrest' with ⟨hm', hv'⟩ | ⟨v, hv', hlapsed⟩
      · exact .inl ⟨hm'.trans hm, hv'.trans hv⟩
      · exact .inr ⟨v, hv ▸ hv', hlapsed⟩
    · exact .inr hlapsed
  origin r hr := by
    rcases h₂.origin r hr with hnone | ⟨q, hq, hid, hst, hs⟩
    · exact .inl hnone
    · rcases h₁.origin q hq with hnone | ⟨p, hp, hid', hst', hs'⟩
      · exact .inl (hst ▸ hnone)
      · exact .inr ⟨p, hp, hid'.trans hid, hst'.trans hst, fun h => hs' (hs h)⟩

theorem attributed_steady : Steady (Attributed lapsed) where
  refl _ := .of_eq rfl
  trans _ _ _ := Attributed.trans
  advance w f hf t := by
    constructor
    · intro p hp
      by_cases hw : w p = true
      · have ha := hf p hw
        exact ⟨f p, mem_mapIf.2 (.inl ⟨p, hp, hw, rfl⟩), ha.id, ha.requestedAt, .inl ⟨ha.merchantId, ha.validBefore⟩⟩
      · exact ⟨p, mem_mapIf.2 (.inr ⟨hp, by simpa using hw⟩), rfl, rfl, .inl ⟨rfl, rfl⟩⟩
    · intro p' hp'
      rcases mem_mapIf.1 hp' with ⟨p, hp, hw, rfl⟩ | ⟨hp, -⟩
      · have ha := hf p hw
        exact .inr ⟨p, hp, ha.id.symm, ha.requestedAt.symm, ha.unadmitted⟩
      · exact .inr ⟨p', hp, rfl, rfl, fun hs => hs⟩
  rows _ _ _ _ := .of_eq rfl
  replace _ _ _ _ _ := .of_eq rfl
  audit _ _ := .of_eq rfl
  attempt _ _ := .of_eq rfl
  intake t row hrow _ := by
    constructor
    · exact fun p hp => ⟨p, List.mem_append_left _ hp, rfl, rfl, .inl ⟨rfl, rfl⟩⟩
    · intro p' hp'
      rcases List.mem_append.1 hp' with hp' | hp'
      · exact .inr ⟨p', hp', rfl, rfl, fun hs => hs⟩
      · rw [List.mem_singleton.1 hp']
        exact .inl hrow

theorem attributed_leaseBlind : LeaseBlind (Attributed lapsed) where
  refl _ := .of_eq rfl
  trans _ _ _ := Attributed.trans
  lease w f hf t := by
    constructor
    · intro p hp
      by_cases hw : w p = true
      · have hl := hf p
        exact ⟨f p, mem_mapIf.2 (.inl ⟨p, hp, hw, rfl⟩), hl.id, hl.requestedAt, .inl ⟨hl.merchantId, hl.validBefore⟩⟩
      · exact ⟨p, mem_mapIf.2 (.inr ⟨hp, by simpa using hw⟩), rfl, rfl, .inl ⟨rfl, rfl⟩⟩
    · intro p' hp'
      rcases mem_mapIf.1 hp' with ⟨p, hp, hw, rfl⟩ | ⟨hp, -⟩
      · exact .inr ⟨p, hp, (hf p).id.symm, (hf p).requestedAt.symm, fun hs => (hf p).state ▸ hs⟩
      · exact .inr ⟨p', hp, rfl, rfl, fun hs => hs⟩

/-- A payment that is redacted had an authorization that ended before the cutoff. -/
theorem over_of_candidate {request : RetentionRequest} {p : Payment} (hp : p ∈ db.tables.payments)
    (h : p.id ∈ redactionCandidates env request db.tables) :
    ∃ v, p.validBefore = some v ∧ v < request.now - request.paymentAfter := by
  obtain ⟨-, -, hv, -⟩ := of_decide_eq_true (redactable_of_candidate hp h)
  cases hb : p.validBefore with
  | none => rw [hb] at hv; cases hv
  | some v => rw [hb] at hv; exact ⟨v, rfl, of_decide_eq_true hv⟩

/-- Redaction takes the merchant from payments whose authorization ended before the cutoff. -/
theorem attributed_redact (request : RetentionRequest) (db : DB) :
    Attributed (· < request.now - request.paymentAfter) db.tables
      (db.tables.redact request.now (redactionCandidates env request db.tables)) := by
  constructor
  · intro p hp
    refine ⟨_, List.mem_map.2 ⟨p, hp, rfl⟩, ?_⟩
    split
    · exact ⟨rfl, rfl, .inr (over_of_candidate hp ‹_›)⟩
    · exact ⟨rfl, rfl, .inl ⟨rfl, rfl⟩⟩
  · intro p' hp'
    obtain ⟨p, hp, rfl⟩ := List.mem_map.1 hp'
    refine .inr ⟨p, hp, ?_⟩
    split
    · exact ⟨rfl, rfl, fun hs => hs⟩
    · exact ⟨rfl, rfl, fun hs => hs⟩

/-! ## What a call adds -/

theorem Attributed.admissions (h : Attributed lapsed db.tables db'.tables) : admissions db.tables db'.tables = [] := by
  refine List.filterMap_eq_nil_iff.2 fun p' hp' => ?_
  rcases h.origin p' hp' with hnone | ⟨p, hp, hid, hst, -⟩
  · rw [hnone]; rfl
  · cases hs : p'.settlementRequestedAt with
    | none => rfl
    | some a =>
      have hany : db.tables.payments.any (fun q => q.id = p'.id ∧ q.settlementRequestedAt = some a) = true :=
        List.any_eq_true.2 ⟨p, hp, decide_eq_true ⟨hid, hst.trans hs⟩⟩
      simp only [Option.bind_some, hany, if_true]

theorem Attributed.unstamped (h : Attributed lapsed db.tables db'.tables) (hu : Unstamped db.tables) :
    Unstamped db'.tables := by
  intro p' hp' hs
  rcases h.origin p' hp' with hnone | ⟨p, hp, -, hst, hback⟩
  · exact hnone
  · rw [← hst]; exact hu p hp (hback hs)

section Commit

variable {request : IntentRequest} {signer : String} {p : Payment} {nonce : Nat}

/-- The rows after a commit: the admitted payment is stamped, every other row stays. -/
theorem Committed.payment (h : Committed env request signer p nonce db db') (hp : p ∈ db.tables.payments) {q' : Payment}
    (hq' : q' ∈ db'.tables.payments) : (q' ∈ db.tables.payments ∧ q'.id ≠ p.id) ∨
      (q'.id = p.id ∧ q'.settlementRequestedAt = some env.now ∧ q'.merchantId = p.merchantId ∧
        q'.validBefore = p.validBefore ∧ q'.state = .broadcasting) := by
  rw [h.payments] at hq'
  rcases mem_mapIf.1 hq' with ⟨q, hq, hw, rfl⟩ | ⟨hq, hw⟩
  · obtain rfl := eq_of_key db.wf.paymentIds hq hp (of_decide_eq_true hw).1
    exact .inr ⟨rfl, rfl, rfl, rfl, rfl⟩
  · refine .inl ⟨hq, fun hid => ?_⟩
    obtain rfl := eq_of_key db.wf.paymentIds hq hp hid
    simp at hw

theorem Committed.keeps (h : Committed env request signer p nonce db db') {q : Payment} (hq : q ∈ db.tables.payments)
    (hne : q.id ≠ p.id) : q ∈ db'.tables.payments := by
  rw [h.payments]
  exact mem_mapIf.2 (.inr ⟨hq, by simp [hne]⟩)

theorem Committed.stamps (h : Committed env request signer p nonce db db') (hp : p ∈ db.tables.payments) :
    ∃ p' ∈ db'.tables.payments, p'.id = p.id ∧ p'.settlementRequestedAt = some env.now ∧
      p'.merchantId = p.merchantId ∧ p'.validBefore = p.validBefore := by
  rw [h.payments]
  exact ⟨_, mem_mapIf.2 (.inl ⟨p, hp, by simp, rfl⟩), rfl, rfl, rfl, rfl⟩

theorem Committed.admissions (h : Committed env request signer p nonce db db') (hp : p ∈ db.tables.payments)
    (hnone : p.settlementRequestedAt = none) :
    admissions db.tables db'.tables = [⟨p.id, p.merchantId, env.now⟩] := by
  obtain ⟨p', hp', hid, hst, hm, -⟩ := h.stamps hp
  refine filterMap_eq_singleton db'.wf.paymentIds hp' ?_ fun q' hq' hne => ?_
  · have hany : db.tables.payments.any (fun q => q.id = p.id ∧ q.settlementRequestedAt = some env.now) = false := by
      refine List.any_eq_false.2 fun q hq hw => ?_
      obtain ⟨hqid, hqst⟩ := of_decide_eq_true hw
      rw [eq_of_key db.wf.paymentIds hq hp hqid, hnone] at hqst
      cases hqst
    rw [hst, hid, hm]
    simp only [Option.bind_some, hany]
    rfl
  · rcases h.payment hp hq' with ⟨hq, -⟩ | ⟨hqid, -⟩
    · cases hs : q'.settlementRequestedAt with
      | none => rfl
      | some a =>
        have hany : db.tables.payments.any (fun q => q.id = q'.id ∧ q.settlementRequestedAt = some a) = true :=
          List.any_eq_true.2 ⟨q', hq, decide_eq_true ⟨rfl, hs⟩⟩
        simp only [Option.bind_some, hany, if_true]
    · exact absurd (hqid.trans hid.symm) hne

theorem Committed.unstamped (h : Committed env request signer p nonce db db') (hp : p ∈ db.tables.payments)
    (hu : Unstamped db.tables) : Unstamped db'.tables := by
  intro q' hq' hs
  rcases h.payment hp hq' with ⟨hq, -⟩ | ⟨-, -, -, -, hst⟩
  · exact hu q' hq hs
  · rw [hst] at hs
    exact absurd hs (by decide)

end Commit

/-- The checks an admitted payment passed. -/
structure Cleared (env : DbEnv) (request : IntentRequest) (p : Payment) (t : Tables) : Prop where
  state : p.state = .verified
  known : p.merchantId.isSome
  live : ∃ v, p.validBefore = some v ∧ request.now + request.expiryMargin < v
  merchant : (settledSince (env.now - request.quotaWindow) p.merchantId t : Int) < request.quota
  overall : (settledSince (env.now - request.quotaWindow) none t : Int) < request.globalQuota

theorem cleared_of_not_refused {request : IntentRequest} {p : Payment} {t : Tables}
    (h : refusal env request p t = none) : Cleared env request p t := by
  have hverified := verified_of_not_refused h
  unfold refusal at h
  simp only at h
  split at h
  · cases h
  split at h
  · cases h
  rename_i hknown
  split at h
  · cases h
  split at h
  · cases h
  rename_i hmerchant
  split at h
  · cases h
  rename_i hoverall
  obtain ⟨hstate, hlive⟩ := hverified
  refine ⟨hstate, ?_, ?_, not_le.1 hmerchant, not_le.1 hoverall⟩
  · cases hm : p.merchantId with
    | none => rw [hm] at hknown; exact absurd Bool.false_ne_true hknown
    | some m => rfl
  · cases hv : p.validBefore with
    | none => rw [hv] at hlive; cases hlive
    | some v => rw [hv] at hlive; exact ⟨v, rfl, by simpa using hlive⟩

/-- What a call does to the admissions: nothing, or it commits one intent that cleared the quotas. -/
inductive QuotaStep (env : DbEnv) (op : Op) (db db' : DB) : Prop
  | same (lapsed : Time → Prop) (h : Attributed lapsed db.tables db'.tables)
      (hlapsed : ∀ v, lapsed v → ∃ request, op = .applyRetention request ∧ v < request.now - request.paymentAfter)
  | admits (request : IntentRequest) (signer : String) (p : Payment) (nonce : Nat)
      (hop : op = .createSettlementIntent request) (hp : p ∈ db.tables.payments)
      (hclear : Cleared env request p db.tables) (hc : Committed env request signer p nonce db db')

theorem QuotaStep.of_eq {op : Op} (h : db'.tables.payments = db.tables.payments) : QuotaStep env op db db' :=
  .same (fun _ => False) (.of_eq h) fun _ h => h.elim

theorem run_quota (env : DbEnv) (op : Op) (db : DB) : QuotaStep env op db (op.run env db).2 := by
  cases hop : op.steady with
  | true => exact .same (fun _ => False) (run_steady attributed_steady env op hop db) fun _ h => h.elim
  | false =>
    cases op with
    | createSettlementIntent request =>
      change QuotaStep env _ db ((createSettlementIntent env request).runInner db).2
      unfold Txn.runInner
      split
      · obtain ⟨signer, -, ho⟩ := createSettlementIntent_outcome ‹_›
        cases ho with
        | unknown _ hq | terminal _ _ _ _ _ hq | duplicate _ _ _ _ _ hq | refused _ _ _ _ _ _ _ hq =>
          exact .of_eq hq.payments
        | committed p nonce hp _ _ hr hc =>
          exact .admits request signer p nonce rfl (requested_some hp).1 (cleared_of_not_refused hr) hc
      · exact .of_eq rfl
    | seedSignerAccount address nonce =>
      change QuotaStep env _ db ((seedSignerAccount address nonce).run db).2
      unfold Txn.run
      split
      · exact .of_eq (seedSignerAccount_quiet ‹_›).1
      · exact .of_eq rfl
    | applyRetention request =>
      change QuotaStep env _ db ((applyRetention env request).run db).2
      unfold Txn.run
      split
      · obtain ⟨mid, hmid, hredact⟩ := applyRetention_ok attributed_steady.motions ‹_›
        refine .same (· < request.now - request.paymentAfter) (hmid.trans ?_) fun v hv => ⟨request, rfl, hv⟩
        rw [hredact]
        exact attributed_redact request mid
      · exact .of_eq rfl
    | claimPayment | claimPayments | renewLease | releaseLease =>
      exact .same (fun _ => False) (attributed_leaseBlind.run env _ rfl db) fun _ h => h.elim
    | _ => cases hop

end Eth402.Store
