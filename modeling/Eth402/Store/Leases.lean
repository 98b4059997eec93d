/-
Leases as the store keeps them: a claim is given only where no lease is left, a renewal only to the identity a lease
that has not lapsed is under, a release to whatever lease is under the identity. Nothing else writes a lease, but for
the redaction of a payment, which ends it.
-/
import Eth402.Store.Steps

namespace Eth402.Store

open Lib Settlement

variable {db db' : DB} {env : DbEnv} {t t' : Tables}

/-- The identity a payment is claimed under, and until when. -/
def Payment.lease (p : Payment) : Option (String × Time) := p.claimedBy.bind fun w => p.claimedUntil.map fun u => (w, u)

def Tables.lease (t : Tables) (q : Nat) : Option (String × Time) :=
  (t.payments.find? fun p => p.id = q).bind Payment.lease

variable {f : Payment → Payment}

theorem lease_updatePayments {w : Payment → Bool} (h : ∀ p, (f p).id = p.id) (t : Tables) (q : Nat) :
    (t.updatePayments w f).lease q =
      (t.payments.find? fun p => p.id = q).bind fun p => if w p then (f p).lease else p.lease := by
  unfold Tables.lease Tables.updatePayments
  rw [find?_mapIf (k := fun p : Payment => p.id) h, Option.bind_map]
  congr 1
  funext p
  by_cases hw : w p = true <;> simp [hw]

theorem lease_update_other {w : Payment → Bool} (h : ∀ p, (f p).id = p.id) {q : Nat}
    (hw : ∀ p ∈ t.payments, w p = true → p.id ≠ q) : (t.updatePayments w f).lease q = t.lease q := by
  rw [lease_updatePayments h]
  unfold Tables.lease
  cases hfind : t.payments.find? fun p => decide (p.id = q) with
  | none => rfl
  | some p =>
    have hpq : p.id = q := by simpa using List.find?_some hfind
    rw [Option.bind_some, Option.bind_some, if_neg]
    exact fun hsel => hw p (List.mem_of_find?_eq_some hfind) hsel hpq

theorem lease_of_mem {p : Payment} (hp : p ∈ db.tables.payments) : db.tables.lease p.id = p.lease := by
  unfold Tables.lease
  rw [find?_key db.wf.paymentIds hp]
  rfl

variable {w : String}

/-- A claimable payment has no lease that is left. -/
theorem Payment.lapsed_of_claimable {now : Time} {p : Payment} (h : p.claimable now = true) {u : Time}
    (hl : p.lease = some (w, u)) : u ≤ now := by
  unfold Payment.lease at hl
  unfold Payment.claimable at h
  cases hb : p.claimedBy with
  | none => rw [hb] at hl; cases hl
  | some b =>
    cases hu : p.claimedUntil with
    | none => rw [hb, hu] at hl; cases hl
    | some v =>
      rw [hb, hu] at hl h
      cases hl
      simpa using h

/-! ## What writes no lease -/

def SameLeases (t t' : Tables) : Prop := ∀ q, t'.lease q = t.lease q

theorem SameLeases.of_eq (h : t'.payments = t.payments) : SameLeases t t' := fun q => by unfold Tables.lease; rw [h]

/-- An update that keeps the lease of every payment it touches. -/
theorem sameLeases_update {w : Payment → Bool}
    (hf : ∀ p, w p = true → (f p).id = p.id ∧ (f p).lease = p.lease) (t : Tables) :
    SameLeases t (t.updatePayments w f) := by
  have heq : t.updatePayments w f = t.updatePayments w fun p => if w p then f p else p := by
    unfold Tables.updatePayments mapIf
    congr 1
    refine List.map_congr_left fun p _ => ?_
    by_cases hw : w p = true <;> simp [hw]
  intro q
  rw [heq, lease_updatePayments]
  · unfold Tables.lease
    congr 1
    funext p
    by_cases hw : w p = true
    · simp [hw, (hf p hw).2]
    · simp [hw]
  · intro p
    by_cases hw : w p = true
    · simp [hw, (hf p hw).1]
    · simp [hw]

theorem sameLeases_steady : Steady SameLeases where
  refl _ := .of_eq rfl
  trans _ _ _ h₁ h₂ q := (h₂ q).trans (h₁ q)
  advance _ _ hf t := sameLeases_update (fun p hw => by
    unfold Payment.lease
    rw [(hf p hw).claimedBy, (hf p hw).claimedUntil]
    exact ⟨(hf p hw).id, rfl⟩) t
  rows _ _ _ _ := .of_eq rfl
  replace _ _ _ _ _ := .of_eq rfl
  audit _ _ := .of_eq rfl
  attempt _ _ := .of_eq rfl
  intake t p _ hp q := by
    unfold Tables.lease
    rw [List.find?_append]
    cases hq : t.payments.find? fun p => decide (p.id = q) with
    | some r => rfl
    | none =>
      rw [Option.none_or, Option.bind_none, Option.bind_eq_none_iff]
      intro r hr
      rw [List.mem_singleton.1 (List.mem_of_find?_eq_some hr)]
      unfold Payment.lease
      rw [hp]
      rfl

theorem createSettlementIntent_sameLeases (request : IntentRequest) :
    Txn.Keeps SameLeases (createSettlementIntent env request) := by
  refine .createSettlementIntent (fun _ _ hq => .of_eq hq.payments) fun db _ _ _ _ _ hc => ?_
  refine sameLeases_steady.trans _ _ _ ?_ (.of_eq hc.payments)
  refine sameLeases_update ?_ _
  exact fun _ _ => ⟨rfl, rfl⟩

/-- Every method but those of leases and retention keeps all leases. -/
theorem run_sameLeases (op : Op) (hl : op.leases = false) (hr : ∀ request, op ≠ .applyRetention request) :
    SameLeases db.tables (op.run env db).2.tables := by
  cases op with
  | claimPayment | claimPayments | renewLease | releaseLease => cases hl
  | applyRetention request => exact absurd rfl (hr request)
  | createSettlementIntent request =>
    exact (createSettlementIntent_sameLeases request).runInner sameLeases_steady.refl db
  | seedSignerAccount address nonce =>
    have hseed : Txn.Keeps SameLeases (seedSignerAccount address nonce) := fun _ _ _ h =>
      .of_eq (seedSignerAccount_quiet h).1
    exact hseed.run sameLeases_steady.refl db
  | _ => exact run_steady sameLeases_steady env _ rfl db

/-! ## What writes leases -/

/-- The payments of `K` are leased to `w` until `u`, the others are as before. -/
structure Granted (K : Nat → Prop) (w : String) (u : Time) (t t' : Tables) : Prop where
  lease : ∀ q, K q → t'.lease q = some (w, u)
  other : ∀ q, ¬ K q → t'.lease q = t.lease q

/-- An update that leases the payments it selects. -/
theorem granted_update {S : Payment → Bool} {u : Time} {K : Nat → Prop}
    (hid : ∀ p, (f p).id = p.id) (hf : ∀ p, S p = true → (f p).lease = some (w, u))
    (hK : ∀ p ∈ db.tables.payments, S p = true ↔ K p.id) (hrow : ∀ q, K q → ∃ p ∈ db.tables.payments, p.id = q) :
    Granted K w u db.tables (db.tables.updatePayments S f) := by
  constructor
  · intro q hq
    obtain ⟨p, hp, rfl⟩ := hrow q hq
    have hsel := (hK p hp).2 hq
    rw [lease_updatePayments hid, find?_key db.wf.paymentIds hp, Option.bind_some, if_pos hsel, hf p hsel]
  · intro q hq
    refine lease_update_other hid fun p hp hsel hpq => hq ?_
    rw [← hpq]
    exact (hK p hp).1 hsel

/-- A claim of one payment is given when no lease is left on it. -/
theorem claimPayment_lease {p : Nat} {d : Int} {now : Time} {lease : Lease}
    (h : claimPayment env p w d now db = .ok (lease, db')) :
    (∀ w u, db.tables.lease p = some (w, u) → u ≤ now) ∧ Granted (· = p) w (now + d) db.tables db'.tables ∧
      lease.expiresAt = now + d := by
  unfold claimPayment at h
  split at h
  · exact (Txn.fail_ok (Txn.bind_ok h).choose_spec.choose_spec.1).elim
  obtain ⟨found, db₁, hr, hrest⟩ := Txn.bind_ok h
  obtain ⟨hfound, rfl⟩ := Prod.mk.inj (Txn.read_ok hr)
  obtain ⟨n, db₂, hu, hrest⟩ := Txn.bind_ok hrest
  cases found with
  | none => exact (Txn.fail_ok hrest).elim
  | some r =>
    cases Txn.pure_ok hrest
    obtain ⟨hmem, hsel⟩ : r ∈ db.tables.payments ∧ r.id = p ∧ r.claimable now = true :=
      ⟨List.mem_of_find?_eq_some hfound, by simpa using List.find?_some hfound⟩
    obtain ⟨rfl, hclaim⟩ := hsel
    refine ⟨fun w u hl => Payment.lapsed_of_claimable hclaim (lease_of_mem hmem ▸ hl), ?_, rfl⟩
    rw [(updatePayments_ok hu).2]
    refine granted_update (fun _ => rfl) (fun _ _ => rfl) (fun q hq => ?_) fun q hq => ⟨r, hmem, hq.symm⟩
    simp only [decide_eq_true_eq, and_iff_left_iff_imp]
    intro hid
    rw [eq_of_key db.wf.paymentIds hq hmem hid]
    exact hclaim

/-- Payments are claimed where no lease is left, and each one is returned. -/
theorem claimPayments_lease {request : ClaimRequest} {leases : List Lease}
    (h : claimPayments env request db = .ok (leases, db')) :
    (∀ q ∈ leases.map (·.paymentId), ∀ w u, db.tables.lease q = some (w, u) → u ≤ request.now) ∧
      Granted (· ∈ leases.map (·.paymentId)) request.worker (request.now + request.duration) db.tables db'.tables ∧
      ∀ lease ∈ leases, lease.expiresAt = request.now + request.duration := by
  unfold claimPayments at h
  cases hv : request.validate with
  | some e =>
    rw [hv] at h
    exact (Txn.fail_ok h).elim
  | none =>
    rw [hv] at h
    obtain ⟨chosen, db₁, hr, hrest⟩ := Txn.bind_ok h
    obtain ⟨hchosen, rfl⟩ := Prod.mk.inj (Txn.read_ok hr)
    obtain ⟨n, db₂, hu, hrest⟩ := Txn.bind_ok hrest
    cases Txn.pure_ok hrest
    have hmem : ∀ q, q ∈ ((env.arrange (·.id) chosen).map fun p =>
        leaseOf request.worker p (request.now + request.duration)).map (·.paymentId) ↔ q ∈ chosen.map (·.id) :=
          fun q => by
      simp [leaseOf]
    have hclaim : ∀ p ∈ chosen, p ∈ db.tables.payments ∧ p.claimable request.now = true := fun p hp => by
      rw [← hchosen] at hp
      have hp := (List.mem_filter.1 (List.mem_of_mem_take hp)).1
      rw [List.mem_insertionSort, DbEnv.mem_arrange, List.mem_filter] at hp
      simp only [Bool.decide_and, Bool.and_eq_true, decide_eq_true_eq] at hp
      exact ⟨hp.1, hp.2.2⟩
    refine ⟨fun q hq w u hl => ?_, ?_, fun lease hl => ?_⟩
    · obtain ⟨p, hp, rfl⟩ := List.mem_map.1 ((hmem q).1 hq)
      exact Payment.lapsed_of_claimable (hclaim p hp).2 (lease_of_mem (hclaim p hp).1 ▸ hl)
    · rw [(updatePayments_ok hu).2]
      refine granted_update (fun _ => rfl) (fun _ _ => rfl) (fun r hr => ?_) fun q hq => ?_
      · simp only [hmem, decide_eq_true_eq, and_iff_left_iff_imp]
        intro hid
        obtain ⟨p, hp, hpr⟩ := List.mem_map.1 hid
        rw [← eq_of_key db.wf.paymentIds (hclaim p hp).1 hr hpr]
        exact (hclaim p hp).2
      · obtain ⟨p, hp, rfl⟩ := List.mem_map.1 ((hmem q).1 hq)
        exact ⟨p, (hclaim p hp).1, rfl⟩
    · obtain ⟨p, -, rfl⟩ := List.mem_map.1 hl
      rfl

/-- A lease is renewed under its own identity, and only while it has not lapsed. -/
theorem renewLease_lease {p : Nat} {now u : Time} {d : Int} (h : renewLease p w now d db = .ok (u, db')) :
    u = now + d ∧ (∃ v, db.tables.lease p = some (w, v) ∧ now < v) ∧ Granted (· = p) w u db.tables db'.tables := by
  unfold renewLease at h
  split at h
  · exact (Txn.fail_ok (Txn.bind_ok h).choose_spec.choose_spec.1).elim
  obtain ⟨n, db₁, hu, hrest⟩ := Txn.bind_ok h
  split at hrest
  · exact (Txn.fail_ok (Txn.bind_ok hrest).choose_spec.choose_spec.1).elim
  rename_i hn
  cases Txn.pure_ok hrest
  obtain ⟨hcount, htables⟩ := updatePayments_ok hu
  obtain ⟨r, hr, hsel⟩ := exists_of_countP_one (hcount.symm.trans (not_not.1 hn))
  obtain ⟨rfl, hby, huntil⟩ := of_decide_eq_true hsel
  obtain ⟨v, hv, hlt⟩ : ∃ v, r.claimedUntil = some v ∧ now < v := by
    cases hv : r.claimedUntil with
    | none => rw [hv] at huntil; cases huntil
    | some v => rw [hv] at huntil; exact ⟨v, rfl, by simpa using huntil⟩
  refine ⟨rfl, ⟨v, ?_, hlt⟩, ?_⟩
  · rw [lease_of_mem hr]
    unfold Payment.lease
    rw [hby, hv]
    rfl
  · rw [htables]
    refine granted_update (fun _ => rfl) (fun q hq => ?_) (fun q hq => ?_) fun q hq => ⟨r, hr, hq.symm⟩
    · unfold Payment.lease
      rw [(of_decide_eq_true hq).2.1]
      rfl
    · simp only [decide_eq_true_eq, and_iff_left_iff_imp]
      intro hid
      rw [eq_of_key db.wf.paymentIds hq hr hid]
      exact ⟨hby, huntil⟩

/-- A release ends whatever lease the payment has under the identity, lapsed or not. -/
theorem releaseLease_lease {p : Nat} {u : Unit} (h : releaseLease env p w db = .ok (u, db')) :
    (∀ w' v, db.tables.lease p = some (w', v) → w' = w) ∧ ∀ q, q ≠ p → db'.tables.lease q = db.tables.lease q := by
  unfold releaseLease at h
  split at h
  · exact (Txn.fail_ok (Txn.bind_ok h).choose_spec.choose_spec.1).elim
  obtain ⟨n, db₁, hu, hrest⟩ := Txn.bind_ok h
  split at hrest
  · exact (Txn.fail_ok hrest).elim
  rename_i hn
  cases Txn.pure_ok hrest
  obtain ⟨hcount, htables⟩ := updatePayments_ok hu
  obtain ⟨r, hr, hsel⟩ := exists_of_countP_one (hcount.symm.trans (not_not.1 hn))
  obtain ⟨rfl, hby⟩ := of_decide_eq_true hsel
  constructor
  · intro w' v hl
    rw [lease_of_mem hr] at hl
    unfold Payment.lease at hl
    rw [hby, Option.bind_some, Option.map_eq_some_iff] at hl
    obtain ⟨_, -, heq⟩ := hl
    cases heq
    rfl
  · intro q hq
    rw [htables]
    refine lease_update_other ?_ fun p _ hsel hpq => hq ?_
    · exact fun _ => rfl
    · exact hpq.symm.trans (of_decide_eq_true hsel).1

end Eth402.Store
