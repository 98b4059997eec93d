/-
Whom a payment is attributed to: the claimant of its recipient at the time the payment is recorded. Until the payment
is admitted no call changes its recipient or its merchant, while the merchant may move to another recipient; admission
asks only whether the merchant is still active.
-/
import Eth402.Store.Audit

namespace Eth402.Store

open Lib Settlement Verification

variable {db db' : DB} {env : DbEnv} {t t' : Tables}

/-! ## Merchants -/

theorem claimant_some {recipient : String} {n : Nat} (h : claimant recipient t = some n) :
    ∃ m ∈ t.merchants, m.id = n ∧ m.status = .active ∧ m.recipientAddress = recipient := by
  obtain ⟨m, hm, rfl⟩ := Option.map_eq_some_iff.1 h
  have hmem := List.mem_of_mem_head? hm
  rw [List.mem_insertionSort, List.mem_filter, decide_eq_true_eq] at hmem
  exact ⟨m, hmem.1, rfl, hmem.2.2, hmem.2.1⟩

theorem active_of_not_refused {request : IntentRequest} {p : Payment} (h : refusal env request p t = none) :
    ∃ m ∈ t.merchants, p.merchantId = some m.id ∧ m.status = .active := by
  unfold refusal at h
  simp only at h
  split at h
  · cases h
  split at h
  · cases h
  rename_i hmerchant
  rw [not_not, Option.any_eq_true] at hmerchant
  obtain ⟨n, hn, hany⟩ := hmerchant
  obtain ⟨m, hm, hsel⟩ := List.any_eq_true.1 hany
  obtain ⟨rfl, hactive⟩ := of_decide_eq_true hsel
  exact ⟨m, hm, hn, hactive⟩

/-! ## From the record to the admission -/

/-- The payment is the same, paid to the same address on behalf of the same merchant. -/
structure Bound (p p' : Payment) : Prop where
  id : p'.id = p.id
  merchantId : p'.merchantId = p.merchantId
  recipient : p'.recipientAddress = p.recipientAddress

theorem Bound.refl (p : Payment) : Bound p p := ⟨rfl, rfl, rfl⟩

theorem Bound.trans {a b c : Payment} (h₁ : Bound a b) (h₂ : Bound b c) : Bound a c :=
  ⟨h₂.id.trans h₁.id, h₂.merchantId.trans h₁.merchantId, h₂.recipient.trans h₁.recipient⟩

/-- The payment is new to the tables, and theirs is the claimant it is attributed to. -/
structure Attributes (t : Tables) (p : Payment) : Prop where
  fresh : ∀ q ∈ t.payments, q.id ≠ p.id
  claimant : ∃ recipient, p.recipientAddress = some recipient ∧ p.merchantId = claimant recipient t

theorem Attributes.bound {p p' : Payment} (h : Attributes t p) (hb : Bound p p') : Attributes t p' where
  fresh q hq := hb.id ▸ h.fresh q hq
  claimant := by
    obtain ⟨recipient, hr, hm⟩ := h.claimant
    exact ⟨recipient, hb.recipient.trans hr, hb.merchantId.trans hm⟩

/-- A payment that waits for its admission was there before, or was attributed by this very call. -/
structure Traced (t t' : Tables) : Prop where
  ids : ∀ p ∈ t.payments, ∃ p' ∈ t'.payments, p'.id = p.id
  origin : ∀ p' ∈ t'.payments, p'.state ∈ unadmitted →
    (∃ p ∈ t.payments, p.state ∈ unadmitted ∧ Bound p p') ∨ Attributes t p'

theorem Traced.of_eq (h : t'.payments = t.payments) : Traced t t' :=
  ⟨fun p hp => ⟨p, h ▸ hp, rfl⟩, fun p hp hs => .inl ⟨p, h ▸ hp, hs, .refl p⟩⟩

/-- Within one transaction the merchants stay. -/
def TracedHere (t t' : Tables) : Prop := t'.merchants = t.merchants ∧ Traced t t'

theorem TracedHere.trans {a b c : Tables} (h₁ : TracedHere a b) (h₂ : TracedHere b c) : TracedHere a c := by
  obtain ⟨hm, h₁⟩ := h₁
  obtain ⟨hm', h₂⟩ := h₂
  refine ⟨hm'.trans hm, fun p hp => ?_, fun r hr hs => ?_⟩
  · obtain ⟨q, hq, hid⟩ := h₁.ids p hp
    obtain ⟨r, hr, hid'⟩ := h₂.ids q hq
    exact ⟨r, hr, hid'.trans hid⟩
  · rcases h₂.origin r hr hs with ⟨q, hq, hsq, hb⟩ | hnew
    · rcases h₁.origin q hq hsq with ⟨p, hp, hsp, hb'⟩ | hnew
      · exact .inl ⟨p, hp, hsp, hb'.trans hb⟩
      · exact .inr (hnew.bound hb)
    · refine .inr ⟨fun p hp => ?_, ?_⟩
      · obtain ⟨q, hq, hid⟩ := h₁.ids p hp
        exact hid ▸ hnew.fresh q hq
      · obtain ⟨recipient, hrec, hclaim⟩ := hnew.claimant
        refine ⟨recipient, hrec, hclaim.trans ?_⟩
        unfold Store.claimant
        rw [hm]

/-- An update under which a payment that waits still waits, for the same merchant. -/
theorem Traced.update {w : Payment → Bool} {f : Payment → Payment} (hid : ∀ p, w p = true → (f p).id = p.id)
    (hf : ∀ p ∈ t.payments, w p = true → (f p).state ∈ unadmitted → p.state ∈ unadmitted ∧ Bound p (f p)) :
    Traced t (t.updatePayments w f) where
  ids p hp := by
    by_cases hw : w p = true
    · exact ⟨f p, mem_mapIf.2 (.inl ⟨p, hp, hw, rfl⟩), hid p hw⟩
    · exact ⟨p, mem_mapIf.2 (.inr ⟨hp, by simpa using hw⟩), rfl⟩
  origin p' hp' hs := by
    rcases mem_mapIf.1 hp' with ⟨p, hp, hw, rfl⟩ | ⟨hp, -⟩
    · obtain ⟨hsp, hb⟩ := hf p hp hw hs
      exact .inl ⟨p, hp, hsp, hb⟩
    · exact .inl ⟨p', hp, hs, .refl p'⟩

theorem traced_calm : Calm TracedHere where
  refl _ := ⟨rfl, .of_eq rfl⟩
  trans _ _ _ := TracedHere.trans
  advance _ _ hf _ := ⟨rfl, .update (fun p hw => (hf p hw).id) fun p _ hw hs =>
    ⟨(hf p hw).unadmitted hs, (hf p hw).id, (hf p hw).merchantId, congrArg Prod.fst (hf p hw).terms⟩⟩
  rows _ _ _ _ := ⟨rfl, .of_eq rfl⟩
  replace _ _ _ _ _ := ⟨rfl, .of_eq rfl⟩
  audit _ _ := ⟨rfl, .of_eq rfl⟩
  attempt _ _ := ⟨rfl, .of_eq rfl⟩

theorem insertVerified_traced (env : DbEnv) (p : ParsedPayment) : Txn.Keeps TracedHere (insertVerified env p) := by
  intro db n db' h
  cases insertVerified_ok h with
  | known _ _ _ hdb =>
    subst hdb
    exact traced_calm.refl _
  | inserted merchant amount _ _ hfree hclaim ht =>
    rw [ht]
    refine ⟨rfl, fun q hq => ⟨q, List.mem_append_left _ hq, rfl⟩, fun q hq hs => ?_⟩
    rcases List.mem_append.1 hq with hq | hq
    · exact .inl ⟨q, hq, hs, .refl q⟩
    · rw [List.mem_singleton.1 hq]
      exact .inr ⟨hfree, padTo 42 p.recipient, rfl, hclaim⟩

theorem traced_units : Units TracedHere := traced_calm.units insertVerified_traced

theorem traced_leaseBlind : LeaseBlind TracedHere where
  refl := traced_calm.refl
  trans := traced_calm.trans
  lease _ _ hf _ := ⟨rfl, .update (fun p _ => (hf p).id) fun p _ _ hs =>
    ⟨(hf p).state ▸ hs, (hf p).id, (hf p).merchantId, congrArg Prod.fst (hf p).terms⟩⟩

/-- A payment that waits for its admission is not redacted. -/
theorem redact_traced (env : DbEnv) (request : RetentionRequest) (db : DB) :
    TracedHere db.tables (db.tables.redact request.now (redactionCandidates env request db.tables)) := by
  refine ⟨rfl, ?_, ?_⟩
  · intro p hp
    refine ⟨_, List.mem_map.2 ⟨p, hp, rfl⟩, ?_⟩
    split <;> rfl
  · intro p' hp' hs
    obtain ⟨p, hp, rfl⟩ := List.mem_map.1 hp'
    by_cases hc : p.id ∈ redactionCandidates env request db.tables
    · obtain ⟨-, hfinal, -⟩ := of_decide_eq_true (redactable_of_candidate hp hc)
      rw [if_pos hc] at hs
      have hwaits : p.state ∈ unadmitted := hs
      revert hfinal hwaits
      cases p.state <;> simp [unadmitted]
    · rw [if_neg hc] at hs ⊢
      exact .inl ⟨p, hp, hs, .refl p⟩

theorem createSettlementIntent_traced (request : IntentRequest) :
    Txn.Keeps TracedHere (createSettlementIntent env request) := by
  refine .createSettlementIntent (fun _ _ hq => ⟨hq.merchants, .of_eq hq.payments⟩) fun db _ _ _ _ _ hc => ?_
  have hgone : State.broadcasting ∉ unadmitted := by decide
  refine traced_units.trans _ (db.tables.updatePayments _ _) _ ⟨rfl, ?_⟩ ⟨hc.merchants, .of_eq hc.payments⟩
  refine .update ?_ ?_
  · exact fun _ _ => rfl
  · exact fun _ _ _ hs => absurd hs hgone

theorem run_traced (env : DbEnv) (op : Op) (db : DB) : TracedHere db.tables (op.run env db).2.tables := by
  refine run_keeps traced_units traced_leaseBlind op createSettlementIntent_traced ?_ ?_ db
  · intro a n _ _ _ h
    obtain ⟨hp, -, -, hm⟩ := seedSignerAccount_quiet h
    exact ⟨hm, .of_eq hp⟩
  · exact fun request _ => traced_units.applyRetention (redact_traced env request)

/-! ## Runs -/

/-- At this step of the run the payment was recorded, and attributed by the tables before it. -/
structure RecordedAt (steps before : List StoreStep) (p : Payment) : Prop where
  step : ∃ s after, steps = before ++ s :: after ∧ ∃ q ∈ (execute (before ++ [s])).tables.payments, q.id = p.id
  attributes : Attributes (execute before).tables p

theorem RecordedAt.later {steps before : List StoreStep} {p p' : Payment} (h : RecordedAt steps before p)
    (hb : Bound p p') (s : StoreStep) : RecordedAt (steps ++ [s]) before p' := by
  obtain ⟨s₀, after, rfl, hin⟩ := h.step
  exact ⟨⟨s₀, after ++ [s], by simp, hb.id ▸ hin⟩, h.attributes.bound hb⟩

theorem step_traced (s : StoreStep) (db : DB) : Traced db.tables (s.run db).tables := by
  cases s with
  | commit env op => exact (run_traced env op db).2
  | rollback op => exact .of_eq rfl
  | setMerchants merchants => exact .of_eq (db.setMerchants_keeps merchants).1

/-- Every payment that waits for its admission was recorded at some step, and is as it was attributed there. -/
theorem recorded_of_waiting (steps : List StoreStep) :
    ∀ p ∈ (execute steps).tables.payments, p.state ∈ unadmitted → ∃ before, RecordedAt steps before p := by
  induction steps using List.reverseRecOn with
  | nil => exact fun p hp => absurd hp List.not_mem_nil
  | append_singleton steps s ih =>
    intro p hp hs
    have htraced := step_traced s (execute steps)
    rw [← execute_snoc] at htraced
    rcases htraced.origin p hp hs with ⟨q, hq, hsq, hb⟩ | hnew
    · obtain ⟨before, hrec⟩ := ih q hq hsq
      exact ⟨before, hrec.later hb s⟩
    · exact ⟨steps, ⟨s, [], rfl, p, hp, rfl⟩, hnew⟩

/-- The payment goes to the address of the active merchant it is attributed to. -/
def Tables.PaysMerchant (t : Tables) (p : Payment) : Prop :=
  ∃ m ∈ t.merchants, p.merchantId = some m.id ∧ m.status = .active ∧ p.recipientAddress = some m.recipientAddress

instance (t : Tables) (p : Payment) : Decidable (t.PaysMerchant p) := by
  unfold Tables.PaysMerchant
  infer_instance

/-- What a call that commits a new intent had found. -/
theorem admitted_of_new {request : IntentRequest} {intent : Intent}
    (h : ((Op.createSettlementIntent request).run env db).1 = .ok intent) (hnew : intent.duplicate = false) :
    ∃ p ∈ db.tables.payments, p.id = intent.paymentId ∧ p.state = .verified ∧
      refusal env request p db.tables = none := by
  have hrun : ((createSettlementIntent env request).runInner db).1 = .ok intent := h
  unfold Txn.runInner at hrun
  split at hrun
  · obtain ⟨signer, -, hout⟩ := createSettlementIntent_outcome ‹_›
    cases hout with
    | committed p nonce hp _ _ hr _ =>
      cases hrun
      exact ⟨p, (requested_some hp).1, rfl, (verified_of_not_refused hr).1, hr⟩
    | terminal | duplicate =>
      cases hrun
      cases hnew
    | unknown | refused => cases hrun
  · cases hrun

/-- Over every sequence of store calls and changes of the merchants: a call that commits a new intent finds a payment of
an active merchant, which was attributed to that merchant by the address the merchant had when the payment was
recorded. So the payment goes to the merchant's address of the day exactly when that address is still the same. -/
theorem admission_pays_merchant_iff (steps : List StoreStep) (env : DbEnv) (request : IntentRequest) (intent : Intent)
    (h : ((Op.createSettlementIntent request).run env (execute steps)).1 = .ok intent)
    (hnew : intent.duplicate = false) :
    ∃ p ∈ (execute steps).tables.payments, p.id = intent.paymentId ∧
      ∃ m ∈ (execute steps).tables.merchants, p.merchantId = some m.id ∧ m.status = .active ∧
        ∃ before, RecordedAt steps before p ∧ ∃ m₀ ∈ (execute before).tables.merchants,
          m₀.id = m.id ∧ m₀.status = .active ∧
            ((execute steps).tables.PaysMerchant p ↔ m.recipientAddress = m₀.recipientAddress) := by
  obtain ⟨p, hp, hid, hstate, hr⟩ := admitted_of_new h hnew
  obtain ⟨m, hm, hmerchant, hactive⟩ := active_of_not_refused hr
  obtain ⟨before, hrec⟩ := recorded_of_waiting steps p hp (by rw [hstate]; decide)
  obtain ⟨recipient, hrecipient, hclaim⟩ := hrec.attributes.claimant
  rw [hmerchant] at hclaim
  obtain ⟨m₀, hm₀, hid₀, hactive₀, rfl⟩ := claimant_some hclaim.symm
  refine ⟨p, hp, hid, m, hm, hmerchant, hactive, before, hrec, m₀, hm₀, hid₀, hactive₀, ?_⟩
  constructor
  · rintro ⟨m', hm', hmerchant', -, hpays⟩
    -- the merchant of a payment is one row
    obtain rfl : m' = m := eq_of_key (execute steps).wf.merchantIds hm' hm
      (by rw [hmerchant] at hmerchant'; simpa using hmerchant'.symm)
    rw [hrecipient] at hpays
    exact (Option.some.inj hpays).symm
  · intro hsame
    exact ⟨m, hm, hmerchant, hactive, hsame ▸ hrecipient⟩

/-! ## A merchant that moves -/

def digits (n : Nat) (c : Char) : String := String.ofList ('0' :: 'x' :: List.replicate n c)

def homeAddress := digits 40 '2'

def soldPayment : ParsedPayment where
  identity := digits 66 'a'
  asset := digits 40 'b'
  payer := digits 40 '3'
  recipient := homeAddress
  amount := "7"
  nonce := digits 64 'c'
  validAfter := 0
  validBefore := 1000
  payloadHash := String.ofList (List.replicate 64 'd')
  signature := digits 130 'e'

def soldRequest : IntentRequest := ⟨soldPayment.identity, digits 40 '1', soldPayment.signature, 10, 5, 100, 5, 20⟩

def soldEnv (id : Nat) : DbEnv := ⟨20, id, fun n => n, fun _ => false⟩

/-- The payment is verified while the merchant has the address it pays, and then the merchant has the given one. -/
def soldThen (recipient : String) : List StoreStep :=
  [.setMerchants [⟨1, homeAddress, .active, 0⟩], .commit (soldEnv 0) (.seedSignerAccount (digits 40 '1') 3),
    .commit (soldEnv 10) (.recordVerification ⟨soldPayment.identity, "verified", "", some soldPayment⟩ "used"),
    .setMerchants [⟨1, recipient, .active, 0⟩]]

def soldIntent : Intent := ⟨10, soldPayment.identity, 11, digits 40 '1', 3, "", false, false, false⟩

/-- The call that admits the payment, when the merchant has the given address. -/
def admission (recipient : String) : Except Err Intent :=
  ((Op.createSettlementIntent soldRequest).run (soldEnv 11) (execute (soldThen recipient))).1

/-- The merchant moved to another address after the payment was verified: the payment to the old one is admitted. -/
theorem moved_merchant_not_paid :
    ((Op.createSettlementIntent soldRequest).run (soldEnv 11) (execute (soldThen (digits 40 '9')))).1 = .ok soldIntent ∧
      soldIntent.duplicate = false ∧ ∃ p ∈ (execute (soldThen (digits 40 '9'))).tables.payments,
        p.id = soldIntent.paymentId ∧ ¬ (execute (soldThen (digits 40 '9'))).tables.PaysMerchant p := by
  suffices h : (admission (digits 40 '9')).toOption = some soldIntent ∧ _ from ⟨toOption_ok.1 h.1, rfl, h.2⟩
  decide +kernel

/-- The merchant stayed, and is paid. -/
theorem settled_merchant_paid :
    ((Op.createSettlementIntent soldRequest).run (soldEnv 11) (execute (soldThen homeAddress))).1 = .ok soldIntent ∧
      ∃ p ∈ (execute (soldThen homeAddress)).tables.payments, p.id = soldIntent.paymentId ∧
        ∃ m ∈ (execute (soldThen homeAddress)).tables.merchants, p.merchantId = some m.id ∧ m.status = .active ∧
          ∃ before, RecordedAt (soldThen homeAddress) before p ∧ ∃ m₀ ∈ (execute before).tables.merchants,
            m₀.id = m.id ∧ m₀.status = .active ∧
              ((execute (soldThen homeAddress)).tables.PaysMerchant p ↔ m.recipientAddress = m₀.recipientAddress) := by
  have h : (admission homeAddress).toOption = some soldIntent := by decide +kernel
  have hrun := toOption_ok.1 h
  exact ⟨hrun, admission_pays_merchant_iff _ _ _ _ hrun rfl⟩

end Eth402.Store
