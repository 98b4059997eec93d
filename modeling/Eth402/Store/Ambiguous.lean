/-
A row in doubt stays exactly as it is, its clock and its count of attempts included, under every call of the store but
the three that recovery makes for that very row.
-/
import Eth402.Store.Steps

namespace Eth402.Store

open Lib Settlement Verification

variable {db db' : DB} {env : DbEnv} {x : Transaction} {hash : Bytes → String}

/-- The calls recovery makes for the ambiguous row `t` of the payment `p`. -/
def Op.resolves (p t : Nat) : Op → Bool
  | .markTxRecoveredBroadcast q u _ _ | .markAmbiguousRetry q u | .markTxAmbiguousReplaced q u _ _ => q = p ∧ u = t
  | _ => false

/-- The row is still there, as it was. -/
def Stays (x : Transaction) (t t' : Tables) : Prop := x ∈ t.transactions → x ∈ t'.transactions

theorem Stays.of_eq {t t' : Tables} (h : t'.transactions = t.transactions) : Stays x t t' := fun hx => h ▸ hx

/-! ## Statements -/

theorem stays_calm (x : Transaction) : PaymentCalm (Stays x) where
  refl _ h := h
  trans _ _ _ h₁ h₂ h := h₂ (h₁ h)
  advance _ _ _ _ := .of_eq rfl
  audit _ _ := .of_eq rfl

theorem stays_leaseBlind (x : Transaction) : LeaseBlind (Stays x) where
  refl := (stays_calm x).refl
  trans := (stays_calm x).trans
  lease _ _ _ _ := .of_eq rfl

variable {w : Transaction → Bool} {f : Transaction → Transaction}

theorem stays_updateTransactions (h : w x = false) : Txn.Keeps (Stays x) (updateTransactions w f) := by
  intro db n db' hok hx
  obtain ⟨-, ht⟩ := updateTransactions_ok hok
  rw [ht]
  exact mem_mapIf.2 (.inr ⟨hx, h⟩)

/-- An update that passes by the row, and what follows it. -/
theorem stays_updateOne {α : Type} {c : String} {m : Txn α} (h : w x = false) (hm : Txn.Keeps (Stays x) m) :
    Txn.Keeps (Stays x) (do let n ← updateTransactions w f; expectOne n c; m) :=
  (stays_calm x).bind (stays_updateTransactions h) fun n => (stays_calm x).bind ((stays_calm x).expectOne n c) fun _ =>
    hm

theorem stays_updateLast {c : String} (h : w x = false) :
    Txn.Keeps (Stays x) (do let n ← updateTransactions w f; expectOne n c) :=
  (stays_calm x).bind (stays_updateTransactions h) fun n => (stays_calm x).expectOne n c

theorem rowOf_of_status {p t : Nat} {S : List TxStatus} (h : x.status ∉ S) : rowOf p t S x = false := by
  unfold rowOf
  exact decide_eq_false fun hc => h hc.2.2

theorem rowOf_of_ne {p t : Nat} {S : List TxStatus} (h : ¬ (p = x.paymentId ∧ t = x.id)) : rowOf p t S x = false := by
  unfold rowOf
  exact decide_eq_false fun hc => h ⟨hc.2.1.symm, hc.1.symm⟩

/-- An insertion links its own original only. -/
theorem stays_insertReplacement {p t : Nat} {row : Transaction → Transaction} (h : ¬ (p = x.paymentId ∧ t = x.id)) :
    Txn.Keeps (Stays x) (insertReplacement env p t row) := by
  intro db u db' hok hx
  obtain ⟨o, -, -, -, ht⟩ := insertReplacement_tables hok
  rw [ht]
  refine mem_mapIf.2 (.inr ⟨List.mem_append_left _ hx, ?_⟩)
  exact decide_eq_false fun hc => h ⟨hc.2.symm, hc.1.symm⟩

/-- An update that has to hit a row in no doubt hits another row. -/
theorem stays_updateOther {α : Type} {t : Nat} {c : String}
    {m : Txn α} (hs : x.status = .ambiguous) (hw : ∀ r, w r = true → r.id = t ∧ r.status ≠ .ambiguous)
    (hm : x.id ≠ t → Txn.Keeps (Stays x) m) :
    Txn.Keeps (Stays x) (do let n ← updateTransactions w f; expectOne n c; m) := by
  intro db a db' hok hx
  have hpass : w x = false := by
    by_contra hc
    exact (hw x (by simpa using hc)).2 hs
  have hne : x.id ≠ t := by
    rintro rfl
    obtain ⟨db₁, hone, -, -⟩ := updateOne_ok hok
    obtain ⟨r, hr, hwr⟩ := exists_of_countP_one hone
    rw [eq_of_key db.wf.transactionIds hr hx (hw r hwr).1, hpass] at hwr
    cases hwr
  exact stays_updateOne hpass (hm hne) _ _ _ hok hx

/-! ## Methods -/

theorem stays_finalize {p t : Nat} {status : TxStatus} {state : State} {word actor : String}
    {assignRow : Transaction → Transaction} {assign : Payment → Payment} (hs : x.status = .ambiguous)
    (hf : ∀ q, Advanced q (assign q)) :
    Txn.Keeps (Stays x) (finalize env p t status state word actor assignRow assign) := by
  have hpass : x.status ∉ [TxStatus.broadcast, .confirming] := by
    rw [hs]
    decide
  refine (stays_calm x).bind (stays_updateTransactions (rowOf_of_status hpass)) fun _ =>
    .ite ((stays_calm x).transitionPaymentIn _ _ _ _ _ hf) ?_
  exact (stays_calm x).bind ((stays_calm x).read _) fun _ => .ite ((stays_calm x).pure _) (.fail _)

/-- What lands is a replacement of a payment that is not under review. -/
theorem stays_markReplacementLanded {p t n g : Nat} {succeeded : Bool} {blockHash actor : String} {c : Int} {u : Unit}
    (hs : x.status = .ambiguous) (hx : x ∈ db.tables.transactions)
    (hst : stateOf x.paymentId db.tables = some .manualReview)
    (hok : markReplacementLanded env p t succeeded n blockHash g c actor db = .ok (u, db')) :
    x ∈ db'.tables.transactions := by
  obtain ⟨db₁, -, h₁, hok⟩ := updateOne_ok hok
  obtain ⟨db₂, -, h₂, hok⟩ := updateOne_ok hok
  obtain ⟨-, s, hsource, hmoved⟩ := transitionPaymentIn_ok hok (fun _ => rfl) (fun _ => rfl)
  have hp : x.paymentId ≠ p := by
    rintro rfl
    have hbefore := hmoved.before
    rw [h₂, stateOf_updateTransactions, h₁, stateOf_updateTransactions, hst] at hbefore
    cases hbefore
    revert hsource
    cases succeeded <;> decide
  have hkept : x ∈ db₁.tables.transactions := by
    rw [h₁]
    exact mem_mapIf.2 (.inr ⟨hx, decide_eq_false fun hc => hp hc.1⟩)
  rw [hmoved.transactions, h₂]
  exact mem_mapIf.2 (.inr ⟨hkept, rowOf_of_status (by rw [hs]; decide)⟩)

theorem stays_createSettlementIntent {request : IntentRequest} :
    Txn.Keeps (Stays x) (createSettlementIntent env request) := by
  refine .createSettlementIntent (fun _ _ hq => .of_eq hq.transactions) fun _ _ _ _ _ _ hc hx => ?_
  rw [hc.transactions]
  exact List.mem_append_left _ hx

/-- Redaction clears recorded bytes, and a row in doubt has none. -/
theorem stays_applyRetention {request : RetentionRequest} (hraw : x.rawTransaction = none) :
    Txn.Keeps (Stays x) (applyRetention env request) := by
  intro db r db' h hx
  obtain ⟨-, ids, mid, hexpire, hredact⟩ := applyRetention_steps h
  have hmid : x ∈ mid.tables.transactions := by
    rw [hexpire]
    exact hx
  rw [hredact]
  refine List.mem_map.2 ⟨x, hmid, if_neg ?_⟩
  rw [hraw]
  exact fun hc => absurd hc.2 (by decide)

theorem stays_insertVerified (p : ParsedPayment) : Txn.Keeps (Stays x) (insertVerified env p) := by
  intro db n db' h
  cases insertVerified_ok h with
  | known _ _ _ hdb => exact .of_eq (by rw [hdb])
  | inserted merchant amount _ _ _ _ ht => exact .of_eq (by rw [ht])

/-! ## The whole store -/

/-- Every call but those made for the row leaves it as it is. -/
theorem run_stays (op : Op) (hshape : ∀ q, Shape hash (lifeOf db.tables q)) (hs : x.status = .ambiguous)
    (hx : x ∈ db.tables.transactions) (hop : op.resolves x.paymentId x.id = false) :
    x ∈ (op.run env db).2.tables.transactions := by
  have hrow : x.row ∈ rowsOf db.tables x.paymentId := mem_rowsOf.2 ⟨x, hx, rfl, rfl⟩
  have hst : stateOf x.paymentId db.tables = some .manualReview := (hshape x.paymentId).of_ambiguous hrow hs
  have hraw : x.rawTransaction = none := by
    have hreview := hshape x.paymentId
    unfold lifeOf at hreview
    rw [hst] at hreview
    exact (hreview.review_ambiguous ⟨x.row, hrow, Row.is_iff.2 ⟨rfl, List.mem_singleton.2 hs⟩⟩ x.row hrow).2.1
  have calm := stays_calm x
  have keep : ∀ {α : Type} {m : Txn α}, Txn.Keeps (Stays x) m → x ∈ (m.run db).2.tables.transactions :=
    fun h => h.run calm.refl db hx
  have pass : ∀ {p t : Nat} {S : List TxStatus}, TxStatus.ambiguous ∉ S → rowOf p t S x = false :=
    fun h => rowOf_of_status (by rw [hs]; exact h)
  have status : ∀ {s : TxStatus} {c : Prop} [Decidable c], TxStatus.ambiguous ≠ s →
      decide (c ∧ x.status = s) = false := fun h => decide_eq_false fun hc => h (hs.symm.trans hc.2)
  have unsent : x.status ∉ [TxStatus.broadcast, .replaced] := by
    rw [hs]
    decide
  cases op with
  | createSettlementIntent => exact stays_createSettlementIntent.runInner calm.refl db hx
  | claimPayment | claimPayments | renewLease | releaseLease => exact (stays_leaseBlind x).run env _ rfl db hx
  | loadSettlementWork | listReplacedPending | listDroppedBlockingGaps | listGapFillers | listStuckGapFillers =>
    exact keep (.query calm.refl _)
  | markTxSigned | markGapFillerPrepared => exact keep (stays_updateLast (status (by decide)))
  | markTxBroadcast | markTxAmbiguous | markTxReorgedOut | markIntentExpired | markIntentUnsettleable =>
    exact keep (stays_updateOne (pass (by decide)) (calm.transitionPayment _ _ _ _ (by decide)))
  | markTxConfirming p =>
    exact keep (calm.bind (stays_updateTransactions (pass (by decide))) fun _ => calm.sightPayment env.now p _)
  | markTxConfirmed =>
    refine keep (stays_finalize hs fun _ => ?_)
    exact .moved (by decide : State.confirmed ∉ unadmitted) rfl rfl rfl rfl rfl rfl rfl rfl rfl rfl
  | markTxReverted =>
    refine keep (stays_finalize hs fun _ => ?_)
    exact .moved (by decide : State.reverted ∉ unadmitted) rfl rfl rfl rfl rfl rfl rfl rfl rfl rfl
  | markTxRecoveredBroadcast =>
    refine keep (stays_updateOne (rowOf_of_ne ?_) (calm.transitionPayment _ _ _ _ (by decide)))
    exact of_decide_eq_false hop
  | markAmbiguousRetry => exact keep (stays_updateLast (rowOf_of_ne (of_decide_eq_false hop)))
  | markTxAmbiguousReplaced =>
    have hne := of_decide_eq_false hop
    exact keep (stays_updateOne (rowOf_of_ne hne) (calm.bind (stays_insertReplacement hne) fun _ =>
      calm.transitionPayment _ _ _ _ (by decide)))
  | markTxReplaced p =>
    refine keep (stays_updateOther hs (fun r hr => ?_) fun hne =>
      calm.bind (stays_insertReplacement fun hc => hne hc.2.symm) fun _ => calm.supersedePayment env.now p _ _)
    obtain ⟨hid, -, hmem⟩ := of_decide_eq_true hr
    exact ⟨hid, by rw [List.mem_singleton.1 hmem]; decide⟩
  | markReplacementLanded p t succeeded n blockHash g c actor =>
    change x ∈ ((markReplacementLanded env p t succeeded n blockHash g c actor).run db).2.tables.transactions
    unfold Txn.run
    split
    · exact stays_markReplacementLanded hs hx hst ‹_›
    · exact hx
  | markGapFillerReplaced =>
    refine keep (stays_updateOther hs (fun r hr => ?_) fun hne => stays_insertReplacement fun hc => hne hc.2.symm)
    obtain ⟨hid, -, hbroadcast, -⟩ := of_decide_eq_true hr
    exact ⟨hid, by rw [hbroadcast]; decide⟩
  | markGapFillerResolved =>
    refine keep (stays_updateOne (decide_eq_false fun hc => unsent hc.2) (calm.bind (calm.read _) fun _ =>
      calm.bind (stays_updateTransactions ?_) fun _ => calm.pure _))
    exact decide_eq_false fun hc => unsent hc.2.2
  | markGapFillerSucceeded =>
    refine keep (stays_updateOne (pass (by decide)) (calm.bind (stays_updateTransactions ?_) fun _ =>
      calm.transitionPayment _ _ _ _ (by decide)))
    exact decide_eq_false fun hc => unsent hc.2.2
  | recordVerification attempt reason =>
    have hattempt : ∀ t (r : VerificationAttempt), Stays x t { t with
        verificationAttempts := t.verificationAttempts ++ [r] } := fun _ _ => .of_eq rfl
    exact recordVerification_keeps calm.refl calm.trans hattempt (fun _ => stays_insertVerified) env attempt
      reason db hx
  | applyRetention => exact keep (stays_applyRetention hraw)
  | seedSignerAccount => exact keep fun _ _ _ h => .of_eq (seedSignerAccount_quiet h).2.1

end Eth402.Store
