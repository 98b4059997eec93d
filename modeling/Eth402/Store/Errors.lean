/-
Which of the package-level error values an error of the store carries. Callers decide by `errors.Is`, so
what a method cannot return is as much part of its contract as what it writes: a driver error or a violated
constraint is none of these values, and each method raises only its own.
-/
import Eth402.Store.Intake

namespace Eth402.Store

open Lib Settlement

variable {α β : Type} {S : List Sentinel} {db db' : DB} {env : DbEnv}

/-- The error carries no package-level value outside `S`. -/
def Err.Within (S : List Sentinel) (e : Err) : Prop := ∀ s, e.is s = true → s ∈ S

theorem within_text (m : String) : Err.Within S (.text m) := fun _ h => by cases h

theorem within_sql (c : String) : Err.Within S (.sql c) := fun _ h => by cases h

theorem within_noRows : Err.Within S .noRows := fun _ h => by cases h

theorem within_sentinel {s : Sentinel} (hs : s ∈ S) : Err.Within S (.sentinel s) := fun t ht => by
  rw [Err.is_sentinel, decide_eq_true_eq] at ht
  exact ht ▸ hs

theorem Err.Within.wrap {e : Err} (h : Err.Within S e) (c : String) : Err.Within S (.wrap c e) := fun s hs => h s hs

/-- The results of a computation outside the database. -/
def Fails (S : List Sentinel) (x : Except Err α) : Prop := ∀ e, x = .error e → Err.Within S e

theorem Fails.ok (a : α) : Fails S (.ok a : Except Err α) := fun _ h => by cases h

theorem Fails.error {e : Err} (h : Err.Within S e) : Fails S (.error e : Except Err α) := fun _ he => by
  cases he; exact h

theorem Fails.bind {x : Except Err α} {f : α → Except Err β} (hx : Fails S x) (hf : ∀ a, Fails S (f a)) :
    Fails S (x >>= f) := by
  cases x with
  | error e => exact .error (hx e rfl)
  | ok a => exact hf a

theorem Fails.mapError {x : Except Err α} (hx : Fails S x) (c : String) : Fails S (x.mapError (.wrap c)) := by
  cases x with
  | error e => exact .error ((hx e rfl).wrap c)
  | ok a => exact .ok a

/-! ## Transactions -/

/-- The errors the transaction fails with carry no package-level value outside `S`. -/
def Txn.Raises (S : List Sentinel) (m : Txn α) : Prop := ∀ db e, m db = .error e → Err.Within S e

namespace Txn.Raises

theorem bind {m : Txn α} {k : α → Txn β} (hm : Txn.Raises S m) (hk : ∀ a, Txn.Raises S (k a)) :
    Txn.Raises S (m >>= k) := by
  intro db e h
  change Txn.bind m k db = .error e at h
  unfold Txn.bind at h
  split at h
  · exact hk _ _ _ h
  · cases h
    exact hm db _ ‹_›

theorem pure (a : α) : Txn.Raises S (pure a : Txn α) := fun _ _ h => by cases h

theorem fail {e : Err} (h : Err.Within S e) : Txn.Raises S (Txn.fail e : Txn α) := fun _ _ he => by
  cases he; exact h

theorem read (f : Tables → α) : Txn.Raises S (Txn.read f) := fun _ _ h => by cases h

theorem query {f : Tables → Except Err α} (h : ∀ t, Fails S (f t)) : Txn.Raises S (Txn.query f) := by
  intro db e he
  unfold Txn.query at he
  split at he
  · cases he
  · cases he
    exact h _ _ ‹_›

theorem lift {x : Except Err α} (h : Fails S x) : Txn.Raises S (Txn.lift x) := by
  cases x with
  | ok a => exact .pure a
  | error e => exact .fail (h e rfl)

theorem write (f : Tables → Tables) : Txn.Raises S (Txn.write f) := by
  intro db e h
  unfold Txn.write at h
  split at h
  · cases h
  · cases h
    unfold Tables.violation
    split
    · exact within_sql _
    split
    · exact within_sql _
    split
    · exact within_sql _
    split
    · exact within_sql _
    · exact within_noRows

theorem ite {c : Prop} [Decidable c] {a b : Txn α} (ha : Txn.Raises S a) (hb : Txn.Raises S b) :
    Txn.Raises S (if c then a else b) := by
  split
  · exact ha
  · exact hb

theorem updateTransactions (w : Transaction → Bool) (f : Transaction → Transaction) :
    Txn.Raises S (updateTransactions w f) := .bind (.read _) fun _ => .bind (.write _) fun _ => .pure _

theorem updatePayments (w : Payment → Bool) (f : Payment → Payment) : Txn.Raises S (updatePayments w f) :=
  .bind (.read _) fun _ => .bind (.write _) fun _ => .pure _

theorem expectOne (hs : .settlementRace ∈ S) (n : Nat) (c : String) : Txn.Raises S (expectOne n c) :=
  .ite (.pure _) (.fail ((within_sentinel hs).wrap c))

theorem transitionPayment (hs : .settlementRace ∈ S) (now : Time) (p : Nat) (source target : State) (actor : String) :
    Txn.Raises S (transitionPayment now p source target actor) :=
  .bind (.ite (.pure _) (.fail (within_text _))) fun _ => .bind (.updatePayments _ _) fun _ =>
    .bind (.expectOne hs _ _) fun _ =>
      .write fun t => { t with transitions := t.transitions ++ [⟨p, source, target, none, actor⟩] }

end Txn.Raises

/-! ## Methods -/

theorem raises_claimPayment (p : Nat) (w : String) (d : Int) (now : Time) :
    Txn.Raises [.leaseUnavailable] (claimPayment env p w d now) := by
  unfold claimPayment
  split
  on_goal 1 => refine .bind (.fail (within_text _)) fun _ => ?_
  all_goals
    refine .bind (.read _) fun found => .bind (.updatePayments _ _) fun _ => ?_
    cases found with
    | none => exact .fail (within_sentinel (by simp))
    | some q => exact .pure _

theorem fails_parseNonce (n : Nat) : Fails S (parseNonce n) := by
  unfold parseNonce
  split
  · exact .ok n
  · exact .error (within_text _)

theorem fails_authorization (p : Payment) : Fails S p.authorization := by
  unfold Payment.authorization
  split
  · exact .ok _
  · exact .error (within_text _)

theorem raises_loadSettlementWork (p : Nat) : Txn.Raises S (loadSettlementWork env p) := by
  refine .query fun t => ?_
  split
  · rename_i q r _ _
    refine .bind (fails_authorization q) fun a => .bind (fails_parseNonce _) fun n => ?_
    cases r.gasLimit with
    | some g => exact .bind ((fails_parseNonce g).mapError _) fun _ => .ok _
    | none => exact .bind (.ok 0) fun _ => .ok _
  · exact .error within_noRows

theorem raises_markTxSigned (t : Nat) (rawHash sighash : String) (g : Nat) (m f : Int) :
    Txn.Raises [.settlementRace] (markTxSigned env t rawHash sighash g m f) :=
  .bind (.updateTransactions _ _) fun _ => .expectOne (by simp) _ _

theorem raises_markTxBroadcast (p t : Nat) (txHash actor : String) :
    Txn.Raises [.settlementRace] (markTxBroadcast env p t txHash actor) :=
  .bind (.updateTransactions _ _) fun _ => .bind (.expectOne (by simp) _ _) fun _ =>
    .transitionPayment (by simp) _ _ _ _ _

theorem raises_markTxAmbiguous (p t : Nat) (actor : String) :
    Txn.Raises [.settlementRace] (markTxAmbiguous env p t actor) :=
  .bind (.updateTransactions _ _) fun _ => .bind (.expectOne (by simp) _ _) fun _ =>
    .transitionPayment (by simp) _ _ _ _ _

theorem raises_retireIntent (what actor : String) (target : State) (p t : Nat) :
    Txn.Raises [.settlementRace] (retireIntent env what target p t actor) :=
  .bind (.updateTransactions _ _) fun _ => .bind (.expectOne (by simp) _ _) fun _ =>
    .transitionPayment (by simp) _ _ _ _ _

/-! ## Admission -/

/-- The checks of a request fail with texts. -/
theorem within_failedChecks {checks : List (Bool × String)} {e : Err} (h : failedChecks checks = some e) :
    Err.Within S e := by
  have joined : ∀ (es : List Err) (e : Err), (∀ x ∈ es, Err.Within S x) → joinErrors es = some e → Err.Within S e := by
    intro es
    induction es with
    | nil => exact fun _ _ h => by cases h
    | cons x es ih =>
      intro e hall h
      cases es with
      | nil => cases h; exact hall x (by simp)
      | cons y es =>
        obtain ⟨rest, hrest, rfl⟩ := Option.map_eq_some_iff.1 h
        intro s hs
        rw [Err.is_join, Bool.or_eq_true] at hs
        exact hs.elim (hall x (by simp) s) (ih rest (fun z hz => hall z (by simp [hz])) hrest s)
  refine joined _ e (fun x hx => ?_) h
  obtain ⟨c, -, rfl⟩ := List.mem_map.1 hx
  exact within_text _

theorem fails_normalizeAddress (a : String) : Fails S (normalizeAddress a) := by
  unfold normalizeAddress
  split
  · exact .error (within_text _)
  split
  · exact .error (within_text _)
  split
  · exact .error (within_text _)
  · exact .ok _

theorem raises_rejectSettlement (p : Option Nat) (identity reason : String) (cause : Err) :
    Txn.Raises S (rejectSettlement p identity reason cause) := .bind (.write _) fun _ => .pure _

theorem raises_duplicateIntent (p : Payment) (request : IntentRequest) (r : Transaction) (txHash : String)
    (terminal : Bool) : Txn.Raises S (duplicateIntent p request r txHash terminal) :=
  .bind (.lift (fails_parseNonce _)) fun _ => .bind (.write _) fun _ => .pure _

section Admission

variable (hs : .signerAccountUnknown ∈ S) (request : IntentRequest) (signer : String) (p : Payment)
include hs

theorem raises_allocateNonce : Txn.Raises S (allocateNonce signer) :=
  .bind (.lift ((fails_normalizeAddress signer).mapError _)) fun _ => .bind (.read _) fun stored => by
    cases stored with
    | none => exact .fail (within_sentinel hs)
    | some next => exact .bind (.write _) fun _ => .lift (fails_parseNonce _)

theorem raises_commitIntent : Txn.Raises S (commitIntent env request signer p) := by
  refine .bind (raises_allocateNonce hs signer) fun nonce => .bind (.updatePayments _ _) fun n => ?_
  have hinserts : Txn.Raises S (do
      insertTransition ⟨p.id, p.state, .broadcasting, none, "http"⟩
      insertTransaction (intentRow env p.id signer nonce)
      insertSettlementAttempt ⟨some p.id, some request.paymentIdentity, .accepted, none⟩
      pure (.ok ⟨p.id, request.paymentIdentity, env.freshId, signer, nonce, "", false, false, false⟩) :
        Txn (Except Err Intent)) :=
    .bind (.write _) fun _ => .bind (.write _) fun _ => .bind (.write _) fun _ => .pure _
  split
  · exact .bind (.fail (within_text _)) fun _ => hinserts
  · exact hinserts

theorem raises_admitPayment : Txn.Raises S (admitPayment env request signer p) := by
  refine .bind (.read _) fun terminal => ?_
  cases terminal with
  | some found => exact raises_duplicateIntent p request found.1 found.2 true
  | none =>
    refine .bind (.read _) fun existing => ?_
    cases existing with
    | some r => exact raises_duplicateIntent p request r _ false
    | none =>
      refine .bind (.read _) fun refused => ?_
      cases refused with
      | some found => exact raises_rejectSettlement _ _ _ _
      | none => exact .ite (.fail (within_text _)) (raises_commitIntent hs request signer p)

/-- Admission fails, as opposed to refusing, for want of the signer's account or inside the database. -/
theorem raises_createSettlementIntent : Txn.Raises S (createSettlementIntent env request) := by
  unfold createSettlementIntent
  split
  · rename_i e hv
    exact .fail (within_failedChecks hv)
  · refine .bind (.lift ((fails_normalizeAddress _).mapError _)) fun signer => .bind (.read _) fun payment => ?_
    cases payment with
    | none => exact raises_rejectSettlement _ _ _ _
    | some p => exact raises_admitPayment hs request signer p

end Admission

end Eth402.Store
