/-
What an answer of the store tells its caller for good. A process keeps using what it read or wrote long
after other processes moved the payment on; `Tells` lists the statements about the database that such an
answer gives and that no later step takes away, and `Stands` is what each of them means.
-/
import Eth402.Store.Answers
import Eth402.System.Machine

namespace Eth402.System

open Lib Store Settlement Verification

/-- A lasting statement about the database. -/
inductive Lasting
  /-- The payment's transaction reached the network. -/
  | broadcasted (p : Nat)
  /-- The payment's intent was retired before it was signed. -/
  | retired (p : Nat)
  /-- The row `t` is a row of the payment. -/
  | row (p t : Nat)
  /-- The row `t` of the payment is on a nonce of the signer `a`. -/
  | signer (p t : Nat) (a : String)
  /-- The row `t` was signed with the hash `h`, and its payment is in the pipeline. -/
  | signed (t : Nat) (h : String)
  /-- The payment has a row with the raw hash `h`, unless it was retired. -/
  | recorded (p : Nat) (h : String)
  /-- The row `t` of the payment has the transaction hash `h`, unless the payment was retired. -/
  | hashed (p t : Nat) (h : String)
  | confirmed (p : Nat)
  | reverted (p : Nat)
  | identity (p : Nat) (s : String)
  /-- The payment's authorization ends at `v`, as long as the payment is not redacted. -/
  | deadline (p : Nat) (v : Time)
  | same (p q : Nat)

def Stands (db : DB) : Lasting → Prop
  | .broadcasted p => Broadcasted (lifeOf db.tables p)
  | .retired p => Retired (lifeOf db.tables p)
  | .row p t => ∃ r ∈ rowsOf db.tables p, r.id = t
  | .signer p t a => ∃ r ∈ rowsOf db.tables p, r.id = t ∧ r.signer = a
  | .signed t h => ∃ p, Pipeline (lifeOf db.tables p) ∧ ∃ r ∈ rowsOf db.tables p, r.id = t ∧ r.rawHash = some h
  | .recorded p h => Retired (lifeOf db.tables p) ∨ ∃ r ∈ rowsOf db.tables p, r.rawHash = some h
  | .hashed p t h => Retired (lifeOf db.tables p) ∨ ∃ r ∈ rowsOf db.tables p, r.id = t ∧ r.txHash = some h
  | .confirmed p => stateOf p db.tables = some .confirmed
  | .reverted p => stateOf p db.tables = some .reverted
  | .identity p s => ∃ q ∈ db.tables.payments, q.id = p ∧ q.paymentIdentity = s
  | .deadline p v => ∃ q ∈ db.tables.payments, q.id = p ∧ (q.validBefore = some v ∨ q.validBefore = none)
  | .same p q => p = q

/-- Whatever stands keeps standing. -/
theorem Stands.move {hash : Bytes → String} {K : Kind → Prop} {db db' : DB} {a : Lasting} (h : Stands db a)
    (hshape : ∀ q, Shape hash (lifeOf db.tables q)) (hm : Moves hash K db db')
    (hp : PaymentsKept db.tables db'.tables) : Stands db' a := by
  have kept : ∀ p, ∀ r ∈ rowsOf db.tables p, ∃ r' ∈ rowsOf db'.tables p, RowKept (lifeOf db.tables p) r r' :=
    fun p => by
    obtain ⟨k, -, m⟩ := hm p
    exact m.rowsKept (hshape p)
  have retired : ∀ p, Retired (lifeOf db.tables p) → Retired (lifeOf db'.tables p) := fun p hret => by
    obtain ⟨k, -, m⟩ := hm p
    exact hret.move m (hshape p)
  cases a with
  | broadcasted p =>
    obtain ⟨k, -, m⟩ := hm p
    exact Broadcasted.move m h
  | retired p => exact retired p h
  | row p t =>
    obtain ⟨r, hr, rfl⟩ := h
    obtain ⟨r', hr', hk⟩ := kept p r hr
    exact ⟨r', hr', hk.id⟩
  | signer p t a =>
    obtain ⟨r, hr, rfl, rfl⟩ := h
    obtain ⟨r', hr', hk⟩ := kept p r hr
    exact ⟨r', hr', hk.id, hk.signer⟩
  | signed t h' =>
    obtain ⟨p, hpipe, r, hr, rfl, hh⟩ := h
    obtain ⟨k, -, m⟩ := hm p
    obtain ⟨r', hr', hk⟩ := kept p r hr
    exact ⟨p, hpipe.move m (hshape p), r', hr', hk.id, by
      rw [hk.rawHash hpipe.not_retired (by rw [hh]; simp), hh]⟩
  | recorded p h' =>
    by_cases hret : Retired (lifeOf db.tables p)
    · exact .inl (retired p hret)
    · obtain ⟨r, hr, hh⟩ := h.resolve_left hret
      obtain ⟨r', hr', hk⟩ := kept p r hr
      exact .inr ⟨r', hr', by rw [hk.rawHash hret (by rw [hh]; simp), hh]⟩
  | hashed p t h' =>
    by_cases hret : Retired (lifeOf db.tables p)
    · exact .inl (retired p hret)
    · obtain ⟨r, hr, rfl, hh⟩ := h.resolve_left hret
      obtain ⟨r', hr', hk⟩ := kept p r hr
      exact .inr ⟨r', hr', hk.id, by rw [hk.txHash hret (by rw [hh]; simp), hh]⟩
  | confirmed p | reverted p =>
    obtain ⟨k, -, m⟩ := hm p
    exact m.terminal h rfl
  | identity p s =>
    obtain ⟨q, hq, rfl, rfl⟩ := h
    obtain ⟨q', hq', hk⟩ := hp q hq
    exact ⟨q', hq', hk.id, hk.identity⟩
  | deadline p v =>
    obtain ⟨q, hq, rfl, hv⟩ := h
    obtain ⟨q', hq', hk⟩ := hp q hq
    refine ⟨q', hq', hk.id, ?_⟩
    rcases hk.validBefore with hv' | hv'
    · rw [hv']; exact hv
    · exact .inr hv'
  | same p q => exact h

/-- The lasting statements an answer gives. -/
inductive Tells : Ev → Lasting → Prop
  | claimed (request : ClaimRequest) (leases : List Lease) (lease : Lease) (hs : ∀ s ∈ request.states, s ∈ waiting)
      (hl : lease ∈ leases) :
      Tells ⟨.store (.claimPayments request), .ok leases⟩ (.broadcasted lease.paymentId)
  | loaded (p : Nat) (work : Work) :
      Tells ⟨.store (.loadSettlementWork p), .ok work⟩ (.row work.paymentId work.transactionId)
  | loadedPayment (p : Nat) (work : Work) :
      Tells ⟨.store (.loadSettlementWork p), .ok work⟩ (.same work.paymentId p)
  | ambiguous (p : Nat) (work : Work) (hs : work.transactionStatus = .ambiguous) (hh : work.rawHash ≠ "") :
      Tells ⟨.store (.loadSettlementWork p), .ok work⟩ (.signed work.transactionId work.rawHash)
  | hash (p : Nat) (work : Work) (hh : work.txHash ≠ "") :
      Tells ⟨.store (.loadSettlementWork p), .ok work⟩ (.hashed work.paymentId work.transactionId work.txHash)
  | gap (signer : String) (before : Time) (works : List Work) (work : Work) (hw : work ∈ works) :
      Tells ⟨.store (.listDroppedBlockingGaps signer before), .ok works⟩ (.row work.paymentId work.transactionId)
  | gapRetired (signer : String) (before : Time) (works : List Work) (work : Work) (hw : work ∈ works) :
      Tells ⟨.store (.listDroppedBlockingGaps signer before), .ok works⟩ (.retired work.paymentId)
  | gapDeadline (signer : String) (before : Time) (works : List Work) (work : Work) (hw : work ∈ works) :
      Tells ⟨.store (.listDroppedBlockingGaps signer before), .ok works⟩
        (.deadline work.paymentId work.authorization.validBefore)
  | gapSigner (signer : String) (before : Time) (works : List Work) (work : Work) (hw : work ∈ works) :
      Tells ⟨.store (.listDroppedBlockingGaps signer before), .ok works⟩
        (.signer work.paymentId work.transactionId signer)
  | stuckSigner (signer : String) (stuckFor : Int) (works : List Work) (work : Work) (hw : work ∈ works) :
      Tells ⟨.store (.listStuckGapFillers signer stuckFor), .ok works⟩
        (.signer work.paymentId work.transactionId signer)
  | filler (tracked : List TrackedTransaction) (t : TrackedTransaction) (ht : t ∈ tracked) :
      Tells ⟨.store .listGapFillers, .ok tracked⟩ (.row t.paymentId t.transactionId)
  | fillerRetired (tracked : List TrackedTransaction) (t : TrackedTransaction) (ht : t ∈ tracked) :
      Tells ⟨.store .listGapFillers, .ok tracked⟩ (.retired t.paymentId)
  | signed (t : Nat) (rawHash sighash : String) (n : Nat) (m f : Int) :
      Tells ⟨.store (.markTxSigned t rawHash sighash n m f), .ok ()⟩ (.signed t rawHash)
  | resigned (p t : Nat) (r : Replacement) (a : String) :
      Tells ⟨.store (.markTxAmbiguousReplaced p t r a), .ok ()⟩ (.recorded p r.rawHash)
  | replaced (p t : Nat) (r : Replacement) (a : String) :
      Tells ⟨.store (.markTxReplaced p t r a), .ok ()⟩ (.recorded p r.rawHash)
  | refilled (p t : Nat) (r : Replacement) (raw : Bytes) :
      Tells ⟨.store (.markGapFillerReplaced p t r raw), .ok ()⟩ (.retired p)
  | intent (request : IntentRequest) (intent : Intent) :
      Tells ⟨.store (.createSettlementIntent request), .ok intent⟩
        (.identity intent.paymentId (padTo 68 request.paymentIdentity))
  | intentConfirmed (request : IntentRequest) (intent : Intent) (hc : intent.confirmed = true) :
      Tells ⟨.store (.createSettlementIntent request), .ok intent⟩ (.confirmed intent.paymentId)
  | intentReverted (request : IntentRequest) (intent : Intent) (hr : intent.reverted = true) :
      Tells ⟨.store (.createSettlementIntent request), .ok intent⟩ (.reverted intent.paymentId)
  | confirmed (p t n : Nat) (h : String) (g : Nat) (c : Int) (a : String) :
      Tells ⟨.store (.markTxConfirmed p t n h g c a), .ok ()⟩ (.confirmed p)
  | reverted (p t g : Nat) (c : Int) (a : String) :
      Tells ⟨.store (.markTxReverted p t g c a), .ok ()⟩ (.reverted p)
  | expired (p t : Nat) (a : String) : Tells ⟨.store (.markIntentExpired p t a), .ok ()⟩ (.retired p)
  | unsettleable (p t : Nat) (a : String) : Tells ⟨.store (.markIntentUnsettleable p t a), .ok ()⟩ (.retired p)

/-! ## Answers tell the truth -/

theorem run_ok {α : Type} {m : Txn α} {db db' : DB} {a : α} (h : m.run db = (.ok a, db')) : m db = .ok (a, db') := by
  unfold Txn.run at h
  split at h
  · cases h; assumption
  · cases h

theorem runInner_ok {α : Type} {m : Txn (Except Err α)} {db db' : DB} {a : α} (h : m.runInner db = (.ok a, db')) :
    m db = .ok (.ok a, db') := by
  unfold Txn.runInner at h
  split at h
  · cases h; assumption
  · cases h

theorem eq_some_of_getD {o : Option String} {s : String} (h : s = o.getD "") (hne : s ≠ "") : o = some s := by
  cases o with
  | none => exact absurd h hne
  | some x => rw [h]; rfl

section

variable {hash : Bytes → String} {K : Kind → Prop} {env : DbEnv} {db db' : DB}

/-- What an answer tells stands right after the call. -/
theorem Tells.stands {op : Op} {r : Except Err op.Result} {a : Lasting} (ht : Tells ⟨.store op, r⟩ a)
    (h : op.run env db = (r, db')) (hshape : ∀ q, Shape hash (lifeOf db.tables q))
    (hshape' : ∀ q, Shape hash (lifeOf db'.tables q)) (hm : Moves hash K db db')
    (hp : PaymentsKept db.tables db'.tables) : Stands db' a := by
  cases ht with
  | claimed request leases lease hs hl =>
    refine Stands.move (a := .broadcasted lease.paymentId) ?_ hshape hm hp
    obtain ⟨s, hmem, hst⟩ := claimPayments_ok (run_ok h) lease hl
    refine ⟨s, ?_, hst⟩
    have := hs s hmem
    simp only [waiting, List.mem_cons, List.not_mem_nil, or_false] at this
    rcases this with rfl | rfl | rfl <;> decide
  | loaded p work =>
    obtain ⟨rfl, -, q, r, hb, -⟩ := loadSettlementWork_ok (run_ok h)
    exact ⟨r.row, mem_rowsOf.2 ⟨r, hb.row, hb.owner.trans hb.paymentId.symm, rfl⟩, hb.transactionId.symm⟩
  | loadedPayment p work => exact (loadSettlementWork_ok (run_ok h)).2.1
  | ambiguous p work hs hh =>
    obtain ⟨rfl, -, q, r, hb, -, hstatus, -, hraw, -⟩ := loadSettlementWork_ok (run_ok h)
    have hmem : r.row ∈ rowsOf db'.tables q.id := mem_rowsOf.2 ⟨r, hb.row, hb.owner, rfl⟩
    have hamb : r.row.status = .ambiguous := hstatus.symm.trans hs
    exact ⟨q.id, .inr (.inr ⟨(hshape' q.id).of_ambiguous hmem hamb, r.row, hmem, hamb⟩), r.row, hmem,
      hb.transactionId.symm, eq_some_of_getD hraw hh⟩
  | hash p work hh =>
    obtain ⟨rfl, -, q, r, hb, -, -, htx, -⟩ := loadSettlementWork_ok (run_ok h)
    exact .inr ⟨r.row, mem_rowsOf.2 ⟨r, hb.row, hb.owner.trans hb.paymentId.symm, rfl⟩, hb.transactionId.symm,
      eq_some_of_getD htx hh⟩
  | gap signer before works work hw =>
    obtain ⟨rfl, hall⟩ := listDroppedBlockingGaps_ok (run_ok h)
    obtain ⟨q, r, hb, -, -⟩ := hall work hw
    exact ⟨r.row, mem_rowsOf.2 ⟨r, hb.row, hb.owner.trans hb.paymentId.symm, rfl⟩, hb.transactionId.symm⟩
  | gapRetired signer before works work hw =>
    obtain ⟨rfl, hall⟩ := listDroppedBlockingGaps_ok (run_ok h)
    obtain ⟨q, r, hb, hs, -⟩ := hall work hw
    have hst : stateOf work.paymentId db'.tables = some q.state := by
      rw [hb.paymentId]; exact stateOf_eq_some hb.payment
    exact retired_of_state hst hs
  | gapDeadline signer before works work hw =>
    obtain ⟨rfl, hall⟩ := listDroppedBlockingGaps_ok (run_ok h)
    obtain ⟨q, r, hb, -, -⟩ := hall work hw
    exact ⟨q, hb.payment, hb.paymentId.symm, .inl hb.validBefore⟩
  | gapSigner signer before works work hw =>
    obtain ⟨rfl, hall⟩ := listDroppedBlockingGaps_ok (run_ok h)
    obtain ⟨q, r, hb, -, -, hsigner⟩ := hall work hw
    exact ⟨r.row, mem_rowsOf.2 ⟨r, hb.row, hb.owner.trans hb.paymentId.symm, rfl⟩, hb.transactionId.symm, hsigner⟩
  | stuckSigner signer stuckFor works work hw =>
    obtain ⟨rfl, hall⟩ := listStuckGapFillers_ok (run_ok h)
    obtain ⟨q, r, hb, hsigner⟩ := hall work hw
    exact ⟨r.row, mem_rowsOf.2 ⟨r, hb.row, hb.owner.trans hb.paymentId.symm, rfl⟩, hb.transactionId.symm, hsigner⟩
  | filler tracked t htr =>
    obtain ⟨rfl, hall⟩ := listGapFillers_ok (run_ok h)
    obtain ⟨r, hr, hp, hid, -⟩ := hall t htr
    exact ⟨r.row, mem_rowsOf.2 ⟨r, hr, hp, rfl⟩, hid⟩
  | fillerRetired tracked t htr =>
    obtain ⟨rfl, hall⟩ := listGapFillers_ok (run_ok h)
    obtain ⟨r, hr, hp, hid, -, -, s, hs, hst⟩ := hall t htr
    exact retired_of_state hst hs
  | signed t rawHash sighash n m f =>
    obtain ⟨p, -, r, hr, hid, hh, hs⟩ := markTxSigned_ok (run_ok h)
    exact ⟨p, (hshape' p).signed (oneActive_rowsOf db' p) hr hs, r, hr, hid, hh⟩
  | resigned p t rep ac => exact .inr (markTxAmbiguousReplaced_ok (run_ok h))
  | replaced p t rep ac => exact .inr (markTxReplaced_ok (run_ok h))
  | refilled p t rep raw =>
    obtain ⟨-, r, hr, hraw⟩ := markGapFillerReplaced_ok (run_ok h)
    obtain ⟨k, -, m⟩ := hm p
    exact ((hshape p).of_raw hr hraw).move m (hshape p)
  | intent request i =>
    obtain ⟨signer, -, ho⟩ := createSettlementIntent_outcome (runInner_ok h)
    exact Stands.move (a := .identity i.paymentId _) ho.intent_payment.1 hshape hm hp
  | intentConfirmed request i hc =>
    obtain ⟨signer, -, ho⟩ := createSettlementIntent_outcome (runInner_ok h)
    exact Stands.move (a := .confirmed i.paymentId) (ho.intent_payment.2.1 hc) hshape hm hp
  | intentReverted request i hr =>
    obtain ⟨signer, -, ho⟩ := createSettlementIntent_outcome (runInner_ok h)
    exact Stands.move (a := .reverted i.paymentId) (ho.intent_payment.2.2 hr) hshape hm hp
  | confirmed p t n bh g c ac | reverted p t g c ac => exact finalize_state (run_ok h) (fun _ => rfl) fun _ => rfl
  | expired p t ac => exact .inl (retireIntent_state (run_ok h))
  | unsettleable p t ac => exact .inr (.inl (retireIntent_state (run_ok h)))

end

end Eth402.System
