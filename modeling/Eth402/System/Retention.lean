/-
Retention in a running facilitator. A payment is redacted only when its life has ended: no row of it is active or
watched, and the nonce of a row that was dropped was used on the chain; after that no query of the workers depends on
what the payment was. A gap that was filled leaves the payment to retention as long as no filler of it was dropped.
-/
import Eth402.Store.Redaction
import Eth402.System.Replies
import Eth402.System.Signatures

namespace Eth402.System

open Lib Store Settlement Verification

variable {lib : Libraries} {cfg : Settlement.Config}

/-! ## What is redacted has ended -/

/-- The recovery worker still asks for the row's receipt: as a replaced original, or as a filler. -/
def StillWatched (t : Tables) (r : Transaction) : Prop :=
  (r.status = .replaced ∧ (t.ownerState r).any (· ∈ [.replaced, .confirming, .broadcast]) = true) ∨
    (r.status ∈ [.broadcast, .replaced] ∧ (t.ownerState r).any (· ∈ [.expired, .failed]) = true)

/-- The row was dropped, and no transaction is on record as mined on its nonce. -/
def Unfilled (t : Tables) (r : Transaction) : Prop :=
  r.status = .dropped ∧ ∀ r' ∈ t.transactions, r'.signerAddress = r.signerAddress →
    r'.transactionNonce = r.transactionNonce → r'.status ∉ [.confirmed, .reverted]

/-- Nothing is left to do for any row of the payment. -/
def Done (t : Tables) (q : Nat) : Prop :=
  ∀ r ∈ t.transactions, r.paymentId = q → r.active = false ∧ ¬ StillWatched t r ∧ ¬ Unfilled t r

theorem done_of_ended {t : Tables} {q : Nat} {hash : Bytes → String} (hshape : Shape hash (lifeOf t q))
    (hone : OneNonce (lifeOf t q)) (h : Ended (lifeOf t q)) : Done t q := by
  have hidle := idle_of_ended hshape h
  intro r hr hq
  have hrow : r.row ∈ (lifeOf t q).rows := mem_rowsOf.2 ⟨r, hr, hq, rfl⟩
  refine ⟨hidle.inactive r hr hq, ?_, ?_⟩
  · rintro (⟨-, hw⟩ | ⟨hst, hdead⟩)
    · rw [hidle.unwatched r hr hq] at hw
      cases hw
    · rw [hidle.reverted r hr hq hdead] at hst
      simp at hst
  · rintro ⟨-, hnone⟩
    obtain ⟨-, ⟨x, hx, hmined⟩, -⟩ := h.rows hshape hrow
    obtain ⟨hs, hn⟩ := hone x hx _ hrow
    obtain ⟨r', hr', -, rfl⟩ := mem_rowsOf.1 hx
    exact hnone r' hr' hs hn hmined

/-- A payment that is not on record has no rows. -/
theorem oneNonce_of_recorded {l : Life} {hash : Bytes → String} (hshape : Shape hash l)
    (h : l.state ≠ none → OneNonce l) :
    OneNonce l := by
  obtain ⟨state, rows⟩ := l
  cases state with
  | none =>
    have hnil : rows = [] := hshape
    intro a ha
    rw [hnil] at ha
    cases ha
  | some s => exact h (by simp)

theorem reach_oneNonce (run : Run lib cfg) (q : Nat) : OneNonce (lifeOf (reach lib cfg run).shared.db.tables q) := by
  refine oneNonce_of_recorded ((reach_inv run).shape q) ?_
  refine run_lives (P := fun _ _ _ _ _ => True) (K := fun _ => True) (L := fun l => l.state ≠ none → OneNonce l)
    ?_ ?_ ?_ run ?_ q
  · exact fun _ h => absurd rfl h
  · exact fun _ _ _ _ m _ hshape h _ => (oneNonce_of_recorded hshape h).move m hshape
  · exact fun _ _ _ _ _ _ _ _ => trivial
  · exact along_of_forall (fun _ _ _ _ _ _ _ _ _ => trivial) _ _

theorem perform_redacted (s : Shared) (env : StepEnv) (c : Call) {q : Nat}
    (h : (perform s env c).2.db.tables.Redacted q) : s.db.tables.Redacted q ∨ Ended (lifeOf s.db.tables q) := by
  cases c with
  | store op =>
    change (runStore env op s.db).2.tables.Redacted q at h
    rcases runStore_db env op s.db with hdb | hdb
    · rw [hdb] at h
      exact .inl h
    · rw [hdb] at h
      exact run_redacted env.db op s.db h
  | _ => exact .inl h

theorem reach_redacted (run : Run lib cfg) {q : Nat} (h : (reach lib cfg run).shared.db.tables.Redacted q) :
    Ended (lifeOf (reach lib cfg run).shared.db.tables q) := by
  refine (run_inv (P := fun _ _ _ _ _ => True)
    (X := fun s _ => ∀ q, s.db.tables.Redacted q → Ended (lifeOf s.db.tables q)) ?_ ?_ ?_ run ?_).2 q h
  · rintro q ⟨p, hp, -⟩
    cases hp
  · intro s log pid env c e hi hx hj _ q hq
    have hended : Ended (lifeOf s.db.tables q) := (perform_redacted s env c hq).elim (hx q) fun h => h
    obtain ⟨k, -, m⟩ := hi.moves hj env q
    exact hended.move m
  · intro s log m hi hx q hq
    obtain ⟨hpay, htx, -⟩ := outside_lives s m
    rw [lifeOf_congr hpay htx]
    exact hx q (Spares.of_eq hpay q hq)
  · exact along_of_forall (fun _ _ _ _ _ _ _ _ _ => trivial) _ _

theorem step_redacted (run : Run lib cfg) (ch : Choice (facilitator lib cfg)) {q : Nat}
    (h : (reach lib cfg (run ++ [ch])).shared.db.tables.Redacted q) :
    Ended (lifeOf (reach lib cfg run).shared.db.tables q) := by
  have hnow := fun hq => reach_redacted run (q := q) hq
  rw [reach_append] at h
  refine (kept_reach run).step_inv (I := fun (s : Shared) _ => s.db.tables.Redacted q →
    Ended (lifeOf (reach lib cfg run).shared.db.tables q)) ch ?_ ?_ hnow h
  · intro pid env c e k _ _ _ _ hq
    exact (perform_redacted _ env c hq).elim hnow fun h => h
  · intro m _ hq
    obtain ⟨hpay, -, -⟩ := outside_lives (reach lib cfg run).shared m
    exact hnow (Spares.of_eq hpay q hq)

/-- In every run: a step redacts a payment only when nothing is left to do for its rows, and from then on, whatever had
stood in the erased columns of the payment and its rows, every query by which the workers load work answers the same. -/
theorem redacted_when_done (run : Run lib cfg) :
    (∀ ch q, ¬ (reach lib cfg run).shared.db.tables.Redacted q →
      (reach lib cfg (run ++ [ch])).shared.db.tables.Redacted q → Done (reach lib cfg run).shared.db.tables q) ∧
    ∀ more q, (reach lib cfg run).shared.db.tables.Redacted q → ∀ (op : Op) (env : DbEnv) (e : Erased)
      (raw : Nat → Option Bytes) (db : DB), op.loads = true →
        db.tables = (reach lib cfg (run ++ more)).shared.db.tables.restore q e raw →
          (op.run env db).1 = (op.run env (reach lib cfg (run ++ more)).shared.db).1 := by
  constructor
  · intro ch q _ hq
    exact done_of_ended ((reach_inv run).shape q) (reach_oneNonce run q) (step_redacted run ch hq)
  · intro more q hq op env e raw db hop hdb
    have hended := lives_later (L := Ended) (fun _ _ _ m _ _ h => h.move m) (reach_redacted run hq) more
    exact loads_restored hop (idle_of_ended ((reach_inv (run ++ more)).shape q) hended) hdb

/-- A retention pass over the confirmed sample payment, ready to be made. -/
def samplePurge : Run sampleLib sampleConfig :=
  sampleConfirmed ++ [tick 1001015, enter (.retention ⟨1001015, 1000, 1, 1, 5⟩)]

def sampleErases : Choice (facilitator sampleLib sampleConfig) := .run 5 (calm 40).env

/-- What stood in the columns the pass erased. -/
def sampleErased : Erased where
  merchantId := some 1
  payerAddress := some samplePayer
  recipientAddress := some sampleMerchant
  authorizationNonce := some (hexText 64 'a')
  validAfter := some 0
  validBefore := some 1000000
  payloadHash := none
  payerSignature := some (hexText 130 'a')
  claimedBy := none
  claimedUntil := none
  redactedAt := none

/-- The tables some time after the pass, had it erased nothing of the payment. -/
def sampleRestored : Tables :=
  (reach sampleLib sampleConfig (samplePurge ++ [sampleErases] ++ [tick 1001016])).shared.db.tables.restore 10
    sampleErased fun _ => some [3, 7]

theorem samplePurged_run : ¬ (reach sampleLib sampleConfig samplePurge).shared.db.tables.Redacted 10 ∧
    (reach sampleLib sampleConfig (samplePurge ++ [sampleErases])).shared.db.tables.Redacted 10 ∧
    sampleRestored.violation = none ∧
      ¬ sampleRestored.Redacted 10 := by
  decide +kernel

/-- The confirmed payment is redacted when it is done, and no load can tell what was erased. -/
theorem redacted_when_done_sample : Done (reach sampleLib sampleConfig samplePurge).shared.db.tables 10 ∧
    ∃ db : DB, db.tables = sampleRestored ∧ ¬ db.tables.Redacted 10 ∧ ∀ env : DbEnv,
      ((Op.loadSettlementWork 10).run env db).1 = ((Op.loadSettlementWork 10).run env
        (reach sampleLib sampleConfig (samplePurge ++ [sampleErases] ++ [tick 1001016])).shared.db).1 := by
  obtain ⟨hbefore, hafter, hvalid, hother⟩ := samplePurged_run
  have hdone := (redacted_when_done samplePurge).1 sampleErases 10 hbefore hafter
  have hloads := (redacted_when_done (samplePurge ++ [sampleErases])).2 [tick 1001016] 10 hafter
    (.loadSettlementWork 10)
  generalize hrestored : sampleRestored = t at hvalid hother ⊢
  refine ⟨hdone, ⟨t, hvalid⟩, rfl, hother, fun env => hloads env sampleErased (fun _ => some [3, 7]) ⟨t, hvalid⟩ rfl ?_⟩
  exact hrestored.symm

/-! ## A gap that was filled -/

/-- The retention period is over since the payment was last written and since its authorization ended. -/
structure Elapsed (cutoff : Time) (p : Payment) : Prop where
  validBefore : p.validBefore.any (· < cutoff) = true
  updatedAt : p.updatedAt < cutoff

/-- A filler of the retired payment's nonce is on record as reverted, and no other row is on its way. -/
structure Resolved (t : Tables) (p : Payment) : Prop where
  retired : p.state = .expired ∨ p.state = .failed
  reverted : ∃ r ∈ t.transactions, r.paymentId = p.id ∧ r.status = .reverted
  settled : ∀ r ∈ t.transactions, r.paymentId = p.id → r.active = false ∧ r.status ≠ .replaced

theorem not_redacted {db : DB} {p : Payment} (hp : p ∈ db.tables.payments) (h : p.validBefore ≠ none) :
    p.redactedAt = none := by
  obtain ⟨-, -, -, -, -, -, -, -, -, hc⟩ := of_decide_eq_true (db.wf.payments p hp)
  unfold Payment.redactionComplete at hc
  rcases of_decide_eq_true hc with hnone | ⟨-, -, -, -, -, hv, -⟩
  · simpa using hnone
  · exact absurd (by simpa using hv) h

theorem dead_of_state {db : DB} {p : Payment} (hp : p ∈ db.tables.payments)
    (h : p.state = .expired ∨ p.state = .failed) :
    (lifeOf db.tables p.id).state = some .expired ∨ (lifeOf db.tables p.id).state = some .failed := by
  have hst : (lifeOf db.tables p.id).state = some p.state := stateOf_eq_some hp
  rw [hst]
  exact h.imp (congrArg some) (congrArg some)

/-- What is neither on its way nor dropped has reverted. -/
theorem Resolved.status {db : DB} {p : Payment} {hash : Bytes → String} (h : Resolved db.tables p)
    (hp : p ∈ db.tables.payments) (hshape : Shape hash (lifeOf db.tables p.id)) {r : Transaction}
    (hr : r ∈ db.tables.transactions) (hq : r.paymentId = p.id) : r.status = .dropped ∨ r.status = .reverted := by
  have hret : Retired (lifeOf db.tables p.id) := (dead_of_state hp h.retired).imp_right .inl
  have hst : r.status ∈ [.dropped, .broadcast, .replaced, .reverted, .confirming] :=
    (hshape.retired hret r.row (mem_rowsOf.2 ⟨r, hr, hq, rfl⟩)).1
  obtain ⟨hidle, hne⟩ := h.settled r hr hq
  unfold Transaction.active at hidle
  simp only [List.mem_cons, List.not_mem_nil, or_false] at hst
  rcases hst with h | h | h | h | h
  · exact .inl h
  · rw [h] at hidle; cases hidle
  · exact absurd h hne
  · exact .inr h
  · rw [h] at hidle; cases hidle

/-- In every state reached: a payment whose gap was resolved meets the condition of a retention pass, once its time has
elapsed, exactly when no filler of it was dropped; and a pass that has room for it and finds it unlocked then forgets
it. -/
theorem resolved_gap_redactable_iff (run : Run lib cfg) (p : Payment)
    (hp : p ∈ (reach lib cfg run).shared.db.tables.payments)
    (hres : Resolved (reach lib cfg run).shared.db.tables p) (cutoff : Time) (hel : Elapsed cutoff p) :
    (redactable cutoff (reach lib cfg run).shared.db.tables p = true ↔
      ∀ r ∈ (reach lib cfg run).shared.db.tables.transactions, r.paymentId = p.id → r.status ≠ .dropped) ∧
    (redactable cutoff (reach lib cfg run).shared.db.tables p = true →
    ∀ (env : DbEnv) (request : RetentionRequest) result
      (db : DB), request.now - request.paymentAfter = cutoff → env.locked p.id = false →
        (reach lib cfg run).shared.db.tables.payments.length ≤ request.batchSize.toNat →
          applyRetention env request (reach lib cfg run).shared.db = .ok (result, db) → Forgotten db.tables p.id) := by
  have hshape := (reach_inv run).shape p.id
  refine ⟨⟨fun h r hr hq hdropped => ?_, fun hdropped => ?_⟩, ?_⟩
  · have hrow : r.row ∈ (lifeOf (reach lib cfg run).shared.db.tables p.id).rows := mem_rowsOf.2 ⟨r, hr, hq, rfl⟩
    have hrev : r.status = .reverted := ((ended_of_redactable hp h).rows hshape hrow).2.2
      (dead_of_state hp hres.retired)
    rw [hdropped] at hrev
    cases hrev
  · have hvalid : p.validBefore ≠ none := by
      intro hnone
      have := hel.validBefore
      rw [hnone] at this
      cases this
    have hlast : p.confirmedAt.getD p.updatedAt < cutoff := by
      rw [confirmedAt_none hp (by rcases hres.retired with h | h <;> simp [h])]
      exact hel.updatedAt
    refine decide_eq_true ⟨?_, ?_, hel.validBefore, hlast, .inr ?_⟩
    · rw [not_redacted hp hvalid]
      rfl
    · rcases hres.retired with h | h <;> simp [h]
    · refine List.all_eq_true.2 fun r hr => decide_eq_true fun hq => ?_
      exact (hres.status hp hshape hr hq).resolve_left (hdropped r hr hq)
  · rintro h env request result db rfl hfree hroom happly
    exact forgotten_of_redactable hp h hfree hroom happly

/-- A payment whose gap is resolved and whose time has elapsed, and whether a pass may redact it. -/
def resolvedWith (t : Tables) (cutoff : Time) (able : Bool) : Prop :=
  ∃ p ∈ t.payments, (p.state = .expired ∨ p.state = .failed) ∧
    (∃ r ∈ t.transactions, r.paymentId = p.id ∧ r.status = .reverted) ∧
    (∀ r ∈ t.transactions, r.paymentId = p.id → r.active = false ∧ r.status ≠ .replaced) ∧
    p.validBefore.any (· < cutoff) = true ∧ p.updatedAt < cutoff ∧ redactable cutoff t p = able

instance (t : Tables) (cutoff : Time) (able : Bool) : Decidable (resolvedWith t cutoff able) := by
  unfold resolvedWith Time
  infer_instance

theorem exists_of_resolvedWith {t : Tables} {cutoff : Time} {able : Bool} (h : resolvedWith t cutoff able) :
    ∃ p ∈ t.payments, Resolved t p ∧ Elapsed cutoff p ∧ redactable cutoff t p = able := by
  obtain ⟨p, hp, hret, hrev, hset, hv, hu, hable⟩ := h
  exact ⟨p, hp, ⟨hret, hrev, hset⟩, ⟨hv, hu⟩, hable⟩

/-- The filler was bumped once and the bump reverted: the first filler is dropped, and the payment is never forgotten.
-/
theorem bumped_filler_not_redactable :
    ∃ p ∈ (reach sampleLib sampleConfig sampleConsumed).shared.db.tables.payments,
      Resolved (reach sampleLib sampleConfig sampleConsumed).shared.db.tables p ∧ Elapsed 1000015 p ∧
        redactable 1000015 (reach sampleLib sampleConfig sampleConsumed).shared.db.tables p = false := by
  have hrun : resolvedWith (reach sampleLib sampleConfig sampleConsumed).shared.db.tables 1000015 false := by
    decide +kernel
  exact exists_of_resolvedWith hrun

/-- The first filler reverted. -/
theorem resolved_gap_redactable_sample :
    ∃ p ∈ (reach sampleLib sampleConfig (sampleReverted 5)).shared.db.tables.payments,
      redactable 1000015 (reach sampleLib sampleConfig (sampleReverted 5)).shared.db.tables p = true ∧
        ∀ r ∈ (reach sampleLib sampleConfig (sampleReverted 5)).shared.db.tables.transactions,
          r.paymentId = p.id → r.status ≠ .dropped := by
  have hrun : resolvedWith (reach sampleLib sampleConfig (sampleReverted 5)).shared.db.tables 1000015 true := by
    decide +kernel
  obtain ⟨p, hp, hres, hel, hable⟩ := exists_of_resolvedWith hrun
  exact ⟨p, hp, hable, (resolved_gap_redactable_iff (sampleReverted 5) p hp hres 1000015 hel).1.1 hable⟩

end Eth402.System
