/-
What admission does to the tables: the possible outcomes of `CreateSettlementIntent`, and the nonce
sequence it takes from.
-/
import Eth402.Store.Refine

namespace Eth402.Store

open Lib Settlement

variable {hash : Bytes → String} {db db' : DB} {env : DbEnv} {request : IntentRequest}

/-- The tables settlement is about are untouched. -/
structure Quiet (db db' : DB) : Prop where
  payments : db'.tables.payments = db.tables.payments
  transactions : db'.tables.transactions = db.tables.transactions
  signerAccounts : db'.tables.signerAccounts = db.tables.signerAccounts
  transitions : db'.tables.transitions = db.tables.transitions
  merchants : db'.tables.merchants = db.tables.merchants

theorem Quiet.moves (h : Quiet db db') : Moves hash Plain db db' :=
  moves_of_eq (lifeOf_congr h.payments h.transactions)

/-- One attempt row with this result is in, and nothing else changed. -/
structure Attempted (result : AttemptResult) (db db' : DB) : Prop extends Quiet db db' where
  attempt : ∃ a : SettlementAttempt, a.result = result ∧
    db'.tables = { db.tables with settlementAttempts := db.tables.settlementAttempts ++ [a] }

theorem insertSettlementAttempt_ok {r : SettlementAttempt} {u : Unit}
    (h : insertSettlementAttempt r db = .ok (u, db')) : Attempted r.result db db' := by
  have := Txn.write_ok h
  exact ⟨⟨by rw [this], by rw [this], by rw [this], by rw [this], by rw [this]⟩, r, rfl, this⟩

variable {r : Except Err Intent}

theorem rejectSettlement_ok {p : Option Nat} {identity reason : String} {cause : Err}
    (h : rejectSettlement p identity reason cause db = .ok (r, db')) :
    r = .error cause ∧ Attempted .rejected db db' := by
  obtain ⟨_, db₁, hi, hrest⟩ := Txn.bind_ok h
  cases Txn.pure_ok hrest
  exact ⟨rfl, insertSettlementAttempt_ok hi⟩

/-- The intent a duplicate request is answered with. -/
def duplicateOf (p : Payment) (request : IntentRequest) (r : Transaction) (txHash : String) (terminal : Bool) :
    Intent where
  paymentId := p.id
  paymentIdentity := request.paymentIdentity
  transactionId := r.id
  signerAddress := r.signerAddress
  nonce := r.transactionNonce
  txHash := txHash
  reverted := terminal && p.state = .reverted
  confirmed := terminal && p.state = .confirmed
  duplicate := true

theorem parseNonce_ok {n m : Nat} (h : parseNonce n = .ok m) : m = n := by
  unfold parseNonce at h
  split at h <;> cases h
  rfl

variable {p : Payment}

theorem duplicateIntent_ok {tx : Transaction} {txHash : String} {terminal : Bool}
    (h : duplicateIntent p request tx txHash terminal db = .ok (r, db')) :
    r = .ok (duplicateOf p request tx txHash terminal) ∧ Attempted .duplicate db db' := by
  obtain ⟨nonce, db₁, hl, hrest⟩ := Txn.bind_ok h
  obtain ⟨hn, rfl⟩ := Txn.lift_ok hl
  obtain ⟨_, db₂, hi, hrest⟩ := Txn.bind_ok hrest
  cases Txn.pure_ok hrest
  cases parseNonce_ok hn
  exact ⟨rfl, insertSettlementAttempt_ok hi⟩

/-- The status a terminal row of the payment has. -/
def terminalStatus (p : Payment) : TxStatus := if p.state = .confirmed then .confirmed else .reverted

theorem terminalRow_eq (env : DbEnv) (p : Payment) (t : Tables) : terminalRow env p t =
    if p.state ∈ [.confirmed, .reverted] then
      (((env.arrange (·.1.id) (t.transactions.filterMap fun r =>
        if r.paymentId = p.id ∧ r.status = terminalStatus p then r.txHash.map (r, ·) else none)).insertionSort
          fun a b => b.1.updatedAt ≤ a.1.updatedAt).head?)
    else none := rfl

variable {t : Tables}

theorem terminalRow_mem {tx : Transaction} {txHash : String} (h : terminalRow env p t = some (tx, txHash)) :
    tx ∈ t.transactions ∧ tx.paymentId = p.id ∧ tx.status = terminalStatus p ∧ tx.txHash = some txHash := by
  rw [terminalRow_eq] at h
  split at h
  · have hmem := List.mem_of_mem_head? h
    rw [List.mem_insertionSort, DbEnv.mem_arrange, List.mem_filterMap] at hmem
    obtain ⟨r, hr, hpick⟩ := hmem
    split at hpick
    · rename_i hcond
      obtain ⟨x, hx, heq⟩ := Option.map_eq_some_iff.1 hpick
      cases heq
      exact ⟨hr, hcond.1, hcond.2, hx⟩
    · cases hpick
  · cases h

theorem terminalRow_ne_none {tx : Transaction} {txHash : String}
    (hs : p.state ∈ [.confirmed, .reverted]) (htx : tx ∈ t.transactions) (hp : tx.paymentId = p.id)
    (hst : tx.status = terminalStatus p) (hh : tx.txHash = some txHash) : terminalRow env p t ≠ none := by
  rw [terminalRow_eq, if_pos hs, ne_eq, List.head?_eq_none_iff]
  intro hnil
  have hmem : (tx, txHash) ∈ t.transactions.filterMap fun r =>
      if r.paymentId = p.id ∧ r.status = terminalStatus p then r.txHash.map (r, ·) else none :=
    List.mem_filterMap.2 ⟨tx, htx, by rw [if_pos ⟨hp, hst⟩, hh]; rfl⟩
  rw [← env.mem_arrange (·.1.id), ← List.mem_insertionSort (r := fun a b => b.1.updatedAt ≤ a.1.updatedAt)] at hmem
  rw [hnil] at hmem
  cases hmem

theorem normalizeAddress_idem {a s : String} (h : normalizeAddress a = .ok s) : normalizeAddress s = .ok s := by
  unfold normalizeAddress at h
  split at h
  · cases h
  rename_i hform
  split at h
  · cases h
  rename_i hhex
  split at h
  · cases h
  rename_i hzero
  cases h
  simp only [not_or, Decidable.not_not] at hform
  have hdrop : (chars (lower a)).drop 2 = ((chars a).drop 2).map Char.toLower := by simp [lower]
  unfold normalizeAddress
  rw [if_neg (by rw [utf8ByteSize_lower, hform.1, hasPrefix_lower (by decide) hform.2]; decide),
    if_neg (by rw [hdrop, hexDecode_map_toLower]; exact hhex),
    if_neg (by unfold equalFold at *; rw [lower_lower]; exact hzero), lower_lower]

/-! ## The commit -/

/-- The payment `p` was admitted: it took the next nonce of the signer, and its intent row is in. -/
structure Committed (env : DbEnv) (request : IntentRequest) (signer : String) (p : Payment) (nonce : Nat)
    (db db' : DB) : Prop where
  next : db.tables.nextNonce signer = some nonce
  signerAccounts : db'.tables.signerAccounts = (db.tables.setNonce signer (nonce + 1)).signerAccounts
  transactions : db'.tables.transactions = db.tables.transactions ++ [intentRow env p.id signer nonce]
  moved : Moved db.tables { db.tables with payments := db'.tables.payments } p.id p.state .broadcasting
  payments : db'.tables.payments = (db.tables.updatePayments (fun q => q.id = p.id ∧ q.state = p.state)
    fun q => { q with
      state := .broadcasting, settlementRequestedAt := some env.now
      payerSignature := some request.payerSignature, updatedAt := env.now }).payments
  transitions : db'.tables.transitions = db.tables.transitions ++ [⟨p.id, p.state, .broadcasting, none, "http"⟩]
  merchants : db'.tables.merchants = db.tables.merchants

theorem allocateNonce_ok {signer : String} {nonce : Nat} (hsigner : normalizeAddress signer = .ok signer)
    (h : allocateNonce signer db = .ok (nonce, db')) :
    db.tables.nextNonce signer = some nonce ∧ db'.tables = db.tables.setNonce signer (nonce + 1) := by
  obtain ⟨address, db₁, hl, hrest⟩ := Txn.bind_ok h
  obtain ⟨ha, rfl⟩ := Txn.lift_ok hl
  rw [hsigner] at ha
  cases ha
  obtain ⟨stored, db₂, hr, hrest⟩ := Txn.bind_ok hrest
  obtain ⟨hstored, rfl⟩ := Prod.mk.inj (Txn.read_ok hr)
  cases stored with
  | none => exact (Txn.fail_ok hrest).elim
  | some next =>
    obtain ⟨_, db₃, hw, hrest⟩ := Txn.bind_ok hrest
    obtain ⟨hn, rfl⟩ := Txn.lift_ok hrest
    cases parseNonce_ok hn
    exact ⟨hstored, Txn.write_ok hw⟩

theorem commitIntent_ok {signer : String}
    (hsigner : normalizeAddress signer = .ok signer) (h : commitIntent env request signer p db = .ok (r, db')) :
    ∃ nonce, Committed env request signer p nonce db db' ∧
      r = .ok ⟨p.id, request.paymentIdentity, env.freshId, signer, nonce, "", false, false, false⟩ := by
  obtain ⟨nonce, db₁, ha, hrest⟩ := Txn.bind_ok h
  obtain ⟨hnext, ht₁⟩ := allocateNonce_ok hsigner ha
  obtain ⟨n, db₂, hu, hrest⟩ := Txn.bind_ok hrest
  obtain ⟨hn, ht₂⟩ := updatePayments_ok hu
  split at hrest
  · obtain ⟨_, _, hf, -⟩ := Txn.bind_ok hrest
    exact (Txn.fail_ok hf).elim
  rename_i hone
  obtain ⟨_, db₃, hi, hrest⟩ := Txn.bind_ok hrest
  have ht₃ := Txn.write_ok hi
  obtain ⟨_, db₄, hi, hrest⟩ := Txn.bind_ok hrest
  have ht₄ := Txn.write_ok hi
  obtain ⟨_, db₅, hi, hrest⟩ := Txn.bind_ok hrest
  have hq := insertSettlementAttempt_ok hi
  cases Txn.pure_ok hrest
  have hp : db'.tables.payments = db₂.tables.payments := by rw [hq.payments, ht₄, ht₃]
  have hp₁ : db₁.tables.payments = db.tables.payments := by rw [ht₁]; rfl
  refine ⟨nonce, ⟨hnext, ?_, ?_, ?_, ?_, ?_, ?_⟩, rfl⟩
  · rw [hq.signerAccounts, ht₄, ht₃, ht₂, ← ht₁]; rfl
  · rw [hq.transactions, ht₄, ht₃, ht₂, ht₁]; rfl
  · simp only [Bool.decide_and] at ht₂ hn
    have hpay : db₂.tables.payments = (db.tables.updatePayments
        (fun q => decide (q.id = p.id) && decide (q.state = p.state)) fun q => { q with
          state := .broadcasting, settlementRequestedAt := some env.now
          payerSignature := some request.payerSignature, updatedAt := env.now }).payments := by
      rw [ht₂]; unfold Tables.updatePayments; rw [hp₁]
    have hc : db.tables.payments.countP (fun q => decide (q.id = p.id) && decide (q.state = p.state)) = 1 := by
      rw [← hp₁, ← hn]; simpa using hone
    obtain ⟨q, -, -, hs, hm⟩ := moved_update (v := { db.tables with payments := db'.tables.payments })
      (hp.trans hpay) rfl (fun _ => rfl) (fun _ => rfl) hc
    rwa [of_decide_eq_true hs] at hm
  · rw [hp, ht₂]; unfold Tables.updatePayments; rw [hp₁]
  · rw [hq.transitions, ht₄, ht₃, ht₂, ht₁]; rfl
  · rw [hq.merchants, ht₄, ht₃, ht₂, ht₁]; rfl

/-! ## The outcomes of a request -/

/-- The payment a settlement request is about. -/
def Tables.requested (request : IntentRequest) (t : Tables) : Option Payment :=
  t.payments.find? fun p => p.paymentIdentity = padTo 68 request.paymentIdentity

theorem requested_some {request : IntentRequest} (h : t.requested request = some p) :
    p ∈ t.payments ∧ p.paymentIdentity = padTo 68 request.paymentIdentity :=
  ⟨List.mem_of_find?_eq_some h, by simpa using List.find?_some h⟩

def Tables.activeRow (p : Payment) (t : Tables) : Option Transaction :=
  t.transactions.find? fun r => r.paymentId = p.id ∧ r.active

/-- What `CreateSettlementIntent` answers, and what it leaves. -/
inductive Outcome (env : DbEnv) (request : IntentRequest) (signer : String) (db db' : DB) : Except Err Intent → Prop
  | unknown (hp : db.tables.requested request = none) (hq : Attempted .rejected db db') :
      Outcome env request signer db db' (.error (.sentinel .paymentNotFound))
  | terminal (p : Payment) (tx : Transaction) (txHash : String) (hp : db.tables.requested request = some p)
      (ht : terminalRow env p db.tables = some (tx, txHash)) (hq : Attempted .duplicate db db') :
      Outcome env request signer db db' (.ok (duplicateOf p request tx txHash true))
  | duplicate (p : Payment) (tx : Transaction) (hp : db.tables.requested request = some p)
      (ht : terminalRow env p db.tables = none) (ha : db.tables.activeRow p = some tx)
      (hq : Attempted .duplicate db db') :
      Outcome env request signer db db' (.ok (duplicateOf p request tx (tx.txHash.getD "") false))
  | refused (p : Payment) (reason : String) (cause : Err) (hp : db.tables.requested request = some p)
      (ht : terminalRow env p db.tables = none) (ha : db.tables.activeRow p = none)
      (hr : refusal env request p db.tables = some (reason, cause)) (hq : Attempted .rejected db db') :
      Outcome env request signer db db' (.error cause)
  | committed (p : Payment) (nonce : Nat) (hp : db.tables.requested request = some p)
      (ht : terminalRow env p db.tables = none) (ha : db.tables.activeRow p = none)
      (hr : refusal env request p db.tables = none) (hc : Committed env request signer p nonce db db') :
      Outcome env request signer db db'
        (.ok ⟨p.id, request.paymentIdentity, env.freshId, signer, nonce, "", false, false, false⟩)

theorem admitPayment_outcome {signer : String}
    (hsigner : normalizeAddress signer = .ok signer) (hp : db.tables.requested request = some p)
    (h : admitPayment env request signer p db = .ok (r, db')) : Outcome env request signer db db' r := by
  obtain ⟨terminal, db₁, hr, hrest⟩ := Txn.bind_ok h
  obtain ⟨hterm, rfl⟩ := Prod.mk.inj (Txn.read_ok hr)
  cases terminal with
  | some found =>
    obtain ⟨tx, txHash⟩ := found
    obtain ⟨rfl, hq⟩ := duplicateIntent_ok hrest
    exact .terminal p tx txHash hp hterm hq
  | none =>
    obtain ⟨existing, db₂, hr, hrest⟩ := Txn.bind_ok hrest
    obtain ⟨hex, rfl⟩ := Prod.mk.inj (Txn.read_ok hr)
    cases existing with
    | some tx =>
      obtain ⟨rfl, hq⟩ := duplicateIntent_ok hrest
      exact .duplicate p tx hp hterm hex hq
    | none =>
      obtain ⟨refused, db₃, hr, hrest⟩ := Txn.bind_ok hrest
      obtain ⟨href, rfl⟩ := Prod.mk.inj (Txn.read_ok hr)
      cases refused with
      | some found =>
        obtain ⟨reason, cause⟩ := found
        obtain ⟨rfl, hq⟩ := rejectSettlement_ok hrest
        exact .refused p reason cause hp hterm hex href hq
      | none =>
        simp only at hrest
        split at hrest
        · exact (Txn.fail_ok hrest).elim
        · obtain ⟨nonce, hc, rfl⟩ := commitIntent_ok hsigner hrest
          exact .committed p nonce hp hterm hex href hc

theorem createSettlementIntent_outcome (h : createSettlementIntent env request db = .ok (r, db')) :
    ∃ signer, normalizeAddress request.signerAddress = .ok signer ∧ Outcome env request signer db db' r := by
  unfold createSettlementIntent at h
  cases hv : request.validate with
  | some e =>
    rw [hv] at h
    exact (Txn.fail_ok h).elim
  | none =>
    rw [hv] at h
    obtain ⟨signer, db₁, hl, hrest⟩ := Txn.bind_ok h
    obtain ⟨hs, rfl⟩ := Txn.lift_ok hl
    have hs' : normalizeAddress request.signerAddress = .ok signer := by
      cases hn : normalizeAddress request.signerAddress with
      | ok a => rw [hn] at hs; exact hs
      | error e => rw [hn] at hs; cases hs
    obtain ⟨payment, db₂, hr, hrest⟩ := Txn.bind_ok hrest
    obtain ⟨hp, rfl⟩ := Prod.mk.inj (Txn.read_ok hr)
    refine ⟨signer, hs', ?_⟩
    cases payment with
    | none =>
      obtain ⟨rfl, hq⟩ := rejectSettlement_ok hrest
      exact .unknown hp hq
    | some p => exact admitPayment_outcome (normalizeAddress_idem hs') hp hrest

theorem verified_of_not_refused (h : refusal env request p t = none) :
    p.state = .verified ∧ p.validBefore.any (· > request.now + request.expiryMargin) = true := by
  unfold refusal at h
  simp only at h
  split at h
  · cases h
  rename_i hcan
  split at h
  · cases h
  split at h
  · cases h
  rename_i hvalid
  exact ⟨(canTransition_broadcasting _).1 (by simpa using hcan), by simpa using hvalid⟩

/-- A payment is refused for its deadline only while it is verified. -/
theorem verified_of_expiring {reason : String} {cause : Err}
    (h : refusal env request p t = some (reason, cause)) (hc : cause.is .authorizationExpiring = true) :
    p.state = .verified := by
  unfold refusal at h
  simp only at h
  split at h
  · cases h
    cases hc
  · rename_i hcan
    exact (canTransition_broadcasting _).1 (by simpa using hcan)

theorem Outcome.moves {signer : String} (h : Outcome env request signer db db' r) : Moves hash Plain db db' := by
  cases h with
  | unknown _ hq | terminal _ _ _ _ _ hq | duplicate _ _ _ _ _ hq | refused _ _ _ _ _ _ _ hq => exact hq.moves
  | committed p nonce hp ht ha hr hc =>
    have hst : ∀ q, stateOf q db'.tables = if q = p.id then some .broadcasting else stateOf q db.tables :=
      hc.moved.state
    have hrows : ∀ q, rowsOf db'.tables q = if p.id = q then rowsOf db.tables
      q ++ [(intentRow env p.id signer nonce).row]
        else rowsOf db.tables q := fun q => by
      have hins := rowsOf_insert db.tables (intentRow env p.id signer nonce) q
      unfold rowsOf at hins ⊢
      rw [hc.transactions]
      exact hins
    have hbefore : stateOf p.id db.tables = some .verified := (verified_of_not_refused hr).1 ▸ hc.moved.before
    refine moves_at_plain (p := p.id) (fun q hq => ?_) ?_
    · unfold lifeOf; rw [hst, hrows, if_neg hq, if_neg fun h => hq h.symm]
    · unfold lifeOf; rw [hst, hrows, if_pos rfl, if_pos rfl, hbefore]
      exact .commit _ _ rfl ⟨rfl, rfl, rfl⟩

end Eth402.Store
