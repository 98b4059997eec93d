/-
Redaction: what a retention pass erases, and of which payments. A payment is redacted only when its life has ended, and
then no query of the workers reaches it: whatever stood in its erased columns, their answers are the same.
-/
import Eth402.Settlement.Ended
import Eth402.Store.Audit

namespace Eth402.Store

open Lib Settlement Verification

variable {db db' : DB} {env : DbEnv} {t t' : Tables} {q : Nat} {hash : Bytes → String}

/-! ## Who is redacted -/

def Tables.Redacted (t : Tables) (q : Nat) : Prop := ∃ p ∈ t.payments, p.id = q ∧ p.redactedAt.isSome

instance (t : Tables) (q : Nat) : Decidable (t.Redacted q) := by
  unfold Tables.Redacted
  infer_instance

/-- No payment is redacted on the way. -/
def Spares (t t' : Tables) : Prop := ∀ q, t'.Redacted q → t.Redacted q

theorem Spares.of_eq (h : t'.payments = t.payments) : Spares t t' := fun q hq => by
  unfold Tables.Redacted at *
  rwa [h] at hq

theorem Spares.update {w : Payment → Bool} {f : Payment → Payment}
    (hf : ∀ p, w p = true → (f p).id = p.id ∧ (f p).redactedAt = p.redactedAt) (t : Tables) :
    Spares t (t.updatePayments w f) := by
  rintro q ⟨p', hp', rfl, hred⟩
  rcases mem_mapIf.1 hp' with ⟨p, hp, hw, rfl⟩ | ⟨hp, -⟩
  · obtain ⟨hid, hat⟩ := hf p hw
    exact ⟨p, hp, hid.symm, hat ▸ hred⟩
  · exact ⟨p', hp, rfl, hred⟩

theorem spares_calm : Calm Spares where
  refl _ _ h := h
  trans _ _ _ h₁ h₂ q h := h₁ q (h₂ q h)
  advance _ _ hf := .update fun p hw => ⟨(hf p hw).id, (hf p hw).redactedAt⟩
  rows _ _ _ _ := .of_eq rfl
  replace _ _ _ _ _ := .of_eq rfl
  audit _ _ := .of_eq rfl
  attempt _ _ := .of_eq rfl

theorem insertVerified_spares (env : DbEnv) (p : ParsedPayment) : Txn.Keeps Spares (insertVerified env p) := by
  intro db n db' h
  cases insertVerified_ok h with
  | known _ _ _ hdb =>
    subst hdb
    exact .of_eq rfl
  | inserted merchant amount _ _ _ _ ht =>
    rw [ht]
    rintro q ⟨r, hr, rfl, hred⟩
    rcases List.mem_append.1 hr with hr | hr
    · exact ⟨r, hr, rfl, hred⟩
    · rw [List.mem_singleton.1 hr] at hred
      cases hred

theorem spares_units : Units Spares := spares_calm.units insertVerified_spares

theorem spares_leaseBlind : LeaseBlind Spares where
  refl := spares_calm.refl
  trans := spares_calm.trans
  lease _ _ hf := .update fun p _ => ⟨(hf p).id, (hf p).redactedAt⟩

theorem createSettlementIntent_spares (request : IntentRequest) :
    Txn.Keeps Spares (createSettlementIntent env request) := by
  refine .createSettlementIntent (fun _ _ hq => .of_eq hq.payments) fun db _ _ _ _ _ hc => ?_
  refine spares_calm.trans _ _ _ ?_ (.of_eq hc.payments)
  refine .update ?_ _
  exact fun _ _ => ⟨rfl, rfl⟩

variable {p : Payment}

theorem confirmedAt_none (hp : p ∈ db.tables.payments) (hs : p.state ≠ .confirmed) : p.confirmedAt = none := by
  obtain ⟨-, -, -, -, -, -, hc, -⟩ := of_decide_eq_true (db.wf.payments p hp)
  simpa using hc.resolve_right hs

variable {request : RetentionRequest}

theorem RetentionRequest.paymentAfter_pos (h : request.validate = none) : 0 < request.paymentAfter := by
  unfold RetentionRequest.validate at h
  split at h
  · cases h
  split at h
  · cases h
  omega

/-- A payment that this very pass expires is too fresh to be redacted. -/
theorem redactable_of_expire {mid : DB} {ids : List Nat} (hv : request.validate = none)
    (hmid : mid.tables = db.tables.expire request.now ids) (hp : p ∈ mid.tables.payments)
    (h : redactable (request.now - request.paymentAfter) mid.tables p = true) :
    p ∈ db.tables.payments ∧ redactable (request.now - request.paymentAfter) db.tables p = true := by
  have hafter := request.paymentAfter_pos hv
  have htx : mid.tables.transactions = db.tables.transactions := by rw [hmid]; rfl
  have hp' := hp
  rw [hmid] at hp'
  obtain ⟨p₀, hp₀, heq⟩ := List.mem_map.1 hp'
  split at heq
  · exfalso
    subst heq
    have hnone := confirmedAt_none hp (by simp)
    obtain ⟨-, -, -, hlast, -⟩ := of_decide_eq_true h
    rw [hnone] at hlast
    simp only [Option.getD_none] at hlast
    unfold Time at *
    omega
  · subst heq
    refine ⟨hp₀, ?_⟩
    unfold redactable at h ⊢
    rwa [htx] at h

/-- Who is redacted was redacted before, or meets the condition of the pass. -/
theorem redacted_of_retention {r : Nat × Nat}
    (h : applyRetention env request db = .ok (r, db')) (hq : db'.tables.Redacted q) :
    db.tables.Redacted q ∨ ∃ p ∈ db.tables.payments, p.id = q ∧
      redactable (request.now - request.paymentAfter) db.tables p = true := by
  obtain ⟨hv, ids, mid, hmid, hredact⟩ := applyRetention_steps h
  obtain ⟨p', hp', rfl, hred⟩ := hq
  rw [hredact] at hp'
  obtain ⟨p, hp, rfl⟩ := List.mem_map.1 hp'
  by_cases hc : p.id ∈ redactionCandidates env request mid.tables
  · rw [if_pos hc]
    obtain ⟨hp₀, hable⟩ := redactable_of_expire hv hmid hp (redactable_of_candidate hp hc)
    exact .inr ⟨p, hp₀, rfl, hable⟩
  · rw [if_neg hc] at hred ⊢
    refine .inl (spares_units.expire db request.now ids p.id ?_)
    exact ⟨p, hmid ▸ hp, rfl, hred⟩

/-- The life of a payment that may be redacted has ended. -/
theorem ended_of_redactable {cutoff : Time} (hp : p ∈ db.tables.payments) (h : redactable cutoff db.tables p = true) :
    Ended (lifeOf db.tables p.id) := by
  obtain ⟨-, hstate, -, -, hrows⟩ := of_decide_eq_true h
  have hst : (lifeOf db.tables p.id).state = some p.state := stateOf_eq_some hp
  unfold Ended
  rw [hst]
  have hreverted : (p.state = .expired ∨ p.state = .failed) → ∀ r ∈ rowsOf db.tables p.id, r.status = .reverted := by
    intro hdead x hx
    obtain ⟨r, hr, hrp, rfl⟩ := mem_rowsOf.1 hx
    rcases hrows with hfinal | hall
    · rcases hdead with hd | hd <;> rw [hd] at hfinal <;> simp at hfinal
    · exact of_decide_eq_true (List.all_eq_true.1 hall r hr) hrp
  simp only [List.mem_cons, List.not_mem_nil, or_false] at hstate
  rcases hstate with h | h | h | h | h
  · exact .inl (by rw [h])
  · exact .inr (.inl (by rw [h]))
  · exact .inr (.inr (.inr ⟨.inr (by rw [h]), hreverted (.inr h)⟩))
  · exact .inr (.inr (.inr ⟨.inl (by rw [h]), hreverted (.inl h)⟩))
  · exact .inr (.inr (.inl (by rw [h])))

theorem run_redacted (env : DbEnv) (op : Op) (db : DB) (hq : (op.run env db).2.tables.Redacted q) :
    db.tables.Redacted q ∨ Ended (lifeOf db.tables q) := by
  by_cases hop : ∃ request, op = .applyRetention request
  · obtain ⟨request, rfl⟩ := hop
    change ((applyRetention env request).run db).2.tables.Redacted q at hq
    unfold Txn.run at hq
    split at hq
    · rcases redacted_of_retention ‹_› hq with h | ⟨p, hp, rfl, hable⟩
      · exact .inl h
      · exact .inr (ended_of_redactable hp hable)
    · exact .inl hq
  · refine .inl (run_keeps spares_units spares_leaseBlind op createSettlementIntent_spares ?_ ?_ db q hq)
    · exact fun a n _ _ _ h => .of_eq (seedSignerAccount_quiet h).1
    · exact fun request h => absurd ⟨request, h⟩ hop

/-! ## What is erased -/

/-- Nothing is left of the payer's authorization, nor of the signed bytes. -/
structure Forgotten (t : Tables) (q : Nat) : Prop where
  authorization : ∀ p ∈ t.payments, p.id = q → p.payerSignature = none ∧ p.payerAddress = none ∧
    p.recipientAddress = none ∧ p.authorizationNonce = none ∧ p.payloadHash = none
  bytes : ∀ r ∈ t.transactions, r.paymentId = q → r.rawTransaction = none

theorem forgotten_of_redact {now : Time} {ids : List Nat} (h : q ∈ ids) : Forgotten (t.redact now ids) q := by
  constructor
  · intro p' hp' hq
    obtain ⟨p, hp, rfl⟩ := List.mem_map.1 hp'
    split at hq
    · rw [if_pos ‹_›]
      exact ⟨rfl, rfl, rfl, rfl, rfl⟩
    · exact absurd (hq ▸ h) ‹_›
  · intro r' hr' hq
    obtain ⟨r, hr, rfl⟩ := List.mem_map.1 hr'
    by_cases hsel : r.paymentId ∈ ids ∧ r.rawTransaction.isSome = true
    · rw [if_pos hsel]
    · rw [if_neg hsel] at hq ⊢
      simpa [hq, h] using hsel

/-- A payment that meets the condition is forgotten by a pass that has room for every payment and finds it unlocked. -/
theorem forgotten_of_redactable {r : Nat × Nat} (hp : p ∈ db.tables.payments)
    (hable : redactable (request.now - request.paymentAfter) db.tables p = true) (hfree : env.locked p.id = false)
    (hroom : db.tables.payments.length ≤ request.batchSize.toNat) (h : applyRetention env request db = .ok (r, db')) :
    Forgotten db'.tables p.id := by
  obtain ⟨-, ids, mid, hmid, hredact⟩ := applyRetention_steps h
  obtain ⟨-, hstate, -⟩ := of_decide_eq_true hable
  have hnot : p.state ≠ .verified := by
    intro hs
    rw [hs] at hstate
    simp at hstate
  -- expiry leaves the payment as it is
  have hp' : p ∈ mid.tables.payments := by
    rw [hmid]
    exact List.mem_map.2 ⟨p, hp, if_neg fun hc => hnot hc.2⟩
  have hable' : redactable (request.now - request.paymentAfter) mid.tables p = true := by
    unfold redactable at hable ⊢
    rw [hmid]
    exact hable
  have hlen : mid.tables.payments.length = db.tables.payments.length := by
    rw [hmid]
    exact List.length_map _
  rw [hredact]
  refine forgotten_of_redact (List.mem_map.2 ⟨p, ?_, rfl⟩)
  rw [List.take_of_length_le]
  · rw [List.mem_filter, List.mem_insertionSort, List.mem_filter]
    exact ⟨⟨hp', hable'⟩, by simp [hfree]⟩
  · refine (List.length_filter_le _ _).trans ?_
    rw [List.length_insertionSort]
    exact (List.length_filter_le _ _).trans (hlen ▸ hroom)

/-- The columns that redaction clears, and the mark that it did. -/
structure Erased where
  merchantId : Option Nat
  payerAddress : Option String
  recipientAddress : Option String
  authorizationNonce : Option String
  validAfter : Option Time
  validBefore : Option Time
  payloadHash : Option String
  payerSignature : Option String
  claimedBy : Option String
  claimedUntil : Option Time
  redactedAt : Option Time

def Payment.restore (e : Erased) (p : Payment) : Payment :=
  { p with
    merchantId := e.merchantId, payerAddress := e.payerAddress, recipientAddress := e.recipientAddress
    authorizationNonce := e.authorizationNonce, validAfter := e.validAfter, validBefore := e.validBefore
    payloadHash := e.payloadHash, payerSignature := e.payerSignature, claimedBy := e.claimedBy
    claimedUntil := e.claimedUntil, redactedAt := e.redactedAt }

def Transaction.restore (raw : Option Bytes) (r : Transaction) : Transaction := { r with rawTransaction := raw }

/-- The tables with other content in the erased columns of a payment and of its rows. -/
def Tables.restore (q : Nat) (e : Erased) (raw : Nat → Option Bytes) (t : Tables) : Tables :=
  { t with
    payments := mapIf (fun p => p.id = q) (·.restore e) t.payments
    transactions := mapIf (fun r => r.paymentId = q) (fun r => r.restore (raw r.id)) t.transactions }

/-- The queries by which the workers load payments and transactions. -/
def Op.loads : Op → Bool
  | .loadSettlementWork .. | .listReplacedPending | .listDroppedBlockingGaps .. | .listGapFillers
  | .listStuckGapFillers .. => true
  | _ => false

/-- None of the payment's rows is one the workers look for. -/
structure Idle (t : Tables) (q : Nat) : Prop where
  inactive : ∀ r ∈ t.transactions, r.paymentId = q → r.active = false
  unwatched : ∀ r ∈ t.transactions, r.paymentId = q →
    (t.ownerState r).any (· ∈ [.replaced, .confirming, .broadcast]) = false
  reverted : ∀ r ∈ t.transactions, r.paymentId = q → (t.ownerState r).any (· ∈ [.expired, .failed]) = true →
    r.status = .reverted

theorem idle_of_ended (hshape : Shape hash (lifeOf t q)) (h : Ended (lifeOf t q)) : Idle t q := by
  have hrow : ∀ r ∈ t.transactions, r.paymentId = q → r.row ∈ (lifeOf t q).rows := fun r hr hq =>
    mem_rowsOf.2 ⟨r, hr, hq, rfl⟩
  constructor
  · intro r hr hq
    obtain ⟨hst, -, -⟩ := h.rows hshape (hrow r hr hq)
    have hst : r.status ∈ [TxStatus.confirmed, .reverted, .replaced, .dropped] := hst
    unfold Transaction.active
    simp only [List.mem_cons, List.not_mem_nil, or_false] at hst
    rcases hst with h | h | h | h <;> rw [h] <;> decide
  · intro r hr hq
    have hst : stateOf r.paymentId t ∈ [some State.confirmed, some .reverted, some .verificationFailed, some .expired,
        some .failed] := by
      rw [hq]
      rcases h with h | h | h | ⟨h | h, -⟩ <;> simp [show stateOf q t = _ from h]
    unfold Tables.ownerState
    simp only [List.mem_cons, List.not_mem_nil, or_false] at hst
    rcases hst with h | h | h | h | h <;> rw [h] <;> decide
  · intro r hr hq hdead
    refine (h.rows hshape (hrow r hr hq)).2.2 ?_
    unfold Tables.ownerState at hdead
    rw [hq] at hdead
    change stateOf q t = some .expired ∨ stateOf q t = some .failed
    cases hs : stateOf q t with
    | none => rw [hs] at hdead; cases hdead
    | some s => rw [hs] at hdead; simpa using hdead

section Restored

variable {e : Erased} {raw : Nat → Option Bytes}

/-- A payment other than the restored one is found as before. -/
theorem find?_restore_payment {p : Nat} (hp : p ≠ q) :
    (t.restore q e raw).payments.find? (fun x => decide (x.id = p)) = t.payments.find? fun x => decide (x.id = p) := by
  change (mapIf (fun p => p.id = q) (fun p => p.restore e) t.payments).find? _ = _
  rw [find?_mapIf (f := fun p : Payment => p.restore e) (k := fun x : Payment => x.id) (fun _ => rfl)]
  cases hf : t.payments.find? fun x => decide (x.id = p) with
  | none => rfl
  | some x =>
    have hx : x.id = p := by simpa using List.find?_some hf
    simp [hx, hp]

theorem ownerState_restore (r : Transaction) : (t.restore q e raw).ownerState r = t.ownerState r := by
  unfold Tables.ownerState
  exact stateOf_updatePayments_keeps (w := fun p => p.id = q) (f := fun p => p.restore e) (fun _ => rfl) (fun _ =>
    rfl) t _

/-- A query of rows that takes nothing of the payment, and of the others what it took. -/
theorem filterMap_restore {β : Type} {F F' : Transaction → Option β}
    (hidle : ∀ r ∈ t.transactions, r.paymentId = q → F r = none ∧ F' (r.restore (raw r.id)) = none)
    (hother : ∀ r ∈ t.transactions, r.paymentId ≠ q → F' r = F r) :
    (t.restore q e raw).transactions.filterMap F' = t.transactions.filterMap F := by
  change (mapIf (fun r => r.paymentId = q) (fun r => r.restore (raw r.id)) t.transactions).filterMap F' = _
  unfold mapIf
  rw [List.filterMap_map]
  refine List.filterMap_congr fun r hr => ?_
  by_cases hq : r.paymentId = q
  · obtain ⟨h, h'⟩ := hidle r hr hq
    simp [hq, h, h']
  · simp [hq, hother r hr hq]

theorem filter_restore {w w' : Transaction → Bool}
    (hidle : ∀ r ∈ t.transactions, r.paymentId = q → w r = false ∧ w' (r.restore (raw r.id)) = false)
    (hother : ∀ r ∈ t.transactions, r.paymentId ≠ q → w' r = w r) :
    (t.restore q e raw).transactions.filter w' = t.transactions.filter w := by
  rw [← List.filterMap_eq_filter, ← List.filterMap_eq_filter]
  refine filterMap_restore (fun r hr hq => ?_) fun r hr hq => ?_
  · obtain ⟨h, h'⟩ := hidle r hr hq
    simp [Option.guard, h, h']
  · simp [Option.guard, hother r hr hq]

theorem any_restore {w : Transaction → Bool} (hw : ∀ r : Transaction, w (r.restore (raw r.id)) = w r) :
    (t.restore q e raw).transactions.any w = t.transactions.any w := by
  change (mapIf (fun r => r.paymentId = q) (fun r => r.restore (raw r.id)) t.transactions).any w = _
  unfold mapIf
  rw [List.any_map]
  congr 1
  funext r
  by_cases hq : r.paymentId = q <;> simp [hq, hw]

/-- The row a load joins with its payment. -/
theorem find?_restore_active {p : Nat} (hidle : Idle t q) :
    (t.restore q e raw).transactions.find? (fun r => decide (r.paymentId = p ∧ r.active)) =
      t.transactions.find? fun r => decide (r.paymentId = p ∧ r.active) := by
  rw [← List.head?_filter, ← List.head?_filter]
  congr 1
  refine filter_restore (fun r hr hq => ?_) fun _ _ _ => rfl
  have hact := hidle.inactive r hr hq
  exact ⟨by simp [hact], by simp [Transaction.restore, Transaction.active] at hact ⊢; simp [hact]⟩

theorem query_fst {α : Type} (f : Tables → Except Err α) (db : DB) : ((Txn.query f).run db).1 = f db.tables := by
  unfold Txn.run Txn.query
  cases f db.tables <;> rfl

/-- A query of the rows of retired payments misses a row that reverted. -/
theorem missed_of_reverted {β : Type} {r : Transaction} {c : Payment → Prop} [DecidablePred c] {g : Payment → β}
    (hc : ∀ p, c p → r.status ≠ .reverted ∧ p.state ∈ [.expired, .failed])
    (hrev : (t.ownerState r).any (· ∈ [.expired, .failed]) = true → r.status = .reverted) :
    (match t.payments.find? (fun p => decide (p.id = r.paymentId)) with
      | some p => if c p then some (g p) else none
      | none => none) = none := by
  cases hf : t.payments.find? fun p => decide (p.id = r.paymentId) with
  | none => rfl
  | some p =>
    refine if_neg fun hp => ?_
    obtain ⟨hne, hdead⟩ := hc p hp
    refine hne (hrev ?_)
    unfold Tables.ownerState stateOf
    rw [hf]
    exact decide_eq_true hdead

/-- No query of the workers reads an erased column of a payment that is idle. -/
theorem loads_restored {op : Op} (hop : op.loads = true) (hidle : Idle db.tables q)
    (h : db'.tables = db.tables.restore q e raw) : (op.run env db').1 = (op.run env db).1 := by
  cases op with
  | loadSettlementWork p =>
    change ((Txn.query _).run db').1 = ((Txn.query _).run db).1
    rw [query_fst, query_fst, h, find?_restore_active hidle]
    by_cases hp : p = q
    · subst hp
      have hnone : db.tables.transactions.find? (fun r => decide (r.paymentId = p ∧ r.active)) = none :=
        List.find?_eq_none.2 fun r hr => by simpa using hidle.inactive r hr
      rw [hnone]
      cases (db.tables.restore p e raw).payments.find? (fun x => decide (x.id = p)) <;>
        cases db.tables.payments.find? (fun x => decide (x.id = p)) <;> rfl
    · rw [find?_restore_payment hp]
  | listReplacedPending =>
    change ((Txn.query _).run db').1 = ((Txn.query _).run db).1
    rw [query_fst, query_fst, h, filter_restore]
    · intro r hr hq
      have hun := hidle.unwatched r hr hq
      have hun' : (db.tables.ownerState (r.restore (raw r.id))).any (· ∈ [.replaced, .confirming, .broadcast]) =
        false :=
        hun
      rw [ownerState_restore]
      simp only [hun, hun', and_false, decide_false, and_self, Bool.false_eq_true]
    · intro r _ _
      rw [ownerState_restore]
  | listGapFillers =>
    change ((Txn.query _).run db').1 = ((Txn.query _).run db).1
    rw [query_fst, query_fst, h, filter_restore]
    · intro r hr hq
      have hrev := hidle.reverted r hr hq
      have hmiss : ¬ (r.status ∈ [.broadcast, .replaced] ∧
        (db.tables.ownerState r).any (· ∈ [.expired, .failed]) = true) := by
        rintro ⟨hst, hdead⟩
        rw [hrev hdead] at hst
        simp at hst
      rw [ownerState_restore]
      exact ⟨decide_eq_false fun hw => hmiss ⟨hw.1, hw.2.1⟩, decide_eq_false fun hw => hmiss ⟨hw.1, hw.2.1⟩⟩
    · intro r _ _
      rw [ownerState_restore]
  | listDroppedBlockingGaps | listStuckGapFillers =>
    change ((Txn.query _).run db').1 = ((Txn.query _).run db).1
    rw [query_fst, query_fst, h, filterMap_restore]
    · intro r hr hq
      have hrev := hidle.reverted r hr hq
      refine ⟨missed_of_reverted (fun p hc => ⟨by rw [hc.1]; decide, hc.2.2.2.1⟩) hrev, ?_⟩
      refine missed_of_reverted (t := db.tables.restore q e raw) (r := r.restore (raw r.id))
        (fun p hc => ⟨by rw [hc.1]; decide, hc.2.2.2.1⟩) fun hdead => hrev ?_
      rwa [ownerState_restore] at hdead
    · intro r hr hq
      rw [find?_restore_payment hq]
      -- the search for gaps also looks at the other rows of the signer
      try rw [any_restore fun _ => rfl]
  | _ => cases hop

end Restored

end Eth402.Store
