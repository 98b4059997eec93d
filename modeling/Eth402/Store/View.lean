/-
The life of each payment as the tables record it (`lifeOf`), and how one statement changes it.
-/
import Eth402.Settlement.Stable
import Eth402.Store.Op

namespace Eth402.Store

open Lib Settlement

/-- A transaction row reduced to what settlement is about. -/
def Transaction.row (r : Transaction) : Row where
  id := r.id
  signer := r.signerAddress
  nonce := r.transactionNonce
  status := r.status
  txHash := r.txHash
  rawHash := r.rawTransactionHash
  raw := r.rawTransaction

def rowsOf (t : Tables) (p : Nat) : List Row := (t.transactions.filter fun r => r.paymentId = p).map (·.row)

def lifeOf (t : Tables) (p : Nat) : Life := ⟨stateOf p t, rowsOf t p⟩

variable {t : Tables} {p : Nat}

theorem mem_rowsOf {x : Row} : x ∈ rowsOf t p ↔ ∃ r ∈ t.transactions, r.paymentId = p ∧ r.row = x := by
  simp [rowsOf, and_assoc]

theorem oneActive_rowsOf (db : DB) (p : Nat) : OneActive (rowsOf db.tables p) := by
  intro a ha b hb hact hbct
  obtain ⟨ra, hra, hpa, rfl⟩ := mem_rowsOf.1 ha
  obtain ⟨rb, hrb, hpb, rfl⟩ := mem_rowsOf.1 hb
  have : ra = rb := eq_of_key db.wf.oneActive (List.mem_filter.2 ⟨hra, hact⟩) (List.mem_filter.2 ⟨hrb, hbct⟩)
    (hpa.trans hpb.symm)
  rw [this]

theorem rowsOf_id (db : DB) {q : Nat} {a b : Row} (ha : a ∈ rowsOf db.tables p) (hb : b ∈ rowsOf db.tables q)
    (hid : a.id = b.id) : p = q ∧ a = b := by
  obtain ⟨ra, hra, rfl, rfl⟩ := mem_rowsOf.1 ha
  obtain ⟨rb, hrb, rfl, rfl⟩ := mem_rowsOf.1 hb
  have : ra = rb := eq_of_key db.wf.transactionIds hra hrb hid
  rw [this]
  exact ⟨rfl, rfl⟩

/-! ## Transaction rows -/

variable {w : Transaction → Bool} {f : Transaction → Transaction}

theorem rowsOf_update {w' : Row → Bool} {f' : Row → Row} (hp : ∀ r, (f r).paymentId = r.paymentId)
    (hw : ∀ r ∈ t.transactions, r.paymentId = p → w r = w' r.row) (hf : ∀ r, (f r).row = f' r.row) :
    rowsOf (t.updateTransactions w f) p = mapIf w' f' (rowsOf t p) := by
  unfold rowsOf Tables.updateTransactions
  rw [filter_mapIf fun r _ => by rw [hp r]]
  refine map_mapIf (fun r hr => ?_) fun r _ _ => hf r
  obtain ⟨hr, hrp⟩ := List.mem_filter.1 hr
  exact hw r hr (by simpa using hrp)

theorem rowsOf_update_other
    (hp : ∀ r, (f r).paymentId = r.paymentId) (hw : ∀ r ∈ t.transactions, r.paymentId = p → w r = false) :
    rowsOf (t.updateTransactions w f) p = rowsOf t p := by
  unfold rowsOf Tables.updateTransactions
  rw [filter_mapIf fun r _ => by rw [hp r], mapIf_of_false fun r hr => ?_]
  obtain ⟨hr, hrp⟩ := List.mem_filter.1 hr
  exact hw r hr (by simpa using hrp)

/-- An update of columns that no life is about. -/
theorem rowsOf_update_keeps (hp : ∀ r, (f r).paymentId = r.paymentId) (hf : ∀ r, (f r).row = r.row) (p : Nat) :
    rowsOf (t.updateTransactions w f) p = rowsOf t p := by
  unfold rowsOf Tables.updateTransactions
  rw [filter_mapIf fun r _ => by rw [hp r], map_mapIf_of_keeps fun r _ => hf r]

theorem rowsOf_insert (t : Tables) (r : Transaction) (p : Nat) :
    rowsOf { t with transactions := t.transactions ++ [r] } p =
      if r.paymentId = p then rowsOf t p ++ [r.row] else rowsOf t p := by
  unfold rowsOf
  rw [List.filter_append, List.map_append]
  by_cases h : r.paymentId = p <;> simp [h]

@[simp] theorem stateOf_updateTransactions (w : Transaction → Bool) (f : Transaction → Transaction) (t : Tables)
    (p : Nat) : stateOf p (t.updateTransactions w f) = stateOf p t := rfl

/-! ## Payments -/

theorem find?_mapIf {α : Type} {w : α → Bool} {f : α → α} {k : α → Nat} (h : ∀ r, k (f r) = k r) (l : List α)
    (x : Nat) : (mapIf w f l).find? (fun r => decide (k r = x)) =
      (l.find? (fun r => decide (k r = x))).map fun r => if w r then f r else r := by
  unfold mapIf
  rw [List.find?_map]
  congr 2
  funext r
  by_cases hw : w r = true <;> simp [hw, h]

theorem stateOf_updatePayments {w : Payment → Bool} {f : Payment → Payment} (h : ∀ p, (f p).id = p.id) (t : Tables)
    (q : Nat) : stateOf q (t.updatePayments w f) =
      (t.payments.find? fun p => decide (p.id = q)).map fun p => if w p then (f p).state else p.state := by
  unfold stateOf Tables.updatePayments
  rw [find?_mapIf (k := fun p : Payment => p.id) h, Option.map_map]
  congr 1
  funext p
  by_cases hw : w p = true <;> simp [hw]

theorem stateOf_updatePayments_keeps {w : Payment → Bool} {f : Payment → Payment} (h : ∀ p, (f p).id = p.id)
    (hs : ∀ p, (f p).state = p.state) (t : Tables) (q : Nat) : stateOf q (t.updatePayments w f) = stateOf q t := by
  rw [stateOf_updatePayments h]
  unfold stateOf
  congr 1
  funext p
  by_cases hw : w p = true <;> simp [hw, hs]

theorem stateOf_eq_some {db : DB} {p : Payment} (hp : p ∈ db.tables.payments) :
    stateOf p.id db.tables = some p.state := by
  unfold stateOf
  rw [find?_key db.wf.paymentIds hp]
  rfl

theorem exists_of_stateOf {q : Nat} {s : State} (h : stateOf q t = some s) :
    ∃ p ∈ t.payments, p.id = q ∧ p.state = s := by
  unfold stateOf at h
  obtain ⟨p, hf, rfl⟩ := Option.map_eq_some_iff.1 h
  exact ⟨p, List.mem_of_find?_eq_some hf, by simpa using List.find?_some hf, rfl⟩

/-- The payment `p` moves from `source` to `target`, nothing else about states and rows changes. -/
structure Moved (t t' : Tables) (p : Nat) (source target : State) : Prop where
  before : stateOf p t = some source
  state : ∀ q, stateOf q t' = if q = p then some target else stateOf q t
  transactions : t'.transactions = t.transactions

theorem Moved.rowsOf {t' : Tables} {q : Nat} {source target : State} (h : Moved t t' p source target) :
    rowsOf t' q = rowsOf t q := by unfold Store.rowsOf; rw [h.transactions]

/-- A state update of the one payment that `w` selects. -/
theorem moved_update {db : DB} {v : Tables} {S : Payment → Bool} {f : Payment → Payment} {target : State}
    (hp : v.payments = (db.tables.updatePayments (fun q => decide (q.id = p) && S q) f).payments)
    (ht : v.transactions = db.tables.transactions) (hid : ∀ q, (f q).id = q.id) (hst : ∀ q, (f q).state = target)
    (hc : db.tables.payments.countP (fun q => decide (q.id = p) && S q) = 1) :
    ∃ q ∈ db.tables.payments, q.id = p ∧ S q = true ∧ Moved db.tables v p q.state target := by
  obtain ⟨a, ha, haw⟩ := exists_of_countP_one hc
  simp only [Bool.and_eq_true, decide_eq_true_eq] at haw
  refine ⟨a, ha, haw.1, haw.2, haw.1 ▸ stateOf_eq_some ha, fun q => ?_, ht⟩
  have hsv : stateOf q v = stateOf q (db.tables.updatePayments (fun q => decide (q.id = p) && S q) f) := by
    unfold stateOf; rw [hp]
  rw [hsv, stateOf_updatePayments hid]
  by_cases hq : q = p
  · subst hq
    rw [if_pos rfl, ← haw.1, find?_key db.wf.paymentIds ha]
    simp [haw.1, haw.2, hst]
  · rw [if_neg hq]
    unfold stateOf
    cases hf : db.tables.payments.find? fun p => decide (p.id = q) with
    | none => rfl
    | some b =>
      have hb : b.id = q := by simpa using List.find?_some hf
      have : b.id ≠ p := by rw [hb]; exact hq
      simp [this]

theorem update_or_miss {db : DB} {v : Tables} {S : Payment → Bool} {f : Payment → Payment} {target : State}
    (hp : v.payments = (db.tables.updatePayments (fun q => decide (q.id = p) && S q) f).payments)
    (ht : v.transactions = db.tables.transactions) (hid : ∀ q, (f q).id = q.id) (hst : ∀ q, (f q).state = target) :
    (∃ q ∈ db.tables.payments, q.id = p ∧ S q = true ∧ Moved db.tables v p q.state target) ∨
      (v.payments = db.tables.payments ∧ ∀ q ∈ db.tables.payments, q.id = p → S q = false) := by
  by_cases hc : db.tables.payments.countP (fun q => decide (q.id = p) && S q) = 1
  · exact .inl (moved_update hp ht hid hst hc)
  · have hle := countP_key_le_one db.wf.paymentIds p S
    have hnone : ∀ q ∈ db.tables.payments, (decide (q.id = p) && S q) = false := by
      have := List.countP_eq_zero.1 (show db.tables.payments.countP (fun q => decide (q.id = p) && S q) = 0 by omega)
      exact fun q hq => Bool.eq_false_iff.2 (this q hq)
    refine .inr ⟨by rw [hp]; exact mapIf_of_false hnone, fun q hq hqp => ?_⟩
    simpa [hqp] using hnone q hq

/-! ## One row of one payment -/

variable {S : List TxStatus}

/-- The update of the row `id` of `p`, on every payment. -/
theorem rowsOf_rowOf {id : Nat} {f' : Row → Row}
    (hp : ∀ r, (f r).paymentId = r.paymentId) (hf : ∀ r, (f r).row = f' r.row) (q : Nat) :
    rowsOf (t.updateTransactions (rowOf p id S) f) q = if q = p then advance id S f' (rowsOf t p) else rowsOf t q := by
  by_cases hq : q = p
  · subst hq
    rw [if_pos rfl]
    refine rowsOf_update hp (fun r _ hr => ?_) hf
    rw [Bool.eq_iff_iff, Row.is_iff]
    simp [rowOf, Transaction.row, hr]
  · rw [if_neg hq]
    refine rowsOf_update_other hp fun r _ hr => ?_
    have : r.paymentId ≠ p := by rw [hr]; exact hq
    simp [rowOf, this]

theorem has_rowOf {id : Nat} (h : t.transactions.countP (rowOf p id S) = 1) : Has id S (rowsOf t p) := by
  obtain ⟨r, hr, hw⟩ := exists_of_countP_one h
  simp only [rowOf, Bool.decide_and, Bool.and_eq_true, decide_eq_true_eq] at hw
  exact ⟨r.row, mem_rowsOf.2 ⟨r, hr, hw.2.1, rfl⟩, Row.is_iff.2 ⟨hw.1, hw.2.2⟩⟩

/-- An update of the row `id` of `p` selects that row or nothing. -/
theorem update_rowOf_missed {db : DB} {id : Nat} (h : db.tables.transactions.countP (rowOf p id S) ≠ 1) :
    db.tables.updateTransactions (rowOf p id S) f = db.tables := by
  have hle := countP_key_le_one db.wf.transactionIds id fun r => decide (r.paymentId = p ∧ r.status ∈ S)
  have hw : (fun r : Transaction => decide (r.id = id) && decide (r.paymentId = p ∧ r.status ∈ S)) = rowOf p id S := by
    funext r; simp [rowOf]
  rw [hw] at hle
  have hnone := List.countP_eq_zero.1 (show db.tables.transactions.countP (rowOf p id S) = 0 by omega)
  unfold Tables.updateTransactions
  rw [mapIf_of_false fun r hr => Bool.eq_false_iff.2 (hnone r hr)]

/-- The update of the row `id`, whatever its payment. -/
theorem rowsOf_id_update {id : Nat} {f' : Row → Row} (hw : ∀ r, w r = decide (r.id = id ∧ r.status ∈ S))
    (hp : ∀ r, (f r).paymentId = r.paymentId) (hf : ∀ r, (f r).row = f' r.row) (q : Nat) :
    rowsOf (t.updateTransactions w f) q = advance id S f' (rowsOf t q) :=
  rowsOf_update hp (fun r _ _ => by rw [hw]; rfl) hf

theorem advance_of_absent {id : Nat} {f : Row → Row} {rows : List Row} (h : ∀ r ∈ rows, r.id ≠ id) :
    advance id S f rows = rows :=
  mapIf_of_false fun r hr => by simp [Row.is, h r hr]

end Eth402.Store
