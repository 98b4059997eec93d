/-
The store refines the life of a payment: whatever a method of the store does, it moves the life of each
payment by at most one `Move`. `Knows` is what a method relies on its caller for; everything else a move
asks for, the method checks itself.
-/
import Eth402.Store.View

namespace Eth402.Store

open Lib Settlement

variable {hash : Bytes → String} {db db' : DB} {env : DbEnv}

/-- Every payment moves, by moves of the kinds `K`. -/
def Moves (hash : Bytes → String) (K : Kind → Prop) (db db' : DB) : Prop :=
  ∀ q, ∃ k, K k ∧ Move hash k (lifeOf db.tables q) (lifeOf db'.tables q)

def Plain (k : Kind) : Prop := k = .plain

theorem moves_of_eq (h : ∀ q, lifeOf db'.tables q = lifeOf db.tables q) : Moves hash Plain db db' := fun q =>
  ⟨.plain, rfl, by rw [h q]; exact .keep _⟩

theorem lifeOf_congr {t t' : Tables} (hp : t'.payments = t.payments) (ht : t'.transactions = t.transactions) (q : Nat) :
    lifeOf t' q = lifeOf t q := by unfold lifeOf rowsOf stateOf; rw [hp, ht]

theorem Moves.mono {K K' : Kind → Prop} (h : Moves hash K db db') (hk : ∀ k, K k → K' k) : Moves hash K' db db' :=
  fun q => by
    obtain ⟨k, hK, m⟩ := h q
    exact ⟨k, hk k hK, m⟩

variable {p : Nat}

theorem moves_at {k : Kind} (hother : ∀ q, q ≠ p → lifeOf db'.tables q = lifeOf db.tables q)
    (hp : Move hash k (lifeOf db.tables p) (lifeOf db'.tables p)) :
    Moves hash (fun k' => k' = .plain ∨ k' = k) db db' := by
  intro q
  by_cases hq : q = p
  · subst hq; exact ⟨k, .inr rfl, hp⟩
  · rw [hother q hq]; exact ⟨.plain, .inl rfl, .keep _⟩

theorem moves_at_plain (hother : ∀ q, q ≠ p → lifeOf db'.tables q = lifeOf db.tables q)
    (hp : Move hash .plain (lifeOf db.tables p) (lifeOf db'.tables p)) : Moves hash Plain db db' :=
  (moves_at hother hp).mono fun _ h => h.elim (fun h => h) fun h => h

/-! ## The shared statements -/

variable {u : Unit}

theorem insertTransition_ok {r : Transition} (h : insertTransition r db = .ok (u, db')) :
    db'.tables.payments = db.tables.payments ∧ db'.tables.transactions = db.tables.transactions := by
  rw [Txn.write_ok h]; exact ⟨rfl, rfl⟩

/-- An audited transition names an actor type the audit table admits. -/
theorem insertTransition_actor {r : Transition} (h : insertTransition r db = .ok (u, db')) :
    r.actorType ∈ actorTypes := by
  refine db'.wf.actors r ?_
  rw [Txn.write_ok h]
  exact List.mem_concat_self

variable {source target : State}

theorem validateTransition_ok (h : validateTransition source target db = .ok (u, db')) : db' = db := by
  unfold validateTransition at h
  split at h <;> cases h
  rfl

theorem updateOnePayment_ok {α : Type} {w : Payment → Bool} {f : Payment → Payment} {c : String} {m : Txn α}
    {r : α × DB}
    (h : (do let n ← updatePayments w f; expectOne n c; m) db = .ok r) :
    ∃ db₁ : DB, db.tables.payments.countP w = 1 ∧ db₁.tables = db.tables.updatePayments w f ∧ m db₁ = .ok r := by
  obtain ⟨n, db₁, hu, hrest⟩ := Txn.bind_ok h
  obtain ⟨hn, ht⟩ := updatePayments_ok hu
  obtain ⟨_, db₂, he, hm⟩ := Txn.bind_ok hrest
  obtain ⟨hone, hdb⟩ := expectOne_ok he
  exact ⟨db₁, hn ▸ hone, ht, hdb ▸ hm⟩

variable {w : Transaction → Bool} {f : Transaction → Transaction}

theorem updateOne_ok {α : Type} {c : String} {m : Txn α}
    {r : α × DB} (h : (do let n ← updateTransactions w f; expectOne n c; m) db = .ok r) :
    ∃ db₁ : DB, db.tables.transactions.countP w = 1 ∧ db₁.tables = db.tables.updateTransactions w f ∧
      m db₁ = .ok r := by
  obtain ⟨n, db₁, hu, hrest⟩ := Txn.bind_ok h
  obtain ⟨hn, ht⟩ := updateTransactions_ok hu
  obtain ⟨_, db₂, he, hm⟩ := Txn.bind_ok hrest
  obtain ⟨hone, hdb⟩ := expectOne_ok he
  exact ⟨db₁, hn ▸ hone, ht, hdb ▸ hm⟩

theorem updateOne_last_ok {c : String} (h : (do let n ← updateTransactions w f; expectOne n c) db = .ok (u, db')) :
    db.tables.transactions.countP w = 1 ∧ db'.tables = db.tables.updateTransactions w f := by
  obtain ⟨n, db₁, hu, hrest⟩ := Txn.bind_ok h
  obtain ⟨hn, ht⟩ := updateTransactions_ok hu
  obtain ⟨hone, hdb⟩ := expectOne_ok hrest
  exact ⟨hn ▸ hone, hdb ▸ ht⟩

variable {actor : String}

theorem transitionPayment_ok {now : Time} (h : transitionPayment now p source target actor db = .ok (u, db')) :
    Moved db.tables db'.tables p source target := by
  obtain ⟨_, db₀, hv, hrest⟩ := Txn.bind_ok h
  cases validateTransition_ok hv
  obtain ⟨db₁, hc, ht, hrec⟩ := updateOnePayment_ok hrest
  obtain ⟨hp, htx⟩ := insertTransition_ok hrec
  simp only [Bool.decide_and] at ht hc
  obtain ⟨q, -, -, hs, hm⟩ := moved_update (hp.trans (congrArg Tables.payments ht))
    (by rw [htx, ht]; rfl) (fun _ => rfl) (fun _ => rfl) hc
  rwa [of_decide_eq_true hs] at hm

theorem transitionPaymentIn_ok {now : Time} {source : List State}
    {assign : Payment → Payment} (h : transitionPaymentIn now p source target actor assign db = .ok (u, db'))
    (hid : ∀ q, (assign q).id = q.id) (hst : ∀ q, (assign q).state = target) :
    actor ∈ actorTypes ∧ ∃ s ∈ source, Moved db.tables db'.tables p s target := by
  unfold transitionPaymentIn at h
  split at h
  · obtain ⟨_, _, hf, -⟩ := Txn.bind_ok h
    exact (Txn.fail_ok hf).elim
  obtain ⟨_, db₀, hr, hrest⟩ := Txn.bind_ok h
  cases Txn.read_ok hr
  obtain ⟨n, db₁, hu, hrest⟩ := Txn.bind_ok hrest
  obtain ⟨hn, ht⟩ := updatePayments_ok hu
  generalize stateOf p db.tables = previous at hrest
  split at hrest
  · obtain ⟨hp, htx⟩ := insertTransition_ok hrest
    simp only [Bool.decide_and] at ht hn
    obtain ⟨q, -, -, hs, hm⟩ := moved_update (hp.trans (congrArg Tables.payments ht))
      (by rw [htx, ht]; rfl) hid hst hn.symm
    exact ⟨insertTransition_actor hrest, q.state, of_decide_eq_true hs, hm⟩
  · exact (Txn.fail_ok hrest).elim

/-! ## From intent to broadcast -/

/-- A method that changes rows of `p` and then moves `p`. -/
theorem moves_payment {k : Kind} {rows : List Row} {t₁ : Tables} (hst : ∀ q, stateOf q t₁ = stateOf q db.tables)
    (hrows : ∀ q, rowsOf t₁ q = if q = p then rows else rowsOf db.tables q) (hm : Moved t₁ db'.tables p source target)
    (move : Move hash k ⟨some source, rowsOf db.tables p⟩ ⟨some target, rows⟩) :
    Moves hash (fun k' => k' = .plain ∨ k' = k) db db' := by
  refine moves_at (p := p) (fun q hq => ?_) ?_
  · unfold lifeOf
    rw [hm.state, if_neg hq, hm.rowsOf, hst, hrows, if_neg hq]
  · unfold lifeOf
    rw [hm.state, if_pos rfl, hm.rowsOf, hrows, if_pos rfl, ← hst, hm.before]
    exact move

variable {S : List TxStatus}

/-- A method that changes the row `id` of `p` and then moves `p`. -/
theorem moves_row_kind {id : Nat} {k : Kind} {f' : Row → Row} {t₁ : Tables}
    (ht : t₁ = db.tables.updateTransactions (rowOf p id S) f) (hm : Moved t₁ db'.tables p source target)
    (move : Move hash k ⟨some source, rowsOf db.tables p⟩ ⟨some target, advance id S f' (rowsOf db.tables p)⟩)
    (hp : ∀ r, (f r).paymentId = r.paymentId) (hf : ∀ r, (f r).row = f' r.row) :
    Moves hash (fun k' => k' = .plain ∨ k' = k) db db' :=
  moves_payment (fun q => by rw [ht, stateOf_updateTransactions]) (fun q => by rw [ht, rowsOf_rowOf hp hf]) hm move

theorem moves_row {id : Nat} {f' : Row → Row} {t₁ : Tables}
    (ht : t₁ = db.tables.updateTransactions (rowOf p id S) f) (hm : Moved t₁ db'.tables p source target)
    (move : Move hash .plain ⟨some source, rowsOf db.tables p⟩ ⟨some target, advance id S f' (rowsOf db.tables p)⟩)
    (hp : ∀ r, (f r).paymentId = r.paymentId) (hf : ∀ r, (f r).row = f' r.row) : Moves hash Plain db db' :=
  (moves_row_kind ht hm move hp hf).mono fun _ h => h.elim (fun h => h) fun h => h

variable {t : Nat}

theorem markTxBroadcast_moves {raw : String} (hknow : ∀ r ∈ rowsOf db.tables p, r.id = t → r.rawHash = some raw)
    (h : markTxBroadcast env p t ("0x" ++ raw) actor db = .ok (u, db')) : Moves hash Plain db db' := by
  obtain ⟨db₁, hc, ht, hm⟩ := updateOne_ok h
  exact moves_row ht (transitionPayment_ok hm) (.send _ t raw (has_rowOf hc) hknow) (fun _ => rfl) fun _ => rfl

theorem markTxAmbiguous_moves (h : markTxAmbiguous env p t actor db = .ok (u, db')) : Moves hash Plain db db' := by
  obtain ⟨db₁, hc, ht, hm⟩ := updateOne_ok h
  exact moves_row ht (transitionPayment_ok hm) (.doubt _ t (has_rowOf hc)) (fun _ => rfl) fun _ => rfl

theorem retireIntent_moves {what : String}
    (htarget : target = .failed ∨ target = .expired) (h : retireIntent env what target p t actor db = .ok (u, db')) :
    Moves hash Plain db db' := by
  obtain ⟨db₁, hc, ht, hm⟩ := updateOne_ok h
  exact moves_row ht (transitionPayment_ok hm) (.retire _ t target htarget (has_rowOf hc)) (fun _ => rfl)
    fun _ => rfl

/-- A method that changes the row `id` of whatever payment, and no payment. -/
theorem moves_id {id : Nat} {f' : Row → Row} {k : Kind} (ht : db'.tables = db.tables.updateTransactions w f)
    (hw : ∀ r, w r = decide (r.id = id ∧ r.status ∈ S)) (move : ∀ p, Has id S (rowsOf db.tables p) →
      Move hash k (lifeOf db.tables p) ⟨stateOf p db.tables, advance id S f' (rowsOf db.tables p)⟩)
    (hp : ∀ r, (f r).paymentId = r.paymentId) (hf : ∀ r, (f r).row = f' r.row) :
    Moves hash (fun k' => k' = .plain ∨ k' = k) db db' := by
  intro q
  have hlife : lifeOf db'.tables q = ⟨stateOf q db.tables, advance id S f' (rowsOf db.tables q)⟩ := by
    unfold lifeOf
    rw [ht, stateOf_updateTransactions, rowsOf_id_update hw hp hf]
  by_cases hq : Has id S (rowsOf db.tables q)
  · rw [hlife]; exact ⟨k, .inr rfl, move q hq⟩
  · have : advance id S f' (rowsOf db.tables q) = rowsOf db.tables q :=
      mapIf_of_false fun r hr => Bool.eq_false_iff.2 fun his => hq ⟨r, hr, his⟩
    rw [hlife, this]
    exact ⟨.plain, .inl rfl, .keep _⟩

theorem markTxSigned_moves {g : Nat} {rawHash sighash : String} {m f : Int}
    (h : markTxSigned env t rawHash sighash g m f db = .ok (u, db')) : Moves hash Plain db db' := by
  obtain ⟨-, ht⟩ := updateOne_last_ok h
  refine Moves.mono (moves_id ht (fun r => by simp) (fun p hhas => .sign _ _ t rawHash hhas) (fun _ => rfl) fun _ =>
    rfl) ?_
  exact fun _ hk => hk.elim id id

/-! ## From broadcast to a final outcome -/

variable {blockHash : String}

/-- What `MarkTxConfirming` did: it always marks the row if it finds it, and the payment if it is still
waiting for a sighting. -/
theorem markTxConfirming_ok {n : Nat} (h : markTxConfirming env p t n blockHash actor db = .ok (u, db')) :
    (∀ q, rowsOf db'.tables q = if q = p then
      advance t watched (fun r => { r with status := .confirming }) (rowsOf db.tables p) else rowsOf db.tables q) ∧
    ((∃ s, (s = .broadcast ∨ s = .replaced) ∧ stateOf p db.tables = some s ∧
        ∀ q, stateOf q db'.tables = if q = p then some .confirming else stateOf q db.tables) ∨
      ((∀ s, stateOf p db.tables = some s → s ≠ .broadcast ∧ s ≠ .replaced) ∧
        ∀ q, stateOf q db'.tables = stateOf q db.tables)) := by
  obtain ⟨_, db₁, hu, hrest⟩ := Txn.bind_ok h
  obtain ⟨-, ht₁⟩ := updateTransactions_ok hu
  obtain ⟨_, db₁', hr, hrest⟩ := Txn.bind_ok hrest
  cases Txn.read_ok hr
  obtain ⟨_, db₂, hu₂, hrest⟩ := Txn.bind_ok hrest
  obtain ⟨-, ht₂⟩ := updatePayments_ok hu₂
  have hlast : db'.tables.payments = db₂.tables.payments ∧ db'.tables.transactions = db₂.tables.transactions := by
    generalize stateOf p db₁.tables = previous at hrest
    split at hrest
    · exact insertTransition_ok hrest
    · cases Txn.pure_ok hrest
      exact ⟨rfl, rfl⟩
  simp only [Bool.decide_and] at ht₂
  have htx : db'.tables.transactions = db₁.tables.transactions := by rw [hlast.2, ht₂]; rfl
  have hbefore : ∀ q, stateOf q db₁.tables = stateOf q db.tables := fun q => by rw [ht₁, stateOf_updateTransactions]
  refine ⟨fun q => ?_, ?_⟩
  · have : rowsOf db'.tables q = rowsOf db₁.tables q := by unfold rowsOf; rw [htx]
    rw [this, ht₁]
    refine rowsOf_rowOf ?_ ?_ q <;> exact fun _ => rfl
  · rcases update_or_miss (hlast.1.trans (congrArg Tables.payments ht₂)) htx (fun _ => rfl) (fun _ => rfl) with
      ⟨a, -, -, hs, hm⟩ | ⟨hp, hno⟩
    · refine .inl ⟨a.state, by simpa using hs, (hbefore p).symm.trans hm.before, fun q => ?_⟩
      rw [hm.state, hbefore]
    · refine .inr ⟨fun s hs => ?_, fun q => ?_⟩
      · rw [← hbefore] at hs
        obtain ⟨a, ha, hap, rfl⟩ := exists_of_stateOf hs
        simpa using hno a ha hap
      · rw [← hbefore]; unfold stateOf; rw [hp]

/-- A sighting moves the payment by a `missed` move exactly when there is no row to mark. -/
def misses (db : DB) (p t : Nat) : Prop := ¬ Has t watched (rowsOf db.tables p)

theorem markTxConfirming_moves {n : Nat}
    (hknow : Broadcasted (lifeOf db.tables p)) (h : markTxConfirming env p t n blockHash actor db = .ok (u, db')) :
    Moves hash (fun k => k = .plain ∨ (k = .missed ∧ misses db p t ∧
      (stateOf p db.tables = some .broadcast ∨ stateOf p db.tables = some .replaced))) db db' := by
  obtain ⟨hrows, ⟨s, hs, hst, hstate⟩ | ⟨hno, hstate⟩⟩ := markTxConfirming_ok h
  · intro q
    unfold lifeOf
    by_cases hq : q = p
    · subst hq
      rw [hrows, hstate, if_pos rfl, if_pos rfl, hst]
      by_cases hhas : Has t watched (rowsOf db.tables q)
      · exact ⟨.plain, .inl rfl, .sight s _ t hs hhas⟩
      · have : advance t watched (fun r => { r with status := .confirming }) (rowsOf db.tables q) =
            rowsOf db.tables q :=
          mapIf_of_false fun r hr => Bool.eq_false_iff.2 fun his => hhas ⟨r, hr, his⟩
        rw [this]
        exact ⟨.missed, .inr ⟨rfl, hhas, hs.imp (fun h => by rw [h]) fun h => by rw [h]⟩, .miss s _ hs⟩
    · rw [hrows, hstate, if_neg hq, if_neg hq]
      exact ⟨.plain, .inl rfl, .keep _⟩
  · refine (moves_at_plain (p := p) (fun q hq => ?_) ?_).mono fun k hk => .inl hk
    · unfold lifeOf; rw [hrows, hstate, if_neg hq]
    · unfold lifeOf
      rw [hrows, hstate, if_pos rfl]
      obtain ⟨s, hmem, hst⟩ := hknow
      change stateOf p db.tables = some s at hst
      rw [hst]
      obtain ⟨hb, hr⟩ := hno s hst
      refine .sightAgain s _ t ?_
      simpa [hb, hr] using hmem

/-- A final outcome is recorded on a watched row of a waiting payment, or was recorded before. -/
theorem finalize_ok {status : TxStatus} {state : State} {word : String}
    {assignRow : Transaction → Transaction} {assign : Payment → Payment}
    (h : finalize env p t status state word actor assignRow assign db = .ok (u, db'))
    (hid : ∀ q, (assign q).id = q.id) (hst : ∀ q, (assign q).state = state) :
    (actor ∈ actorTypes ∧ ∃ t₁, t₁ = db.tables.updateTransactions (rowOf p t watched) assignRow ∧
        Has t watched (rowsOf db.tables p) ∧ ∃ s ∈ waiting, Moved t₁ db'.tables p s state) ∨
      (db.tables.transactions.countP (rowOf p t watched) ≠ 1 ∧
        terminalSettlementMatches p t status state db.tables = true ∧ db' = db) := by
  obtain ⟨n, db₁, hu, hrest⟩ := Txn.bind_ok h
  obtain ⟨hn, ht⟩ := updateTransactions_ok hu
  by_cases hone : n = 1
  · rw [if_pos hone] at hrest
    obtain ⟨hactor, s, hs, hm⟩ := transitionPaymentIn_ok hrest hid hst
    exact .inl ⟨hactor, _, ht, has_rowOf (hn ▸ hone), s, hs, hm⟩
  · rw [if_neg hone] at hrest
    obtain ⟨_, db₁', hr, hrest⟩ := Txn.bind_ok hrest
    cases Txn.read_ok hr
    have hsame : db₁ = db := DB.ext (ht.trans (update_rowOf_missed (hn ▸ hone)))
    subst hsame
    split at hrest
    · cases Txn.pure_ok hrest
      exact .inr ⟨hn ▸ hone, ‹_›, rfl⟩
    · exact (Txn.fail_ok hrest).elim

variable {c : Int}

theorem markTxConfirmed_moves {n g : Nat} (h : markTxConfirmed env p t n blockHash g c actor db = .ok (u, db')) :
    Moves hash (fun k => k = .plain ∨ k = .final) db db' := by
  obtain ⟨-, t₁, ht, hhas, s, hs, hm⟩ | ⟨-, -, rfl⟩ := finalize_ok h (fun _ => rfl) fun _ => rfl
  · exact moves_row_kind ht hm (.confirm s _ t hs hhas) (fun _ => rfl) fun _ => rfl
  · exact (moves_of_eq fun _ => rfl).mono fun _ h => .inl h

theorem markTxReverted_moves {g : Nat} (h : markTxReverted env p t g c actor db = .ok (u, db')) :
    Moves hash (fun k => k = .plain ∨ k = .final) db db' := by
  obtain ⟨-, t₁, ht, hhas, s, hs, hm⟩ | ⟨-, -, rfl⟩ := finalize_ok h (fun _ => rfl) fun _ => rfl
  · exact moves_row_kind ht hm (.revert s _ t hs hhas) (fun _ => rfl) fun _ => rfl
  · exact (moves_of_eq fun _ => rfl).mono fun _ h => .inl h

/-! ## Recovery -/

theorem markTxRecoveredBroadcast_moves {raw : String}
    (hknow : ∀ r ∈ rowsOf db.tables p, r.id = t → r.rawHash = some raw)
    (h : markTxRecoveredBroadcast env p t ("0x" ++ raw) actor db = .ok (u, db')) : Moves hash Plain db db' := by
  obtain ⟨db₁, hc, ht, hm⟩ := updateOne_ok h
  exact moves_row ht (transitionPayment_ok hm) (.recover _ t raw (has_rowOf hc) hknow) (fun _ => rfl) fun _ => rfl

theorem markAmbiguousRetry_moves (h : markAmbiguousRetry env p t db = .ok (u, db')) : Moves hash Plain db db' := by
  obtain ⟨-, ht⟩ := updateOne_last_ok h
  refine moves_of_eq fun q => ?_
  unfold lifeOf
  rw [ht, stateOf_updateTransactions]
  congr 1
  refine rowsOf_update_keeps ?_ ?_ q <;> exact fun _ => rfl

theorem markTxReorgedOut_moves (h : markTxReorgedOut env p t actor db = .ok (u, db')) : Moves hash Plain db db' := by
  obtain ⟨db₁, hc, ht, hm⟩ := updateOne_ok h
  exact moves_row ht (transitionPayment_ok hm) (.reorg _ t (has_rowOf hc)) (fun _ => rfl) fun _ => rfl

/-- The insertion of a replacement: the row made of the original, then the link to it. -/
theorem insertReplacement_tables {old : Nat} {row : Transaction → Transaction}
    (h : insertReplacement env p old row db = .ok (u, db')) :
    ∃ o ∈ db.tables.transactions, o.id = old ∧ o.paymentId = p ∧
      db'.tables = { db.tables with transactions := db.tables.transactions ++ [row o] }.updateTransactions
        (fun r => r.id = old ∧ r.paymentId = p) fun r => { r with replacedById := some env.freshId } := by
  obtain ⟨found, db₀, hr, hrest⟩ := Txn.bind_ok h
  cases Txn.read_ok hr
  generalize hf : db.tables.transactions.find? (fun r => r.id = old ∧ r.paymentId = p) = found at hrest
  cases found with
  | none => exact (Txn.fail_ok hrest).elim
  | some o =>
    obtain ⟨_, db₁, hi, hrest⟩ := Txn.bind_ok hrest
    obtain ⟨_, db₂, hu, hrest⟩ := Txn.bind_ok hrest
    obtain ⟨-, ht⟩ := updateTransactions_ok hu
    cases Txn.pure_ok hrest
    have ho : o.id = old ∧ o.paymentId = p := by simpa using List.find?_some hf
    exact ⟨o, List.mem_of_find?_eq_some hf, ho.1, ho.2, by rw [ht, Txn.write_ok hi]⟩

variable {replacement : Replacement} {raw : Option Bytes}

/-- The row a replacement inserts, and where. -/
theorem insertReplacement_ok {old : Nat} {sighash : Transaction → Option String}
    (h : insertReplacement env p old (fun o => replacementRow env o replacement (sighash o) raw) db = .ok (u, db')) :
    ∃ new : Row, (new.status = .broadcast ∧ new.rawHash = some replacement.rawHash ∧
        new.txHash = some replacement.txHash ∧ new.raw = raw) ∧
      (∃ o ∈ rowsOf db.tables p, new.signer = o.signer ∧ new.nonce = o.nonce) ∧
      db'.tables.payments = db.tables.payments ∧
      ∀ q, rowsOf db'.tables q = if q = p then rowsOf db.tables p ++ [new] else rowsOf db.tables q := by
  obtain ⟨o, ho, -, hop, ht⟩ := insertReplacement_tables h
  refine ⟨(replacementRow env o replacement (sighash o) raw).row, ⟨rfl, rfl, rfl, rfl⟩,
    ⟨o.row, mem_rowsOf.2 ⟨o, ho, hop, rfl⟩, rfl, rfl⟩, by rw [ht]; rfl, fun q => ?_⟩
  have hlinked : rowsOf db'.tables q = rowsOf { db.tables with
      transactions := db.tables.transactions ++ [replacementRow env o replacement (sighash o) raw] } q := by
    rw [ht]; refine rowsOf_update_keeps ?_ ?_ q <;> exact fun _ => rfl
  rw [hlinked, rowsOf_insert]
  have hnew : (replacementRow env o replacement (sighash o) raw).paymentId = p := hop
  rw [hnew]
  by_cases hq : q = p
  · rw [if_pos hq, if_pos hq.symm, hq]
  · rw [if_neg hq, if_neg fun h => hq h.symm]

/-- The inserted row replaces a row of the payment as it was before the rows were marked. -/
theorem replaces_of {rows rows₁ : List Row} {new : Row}
    (hnew : new.status = .broadcast ∧ new.rawHash = some replacement.rawHash ∧ new.txHash = some replacement.txHash ∧
      new.raw = raw)
    (hold : ∃ o ∈ rows₁, new.signer = o.signer ∧ new.nonce = o.nonce)
    (hsame : ∀ o ∈ rows₁, ∃ o' ∈ rows, o.signer = o'.signer ∧ o.nonce = o'.nonce)
    (htx : replacement.txHash = "0x" ++ replacement.rawHash) (hraw : ∀ b, raw = some b → replacement.rawHash = hash b) :
    Replaces hash rows new where
  status := hnew.1
  hashes := ⟨replacement.rawHash, hnew.2.1, htx ▸ hnew.2.2.1, fun b hb => hraw b (hnew.2.2.2 ▸ hb)⟩
  nonce := by
    obtain ⟨o, ho, hs, hn⟩ := hold
    obtain ⟨o', ho', hs', hn'⟩ := hsame o ho
    exact ⟨o', ho', hs.trans hs', hn.trans hn'⟩

variable (hash) in
/-- Rows of `p` are marked, then a replacement of one of them is inserted. -/
theorem marked_replaced_ok {old : Nat} {v : Row → Bool} {g : Row → Row} {sighash : Transaction → Option String}
    {db₁ : DB} (ht : db₁.tables = db.tables.updateTransactions w f)
    (h : insertReplacement env p old (fun o => replacementRow env o replacement (sighash o) raw) db₁ = .ok (u, db'))
    (hother : ∀ r, w r = true → r.paymentId = p) (hp : ∀ r, (f r).paymentId = r.paymentId)
    (hw : ∀ r, r.paymentId = p → w r = v r.row) (hf : ∀ r, (f r).row = g r.row)
    (hkeep : ∀ r, (g r).signer = r.signer ∧ (g r).nonce = r.nonce)
    (htx : replacement.txHash = "0x" ++ replacement.rawHash) (hraw : ∀ b, raw = some b → replacement.rawHash = hash b) :
    ∃ new : Row, Replaces hash (rowsOf db.tables p) new ∧ new.raw = raw ∧
      (∀ q, stateOf q db'.tables = stateOf q db.tables) ∧
      ∀ q, rowsOf db'.tables q = if q = p then mapIf v g (rowsOf db.tables p) ++ [new] else rowsOf db.tables q := by
  obtain ⟨new, hnew, hold, hpay, hrows⟩ := insertReplacement_ok h
  have hp₁ : rowsOf db₁.tables p = mapIf v g (rowsOf db.tables p) := by
    rw [ht]; exact rowsOf_update hp (fun r _ hr => hw r hr) hf
  rw [hp₁] at hold
  have hsame : ∀ o ∈ mapIf v g (rowsOf db.tables p), ∃ o' ∈ rowsOf db.tables p, o.signer = o'.signer ∧
    o.nonce = o'.nonce :=
    forall_mapIf (fun r hr _ => ⟨r, hr, hkeep r⟩) fun r hr _ => ⟨r, hr, rfl, rfl⟩
  refine ⟨new, replaces_of hnew hold hsame htx hraw, hnew.2.2.2, fun q => ?_, fun q => ?_⟩
  · have : stateOf q db'.tables = stateOf q db₁.tables := by unfold stateOf; rw [hpay]
    rw [this, ht, stateOf_updateTransactions]
  · rw [hrows]
    by_cases hq : q = p
    · rw [if_pos hq, if_pos hq, hp₁]
    · rw [if_neg hq, if_neg hq, ht]
      refine rowsOf_update_other hp fun r _ hr => Bool.eq_false_iff.2 fun hwr => hq ?_
      rw [← hr, hother r hwr]

theorem rowOf_payment {id : Nat} (r : Transaction) (h : rowOf p id S r = true) : r.paymentId = p := by
  simp only [rowOf, Bool.decide_and, Bool.and_eq_true, decide_eq_true_eq] at h
  exact h.2.1

theorem rowOf_row {id : Nat} (r : Transaction) (h : r.paymentId = p) : rowOf p id S r = Row.is id S r.row := by
  rw [Bool.eq_iff_iff, Row.is_iff]
  simp [rowOf, Transaction.row, h]

theorem markTxAmbiguousReplaced_moves (hknow : replacement.txHash = "0x" ++ replacement.rawHash)
    (h : markTxAmbiguousReplaced env p t replacement actor db = .ok (u, db')) : Moves hash Plain db db' := by
  obtain ⟨db₁, hc, ht, hrest⟩ := updateOne_ok h
  obtain ⟨_, db₂, hi, hm⟩ := Txn.bind_ok hrest
  obtain ⟨new, hrepl, hraw, hst, hrows⟩ := marked_replaced_ok hash ht hi rowOf_payment (fun _ => rfl) rowOf_row
    (g := fun r => { r with status := .replaced, txHash := r.rawHash.map ("0x" ++ ·) }) (fun _ => rfl)
    (fun _ => ⟨rfl, rfl⟩) hknow (fun _ hb => by cases hb)
  exact (moves_payment hst hrows (transitionPayment_ok hm) (.resign _ t new (has_rowOf hc) hrepl hraw)).mono
    fun _ h => h.elim (fun h => h) fun h => h

theorem markTxReplaced_moves (hknow : replacement.txHash = "0x" ++ replacement.rawHash)
    (h : markTxReplaced env p t replacement actor db = .ok (u, db')) : Moves hash Plain db db' := by
  obtain ⟨db₁, hc, ht, hrest⟩ := updateOne_ok h
  obtain ⟨_, db₂, hi, hrest⟩ := Txn.bind_ok hrest
  obtain ⟨new, hrepl, hraw, hst, hrows⟩ := marked_replaced_ok hash ht hi rowOf_payment (fun _ => rfl) rowOf_row
    (g := fun r => { r with status := .replaced }) (fun _ => rfl) (fun _ => ⟨rfl, rfl⟩) hknow (fun _ hb => by cases hb)
  obtain ⟨previous, db₂', hr, hrest⟩ := Txn.bind_ok hrest
  obtain ⟨_, rfl⟩ := Prod.mk.inj (Txn.read_ok hr)
  obtain ⟨n, db₃, hu, hrest⟩ := Txn.bind_ok hrest
  obtain ⟨hn, ht₃⟩ := updatePayments_ok hu
  simp only [Bool.decide_and] at hn ht₃
  have hlast : n = 1 ∧ db'.tables.payments = db₃.tables.payments ∧
    db'.tables.transactions = db₃.tables.transactions := by
    split at hrest
    · exact ⟨rfl, insertTransition_ok hrest⟩
    · cases Txn.pure_ok hrest
      exact ⟨rfl, rfl, rfl⟩
    · exact (Txn.fail_ok hrest).elim
  obtain ⟨q, -, -, hs, hm⟩ := moved_update (hlast.2.1.trans (congrArg Tables.payments ht₃))
    (by rw [hlast.2.2, ht₃]; rfl) (fun _ => rfl) (fun _ => rfl) (hn.symm.trans hlast.1)
  have hs : q.state = .broadcast ∨ q.state = .replaced := by simpa using hs
  exact (moves_payment hst hrows hm (.replace q.state _ t new hs (has_rowOf hc) hrepl hraw)).mono
    fun _ h => h.elim (fun h => h) fun h => h

/-- The active row of `p` is dropped and the row `id` is marked as landed. -/
theorem landed_rows {id : Nat} {drop : Transaction → Transaction} {g : Row → Row} {db₁ db₂ : DB}
    (ht₁ : db₁.tables = db.tables.updateTransactions
      (fun r => decide (r.paymentId = p ∧ r.status ∈ activeTransactionStatuses)) drop)
    (ht₂ : db₂.tables = db₁.tables.updateTransactions (rowOf p id [.replaced]) f)
    (hc : db₁.tables.transactions.countP (rowOf p id [.replaced]) = 1)
    (hp₁ : ∀ r, (drop r).paymentId = r.paymentId) (hf₁ : ∀ r, (drop r).row = { r.row with status := .dropped })
    (hp₂ : ∀ r, (f r).paymentId = r.paymentId) (hf₂ : ∀ r, (f r).row = g r.row) :
    Has id [.replaced] (rowsOf db.tables p) ∧
      ∀ q, rowsOf db₂.tables q = if q = p then
        advance id [.replaced] g (mapIf Row.active (fun r => { r with status := .dropped }) (rowsOf db.tables p))
        else rowsOf db.tables q := by
  have hp : rowsOf db₁.tables p = mapIf Row.active (fun r => { r with status := .dropped }) (rowsOf db.tables p) := by
    rw [ht₁]
    refine rowsOf_update hp₁ (fun r _ hr => ?_) hf₁
    rw [Bool.eq_iff_iff, Row.active_iff]
    simp [Transaction.row, hr]
  have hother : ∀ q, q ≠ p → rowsOf db₁.tables q = rowsOf db.tables q := fun q hq => by
    rw [ht₁]
    refine rowsOf_update_other hp₁ fun r _ hr => ?_
    have : r.paymentId ≠ p := by rw [hr]; exact hq
    simp [this]
  refine ⟨?_, fun q => ?_⟩
  -- the row that landed was not active, so dropping the active one leaves it
  · obtain ⟨r, hr, his⟩ := has_rowOf hc
    rw [hp, mem_mapIf] at hr
    obtain ⟨r₀, hr₀, -, rfl⟩ | ⟨hr, -⟩ := hr
    · have := (Row.is_iff.1 his).2
      simp at this
    · exact ⟨r, hr, his⟩
  · rw [ht₂, rowsOf_rowOf hp₂ hf₂, hp]
    by_cases hq : q = p
    · rw [if_pos hq, if_pos hq]
    · rw [if_neg hq, if_neg hq, hother q hq]

theorem markReplacementLanded_moves {n g : Nat} {succeeded : Bool}
    (h : markReplacementLanded env p t succeeded n blockHash g c actor db = .ok (u, db')) :
    Moves hash (fun k => k = .plain ∨ (k = .landed ∧ succeeded = true) ∨ (k = .final ∧ succeeded = false)) db db' := by
  obtain ⟨db₁, -, ht₁, hrest⟩ := updateOne_ok h
  obtain ⟨db₂, hc, ht₂, hm⟩ := updateOne_ok hrest
  obtain ⟨-, s, hs, hm⟩ := transitionPaymentIn_ok hm (fun _ => rfl) fun _ => rfl
  have hst : ∀ q, stateOf q db₂.tables = stateOf q db.tables := fun q => by rw [ht₂, ht₁]; rfl
  cases succeeded with
  | true =>
    obtain ⟨hhas, hrows⟩ := landed_rows (g := fun r => { r with status := .confirming }) ht₁ ht₂ hc (fun _ => rfl)
      (fun _ => rfl) (fun _ => rfl) fun _ => rfl
    refine (moves_payment hst hrows hm (.land s _ t (by simpa using hs) hhas)).mono fun _ h => ?_
    exact h.imp (fun h => h) fun h => .inl ⟨h, rfl⟩
  | false =>
    obtain ⟨hhas, hrows⟩ := landed_rows (g := fun r => { r with status := .reverted }) ht₁ ht₂ hc (fun _ => rfl)
      (fun _ => rfl) (fun _ => rfl) fun _ => rfl
    have hs : s ∈ waiting := by
      simp only [Bool.false_eq_true, if_false, List.mem_cons, List.not_mem_nil, or_false] at hs
      rcases hs with rfl | rfl | rfl <;> decide
    exact (moves_payment hst hrows hm (.landReverted s _ t hs hhas)).mono
      fun _ h => h.imp (fun h => h) fun h => .inr ⟨h, rfl⟩

/-! ## Gap fillers -/

theorem markGapFillerPrepared_moves {g : Nat} {raw : Bytes} {m f : Int}
    (hknow : ∀ p, Has t [.dropped] (rowsOf db.tables p) → Retired (lifeOf db.tables p))
    (h : markGapFillerPrepared env t (hash raw) ("0x" ++ hash raw) raw g m f db = .ok (u, db')) :
    Moves hash (fun k => k = .plain ∨ k = .prepared) db db' := by
  obtain ⟨-, ht⟩ := updateOne_last_ok h
  exact moves_id ht (fun r => by simp) (fun p hhas => .prepare _ t raw (hknow p hhas) hhas) (fun _ => rfl) fun _ => rfl

theorem markGapFillerReplaced_moves {raw : Bytes}
    (htx : replacement.txHash = "0x" ++ replacement.rawHash) (hraw : replacement.rawHash = hash raw)
    (h : markGapFillerReplaced env p t replacement raw db = .ok (u, db')) : Moves hash Plain db db' := by
  obtain ⟨db₁, hc, ht, hi⟩ := updateOne_ok h
  obtain ⟨new, hrepl, hnew, hst, hrows⟩ := marked_replaced_ok hash ht hi
    (v := fun r => r.is t [.broadcast] && r.raw.isSome) (g := fun r => { r with status := .replaced })
    (fun r hr => by simp only [Bool.decide_and, Bool.and_eq_true, decide_eq_true_eq] at hr; exact hr.2.1) (fun _ => rfl)
    (fun r hr => by rw [Bool.eq_iff_iff, Bool.and_eq_true, Row.is_iff]; simp [Transaction.row, hr, and_assoc])
    (fun _ => rfl) (fun _ => ⟨rfl, rfl⟩) htx (fun b hb => by cases hb; exact hraw)
  have hhas : ∃ r ∈ rowsOf db.tables p, r.is t [.broadcast] = true ∧ r.raw.isSome := by
    obtain ⟨r, hr, hw⟩ := exists_of_countP_one hc
    simp only [Bool.decide_and, Bool.and_eq_true, decide_eq_true_eq] at hw
    obtain ⟨hid, hp, hs, hsome⟩ := hw
    exact ⟨r.row, mem_rowsOf.2 ⟨r, hr, hp, rfl⟩, Row.is_iff.2 ⟨hid, by simp [Transaction.row, hs]⟩, hsome⟩
  refine moves_at_plain (p := p) (fun q hq => ?_) ?_
  · unfold lifeOf; rw [hst, hrows, if_neg hq]
  · unfold lifeOf; rw [hst, hrows, if_pos rfl]
    exact .refill _ _ t new hhas hrepl (by rw [hnew]; rfl)

/-- The row `id` of `p` is marked, then its siblings are dropped. -/
theorem siblings_rows {id : Nat} {drop : Transaction → Transaction} {g : Row → Row}
    {db₁ : DB} {t₂ : Tables} (hrows : ∀ q, rowsOf db₁.tables q =
      if q = p then advance id [.broadcast, .replaced] g (rowsOf db.tables p) else rowsOf db.tables q)
    (ht : t₂ = db₁.tables.updateTransactions w drop)
    (hw : ∀ r, w r = decide (r.paymentId = p ∧ r.id ≠ id ∧ r.status ∈ [.broadcast, .replaced]))
    (hp : ∀ r, (drop r).paymentId = r.paymentId) (hf : ∀ r, (drop r).row = { r.row with status := .dropped }) :
    ∀ q, rowsOf t₂ q = if q = p then mapIf (fun r => r.id ≠ id ∧ r.status ∈ [.broadcast, .replaced])
      (fun r => { r with status := .dropped }) (advance id [.broadcast, .replaced] g (rowsOf db.tables p))
      else rowsOf db.tables q := by
  intro q
  by_cases hq : q = p
  · have hp₁ := hrows p
    rw [if_pos rfl] at hp₁
    rw [if_pos hq, hq, ← hp₁, ht]
    refine rowsOf_update hp (fun r _ hr => ?_) hf
    rw [hw]
    simp [Transaction.row, hr]
  · rw [if_neg hq, ht, rowsOf_update_other hp fun r _ hr => ?_, hrows, if_neg hq]
    have : r.paymentId ≠ p := by rw [hr]; exact hq
    rw [hw]
    simp [this]

theorem markGapFillerSucceeded_moves {n g : Nat}
    (h : markGapFillerSucceeded env p t n blockHash g c actor db = .ok (u, db')) :
    Moves hash (fun k => k = .plain ∨ k = .consumed) db db' := by
  obtain ⟨db₁, hc, ht, hrest⟩ := updateOne_ok h
  obtain ⟨_, db₂, hu, hm⟩ := Txn.bind_ok hrest
  obtain ⟨-, ht₂⟩ := updateTransactions_ok hu
  have hrows₁ : ∀ q, rowsOf db₁.tables q = if q = p then advance t [.broadcast, .replaced]
      (fun r => { r with status := .confirming }) (rowsOf db.tables p) else rowsOf db.tables q := fun q => by
    rw [ht]; refine rowsOf_rowOf ?_ ?_ q <;> exact fun _ => rfl
  have hrows := siblings_rows hrows₁ ht₂ (fun _ => rfl) (fun _ => rfl) fun _ => rfl
  exact moves_payment (fun q => by rw [ht₂, ht]; rfl) hrows (transitionPayment_ok hm) (.escalate _ t (has_rowOf hc))

theorem markGapFillerResolved_moves {g : Nat}
    (hknow : ∀ p, Has t [.broadcast, .replaced] (rowsOf db.tables p) → Retired (lifeOf db.tables p))
    (h : markGapFillerResolved env t g c db = .ok (u, db')) :
    Moves hash (fun k => k = .plain ∨ k = .consumed) db db' := by
  obtain ⟨db₁, hc, ht, hrest⟩ := updateOne_ok h
  obtain ⟨owner, db₁', hr, hrest⟩ := Txn.bind_ok hrest
  obtain ⟨howner, rfl⟩ := Prod.mk.inj (Txn.read_ok hr)
  obtain ⟨_, db₂, hu, hrest⟩ := Txn.bind_ok hrest
  obtain ⟨-, ht₂⟩ := updateTransactions_ok hu
  cases Txn.pure_ok hrest
  obtain ⟨r, hr, hw⟩ := exists_of_countP_one hc
  simp only [Bool.decide_and, Bool.and_eq_true, decide_eq_true_eq] at hw
  have hmem : r.row ∈ rowsOf db.tables r.paymentId := mem_rowsOf.2 ⟨r, hr, rfl, rfl⟩
  have hhas : Has t [.broadcast, .replaced] (rowsOf db.tables r.paymentId) := ⟨r.row, hmem, Row.is_iff.2 hw⟩
  have hrows₁ : ∀ q, rowsOf db₁.tables q = if q = r.paymentId then advance t [.broadcast, .replaced]
      (fun r => { r with status := .reverted }) (rowsOf db.tables r.paymentId) else rowsOf db.tables q := fun q => by
    have hall : rowsOf db₁.tables q = advance t [.broadcast, .replaced] (fun r => { r with status := .reverted })
        (rowsOf db.tables q) := by
      rw [ht]; refine rowsOf_id_update ?_ ?_ ?_ q <;> exact fun _ => rfl
    rw [hall]
    by_cases hq : q = r.paymentId
    · rw [if_pos hq, hq]
    · rw [if_neg hq]
      exact advance_of_absent fun x hx hid => hq (rowsOf_id db hx hmem (hid.trans hw.1.symm)).1
  have hown : owner = some r.paymentId := by
    have hmap : db₁.tables.transactions.map (fun r => (r.id, r.paymentId)) =
        db.tables.transactions.map fun r => (r.id, r.paymentId) := by
      rw [ht]; refine map_mapIf_of_keeps ?_ _; exact fun _ _ => rfl
    have : (r.id, r.paymentId) ∈ db₁.tables.transactions.map fun r => (r.id, r.paymentId) := by
      rw [hmap]; exact List.mem_map.2 ⟨r, hr, rfl⟩
    obtain ⟨r₁, hr₁, heq⟩ := List.mem_map.1 this
    obtain ⟨hid, hpay⟩ := Prod.mk.inj heq
    rw [← howner, ← hw.1, ← hid, find?_key db₁.wf.transactionIds hr₁, Option.map_some, hpay]
  have hrows := siblings_rows hrows₁ ht₂ (fun x => by rw [hown]; simp) (fun _ => rfl) fun _ => rfl
  have hst : ∀ q, stateOf q db'.tables = stateOf q db.tables := fun q => by rw [ht₂, ht]; rfl
  refine moves_at (p := r.paymentId) (fun q hq => ?_) ?_
  · unfold lifeOf; rw [hst, hrows, if_neg hq]
  · unfold lifeOf; rw [hst, hrows, if_pos rfl]
    exact .resolve _ t (hknow _ hhas) hhas

end Eth402.Store
