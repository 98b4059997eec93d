/-
What an answer of the store says about the tables: the rows behind a loaded piece of work, a lease or a
listed transaction, and the rows a successful write leaves.
-/
import Eth402.Settlement.Filler
import Eth402.Store.Steps

namespace Eth402.Store

open Lib Settlement

variable {hash : Bytes → String} {db db' : DB} {env : DbEnv}

/-! ## Reads -/

/-- The row and the payment behind a loaded piece of work. -/
structure Behind (t : Tables) (work : Work) (q : Payment) (r : Transaction) : Prop where
  payment : q ∈ t.payments
  row : r ∈ t.transactions
  owner : r.paymentId = q.id
  paymentId : work.paymentId = q.id
  transactionId : work.transactionId = r.id
  validBefore : q.validBefore = some work.authorization.validBefore

theorem Payment.authorization_ok {p : Payment} {a : Authorization} (h : p.authorization = .ok a) :
    p.validBefore = some a.validBefore := by
  unfold Payment.authorization at h
  split at h
  · cases h; assumption
  · cases h

variable {p : Nat}

theorem loadSettlementWork_ok {work : Work} (h : loadSettlementWork env p db = .ok (work, db')) :
    db' = db ∧ work.paymentId = p ∧ ∃ q r, Behind db.tables work q r ∧ r.active = true ∧
      work.transactionStatus = r.status ∧ work.txHash = r.txHash.getD "" ∧
      work.rawHash = r.rawTransactionHash.getD "" ∧ work.transactionUpdatedAt = r.updatedAt ∧
      work.ambiguousAttempts = r.ambiguousAttempts ∧ work.dbNow = env.now := by
  obtain ⟨hq, rfl⟩ := Txn.query_ok h
  refine ⟨rfl, ?_⟩
  split at hq
  · rename_i q r hp hr
    have hqp : q.id = p := by simpa using List.find?_some hp
    have hrp : r.paymentId = p ∧ r.active = true := by simpa using List.find?_some hr
    unfold workOf at hq
    obtain ⟨a, ha, hq⟩ := except_bind_ok hq
    obtain ⟨n, -, hq⟩ := except_bind_ok hq
    dsimp only at hq
    split at hq <;>
    · obtain ⟨g, -, hq⟩ := except_bind_ok hq
      cases hq
      exact ⟨hqp, q, r, ⟨List.mem_of_find?_eq_some hp, List.mem_of_find?_eq_some hr, hrp.1.trans hqp.symm, rfl, rfl,
        Payment.authorization_ok ha⟩, hrp.2, rfl, rfl, rfl, rfl, rfl, rfl⟩
  · cases hq

theorem claimPayments_ok {request : ClaimRequest} {leases : List Lease}
    (h : claimPayments env request db = .ok (leases, db')) :
    ∀ lease ∈ leases, ∃ s ∈ request.states, stateOf lease.paymentId db.tables = some s := by
  unfold claimPayments at h
  cases hv : request.validate with
  | some e =>
    rw [hv] at h
    exact (Txn.fail_ok h).elim
  | none =>
    rw [hv] at h
    obtain ⟨chosen, db₁, hr, hrest⟩ := Txn.bind_ok h
    obtain ⟨hchosen, rfl⟩ := Prod.mk.inj (Txn.read_ok hr)
    obtain ⟨_, db₂, -, hrest⟩ := Txn.bind_ok hrest
    cases Txn.pure_ok hrest
    intro lease hl
    obtain ⟨p, hp, rfl⟩ := List.mem_map.1 hl
    rw [DbEnv.mem_arrange, ← hchosen] at hp
    have hp := (List.mem_filter.1 (List.mem_of_mem_take hp)).1
    rw [List.mem_insertionSort, DbEnv.mem_arrange, List.mem_filter] at hp
    obtain ⟨hp, hs⟩ := hp
    simp only [Bool.decide_and, Bool.and_eq_true, decide_eq_true_eq] at hs
    exact ⟨p.state, hs.1, stateOf_eq_some hp⟩

theorem listDroppedBlockingGaps_ok {signer : String} {before : Time} {works : List Work}
    (h : listDroppedBlockingGaps env signer before db = .ok (works, db')) :
    db' = db ∧ ∀ work ∈ works, ∃ q r, Behind db.tables work q r ∧ q.state ∈ [.expired, .failed] ∧
      work.authorization.validBefore ≤ before ∧ r.signerAddress = signer := by
  obtain ⟨hq, rfl⟩ := Txn.query_ok h
  refine ⟨rfl, fun work hw => ?_⟩
  obtain ⟨⟨r, q⟩, hmem, hf⟩ := mem_of_mapM_ok hq hw
  rw [DbEnv.mem_arrange, List.mem_filterMap] at hmem
  obtain ⟨r', hr', hsome⟩ := hmem
  split at hsome
  · rename_i q' hfind
    split at hsome
    · rename_i hcond
      cases hsome
      obtain ⟨-, hsigner, -, hstate, hbefore, -⟩ := hcond
      obtain ⟨a, ha, hf⟩ := except_bind_ok hf
      obtain ⟨n, -, hf⟩ := except_bind_ok hf
      cases hf
      have hvb := Payment.authorization_ok ha
      have howner : q.id = r.paymentId := by simpa using List.find?_some hfind
      refine ⟨q, r, ⟨List.mem_of_find?_eq_some hfind, hr', howner.symm, rfl, rfl, hvb⟩, hstate, ?_, hsigner⟩
      rw [hvb] at hbefore
      simpa using hbefore
    · cases hsome
  · cases hsome

theorem listStuckGapFillers_ok {signer : String} {stuckFor : Int} {works : List Work}
    (h : listStuckGapFillers env signer stuckFor db = .ok (works, db')) :
    db' = db ∧ ∀ work ∈ works, ∃ q r, Behind db.tables work q r ∧ r.signerAddress = signer := by
  obtain ⟨hq, rfl⟩ := Txn.query_ok h
  refine ⟨rfl, fun work hw => ?_⟩
  obtain ⟨⟨r, q⟩, hmem, hf⟩ := mem_of_mapM_ok hq hw
  rw [DbEnv.mem_arrange, List.mem_filterMap] at hmem
  obtain ⟨r', hr', hsome⟩ := hmem
  split at hsome
  · rename_i q' hfind
    split at hsome
    · rename_i hcond
      cases hsome
      obtain ⟨a, ha, hf⟩ := except_bind_ok hf
      obtain ⟨n, -, hf⟩ := except_bind_ok hf
      have howner : q.id = r.paymentId := by simpa using List.find?_some hfind
      have hbehind : ∀ w : Work, w.paymentId = q.id → w.transactionId = r.id → w.authorization = a →
          Behind db'.tables w q r := fun w hp ht hauth =>
        ⟨List.mem_of_find?_eq_some hfind, hr', howner.symm, hp, ht, by rw [hauth]; exact Payment.authorization_ok ha⟩
      dsimp only at hf
      -- a row with a null column is no answer
      split at hf
      · obtain ⟨g, -, hf⟩ := except_bind_ok hf
        split at hf
        · split at hf
          · cases hf
            exact ⟨q, r, hbehind _ rfl rfl rfl, hcond.2.1⟩
          · cases hf
        · split at hf <;> cases hf
      · cases hf
    · cases hsome
  · cases hsome

/-- The row behind an entry of the watch list. -/
structure FillerRow (db : DB) (t : TrackedTransaction) (r : Transaction) : Prop where
  mem : r ∈ db.tables.transactions
  paymentId : r.paymentId = t.paymentId
  id : r.id = t.transactionId
  txHash : r.txHash = some t.txHash
  status : r.status ∈ [.broadcast, .replaced]
  raw : r.rawTransaction = some t.rawTransaction
  rawHash : r.rawTransactionHash.isSome
  state : ∃ s ∈ [State.expired, .failed], stateOf t.paymentId db.tables = some s

theorem listGapFillers_row {tracked : List TrackedTransaction} (h : listGapFillers env db = .ok (tracked, db'))
    {t : TrackedTransaction} (ht : t ∈ tracked) : ∃ r, FillerRow db t r := by
  obtain ⟨hq, rfl⟩ := Txn.query_ok h
  obtain ⟨r, hr, hf⟩ := mem_of_mapM_ok hq ht
  rw [DbEnv.mem_arrange, List.mem_filter] at hr
  obtain ⟨hr, hcond⟩ := hr
  simp only [Bool.decide_and, Bool.and_eq_true, decide_eq_true_eq] at hcond
  obtain ⟨hst, hstate, hrh, hraw⟩ := hcond
  obtain ⟨h', hscan, hf⟩ := except_bind_ok hf
  cases hf
  obtain ⟨b, hb⟩ := Option.isSome_iff_exists.1 hraw
  have htx : r.txHash = some h' := by
    unfold scanText at hscan
    split at hscan <;> cases hscan
    assumption
  refine ⟨r, hr, rfl, rfl, htx, hst, by rw [hb]; rfl, hrh, ?_⟩
  unfold Tables.ownerState at hstate
  cases hs : stateOf r.paymentId db'.tables with
  | none => rw [hs] at hstate; cases hstate
  | some s => rw [hs] at hstate; exact ⟨s, by simpa using hstate, rfl⟩

theorem listGapFillers_ok {tracked : List TrackedTransaction} (h : listGapFillers env db = .ok (tracked, db')) :
    db' = db ∧ ∀ t ∈ tracked, ∃ r ∈ db.tables.transactions, r.paymentId = t.paymentId ∧ r.id = t.transactionId ∧
      r.rawTransaction = some t.rawTransaction ∧ r.rawTransactionHash.isSome ∧
      ∃ s ∈ [State.expired, .failed], stateOf t.paymentId db.tables = some s := by
  refine ⟨(Txn.query_ok h).2, fun t ht => ?_⟩
  obtain ⟨r, hr⟩ := listGapFillers_row h ht
  exact ⟨r, hr.mem, hr.paymentId, hr.id, hr.raw, hr.rawHash, hr.state⟩

/-! ## Writes -/

/-- The row `id` of `p` has the hash `h`. -/
def Hashed (db : DB) (p id : Nat) (h : String) : Prop := ∃ r ∈ rowsOf db.tables p, r.id = id ∧ r.rawHash = some h

/-- An update that changes the row `id` hit a row of some payment. -/
theorem exists_row_of_update (id : Nat) (S : List TxStatus) {w : Transaction → Bool} {f : Transaction → Transaction}
    {g : Row → Row} (hc : db.tables.transactions.countP w = 1) (ht : db'.tables = db.tables.updateTransactions w f)
    (hw : ∀ r, w r = decide (r.id = id ∧ r.status ∈ S)) (hp : ∀ r, (f r).paymentId = r.paymentId)
    (hf : ∀ r, (f r).row = g r.row) :
    ∃ p, ∃ r ∈ rowsOf db.tables p, r.id = id ∧ r.status ∈ S ∧ g r ∈ rowsOf db'.tables p := by
  obtain ⟨r, hr, hwr⟩ := exists_of_countP_one hc
  rw [hw] at hwr
  obtain ⟨hid, hs⟩ := of_decide_eq_true hwr
  have hmem : r.row ∈ rowsOf db.tables r.paymentId := mem_rowsOf.2 ⟨r, hr, rfl, rfl⟩
  refine ⟨r.paymentId, r.row, hmem, hid, hs, ?_⟩
  rw [ht, rowsOf_id_update hw hp hf]
  exact mem_advance.2 (.inl ⟨r.row, hmem, ⟨hid, hs⟩, rfl⟩)

variable {t : Nat} {u : Unit}

theorem markTxSigned_ok {n : Nat} {rawHash sighash : String} {m f : Int}
    (h : markTxSigned env t rawHash sighash n m f db = .ok (u, db')) :
    ∃ p, Has t [.intent] (rowsOf db.tables p) ∧
      ∃ r ∈ rowsOf db'.tables p, r.id = t ∧ r.rawHash = some rawHash ∧ r.status = .broadcasting := by
  obtain ⟨hc, ht⟩ := updateOne_last_ok h
  obtain ⟨p, r, hr, hid, hs, hr'⟩ := exists_row_of_update t [.intent]
    (g := fun r => { r with status := .broadcasting, rawHash := some rawHash }) hc ht (fun r => by simp) (fun _ => rfl)
    fun _ => rfl
  exact ⟨p, ⟨r, hr, Row.is_iff.2 ⟨hid, hs⟩⟩, _, hr', hid, rfl, rfl⟩

variable {raw : Bytes}

theorem markGapFillerPrepared_ok {n : Nat} {rawHash txHash : String} {m f : Int}
    (h : markGapFillerPrepared env t rawHash txHash raw n m f db = .ok (u, db')) : ∃ p, Hashed db' p t rawHash := by
  obtain ⟨hc, ht⟩ := updateOne_last_ok h
  obtain ⟨p, r, -, hid, -, hr'⟩ := exists_row_of_update t [.dropped]
    (g := fun r => { r with
      status := .broadcast, rawHash := some rawHash, txHash := some txHash, raw := some raw })
    hc ht (fun r => by simp) (fun _ => rfl) fun _ => rfl
  exact ⟨p, _, hr', hid, rfl⟩

/-- Preparing a filler writes its hashes and bytes over the named row. -/
theorem markGapFillerPrepared_rows {n : Nat} {rawHash txHash : String} {m f : Int}
    (h : markGapFillerPrepared env t rawHash txHash raw n m f db = .ok (u, db')) (p : Nat) :
    lifeOf db'.tables p = ⟨stateOf p db.tables, advance t [.dropped] (fun r => { r with
      status := .broadcast, rawHash := some rawHash, txHash := some txHash, raw :=
        some raw }) (rowsOf db.tables p)⟩ := by
  obtain ⟨-, ht⟩ := updateOne_last_ok h
  unfold lifeOf
  rw [ht]
  congr 1
  apply rowsOf_id_update
  · exact fun r => by simp
  · exact fun _ => rfl
  · exact fun _ => rfl

theorem markGapFillerPrepared_raw {n : Nat} {rawHash txHash : String} {m f : Int}
    (h : markGapFillerPrepared env t rawHash txHash raw n m f db = .ok (u, db')) {x : Row}
    (hx : x ∈ rowsOf db'.tables p) : x ∈ rowsOf db.tables p ∨ ∃ r ∈ rowsOf db.tables p, r.id = t := by
  have hrows := congrArg Life.rows (markGapFillerPrepared_rows h p)
  change x ∈ (lifeOf db'.tables p).rows at hx
  rw [hrows] at hx
  rcases mem_advance.1 hx with ⟨r, hr, ⟨hid, -⟩, -⟩ | ⟨hx, -⟩
  · exact .inr ⟨r, hr, hid⟩
  · exact .inl hx

/-- The payment has a row with the hash `h`. -/
def Recorded (db : DB) (p : Nat) (h : String) : Prop := ∃ r ∈ rowsOf db.tables p, r.rawHash = some h

variable {replacement : Replacement}

theorem insertReplacement_recorded {old : Nat} {sighash : Transaction → Option String} {raw : Option Bytes}
    (h : insertReplacement env p old (fun o => replacementRow env o replacement (sighash o) raw) db = .ok (u, db')) :
    Recorded db' p replacement.rawHash := by
  obtain ⟨new, hnew, -, -, hrows⟩ := insertReplacement_ok h
  refine ⟨new, ?_, hnew.2.1⟩
  rw [hrows, if_pos rfl]
  simp

variable {actor : String}

theorem markTxAmbiguousReplaced_ok (h : markTxAmbiguousReplaced env p t replacement actor db = .ok (u, db')) :
    Recorded db' p replacement.rawHash := by
  obtain ⟨db₁, -, -, hrest⟩ := updateOne_ok h
  obtain ⟨_, db₂, hi, hm⟩ := Txn.bind_ok hrest
  obtain ⟨r, hr, hh⟩ := insertReplacement_recorded hi
  exact ⟨r, by rw [(transitionPayment_ok hm).rowsOf]; exact hr, hh⟩

theorem markTxReplaced_ok (h : markTxReplaced env p t replacement actor db = .ok (u, db')) :
    Recorded db' p replacement.rawHash := by
  obtain ⟨db₁, -, -, hrest⟩ := updateOne_ok h
  obtain ⟨_, db₂, hi, hrest⟩ := Txn.bind_ok hrest
  obtain ⟨r, hr, hh⟩ := insertReplacement_recorded hi
  obtain ⟨previous, db₂', hread, hrest⟩ := Txn.bind_ok hrest
  obtain ⟨_, rfl⟩ := Prod.mk.inj (Txn.read_ok hread)
  obtain ⟨n, db₃, hu, hrest⟩ := Txn.bind_ok hrest
  obtain ⟨-, ht₃⟩ := updatePayments_ok hu
  have hlast : db'.tables.transactions = db₃.tables.transactions := by
    split at hrest
    · exact (insertTransition_ok hrest).2
    · cases Txn.pure_ok hrest; rfl
    · exact (Txn.fail_ok hrest).elim
  refine ⟨r, ?_, hh⟩
  unfold rowsOf at hr ⊢
  rwa [hlast, ht₃]

theorem markTxAmbiguousReplaced_state (h : markTxAmbiguousReplaced env p t replacement actor db = .ok (u, db')) :
    stateOf p db'.tables = some .replaced := by
  obtain ⟨db₁, -, -, hrest⟩ := updateOne_ok h
  obtain ⟨_, db₂, -, hm⟩ := Txn.bind_ok hrest
  rw [(transitionPayment_ok hm).state, if_pos rfl]

theorem markTxReplaced_state (h : markTxReplaced env p t replacement actor db = .ok (u, db')) :
    stateOf p db'.tables = some .replaced := by
  obtain ⟨db₁, -, -, hrest⟩ := updateOne_ok h
  obtain ⟨_, db₂, -, hrest⟩ := Txn.bind_ok hrest
  obtain ⟨previous, db₂', hread, hrest⟩ := Txn.bind_ok hrest
  obtain ⟨hprev, rfl⟩ := Prod.mk.inj (Txn.read_ok hread)
  obtain ⟨n, db₃, hu, hrest⟩ := Txn.bind_ok hrest
  obtain ⟨hn, ht₃⟩ := updatePayments_ok hu
  simp only [Bool.decide_and] at ht₃ hn
  have moved : n = 1 → stateOf p db₃.tables = some .replaced := fun h1 => by
    obtain ⟨q, -, -, -, hm⟩ := moved_update (v := db₃.tables) (congrArg Tables.payments ht₃)
      (by rw [ht₃]; rfl) (fun _ => rfl) (fun _ => rfl) (hn.symm.trans h1)
    rw [hm.state, if_pos rfl]
  split at hrest
  · rw [← moved rfl]
    unfold stateOf
    rw [(insertTransition_ok hrest).1]
  · cases Txn.pure_ok hrest
    exact moved rfl
  · exact (Txn.fail_ok hrest).elim

theorem markGapFillerReplaced_ok (h : markGapFillerReplaced env p t replacement raw db = .ok (u, db')) :
    Recorded db' p replacement.rawHash ∧ ∃ r ∈ rowsOf db.tables p, r.raw ≠ none := by
  obtain ⟨db₁, hc, -, hi⟩ := updateOne_ok h
  refine ⟨insertReplacement_recorded hi, ?_⟩
  obtain ⟨r, hr, hw⟩ := exists_of_countP_one hc
  simp only [Bool.decide_and, Bool.and_eq_true, decide_eq_true_eq] at hw
  exact ⟨r.row, mem_rowsOf.2 ⟨r, hr, hw.2.1, rfl⟩, Option.isSome_iff_ne_none.1 hw.2.2.2⟩

theorem markGapFillerPrepared_onWatch {n : Nat} {rawHash txHash : String} {m f : Int}
    (h : markGapFillerPrepared env t rawHash txHash raw n m f db = .ok (u, db')) :
    ∃ p, (∃ r ∈ rowsOf db.tables p, r.id = t) ∧ OnWatch rawHash (rowsOf db'.tables p) := by
  obtain ⟨hc, ht⟩ := updateOne_last_ok h
  obtain ⟨p, r, hr, hid, -, hr'⟩ := exists_row_of_update t [.dropped]
    (g := fun r => { r with
      status := .broadcast, rawHash := some rawHash, txHash := some txHash, raw := some raw })
    hc ht (fun r => by simp) (fun _ => rfl) fun _ => rfl
  exact ⟨p, ⟨r, hr, hid⟩, _, hr', rfl, by simp, rfl⟩

theorem markGapFillerReplaced_onWatch (h : markGapFillerReplaced env p t replacement raw db = .ok (u, db')) :
    OnWatch replacement.rawHash (rowsOf db'.tables p) := by
  obtain ⟨db₁, -, -, hi⟩ := updateOne_ok h
  obtain ⟨new, hnew, -, -, hrows⟩ := insertReplacement_ok hi
  refine ⟨new, ?_, hnew.2.1, ?_, ?_⟩
  · rw [hrows, if_pos rfl]
    simp
  · rw [hnew.1]
    simp
  · rw [hnew.2.2.2]
    rfl

/-- Two updates, of which the second gives rows up and the first only touches the row `t`. -/
theorem mined_of_updates {db₁ : DB} {w w' : Transaction → Bool} {f f' : Transaction → Transaction}
    (ht : db₁.tables = db.tables.updateTransactions w f) (ht' : db'.tables = db₁.tables.updateTransactions w' f')
    (hf' : ∀ r, w' r = true → (f' r).status ∉ minedStatuses) (hw : ∀ r, w r = true → r.id = t ∧ (f r).id = r.id)
    {r : Transaction} (hr : r ∈ db'.tables.transactions) (hst : r.status ∈ minedStatuses) :
    r.id = t ∨ r ∈ db.tables.transactions := by
  rw [ht'] at hr
  rcases mem_mapIf.1 hr with ⟨x, -, hx, rfl⟩ | ⟨hr, -⟩
  · exact absurd hst (hf' x hx)
  · rw [ht] at hr
    rcases mem_mapIf.1 hr with ⟨x, -, hx, rfl⟩ | ⟨hr, -⟩
    · exact .inl ((hw x hx).2.trans (hw x hx).1)
    · exact .inr hr

/-- A call that ends the watch of a filler records no other row as mined. -/
theorem markGapFillerResolved_mined {g : Nat} {c : Int}
    (h : markGapFillerResolved env t g c db = .ok (u, db')) {r : Transaction} (hr : r ∈ db'.tables.transactions)
    (hst : r.status ∈ minedStatuses) : r.id = t ∨ r ∈ db.tables.transactions := by
  obtain ⟨db₁, -, ht, hrest⟩ := updateOne_ok h
  obtain ⟨owner, db₁', hread, hrest⟩ := Txn.bind_ok hrest
  obtain ⟨-, rfl⟩ := Prod.mk.inj (Txn.read_ok hread)
  obtain ⟨_, db₂, hu, hrest⟩ := Txn.bind_ok hrest
  obtain ⟨-, ht₂⟩ := updateTransactions_ok hu
  cases Txn.pure_ok hrest
  exact mined_of_updates ht ht₂ (fun _ _ => by simp [minedStatuses]) (fun r hw =>
    ⟨(of_decide_eq_true hw).1, rfl⟩) hr hst

theorem markGapFillerSucceeded_mined {n g : Nat} {blockHash : String} {c : Int}
    (h : markGapFillerSucceeded env p t n blockHash g c actor db = .ok (u, db')) {r : Transaction}
    (hr : r ∈ db'.tables.transactions) (hst : r.status ∈ minedStatuses) : r.id = t ∨ r ∈ db.tables.transactions := by
  obtain ⟨db₁, -, ht, hrest⟩ := updateOne_ok h
  obtain ⟨_, db₂, hu, hm⟩ := Txn.bind_ok hrest
  obtain ⟨-, ht₂⟩ := updateTransactions_ok hu
  rw [(transitionPayment_ok hm).transactions] at hr
  exact mined_of_updates ht ht₂ (fun _ _ => by simp [minedStatuses]) (fun r hw =>
    ⟨(of_decide_eq_true hw).1, rfl⟩) hr hst

theorem finalize_state {status : TxStatus} {state : State} {word : String}
    {assignRow : Transaction → Transaction} {assign : Payment → Payment}
    (h : finalize env p t status state word actor assignRow assign db = .ok (u, db'))
    (hid : ∀ q, (assign q).id = q.id) (hst : ∀ q, (assign q).state = state) : stateOf p db'.tables = some state := by
  obtain ⟨-, t₁, -, -, s, -, hm⟩ | ⟨-, hmatch, rfl⟩ := finalize_ok h hid hst
  · rw [hm.state, if_pos rfl]
  · simp only [terminalSettlementMatches, Bool.and_eq_true, List.any_eq_true, decide_eq_true_eq] at hmatch
    obtain ⟨-, q, hq, hqp, hqs⟩ := hmatch
    rw [← hqp, stateOf_eq_some hq, hqs]

theorem retireIntent_state {what : String} {target : State}
    (h : retireIntent env what target p t actor db = .ok (u, db')) : stateOf p db'.tables = some target := by
  obtain ⟨db₁, -, -, hm⟩ := updateOne_ok h
  rw [(transitionPayment_ok hm).state, if_pos rfl]

/-- The payment an intent is for, and what a final intent says about it. -/
theorem Outcome.intent_payment {request : IntentRequest} {signer : String} {intent : Intent}
    (h : Outcome env request signer db db' (.ok intent)) :
    (∃ p ∈ db.tables.payments, p.id = intent.paymentId ∧ p.paymentIdentity = padTo 68 request.paymentIdentity) ∧
      (intent.confirmed = true → stateOf intent.paymentId db.tables = some .confirmed) ∧
      (intent.reverted = true → stateOf intent.paymentId db.tables = some .reverted) := by
  cases h with
  | terminal p tx txHash hp ht hq =>
    obtain ⟨hmem, hident⟩ := requested_some hp
    refine ⟨⟨p, hmem, rfl, hident⟩, fun hc => ?_, fun hr => ?_⟩
    · rw [show (duplicateOf p request tx txHash true).paymentId = p.id from rfl, stateOf_eq_some hmem]
      simpa [duplicateOf] using hc
    · rw [show (duplicateOf p request tx txHash true).paymentId = p.id from rfl, stateOf_eq_some hmem]
      simpa [duplicateOf] using hr
  | duplicate p tx hp ht ha hq =>
    obtain ⟨hmem, hident⟩ := requested_some hp
    exact ⟨⟨p, hmem, rfl, hident⟩, fun hc => by simp [duplicateOf] at hc, fun hr => by simp [duplicateOf] at hr⟩
  | committed p nonce hp ht ha hr hc =>
    obtain ⟨hmem, hident⟩ := requested_some hp
    exact ⟨⟨p, hmem, rfl, hident⟩, fun hc => by simp at hc, fun hr => by simp at hr⟩

end Eth402.Store
