/-
The escalation of a gap filler that the chain accepted (`observeGapFiller`, `MarkGapFillerSucceeded`). The row that was
mined is recorded as confirming before its siblings are dropped, and the payment is moved from `expired` only: so the
escalation commits for an expired payment whose other rows are neither active nor already resolved, and for no other.
-/
import Eth402.Store.Answers
import Eth402.Store.Commits
import Eth402.System.Retired

namespace Eth402.System

open Lib Store Settlement Verification

/-! ## The watch and its escalation -/

/-- `ListGapFillers` returns `t`. -/
def Lists (db : DB) (t : TrackedTransaction) : Prop :=
  ∃ env list, ((listGapFillers env).run db).1 = .ok list ∧ t ∈ list

/-- The call `observeGapFiller` escalates a successful receipt with. -/
def escalation (t : TrackedTransaction) (receipt : Receipt) : Op :=
  .markGapFillerSucceeded t.paymentId t.transactionId receipt.blockNumber receipt.blockHash receipt.gasUsed
    receipt.effectiveGasPrice workerActor

/-- Another row of the payment of `t`. -/
def Sibling (t : TrackedTransaction) (r : Transaction) : Prop := r.paymentId = t.paymentId ∧ r.id ≠ t.transactionId

/-- The escalation took effect. -/
structure Escalated (t : TrackedTransaction) (receipt : Receipt) (db : DB) : Prop where
  state : stateOf t.paymentId db.tables = some .manualReview
  mined : ∃ r ∈ db.tables.transactions, r.id = t.transactionId ∧ r.paymentId = t.paymentId ∧
    r.blockNumber = some receipt.blockNumber ∧ r.blockHash = some receipt.blockHash ∧
    r.gasUsed = some receipt.gasUsed ∧ r.effectiveGasPrice = some receipt.effectiveGasPrice
  siblings : ∀ r ∈ db.tables.transactions, Sibling t r → r.status = .dropped

/-- What the escalation needs: the payment is expired, not failed; no other row of it is active or recorded reverted;
the block fits its columns. -/
structure Escalatable (t : TrackedTransaction) (receipt : Receipt) (db : DB) : Prop where
  expired : stateOf t.paymentId db.tables = some .expired
  siblings : ∀ r ∈ db.tables.transactions, Sibling t r → r.active = false ∧ r.status ≠ .reverted
  fits : receipt.blockNumber < 2 ^ 63 ∧ within 66 receipt.blockHash = true

variable {db db' : DB} {t : TrackedTransaction} {receipt : Receipt}

theorem not_escalated_of_state {s : State} (h : stateOf t.paymentId db.tables = some s) (hs : s ≠ .manualReview) :
    ¬ Escalated t receipt db := by
  intro he
  rw [he.state] at h
  cases h
  exact hs rfl

theorem Lists.row (h : Lists db t) : ∃ r, FillerRow db t r := by
  obtain ⟨env, list, hrun, ht⟩ := h
  unfold Txn.run at hrun
  split at hrun
  · cases hrun
    exact listGapFillers_row ‹_› ht
  · cases hrun

/-! ## What a committed escalation did -/

/-- The mined row, as the escalation records it. -/
def minedRow (now : Time) (receipt : Receipt) (r : Transaction) : Transaction := { r with
  status := .confirming, blockNumber := some receipt.blockNumber, blockHash := some receipt.blockHash
  gasUsed := some receipt.gasUsed, effectiveGasPrice := some receipt.effectiveGasPrice
  firstSeenAt := some (r.firstSeenAt.getD now), updatedAt := now }

/-- A sibling that is still watched, as the escalation leaves it. -/
def droppedRow (now : Time) (r : Transaction) : Transaction := { r with status := .dropped, updatedAt := now }

def watchedSibling (t : TrackedTransaction) (r : Transaction) : Bool :=
  r.paymentId = t.paymentId ∧ r.id ≠ t.transactionId ∧ r.status ∈ [.broadcast, .replaced]

/-- The three statements of the escalation. -/
structure Records (now : Time) (t : TrackedTransaction) (receipt : Receipt) (db mid db' : DB) : Prop where
  mined : mid.tables = db.tables.updateTransactions (rowOf t.paymentId t.transactionId [.broadcast, .replaced])
    (minedRow now receipt)
  moved : stateOf t.paymentId db.tables = some .expired ∧ stateOf t.paymentId db'.tables = some .manualReview
  transactions : db'.tables.transactions = mapIf (watchedSibling t) (droppedRow now) mid.tables.transactions

theorem escalation_ok {env : DbEnv} {u : Unit} (h : markGapFillerSucceeded env t.paymentId t.transactionId
      receipt.blockNumber receipt.blockHash receipt.gasUsed receipt.effectiveGasPrice workerActor db = .ok (u, db')) :
    ∃ mid, Records env.now t receipt db mid db' := by
  obtain ⟨mid, -, ht, hrest⟩ := updateOne_ok h
  obtain ⟨_, db₂, hu, hm⟩ := Txn.bind_ok hrest
  obtain ⟨-, ht₂⟩ := updateTransactions_ok hu
  have hmoved := transitionPayment_ok hm
  refine ⟨mid, ht, ⟨?_, ?_⟩, ?_⟩
  · have hbefore := hmoved.before
    rw [ht₂, ht] at hbefore
    exact hbefore
  · exact (hmoved.state _).trans (if_pos rfl)
  · rw [hmoved.transactions, ht₂]
    rfl

variable {now : Time} {mid : DB}

/-- A sibling is as it was, until the watched ones are dropped. -/
theorem Records.sibling (h : Records now t receipt db mid db') {r : Transaction} (hs : Sibling t r) :
    r ∈ mid.tables.transactions ↔ r ∈ db.tables.transactions := by
  have hmiss : ∀ {x : Transaction}, Sibling t x → rowOf t.paymentId t.transactionId [.broadcast, .replaced] x = false :=
    fun hx => decide_eq_false fun hw => hx.2 hw.1
  rw [h.mined]
  constructor
  · intro hr
    rcases mem_mapIf.1 hr with ⟨x, -, hw, rfl⟩ | ⟨hr, -⟩
    · exact absurd (of_decide_eq_true hw).1 hs.2
    · exact hr
  · intro hr
    exact mem_mapIf.2 (.inr ⟨hr, hmiss hs⟩)

theorem Records.escalatable (h : Records now t receipt db mid db') (hlist : Lists db t) (he : Escalated t receipt db') :
    Escalatable t receipt db := by
  obtain ⟨r, hr⟩ := hlist.row
  have hmem : minedRow now receipt r ∈ mid.tables.transactions := by
    rw [h.mined]
    exact mem_mapIf.2 (.inl ⟨r, hr.mem, decide_eq_true ⟨hr.id, hr.paymentId, hr.status⟩, rfl⟩)
  refine ⟨h.moved.1, fun x hx hs => ⟨?_, ?_⟩, ?_⟩
  · -- the mined row is active by now, and the index admits no other
    rw [Bool.eq_false_iff]
    intro hact
    have hone : minedRow now receipt r = x :=
      eq_of_key mid.wf.oneActive (List.mem_filter.2 ⟨hmem, rfl⟩) (List.mem_filter.2 ⟨(h.sibling hs).2 hx, hact⟩)
        (hr.paymentId.trans hs.1.symm)
    exact hs.2 (hone ▸ hr.id)
  · intro hrev
    have hx' : x ∈ db'.tables.transactions := by
      rw [h.transactions]
      refine mem_mapIf.2 (.inr ⟨(h.sibling hs).2 hx, decide_eq_false fun hw => ?_⟩)
      have hst := hw.2.2
      rw [hrev] at hst
      simp at hst
    have hdropped := he.siblings x hx' hs
    rw [hrev] at hdropped
    cases hdropped
  · have hfits := (fits_of_mem hmem).1
    simp only [Transaction.fits, decide_eq_true_eq] at hfits
    obtain ⟨-, -, -, hhash, hnumber, -⟩ := hfits
    exact ⟨by simpa [minedRow] using hnumber, hhash⟩

theorem Records.escalated (h : Records now t receipt db mid db') (hlist : Lists db t) {hash : Bytes → String}
    (hshape : Shape hash (lifeOf db.tables t.paymentId)) (hc : Escalatable t receipt db) : Escalated t receipt db' := by
  obtain ⟨r, hr⟩ := hlist.row
  refine ⟨h.moved.2, ⟨minedRow now receipt r, ?_, hr.id, hr.paymentId, rfl, rfl, rfl, rfl⟩, fun x hx hs => ?_⟩
  · rw [h.transactions, h.mined]
    refine mem_mapIf.2 (.inr ⟨mem_mapIf.2 (.inl ⟨r, hr.mem, decide_eq_true ⟨hr.id, hr.paymentId, hr.status⟩, rfl⟩), ?_⟩)
    exact decide_eq_false fun hw => hw.2.1 hr.id
  · rw [h.transactions] at hx
    rcases mem_mapIf.1 hx with ⟨y, -, -, rfl⟩ | ⟨hx, hw⟩
    · rfl
    · -- what is not watched and not reverted was dropped before
      have hold := (h.sibling hs).1 hx
      have hst : x.status ∈ [TxStatus.dropped, .broadcast, .replaced, .reverted] := by
        unfold Shape lifeOf at hshape
        rw [hc.expired] at hshape
        exact (hshape x.row (mem_rowsOf.2 ⟨x, hold, hs.1, rfl⟩)).1
      have hno : x.status ∉ [TxStatus.broadcast, .replaced] := fun hin => of_decide_eq_false hw ⟨hs.1, hs.2, hin⟩
      have hrev := (hc.siblings x hold hs).2
      revert hst hno hrev
      cases x.status <;> decide

/-! ## When it commits -/

/-- Once its own row is recorded as mined, an escalatable payment has one active row. -/
theorem active_of_escalatable (hc : Escalatable t receipt db) {r : Transaction} (hr : FillerRow db t r) :
    ∀ a ∈ mapIf (rowOf t.paymentId t.transactionId [.broadcast, .replaced]) (minedRow now receipt)
      db.tables.transactions,
      ∀ b ∈ mapIf (rowOf t.paymentId t.transactionId [.broadcast, .replaced]) (minedRow now receipt)
        db.tables.transactions,
        a.active = true → b.active = true → a.paymentId = b.paymentId → a = b := by
  -- a row that was not selected is no row of the payment once it is active
  have hother : ∀ b ∈ db.tables.transactions, rowOf t.paymentId t.transactionId [.broadcast, .replaced] b = false →
      b.active = true → b.paymentId ≠ t.paymentId := by
    intro b hb hw hact hp
    by_cases hid : b.id = t.transactionId
    · obtain rfl : b = r := eq_of_key db.wf.transactionIds hb hr.mem (hid.trans hr.id.symm)
      exact of_decide_eq_false hw ⟨hid, hp, hr.status⟩
    · rw [(hc.siblings b hb ⟨hp, hid⟩).1] at hact
      cases hact
  intro a ha b hb hact hbct hab
  rcases mem_mapIf.1 ha with ⟨x, hx, hxw, rfl⟩ | ⟨ha, haw⟩ <;> rcases mem_mapIf.1 hb with ⟨y, hy, hyw, rfl⟩ | ⟨hb, hbw⟩
  · obtain ⟨hxid, -⟩ := of_decide_eq_true hxw
    obtain ⟨hyid, -⟩ := of_decide_eq_true hyw
    rw [eq_of_key db.wf.transactionIds hx hy (hxid.trans hyid.symm)]
  · exact absurd (hab.symm.trans (of_decide_eq_true hxw).2.1) (hother b hb hbw hbct)
  · exact absurd (hab.trans (of_decide_eq_true hyw).2.1) (hother a ha haw hact)
  · exact eq_of_key db.wf.oneActive (List.mem_filter.2 ⟨ha, hact⟩) (List.mem_filter.2 ⟨hb, hbct⟩) hab

theorem fits_minedRow (hc : Escalatable t receipt db) {x : Transaction} (hx : x ∈ db.tables.transactions) :
    (minedRow now receipt x).fits = true ∧ (minedRow now receipt x).check = true := by
  obtain ⟨hfits, hcheck⟩ := fits_of_mem hx
  refine ⟨?_, hcheck⟩
  simp only [Transaction.fits, decide_eq_true_eq] at hfits ⊢
  obtain ⟨h1, h2, h3, -, -, h6⟩ := hfits
  exact ⟨h1, h2, h3, hc.fits.2, by simpa [minedRow] using hc.fits.1, h6⟩

/-- Every statement of the escalation is admitted. -/
theorem escalation_commits (env : DbEnv) (hlist : Lists db t) (hc : Escalatable t receipt db) :
    ∃ db', markGapFillerSucceeded env t.paymentId t.transactionId receipt.blockNumber receipt.blockHash receipt.gasUsed
      receipt.effectiveGasPrice workerActor db = .ok ((), db') := by
  obtain ⟨r, hr⟩ := hlist.row
  have hcount : db.tables.transactions.countP (rowOf t.paymentId t.transactionId [.broadcast, .replaced]) = 1 := by
    have hpos : 0 < db.tables.transactions.countP (rowOf t.paymentId t.transactionId [.broadcast, .replaced]) :=
      List.countP_pos_iff.2 ⟨r, hr.mem, decide_eq_true ⟨hr.id, hr.paymentId, hr.status⟩⟩
    have hle := countP_key_le_one db.wf.transactionIds t.transactionId
      fun r => decide (r.paymentId = t.paymentId ∧ r.status ∈ [TxStatus.broadcast, .replaced])
    simp only [← Bool.decide_and] at hle
    change db.tables.transactions.countP (rowOf t.paymentId t.transactionId [.broadcast, .replaced]) ≤ 1 at hle
    omega
  obtain ⟨mid, hu, ht⟩ := updateTransactions_eq (updateTransactions_valid (f := minedRow env.now receipt)
    (w := rowOf t.paymentId t.transactionId [.broadcast, .replaced]) (fun _ => ⟨rfl, rfl, rfl, rfl⟩)
    (fun x hx _ => fits_minedRow hc hx) (active_of_escalatable hc hr))
  obtain ⟨db₂, hd, ht₂⟩ := updateTransactions_eq (updateTransactions_valid (f := droppedRow env.now)
    (w := watchedSibling t) (fun _ => ⟨rfl, rfl, rfl, rfl⟩) (fun x hx _ => fits_of_mem (r := x) hx)
    (active_of_deactivating fun _ => rfl))
  have hstate : stateOf t.paymentId db₂.tables = some .expired := by
    rw [ht₂, ht]
    exact hc.expired
  have hedge : ∃ db', transitionPayment env.now t.paymentId .expired .manualReview workerActor db₂ = .ok ((), db') :=
    transitionPayment_commits (by decide) (by decide) (by decide) hstate
  obtain ⟨db', hmove⟩ := hedge
  refine ⟨db', ?_⟩
  unfold markGapFillerSucceeded
  have h₁ := Txn.bind_eq (k := fun n => do
    expectOne n ("record succeeded gap filler " ++ toString t.transactionId)
    let _ ← updateTransactions (watchedSibling t) (droppedRow env.now)
    transitionPayment env.now t.paymentId .expired .manualReview workerActor) hu
  refine h₁.trans ?_
  rw [hcount, Txn.bind_eq (expectOne_eq _ _), Txn.bind_eq hd]
  exact hmove

/-! ## In every run -/

variable {lib : Libraries} {cfg : Settlement.Config}

/-- A step that makes a store call, and is not cut off, leaves the database as the method does. -/
theorem shared_of_makes {before : Run lib cfg} {pid : Nat} {env : StepEnv} {op : Op}
    (h : Makes (reach lib cfg before) (.run pid env) pid (.store op)) (hfault : ∀ m, env.fault ≠ .failed m) :
    (reach lib cfg (before ++ [.run pid env])).shared.db = (op.run env.db (reach lib cfg before).shared.db).2 := by
  obtain ⟨_, e, k, hch, hproc⟩ := h
  cases hch
  have hstep := step_run (M := facilitator lib cfg) hproc env
  rw [reach_append]
  exact (congrArg Shared.db hstep).trans (runStore_commits hfault op _)

/-- A retired payment that came under review is never listed again. -/
theorem not_listed_after_review {run : Run lib cfg} {p : Nat}
    (hret : Retired (lifeOf (reach lib cfg run).shared.db.tables p))
    (hstate : stateOf p (reach lib cfg run).shared.db.tables = some .manualReview) (more : Run lib cfg)
    (t : TrackedTransaction) (hlist : Lists (reach lib cfg (run ++ more)).shared.db t) : t.paymentId ≠ p := by
  rintro rfl
  have hstart : Retired (lifeOf (reach lib cfg run).shared.db.tables t.paymentId) ∧
      (lifeOf (reach lib cfg run).shared.db.tables t.paymentId).state = some .manualReview := ⟨hret, hstate⟩
  have hlater := lives_later (L := fun l => Retired l ∧ l.state = some .manualReview)
    (fun k l l' m _ hshape h => ⟨h.1.move m hshape, h.1.review m h.2⟩) hstart more
  obtain ⟨r, hr⟩ := hlist.row
  obtain ⟨s, hs, hst⟩ := hr.state
  have hreview : stateOf t.paymentId (reach lib cfg (run ++ more)).shared.db.tables = some .manualReview := hlater.2
  rw [hst] at hreview
  cases hreview
  simp at hs

/-- In every run, whenever a process escalates a filler that is listed at that moment and the store is not cut off: the
payment is under review afterwards, the mined row has the receipt, every other row is dropped, and `ListGapFillers`
never returns a row of the payment again, if and only if the payment is expired (not failed), no other row of it is
active or recorded reverted, and the block fits its columns. -/
theorem escalation_commits_iff {before : Run lib cfg} {pid : Nat} {env : StepEnv} {t : TrackedTransaction}
    {receipt : Receipt} (hmakes : Makes (reach lib cfg before) (.run pid env) pid (.store (escalation t receipt)))
    (hlist : Lists (reach lib cfg before).shared.db t) (hfault : ∀ m, env.fault ≠ .failed m) :
    (Escalated t receipt (reach lib cfg (before ++ [.run pid env])).shared.db ∧
        ∀ more t', Lists (reach lib cfg (before ++ [.run pid env] ++ more)).shared.db t' → t'.paymentId ≠ t.paymentId) ↔
      Escalatable t receipt (reach lib cfg before).shared.db := by
  have hshape := (reach_inv before).shape t.paymentId
  obtain ⟨r, hr⟩ := hlist.row
  obtain ⟨s, hs, hst⟩ := hr.state
  have hret : Retired (lifeOf (reach lib cfg (before ++ [.run pid env])).shared.db.tables t.paymentId) :=
    lives_later (fun k l l' m _ hshape h => h.move m hshape) (retired_of_state hst hs) _
  have hdb := shared_of_makes hmakes hfault
  change _ = ((markGapFillerSucceeded env.db t.paymentId t.transactionId receipt.blockNumber receipt.blockHash
    receipt.gasUsed receipt.effectiveGasPrice workerActor).run (reach lib cfg before).shared.db).2 at hdb
  unfold Txn.run at hdb
  constructor
  · rintro ⟨hescalated, -⟩
    split at hdb
    · rename_i u db' hok
      obtain ⟨mid, hrecords⟩ := escalation_ok hok
      rw [hdb] at hescalated
      exact hrecords.escalatable hlist hescalated
    · -- rolled back: the payment is not under review
      have hreview := hescalated.state
      rw [hdb, hst] at hreview
      cases hreview
      simp at hs
  · intro hc
    obtain ⟨db', hok⟩ := escalation_commits env.db hlist hc
    rw [hok] at hdb
    obtain ⟨mid, hrecords⟩ := escalation_ok hok
    have hescalated : Escalated t receipt (reach lib cfg (before ++ [.run pid env])).shared.db := by
      rw [hdb]
      exact hrecords.escalated hlist hshape hc
    exact ⟨hescalated, fun more t' h => not_listed_after_review hret hescalated.state more t' h⟩

/-! ### A filler that succeeds -/

/-- The call escalates `t` with `receipt`. -/
def escalates (t : TrackedTransaction) (receipt : Receipt) : Call → Bool
  | .store (.markGapFillerSucceeded p id n h g c a) =>
    p = t.paymentId ∧ id = t.transactionId ∧ n = receipt.blockNumber ∧ h = receipt.blockHash ∧ g = receipt.gasUsed ∧
      c = receipt.effectiveGasPrice ∧ a = workerActor
  | _ => false

/-- Process `pid` is about to escalate `t`, which is listed. -/
def escalatesNext (run : SampleRun) (pid : Nat) (t : TrackedTransaction) (receipt : Receipt) : Bool :=
  (match (reach sampleLib sampleConfig run).procs[pid]? with
    | some ⟨_, some (.call q _)⟩ => escalates t receipt q
    | _ => false) &&
  match ((listGapFillers (calm 0).db).run (reach sampleLib sampleConfig run).shared.db).1 with
  | .ok list => decide (t ∈ list)
  | .error _ => false

theorem makes_of_escalatesNext {run : SampleRun} {pid : Nat} (h : escalatesNext run pid t receipt = true)
    (env : StepEnv) :
    Makes (reach sampleLib sampleConfig run) (.run pid env) pid (.store (escalation t receipt)) ∧
      Lists (reach sampleLib sampleConfig run).shared.db t := by
  obtain ⟨hnext, hlist⟩ := Bool.and_eq_true_iff.1 h
  constructor
  · split at hnext
    · rename_i e q k hproc
      have hq : q = .store (escalation t receipt) := by
        unfold escalates at hnext
        split at hnext
        · obtain ⟨rfl, rfl, rfl, rfl, rfl, rfl, rfl⟩ := of_decide_eq_true hnext
          rfl
        · cases hnext
      subst hq
      exact ⟨env, e, k, rfl, hproc⟩
    · cases hnext
  · split at hlist
    · exact ⟨_, _, ‹_›, of_decide_eq_true hlist⟩
    · cases hlist

/-- The filler of row `11`, and the receipt of a success. -/
def sampleFiller : TrackedTransaction := ⟨10, 11, "0x0307", some .broadcast, [3, 7]⟩

def sampleSuccess : Receipt := ⟨5, "0xb10c", 1, 1, 1⟩

/-- The chain accepts the filler. -/
def sampleAccepted : Script := (late 15).mined "0x0307" 5 1

/-- The intent of payment `10` lapses before it is signed; recovery fills its nonce, and finds the filler accepted. -/
def sampleLapsed : Run sampleLib sampleConfig :=
  sampleVerified ++ [enter (.settle (sampleRequest 'a') 0)] ++ calls 2 2 (calm 11) ++
    [enter (.verify (sampleRequest 'b'))] ++ calls 4 3 (calm 12) ++ [enter (.settle (sampleRequest 'b') 0)] ++
    calls 2 4 (calm 13) ++ [tick 1000010, enter (.broadcastTick "broadcast")] ++ calls 9 5 (late 14) ++
    [enter (.recoveryTick "recovery")] ++ calls 18 6 sampleAccepted

theorem sampleLapsed_run : escalatesNext sampleLapsed 6 sampleFiller sampleSuccess = true ∧
    stateOf sampleFiller.paymentId (reach sampleLib sampleConfig sampleLapsed).shared.db.tables = some .expired ∧
    (reach sampleLib sampleConfig sampleLapsed).shared.db.tables.transactions.all (fun r =>
      r.paymentId ≠ sampleFiller.paymentId ∨ r.id = sampleFiller.transactionId) = true := by
  decide +kernel

/-- The escalation of the lapsed payment commits. -/
theorem escalation_commits_iff_sample :
    Escalated sampleFiller sampleSuccess
        (reach sampleLib sampleConfig (sampleLapsed ++ [.run 6 sampleAccepted.env])).shared.db ∧
      ∀ more t',
        Lists (reach sampleLib sampleConfig (sampleLapsed ++ [.run 6 sampleAccepted.env] ++ more)).shared.db t' →
          t'.paymentId ≠ sampleFiller.paymentId := by
  obtain ⟨hnext, hstate, hrows⟩ := sampleLapsed_run
  obtain ⟨hmakes, hlist⟩ := makes_of_escalatesNext hnext sampleAccepted.env
  have hfault : ∀ m, sampleAccepted.env.fault ≠ .failed m := fun m h => by cases h
  have hfits : sampleSuccess.blockNumber < 2 ^ 63 ∧ within 66 sampleSuccess.blockHash = true := by decide
  have hiff := escalation_commits_iff hmakes hlist hfault
  apply hiff.2
  refine ⟨hstate, fun r hr hs => ?_, hfits⟩
  have hone := of_decide_eq_true (List.all_eq_true.1 hrows r hr)
  exact absurd hone (not_or.2 ⟨not_not.2 hs.1, hs.2⟩)

/-- The filler of a payment whose simulation reverted succeeds. -/
def sampleFailedFilled : Run sampleLib sampleConfig := sampleFilled ++ calls 6 5 sampleAccepted

theorem sampleFailedFilled_run : escalatesNext sampleFailedFilled 5 sampleFiller sampleSuccess = true ∧
    stateOf sampleFiller.paymentId (reach sampleLib sampleConfig
      (sampleFailedFilled ++ [.run 5 sampleAccepted.env])).shared.db.tables = some .failed := by
  decide +kernel

/-- Its escalation is rolled back, and the payment stays failed. -/
theorem failed_filler_not_escalated :
    Makes (reach sampleLib sampleConfig sampleFailedFilled) (.run 5 sampleAccepted.env) 5
        (.store (escalation sampleFiller sampleSuccess)) ∧
      Lists (reach sampleLib sampleConfig sampleFailedFilled).shared.db sampleFiller ∧ sampleSuccess.status = 1 ∧
      ¬ Escalated sampleFiller sampleSuccess (reach sampleLib sampleConfig
        (sampleFailedFilled ++ [.run 5 sampleAccepted.env])).shared.db := by
  obtain ⟨hmakes, hlist⟩ := makes_of_escalatesNext sampleFailedFilled_run.1 sampleAccepted.env
  exact ⟨hmakes, hlist, rfl, not_escalated_of_state sampleFailedFilled_run.2 (by decide)⟩

end Eth402.System
