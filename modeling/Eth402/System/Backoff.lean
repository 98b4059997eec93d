/-
The backoff of ambiguous rows: recovery asks the signer again for a row only when the row's `updated_at` is its backoff
ago, and with one lease holder at a time nobody writes the row between that look and the call. So two such calls are
the backoff apart whenever the row was written since the first of them.
-/
import Mathlib.Data.List.TakeWhile
import Eth402.Store.Ambiguous
import Eth402.System.Sessions

namespace Eth402.System

open Lib Store Settlement Verification

variable {lib : Libraries} {cfg : Settlement.Config} {run : Run lib cfg} {past : List Ev} {p : Nat} {work : Work}

/-! ## One lease holder at a time -/

/-- The process is running, was given a lease on the payment and has not given it back. -/
def Leaseholder (c : Lib.Config (facilitator lib cfg)) (n p : Nat) : Prop :=
  c.Running n ∧ (heldUntil p (own n c.log)).isSome = true

/-- No payment has two holders. -/
def OneHolder (c : Lib.Config (facilitator lib cfg)) : Prop :=
  ∀ p ∈ (Shared.db c.shared).tables.payments, ∀ m < c.procs.length, ∀ n < c.procs.length,
    Leaseholder c m p.id → Leaseholder c n p.id → m = n

instance (c : Lib.Config (facilitator lib cfg)) (n p : Nat) : Decidable (Leaseholder c n p) := by
  unfold Leaseholder
  infer_instance

instance (c : Lib.Config (facilitator lib cfg)) : Decidable (OneHolder c) := by
  unfold OneHolder
  infer_instance

theorem heldAfter_rpc {held : Option Time} {ev : Ev} (h : ∀ op, ev.call ≠ .store op) : heldAfter p held ev = held := by
  obtain ⟨q, r⟩ := ev
  cases q with
  | store op => exact absurd rfl (h op)
  | _ => rfl

/-- Who handles a payment holds it. -/
theorem Handling.held (h : Handling past p work) : (heldUntil p past).isSome = true := by
  obtain ⟨pre, w, now, d, u, post, rfl, hpost⟩ := h
  induction post using List.reverseRecOn with
  | nil =>
    rw [List.append_cons, heldUntil_snoc, heldUntil_snoc]
    simp only [heldAfter, if_true]
    rfl
  | append_singleton post ev ih =>
    rw [← List.cons_append, ← List.cons_append, ← List.append_assoc, heldUntil_snoc, heldAfter_rpc (hpost ev (by simp))]
    exact ih fun x hx => hpost x (by simp [hx])

/-! ## The signer calls of a run -/

def isStoreCall : Call → Bool
  | .store _ => true
  | _ => false

/-- The work in hand, if the last call to the store loaded it under a lease just renewed. -/
def handled (past : List Ev) : Option Work :=
  match past.reverse.dropWhile fun ev => !isStoreCall ev.call with
  | ⟨.store (.loadSettlementWork p), .ok work⟩ :: ⟨.store (.renewLease q _ _ _), .ok _⟩ :: _ =>
    if q = p then some work else none
  | _ => none

/-- A signer call for an ambiguous row: when it is made, and the row's clock and count of attempts at that time. -/
structure Signing where
  transactionId : Nat
  at' : Time
  updatedAt : Time
  attempts : Nat
  deriving DecidableEq

/-- The signer call for an ambiguous row that the choice makes, if it makes one. -/
def signingOf (c : Lib.Config (facilitator lib cfg)) : Choice (facilitator lib cfg) → Option Signing
  | .run pid env =>
    match c.procs[pid]?, handled (own pid c.log) with
    | some ⟨_, some (.call (.signTransaction _ _) _)⟩, some work =>
      if work.transactionStatus = .ambiguous then
        ((Shared.db c.shared).tables.transactions.find? fun r => r.id = work.transactionId).map fun r =>
          ⟨r.id, (StepEnv.db env).now, r.updatedAt, r.ambiguousAttempts⟩
      else none
    | _, _ => none
  | _ => none

def signings (run : Run lib cfg) : List Signing := noted signingOf (start lib cfg) run

/-- Any two signer calls for one row are apart by the backoff of the row at the second. -/
def Spaced (grace : Int) (calls : List Signing) : Prop :=
  calls.Pairwise fun a b => a.transactionId = b.transactionId → a.at' + ambiguousRetryDelay b.attempts grace ≤ b.at'

/-- Whenever the signer is called again for a row, the row was written since. -/
def Rearmed (calls : List Signing) : Prop :=
  calls.Pairwise fun a b => a.transactionId = b.transactionId → a.at' ≤ b.updatedAt

/-- The database's clock at the calls of a run. -/
def dbTimes (run : Run lib cfg) : List Time :=
  run.filterMap fun
    | .run _ env => some (StepEnv.db env).now
    | _ => none

theorem handling_of_handled (h : handled past = some work) : ∃ p, Handling past p work := by
  unfold handled at h
  split at h
  · rename_i p work' q w now d u pre heq
    split at h
    · rename_i hq
      cases h
      subst hq
      have hsplit := List.takeWhile_append_dropWhile (p := fun ev : Ev => !isStoreCall ev.call) (l := past.reverse)
      rw [heq] at hsplit
      generalize hpost : past.reverse.takeWhile (fun ev => !isStoreCall ev.call) = post at hsplit
      refine ⟨q, pre.reverse, w, now, d, u, post.reverse, ?_, fun ev hev op hop => ?_⟩
      · rw [← List.reverse_reverse past, ← hsplit]
        simp
      · rw [← hpost] at hev
        have hrpc := List.mem_takeWhile_imp (List.mem_reverse.1 hev)
        rw [hop] at hrpc
        cases hrpc
    · cases h
  · cases h

theorem signingOf_some {c : Lib.Config (facilitator lib cfg)} {ch : Choice (facilitator lib cfg)} {b : Signing}
    (h : signingOf c ch = some b) : ∃ pid env e tx a k p work, ch = .run pid env ∧
      c.procs[pid]? = some ⟨e, some (.call (.signTransaction tx a) k)⟩ ∧ Handling (own pid c.log) p work ∧
      work.transactionStatus = .ambiguous ∧ ∃ r ∈ (Shared.db c.shared).tables.transactions,
        r.id = work.transactionId ∧ b = ⟨r.id, (StepEnv.db env).now, r.updatedAt, r.ambiguousAttempts⟩ := by
  cases ch with
  | run pid env =>
    simp only [signingOf] at h
    split at h
    · rename_i e tx a k work hproc hhandled
      split at h
      · obtain ⟨r, hr, hb⟩ := Option.map_eq_some_iff.1 h
        obtain ⟨p, hh⟩ := handling_of_handled hhandled
        refine ⟨pid, env, e, tx, a, k, p, work, rfl, hproc, hh, ‹_›, r, List.mem_of_find?_eq_some hr, ?_, hb.symm⟩
        simpa using List.find?_some hr
      · cases h
    · cases h
  | _ => cases h

/-! ## What is handled stays as it was loaded -/

/-- The row is as the work says. -/
structure AsLoaded (p : Nat) (work : Work) (r : Transaction) : Prop where
  id : r.id = work.transactionId
  paymentId : r.paymentId = p
  status : r.status = .ambiguous
  updatedAt : r.updatedAt = work.transactionUpdatedAt
  attempts : r.ambiguousAttempts = work.ambiguousAttempts

/-- Every ambiguous row that a running process handles is as it was loaded. -/
def Unwritten (c : Lib.Config (facilitator lib cfg)) : Prop :=
  ∀ n p work, c.Running n → Handling (own n c.log) p work → work.transactionStatus = .ambiguous →
    ∃ r ∈ (Shared.db c.shared).tables.transactions, AsLoaded p work r

/-- A loaded row is as the work says. -/
theorem asLoaded_load {db db' : DB} {env : DbEnv} (h : (Op.loadSettlementWork p).run env db = (.ok work, db'))
    (hs : work.transactionStatus = .ambiguous) : ∃ r ∈ db'.tables.transactions, AsLoaded p work r := by
  obtain ⟨rfl, hp, q, r, hb, -, hstatus, -, -, hupdated, hattempts, -⟩ := loadSettlementWork_ok (run_ok h)
  exact ⟨r, hb.row, hb.transactionId.symm, hb.owner.trans (hb.paymentId.symm.trans hp), hstatus.symm.trans hs,
    hupdated.symm, hattempts.symm⟩

/-- Whoever resolves an ambiguous row handles its payment. -/
theorem handles_of_resolves {e : Entry} {s : Shared} {log : List (Nat × Ev)} {pid : Nat} (hi : Inv lib s log) {op : Op}
    (hj : Allowed lib cfg e (own pid log) (.store op)) {t : Nat} (hop : op.resolves p t = true) :
    ∃ work, Handling (own pid log) p work := by
  have of_handles : ∀ {q u : Nat}, HandlesAmbiguous (own pid log) q u → decide (q = p ∧ u = t) = true →
      ∃ work, Handling (own pid log) p work := by
    rintro q u ⟨q', work, hh, -, hpay, -⟩ hq
    have heq : work.paymentId = q' := hi.stands hh.loaded (.loadedPayment q' work)
    rw [hpay, (of_decide_eq_true hq).1] at heq
    subst heq
    exact ⟨work, hh⟩
  cases op with
  | markTxRecoveredBroadcast => exact of_handles hj.1 hop
  | markAmbiguousRetry => exact of_handles hj hop
  | markTxAmbiguousReplaced => exact of_handles hj.2 hop
  | _ => cases hop

/-- The calls of the other processes leave what a process handles: who could write it would hold it too. -/
theorem unwritten_other {c : Lib.Config (facilitator lib cfg)} {e : Entry} {n pid : Nat} {op : Op} {r : Transaction}
    (hi : Inv lib c.shared c.log) (hone : OneHolder c) (hn : Leaseholder c n p) (hpid : c.Running pid) (hne : n ≠ pid)
    (hj : Allowed lib cfg e (own pid c.log) (.store op)) (hr : r ∈ (Shared.db c.shared).tables.transactions)
    (hl : AsLoaded p work r) (env : StepEnv) : r ∈ (runStore env op (Shared.db c.shared)).2.tables.transactions := by
  rcases runStore_db env op (Shared.db c.shared) with hdb | hdb
  · rw [hdb]
    exact hr
  rw [hdb]
  refine run_stays op hi.shape hl.status hr ?_
  by_contra hresolves
  rw [hl.paymentId] at hresolves
  obtain ⟨work', hh'⟩ := handles_of_resolves hi hj (by simpa using hresolves)
  have hstate := (hi.shape r.paymentId).of_ambiguous (mem_rowsOf.2 ⟨r, hr, rfl, rfl⟩) hl.status
  obtain ⟨q, hq, hqid, -⟩ := exists_of_stateOf hstate
  rw [hl.paymentId] at hqid
  refine hne (hone q hq n (lt_of_running hn.1) pid (lt_of_running hpid) ?_ ?_)
  · rw [hqid]
    exact hn
  · rw [hqid]
    exact ⟨hpid, hh'.held⟩

/-- A process that handles something was running before. -/
theorem running_before {ch : Choice (facilitator lib cfg)} {n : Nat} (hrun : ((reach lib cfg run).step ch).Running n)
    (hh : Handling (own n (reach lib cfg run).log) p work) : (reach lib cfg run).Running n := by
  by_contra hstopped
  by_cases hn : n < (reach lib cfg run).procs.length
  · exact stopped_step hn hstopped ch hrun
  · have hnew : own n (reach lib cfg run).log = [] := own_fresh fun x hx =>
      lt_of_lt_of_le ((kept_reach run).pids x hx) (not_lt.1 hn)
    rw [hnew] at hh
    obtain ⟨pre, w, now, d, u, post, heq, -⟩ := hh
    simp at heq

theorem unwritten_step {ch : Choice (facilitator lib cfg)} (h : Unwritten (reach lib cfg run))
    (hone : OneHolder (reach lib cfg run)) : Unwritten ((reach lib cfg run).step ch) := by
  have hi := reach_inv run
  intro n p work hrun hh hs
  rcases step_cases (reach lib cfg run) ch with ⟨pid, env, e, q, k, rfl, hq, hstep⟩ | ⟨hlog, hshared⟩
  · have hj : Allowed lib cfg e (own pid (reach lib cfg run).log) q := ((kept_reach run).wp pid e _ hq).1
    have hpid : (reach lib cfg run).Running pid := ⟨e, q, k, hq⟩
    by_cases hn : n = pid
    · -- its own call: the load itself, or one that is none to the store
      subst hn
      rw [hstep] at hh ⊢
      simp only [own_snoc_self] at hh
      rcases hh.of_snoc with hload | ⟨hrpc, hh⟩
      · obtain ⟨rfl, hload⟩ := perform_ok hload
        exact asLoaded_load hload hs
      · obtain ⟨r, hr, hl⟩ := h n p work hpid hh hs
        cases q with
        | store op => exact absurd rfl (hrpc op)
        | _ => exact ⟨r, hr, hl⟩
    · have hown : own n ((reach lib cfg run).step (.run pid env)).log = own n (reach lib cfg run).log := by
        rw [hstep]
        exact own_snoc_ne (Ne.symm hn) ..
      rw [hown] at hh
      have hbefore := running_before hrun hh
      obtain ⟨r, hr, hl⟩ := h n p work hbefore hh hs
      rw [hstep]
      cases q with
      | store op => exact ⟨r, unwritten_other hi hone ⟨hbefore, hh.held⟩ hpid hn hj hr hl env, hl⟩
      | _ => exact ⟨r, hr, hl⟩
  · rw [hlog] at hh
    obtain ⟨r, hr, hl⟩ := h n p work (running_before hrun hh) hh hs
    refine ⟨r, ?_, hl⟩
    rcases hshared with hsame | ⟨m, -, hout⟩
    · rw [hsame]
      exact hr
    · have htx := (outside_lives (reach lib cfg run).shared m).2.1
      rw [hout]
      exact htx ▸ hr

theorem unwritten_reach (run : Run lib cfg) (hone : Along (fun c _ => OneHolder c) (start lib cfg) run) :
    Unwritten (reach lib cfg run) := by
  induction run using List.reverseRecOn with
  | nil =>
    rintro n p work ⟨e, q, k, hp⟩
    cases hp
  | append_singleton run ch ih =>
    obtain ⟨hpre, hlast, -⟩ := along_append.1 hone
    rw [reach_append]
    exact unwritten_step (ih hpre) hlast

/-! ## The backoff -/

theorem dbNow_le {before rest : Run lib cfg} {pid : Nat} {env : StepEnv}
    (hclock : (dbTimes (before ++ .run pid env :: rest)).Pairwise (· ≤ ·))
    (hl : Loaded (own pid (reach lib cfg before).log) p work) : work.dbNow ≤ env.db.now := by
  obtain ⟨l₁, l₂, hlog⟩ := List.append_of_mem (mem_own.1 hl)
  obtain ⟨pre, env₀, more, e, rfl, -, -, hload, -⟩ := stored_at hlog
  obtain ⟨-, -, q, r, -, -, -, -, -, -, -, hnow⟩ := loadSettlementWork_ok (run_ok hload)
  rw [hnow]
  simp only [dbTimes, List.filterMap_append, List.append_assoc, List.cons_append, List.filterMap_cons] at hclock
  have hlater := (List.pairwise_append.1 hclock).2.1
  exact List.rel_of_pairwise_cons hlater (by simp)

/-- A signer call for a row comes when the row's backoff is over. -/
theorem signing_due (hone : Along (fun c _ => OneHolder c) (start lib cfg) run)
    (hclock : (dbTimes run).Pairwise (· ≤ ·))
    {b : Signing} (hb : b ∈ signings run) : b.updatedAt + ambiguousRetryDelay b.attempts cfg.recoveryGrace ≤ b.at' := by
  obtain ⟨before, ch, rest, rfl, hsign⟩ := mem_noted hb
  obtain ⟨pid, env, e, tx, a, k, p, work, rfl, hproc, hh, hs, r, hr, hid, rfl⟩ := signingOf_some hsign
  obtain ⟨r', hr', hl⟩ := unwritten_reach before (along_append.1 hone).1 pid p work ⟨e, _, k, hproc⟩ hh hs
  have hrow : r = r' := eq_of_key (Shared.db (reach lib cfg before).shared).wf.transactionIds hr hr'
    (hid.trans hl.id.symm)
  have hsigns : MaySign cfg (own pid (reach lib cfg before).log) := ((kept_reach before).wp pid e _ hproc).1
  have hdue := hsigns p work hh hs
  have hnow := dbNow_le hclock hh.loaded
  rw [hrow, hl.updatedAt, hl.attempts]
  exact le_trans hdue hnow

/-- A request signs the row `11` and stops; a broadcast worker finds it and leaves it in doubt. -/
def sampleDoubtful : SampleRun :=
  sampleVerified ++ [enter (.settle (sampleRequest 'a') 0)] ++ calls 10 2 (calm 11) ++
    [.crash 2, tick 100, enter (.broadcastTick "sender")] ++ calls 8 3 (late 12)

/-- Recovery signs the row again, its send fails and the retry is recorded; a later tick signs once more. -/
def sampleBackedOff : SampleRun :=
  sampleDoubtful ++ [tick 200, enter (.recoveryTick "keeper")] ++ calls 12 4 { laterAt 12 200 with accepts := false } ++
    [tick 300, enter (.recoveryTick "keeper")] ++ calls 9 5 (laterAt 12 300)

/-- The signer is down: the tick gives up on the row and leaves no trace of it, and so does the next. -/
def sampleRetriedAtOnce : SampleRun :=
  sampleDoubtful ++ [tick 200, enter (.recoveryTick "keeper")] ++ calls 8 4 (laterAt 12 200) ++
    [.run 4 (laterAt 12 200).unsigned] ++ calls 6 4 (laterAt 12 200) ++
    [enter (.recoveryTick "keeper")] ++ calls 8 5 (laterAt 12 200) ++ [.run 5 (laterAt 12 200).unsigned]

/-- In a run with one lease holder at a time and a database clock that does not go back, signer calls for an ambiguous
row are the row's backoff apart as soon as the row was written between them. -/
theorem signer_calls_spaced (run : Run lib cfg) (hone : Along (fun c _ => OneHolder c) (start lib cfg) run)
    (hclock : (dbTimes run).Pairwise (· ≤ ·)) (hrearmed : Rearmed (signings run)) :
    Spaced cfg.recoveryGrace (signings run) := by
  refine hrearmed.imp_of_mem fun {a b} _ hb hab hrow => ?_
  have hdue := signing_due hone hclock hb
  have hsince := hab hrow
  unfold Time at *
  omega

theorem signer_calls_spaced_sample : (signings sampleBackedOff).map (·.at') = [200, 300] ∧
    Spaced sampleConfig.recoveryGrace (signings sampleBackedOff) := by
  suffices h : _ ∧ _ ∧ _ ∧ Rearmed (signings sampleBackedOff) from
    ⟨h.1, signer_calls_spaced sampleBackedOff h.2.1 h.2.2.1 h.2.2.2⟩
  unfold Rearmed
  decide +kernel

/-- A signer that answers with an error is asked again at the next tick, however soon that is. -/
theorem failed_signing_not_backed_off :
    Along (fun c _ => OneHolder c) (start sampleLib sampleConfig) sampleRetriedAtOnce ∧
      (dbTimes sampleRetriedAtOnce).Pairwise (· ≤ ·) ∧
      ¬ Spaced sampleConfig.recoveryGrace (signings sampleRetriedAtOnce) := by
  unfold Spaced
  decide +kernel

end Eth402.System
