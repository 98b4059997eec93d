/-
The final answers of `Settle`. An answer is final when it reports the outcome of the payment: settled, or its
transaction failed. It rests on a record that no later step takes away, so the outcome is there when the answer
is given, and every later request for the same payment is answered the same way from the record.
-/
import Eth402.Store.Errors
import Eth402.System.Invariant

namespace Eth402.System

open Lib Store Settlement Verification

variable {lib : Libraries} {cfg : Settlement.Config} {payment : ParsedPayment} {log : List (Nat × Ev)} {pid : Nat}
  {response : SettleResponse}

/-- The two final outcomes of a payment. -/
inductive Verdict
  | settled
  | failed

namespace Verdict

def state : Verdict → State
  | settled => .confirmed
  | failed => .reverted

def status : Verdict → TxStatus
  | settled => .confirmed
  | failed => .reverted

/-- The answer reports the outcome. -/
def Answered : Verdict → SettleResponse → Prop
  | settled, r => r.success = true
  | failed, r => r.success = false ∧ r.errorReason = wireReasonTransactionFailed

/-- The record of the outcome. -/
def lasting : Verdict → Nat → Lasting
  | settled, p => .confirmed p
  | failed, p => .reverted p

end Verdict

variable {v : Verdict}

/-- The payment is recorded with its outcome, and so is the transaction that had it. -/
def Durable (payment : ParsedPayment) (v : Verdict) (t : Tables) : Prop :=
  ∃ p ∈ t.payments, p.paymentIdentity = padTo 68 payment.identity ∧ p.state = v.state ∧
    ∃ r ∈ t.transactions, r.paymentId = p.id ∧ r.status = v.status

/-! ## What a final answer rests on -/

/-- Some call of the log was told `a`. -/
def Told (log : List (Nat × Ev)) (a : Lasting) : Prop := ∃ x ∈ log, Tells x.2 a

theorem Told.of_own {ev : Ev} {a : Lasting} (hev : ev ∈ own pid log) (ht : Tells ev a) : Told log a :=
  ⟨(pid, ev), mem_own.1 hev, ht⟩

theorem not_answered_of_admission {err : Err} (h : admissionAnswer payment err = .ok response) :
    ¬ v.Answered response := by
  unfold admissionAnswer at h
  split at h
  · rename_i s reason hf
    cases h
    have hne : reason ≠ wireReasonTransactionFailed := by
      have hmem := List.mem_of_find?_eq_some hf
      simp only [admissionReasons, List.mem_cons, Prod.mk.injEq, List.not_mem_nil, or_false] at hmem
      rcases hmem with ⟨-, rfl⟩ | ⟨-, rfl⟩ | ⟨-, rfl⟩ | ⟨-, rfl⟩ | ⟨-, rfl⟩ | ⟨-, rfl⟩ <;> decide
    cases v with
    | settled => exact fun ha => by cases ha
    | failed => exact fun ha => hne ha.2
  · cases h

/-- Whoever gives a final answer was told which payment it is about and that the payment has the outcome. -/
theorem told_of_answered (h : SettleGrounds cfg payment (own pid log) (.ok response)) (ha : v.Answered response) :
    ∃ p, Told log (.identity p (padTo 68 payment.identity)) ∧ Told log (v.lasting p) := by
  obtain ⟨now, answer, hev, ⟨err, -, hr, -⟩ | ⟨intent, response', rfl, hr, hg, -⟩⟩ := h
  · exact absurd ha (not_answered_of_admission hr.symm)
  · cases hr
    refine ⟨intent.paymentId, .of_own hev (.intent ..), ?_⟩
    cases v with
    | settled =>
      rcases hg.success ha with hc | ⟨t, n, b, g, c, a, hmark⟩
      · exact .of_own hev (.intentConfirmed _ _ hc)
      · exact .of_own hmark (.confirmed ..)
    | failed =>
      rcases hg.failed ha.2 with hr | ⟨t, g, c, a, hmark⟩
      · exact .of_own hev (.intentReverted _ _ hr)
      · exact .of_own hmark (.reverted ..)

theorem stands_lasting {db : DB} {p : Nat} (h : Stands db (v.lasting p)) : stateOf p db.tables = some v.state := by
  cases v <;> exact h

section

variable {db : DB} {p : Nat} (hshape : Shape (rawHashOf lib) (lifeOf db.tables p))
  (hst : stateOf p db.tables = some v.state)
include hshape hst

theorem final_rows_sent {x : Row} (hx : x ∈ rowsOf db.tables p) : x.Sent := by
  unfold Shape lifeOf at hshape
  rw [hst] at hshape
  cases v with
  | settled | failed => exact (hshape.2 x hx).2

theorem exists_final_row :
    ∃ r ∈ db.tables.transactions, r.paymentId = p ∧ r.status = v.status ∧ ∃ h, r.txHash = some ("0x" ++ h) := by
  have hmain : Main [v.status] (rowsOf db.tables p) := by
    unfold Shape lifeOf at hshape
    rw [hst] at hshape
    cases v with
    | settled | failed => exact hshape.1
  obtain ⟨x, hx, hs⟩ := hmain
  obtain ⟨-, h, -, htx⟩ := final_rows_sent hshape hst hx
  obtain ⟨r, hr, hp, rfl⟩ := mem_rowsOf.1 hx
  exact ⟨r, hr, hp, List.mem_singleton.1 hs, h, htx⟩

end

theorem Inv.durable {s : Shared} (hi : Inv lib s log) {p : Nat}
    (hid : Told log (.identity p (padTo 68 payment.identity)))
    (hv : Told log (v.lasting p)) :
    ∃ q ∈ s.db.tables.payments, q.paymentIdentity = padTo 68 payment.identity ∧ q.state = v.state := by
  obtain ⟨x, hx, htx⟩ := hid
  obtain ⟨y, hy, hty⟩ := hv
  obtain ⟨q, hq, rfl, hqid⟩ := hi.told x hx _ htx
  have hst := stands_lasting (hi.told y hy _ hty)
  rw [stateOf_eq_some hq] at hst
  exact ⟨q, hq, hqid, Option.some.inj hst⟩

/-! ## Admission of a payment with an outcome -/

section Repeat

variable {db db' : DB} {env : DbEnv} {p : Payment} {request : IntentRequest}

/-- The request for a payment with an outcome finds a row that has it, with its hash. -/
theorem terminalRow_of_final (hshape : ∀ q, Shape (rawHashOf lib) (lifeOf db.tables q)) (hp : p ∈ db.tables.payments)
    (hst : p.state = v.state) : ∃ tx txHash, terminalRow env p db.tables = some (tx, txHash) ∧ txHash ≠ "" := by
  have hstatus : terminalStatus p = v.status := by
    unfold terminalStatus; rw [hst]; cases v <;> rfl
  have hstate : stateOf p.id db.tables = some v.state := hst ▸ stateOf_eq_some hp
  obtain ⟨r, hr, hrp, hrs, h, hh⟩ := exists_final_row (hshape p.id) hstate
  have hterm : p.state ∈ [State.confirmed, .reverted] := by
    rw [hst]; cases v <;> decide
  have hne : terminalRow env p db.tables ≠ none := terminalRow_ne_none hterm hr hrp (hrs.trans hstatus.symm) hh
  obtain ⟨⟨tx, txHash⟩, hfound⟩ := Option.ne_none_iff_exists'.1 hne
  obtain ⟨htx, htxp, -, hhash⟩ := terminalRow_mem hfound
  obtain ⟨-, h', -, hsent⟩ := final_rows_sent (hshape p.id) hstate (mem_rowsOf.2 ⟨tx, htx, htxp, rfl⟩)
  refine ⟨tx, txHash, hfound, fun hempty => ?_⟩
  have hlen := congrArg String.length (hempty.symm.trans (Option.some.inj (hhash.symm.trans hsent)))
  rw [String.length_append] at hlen
  have : "0x".length = 2 := rfl
  have : "".length = 0 := rfl
  omega

/-- So it is answered as a duplicate that reports the outcome. -/
theorem outcome_of_final {signer : String} {r : Except Err Intent} (ho : Outcome env request signer db db' r)
    (hshape : ∀ q, Shape (rawHashOf lib) (lifeOf db.tables q)) (hp : p ∈ db.tables.payments)
    (hid : p.paymentIdentity = padTo 68 request.paymentIdentity) (hst : p.state = v.state) :
    ∃ tx txHash, txHash ≠ "" ∧ r = .ok (duplicateOf p request tx txHash true) := by
  have hreq : db.tables.requested request = some p := by
    unfold Tables.requested
    rw [← hid]
    exact find?_key db.wf.identities hp
  obtain ⟨tx, txHash, hterm, hne⟩ : ∃ tx txHash, terminalRow env p db.tables = some (tx, txHash) ∧ txHash ≠ "" :=
    terminalRow_of_final hshape hp hst
  cases ho with
  | unknown hq => rw [hreq] at hq; cases hq
  | terminal q tx' txHash' hq ht =>
    rw [hreq] at hq
    cases hq
    rw [hterm] at ht
    cases ht
    exact ⟨tx, txHash, hne, rfl⟩
  | duplicate q tx' hq ht | refused q reason cause hq ht | committed q nonce hq ht =>
    rw [hreq] at hq
    cases hq
    rw [hterm] at ht
    cases ht

/-- The answer to such a duplicate. -/
theorem answered_of_repeats {tx : Transaction} {txHash : String} (hne : txHash ≠ "") (hst : p.state = v.state)
    (h : Repeats payment (duplicateOf p request tx txHash true) response) : v.Answered response := by
  cases v with
  | settled =>
    rw [h.confirmed hne (by simp [duplicateOf, hst, Verdict.state]) (by simp [duplicateOf, hst, Verdict.state])]
    rfl
  | failed =>
    rw [h.reverted hne (by simp [duplicateOf, hst, Verdict.state])]
    exact ⟨rfl, rfl⟩

end Repeat

/-- What admission answers for a payment with an outcome, whatever fault the call meets: the outcome, or an internal
error. -/
theorem answered_of_final {s : Shared} {env : StepEnv} {now : Time} {p : Payment} {answer : Except Err Intent}
    (hshape : ∀ q, Shape (rawHashOf lib) (lifeOf s.db.tables q)) (hp : p ∈ s.db.tables.payments)
    (hid : p.paymentIdentity = padTo 68 payment.identity) (hst : p.state = v.state)
    (hans : (perform s env (.store (.createSettlementIntent (intentRequest cfg payment now)))).1 = answer)
    (hr : (∃ err, answer = .error err ∧ (.ok response : Except Err SettleResponse) = admissionAnswer payment err) ∨
      ∃ intent response', answer = .ok intent ∧ (.ok response : Except Err SettleResponse) = .ok response' ∧
        Repeats payment intent response') : v.Answered response := by
  change (runStore env (.createSettlementIntent (intentRequest cfg payment now)) s.db).1 = answer at hans
  -- an error that the store did not mean is none of the refusals
  have internal : ∀ err : Err, (∀ sn ∈ admissionReasons, err.is sn.1 = false) →
      (.ok response : Except Err SettleResponse) ≠ admissionAnswer payment err := by
    intro err hbare h
    unfold admissionAnswer at h
    rw [List.find?_eq_none.2 fun r hr => by rw [hbare r hr]; decide] at h
    cases h
  rcases runStore_cases env (.createSettlementIntent (intentRequest cfg payment now)) s.db with hrun | ⟨m, hm, -⟩
  · rw [hrun] at hans
    change ((createSettlementIntent env.db (intentRequest cfg payment now)).runInner s.db).1 = answer at hans
    unfold Txn.runInner at hans
    split at hans
    · rename_i r db' hok
      obtain ⟨signer, -, ho⟩ := createSettlementIntent_outcome hok
      obtain ⟨tx, txHash, hne, hrep⟩ := outcome_of_final ho hshape hp hid hst
      rcases hr with ⟨err, herr, -⟩ | ⟨intent, response', hint, hresp, hrepeat⟩
      · rw [← hans, hrep] at herr; cases herr
      · rw [← hans, hrep] at hint
        cases hint
        cases hresp
        exact answered_of_repeats hne hst hrepeat
    · rename_i err hfail
      rcases hr with ⟨err', herr, hresp⟩ | ⟨intent, response', hint, -⟩
      · rw [← hans] at herr
        cases herr
        refine absurd hresp (internal err fun sn hsn => Bool.eq_false_iff.2 fun his => ?_)
        have hmem := raises_createSettlementIntent (List.mem_singleton_self _) _ _ _ hfail sn.1 his
        rw [List.mem_singleton] at hmem
        revert hsn hmem
        cases sn with
        | mk a b => cases a <;> simp [admissionReasons]
      · rw [← hans] at hint; cases hint
  · rw [hm] at hans
    rcases hr with ⟨err, herr, hresp⟩ | ⟨intent, response', hint, -⟩
    · rw [← hans] at herr
      cases herr
      exact absurd hresp (internal _ fun _ _ => rfl)
    · rw [← hans] at hint; cases hint

/-! ## Later requests -/

/-- A call of a process that had not been started when `run` ended was made after it. -/
theorem called_later {run more : Run lib cfg} {ev : Ev} (hnew : (reach lib cfg run).procs.length ≤ pid)
    (hev : ev ∈ own pid (reach lib cfg (run ++ more)).log) :
    ∃ (mid : Run lib cfg) (env : StepEnv), (perform (reach lib cfg (run ++ mid)).shared env ev.call).1 = ev.answer := by
  obtain ⟨l₁, l₂, hl⟩ := List.append_of_mem (mem_own.1 hev)
  obtain ⟨before, env, rest, e, hrun, -, -, hans, -, hlog⟩ := called_at hl
  rcases List.append_eq_append_iff.1 hrun with ⟨mid, rfl, -⟩ | ⟨cut, rfl, hcut⟩
  · exact ⟨mid, env, hans⟩
  · cases cut with
    | nil => exact ⟨[], env, by simpa using hans⟩
    | cons ch cut =>
      -- the call would be in the log of `run`, which names only processes that exist
      obtain ⟨rfl, -⟩ := List.cons.inj hcut
      have hin : (pid, ev) ∈ (reach lib cfg (before ++ .run pid env :: cut)).log := by
        rw [show before ++ .run pid env :: cut = before ++ [.run pid env] ++ cut by simp]
        exact (reach_log _ cut).subset (by rw [hlog]; simp)
      have hlt : pid < (reach lib cfg (before ++ .run pid env :: cut)).procs.length := (kept_reach _).pids _ hin
      omega

/-- What an answered request rests on. -/
theorem grounds_of_returned {run : Run lib cfg} {request : Request} {polls : Nat}
    (hret : (reach lib cfg run).returned pid (.settle request polls) (.settled (.ok response)))
    (ha : v.Answered response) :
    ∃ payment, parseRequest lib request = .ok payment ∧
      SettleGrounds cfg payment (own pid (reach lib cfg run).log) (.ok response) := by
  obtain ⟨result, hout, hq⟩ := (kept_reach run).post hret
  cases hout
  split at hq
  · obtain ⟨message, hm⟩ := hq
    cases hm
    cases v with
    | settled => cases ha
    | failed => exact absurd ha.2 (by simp [rejected, wireReasonInvalidRequest, wireReasonTransactionFailed])
  · rename_i payment hpay
    exact ⟨payment, hpay, hq⟩

/-- Once the outcome of a payment was told, every later request for it that is answered at all is answered with it. -/
theorem answered_later {run more : Run lib cfg} {request : Request} {polls p : Nat}
    (hpay : parseRequest lib request = .ok payment)
    (hid : Told (reach lib cfg run).log (.identity p (padTo 68 payment.identity)))
    (hv : Told (reach lib cfg run).log (v.lasting p)) (hnew : (reach lib cfg run).procs.length ≤ pid)
    (hret : (reach lib cfg (run ++ more)).returned pid (.settle request polls) (.settled (.ok response))) :
    v.Answered response := by
  obtain ⟨result, hout, hq⟩ := (kept_reach (run ++ more)).post hret
  cases hout
  rw [hpay] at hq
  obtain ⟨now, answer, hev, hor⟩ := hq
  obtain ⟨mid, env, hans⟩ := called_later hnew hev
  have told : ∀ a, Told (reach lib cfg run).log a → Told (reach lib cfg (run ++ mid)).log a := fun a ⟨x, hx, ht⟩ =>
    ⟨x, (reach_log run mid).subset hx, ht⟩
  obtain ⟨q, hq, hqid, hqs⟩ := (reach_inv (run ++ mid)).durable (told _ hid) (told _ hv)
  refine answered_of_final (reach_inv (run ++ mid)).shape hq hqid hqs hans ?_
  exact hor.imp (fun ⟨err, he, hr, _⟩ => ⟨err, he, hr⟩)
    fun ⟨intent, response', hi, hr, _, hrep⟩ => ⟨intent, response', hi, hr, hrep⟩

/-- `Settle` answers success only for a payment that is durably confirmed with a confirmed transaction row, and a
final answer, success or failed transaction, is repeated by every later call for the same request that returns no
internal error. -/
theorem final_answers_repeat (lib : Libraries) (cfg : Settlement.Config) (run : Run lib cfg) (pid polls : Nat)
    (request : Request) (response : SettleResponse)
    (hret : (reach lib cfg run).returned pid (.settle request polls) (.settled (.ok response))) :
    (response.success = true → ∃ payment, parseRequest lib request = .ok payment ∧
      Durable payment .settled (reach lib cfg run).shared.db.tables) ∧
    ∀ v : Verdict, v.Answered response →
      ∀ (more : Run lib cfg) (pid' polls' : Nat) (response' : SettleResponse),
        (reach lib cfg run).procs.length ≤ pid' →
        (reach lib cfg (run ++ more)).returned pid' (.settle request polls') (.settled (.ok response')) →
        v.Answered response' := by
  constructor
  · intro hs
    obtain ⟨payment, hpay, hg⟩ := grounds_of_returned (v := .settled) hret hs
    obtain ⟨p, hid, hv⟩ := told_of_answered (v := .settled) hg hs
    obtain ⟨q, hq, hqid, hqs⟩ := (reach_inv run).durable hid hv
    obtain ⟨r, hr, hrp, hrs, -⟩ := exists_final_row (v := .settled) ((reach_inv run).shape q.id)
      (hqs ▸ stateOf_eq_some hq)
    exact ⟨payment, hpay, q, hq, hqid, hqs, r, hr, hrp, hrs⟩
  · intro v ha more pid' polls' response' hnew hret'
    obtain ⟨payment, hpay, hg⟩ := grounds_of_returned hret ha
    obtain ⟨p, hid, hv⟩ := told_of_answered hg ha
    exact answered_later hpay hid hv hnew hret'

/-- The sample payment is broadcast and confirmed by a worker; a request for it is then answered. -/
def sampleConfirmed : Run sampleLib sampleConfig :=
  sampleBroadcast ++ [enter (.confirmationTick "worker")] ++ calls 11 3 ((calm 12).mined "0x0307" 5 1) ++
    [enter (.settle (sampleRequest 'a') 0)] ++ calls 2 4 (calm 12)

/-- And another one. -/
def sampleRepeated : Run sampleLib sampleConfig := [enter (.settle (sampleRequest 'a') 3)] ++ calls 2 5 (calm 12)

def sampleSettled : SettleResponse := ⟨true, "", "", "0x0307", samplePayer, mainnetNetwork, "7"⟩

theorem sampleConfirmed_returned : (reach sampleLib sampleConfig sampleConfirmed).returned 4
    (.settle (sampleRequest 'a') 0) (.settled (.ok sampleSettled)) := by
  have hout : resultOf sampleConfirmed 4 = some (.settled (.ok sampleSettled)) := by decide +kernel
  exact returned_of_output rfl hout

example : resultOf (sampleConfirmed ++ sampleRepeated) 5 = some (.settled (.ok sampleSettled)) := by decide +kernel

/-- The confirmed sample payment is on record, and the second request for it is answered like the first. -/
theorem final_answers_repeat_sample :
    (reach sampleLib sampleConfig sampleConfirmed).returned 4 (.settle (sampleRequest 'a') 0)
        (.settled (.ok sampleSettled)) ∧
      (∃ payment, parseRequest sampleLib (sampleRequest 'a') = .ok payment ∧
        Durable payment .settled (reach sampleLib sampleConfig sampleConfirmed).shared.db.tables) ∧
      ∀ response, (reach sampleLib sampleConfig (sampleConfirmed ++ sampleRepeated)).returned 5
        (.settle (sampleRequest 'a') 3) (.settled (.ok response)) → response.success = true :=
  have h := final_answers_repeat sampleLib sampleConfig sampleConfirmed 4 0 (sampleRequest 'a') sampleSettled
    sampleConfirmed_returned
  ⟨sampleConfirmed_returned, h.1 rfl, fun response hret =>
    h.2 .settled rfl sampleRepeated 5 3 response (by decide +kernel) hret⟩

end Eth402.System
