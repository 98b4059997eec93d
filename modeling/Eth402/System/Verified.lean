/-
What an answer of `Verify` that a payment is valid is worth. The answer is given when the verified attempt is
recorded, and recording leaves a payment that is already on record as it is, whatever became of it.
-/
import Eth402.System.Replies

namespace Eth402.System

open Lib Store Settlement Verification

variable {lib : Libraries} {cfg : Settlement.Config}

/-! ## States of a payment -/

/-- Verified, in flight or confirmed. -/
def payableStates : List State := [.verified, .broadcasting, .broadcast, .confirming, .replaced, .confirmed]

/-- The payment has ended without a transfer. -/
def deadStates : List State := [.failed, .expired, .reverted, .verificationFailed]

/-- The identity is on record with a payment that `Settle` takes. -/
def Payable (db : DB) (identity : String) : Prop :=
  ∃ q ∈ db.tables.payments, q.paymentIdentity = padTo 68 identity ∧
    (q.state ∈ payableStates ∨
      q.state = .manualReview ∧ ∃ r ∈ db.tables.transactions, r.paymentId = q.id ∧ r.active = true)

/-- No record of the identity has ended without a transfer. -/
def Undead (db : DB) (identity : String) : Prop :=
  ∀ q ∈ db.tables.payments, q.paymentIdentity = padTo 68 identity → q.state ∉ deadStates

theorem reach_not_received (run : Run lib cfg) :
    ∀ p, stateOf p (reach lib cfg run).shared.db.tables ≠ some .received := by
  refine (run_inv (P := fun _ _ _ _ _ => True) (X := fun s _ => ∀ p, stateOf p s.db.tables ≠ some .received) ?_ ?_ ?_
    run ?_).2
  · intro p h
    cases h
  · intro s log pid env q e hi hx hj _ p
    obtain ⟨k, -, m⟩ := hi.moves hj env p
    exact m.not_received (hx p)
  · intro s log m hi hx p
    obtain ⟨hpay, -, -⟩ := outside_lives s m
    unfold stateOf
    rw [hpay]
    exact hx p
  · exact along_of_forall (fun _ _ _ _ _ _ _ _ _ => trivial) _ _

/-- A row with an active status stands behind a payment that is under review. -/
theorem active_of_review {db : DB} {p : Nat} (hshape : Shape (rawHashOf lib) (lifeOf db.tables p))
    (hst : stateOf p db.tables = some .manualReview) :
    ∃ r ∈ db.tables.transactions, r.paymentId = p ∧ r.active = true := by
  unfold Shape lifeOf at hshape
  rw [hst] at hshape
  have main : ∀ {S : List TxStatus}, Main S (rowsOf db.tables p) → (∀ s ∈ S, s ∈ activeTransactionStatuses) →
      ∃ r ∈ db.tables.transactions, r.paymentId = p ∧ r.active = true := by
    rintro S ⟨x, hx, hs⟩ hS
    obtain ⟨r, hr, hp, rfl⟩ := mem_rowsOf.1 hx
    exact ⟨r, hr, hp, decide_eq_true (hS _ hs)⟩
  rcases hshape with ⟨hm, -⟩ | ⟨hm, -⟩
  · exact main hm (by decide)
  · exact main hm (by decide)

/-- A record is payable or dead: there is no other. -/
theorem payable_iff_undead {run : Run lib cfg} {identity : String} {q : Payment}
    (hq : q ∈ (reach lib cfg run).shared.db.tables.payments) (hid : q.paymentIdentity = padTo 68 identity) :
    Payable (reach lib cfg run).shared.db identity ↔ Undead (reach lib cfg run).shared.db identity := by
  have same : ∀ x ∈ (reach lib cfg run).shared.db.tables.payments, x.paymentIdentity = padTo 68 identity → x = q :=
    fun x hx hxid => eq_of_key (reach lib cfg run).shared.db.wf.identities hx hq (hxid.trans hid.symm)
  have hst := stateOf_eq_some hq
  constructor
  · rintro ⟨x, hx, hxid, hpay⟩ y hy hyid hdead
    obtain rfl := same x hx hxid
    obtain rfl := same y hy hyid
    rcases hpay with h | ⟨h, -⟩
    · revert h hdead
      cases y.state <;> decide
    · rw [h] at hdead
      exact absurd hdead (by decide)
  · intro hund
    have hdead := hund q hq hid
    refine ⟨q, hq, hid, ?_⟩
    by_cases hrev : q.state = .manualReview
    · rw [hrev] at hst
      exact .inr ⟨hrev, active_of_review ((reach_inv run).shape q.id) hst⟩
    · have hrec := reach_not_received run q.id
      rw [hst] at hrec
      left
      revert hdead hrev hrec
      cases q.state <;> simp [deadStates, payableStates]

/-- `Settle` does not refuse a payable payment as not verified. -/
theorem admitted_of_payable {db db' : DB} {env : DbEnv} {request : IntentRequest} {err : Err}
    (hshape : ∀ q, Shape (rawHashOf lib) (lifeOf db.tables q)) (h : Payable db request.paymentIdentity)
    (hrun : createSettlementIntent env request db = .ok (.error err, db')) : err.is .paymentNotVerified = false := by
  obtain ⟨q, hq, hid, hpay⟩ := h
  have hreq : db.tables.requested request = some q := by
    unfold Tables.requested
    rw [← hid]
    exact find?_key db.wf.identities hq
  obtain ⟨signer, -, ho⟩ := createSettlementIntent_outcome hrun
  cases ho with
  | unknown => rfl
  | refused p reason cause hp hterm hactive href hquiet =>
    obtain rfl : q = p := Option.some.inj (hreq.symm.trans hp)
    -- a payment in flight has an active row, and a confirmed one a final row
    have active : (∃ r ∈ db.tables.transactions, r.paymentId = q.id ∧ r.active = true) → False := by
      rintro ⟨r, hr, hrp, hra⟩
      have := List.find?_eq_none.1 hactive r hr
      simp [hrp, hra] at this
    have verified : q.state = .verified → err.is .paymentNotVerified = false := fun hv => by
      unfold refusal at href
      simp only [hv, show canTransition .verified .broadcasting = true by decide] at href
      simp only [not_true_eq_false, if_false] at href
      split at href
      · cases href; rfl
      split at href
      · cases href; rfl
      split at href
      · cases href; rfl
      split at href
      · cases href; rfl
      · cases href
    have flight : ∀ S : List TxStatus, Main S (rowsOf db.tables q.id) → (∀ s ∈ S, s ∈ activeTransactionStatuses) →
        err.is .paymentNotVerified = false := by
      rintro S ⟨x, hx, hs⟩ hS
      obtain ⟨r, hr, hrp, rfl⟩ := mem_rowsOf.1 hx
      exact (active ⟨r, hr, hrp, decide_eq_true (hS _ hs)⟩).elim
    have hlife := hshape q.id
    unfold Shape lifeOf at hlife
    rw [stateOf_eq_some hq] at hlife
    rcases hpay with hst | ⟨-, hact⟩
    · simp only [payableStates, List.mem_cons, List.not_mem_nil, or_false] at hst
      rcases hst with hst | hst | hst | hst | hst | hst
      · exact verified hst
      · rw [hst] at hlife; exact flight _ hlife.1 (by decide)
      · rw [hst] at hlife; exact flight _ hlife.1 (by decide)
      · rw [hst] at hlife; exact flight _ hlife.1 (by decide)
      · rw [hst] at hlife; exact flight _ hlife.1 (by decide)
      · obtain ⟨tx, txHash, hfound, -⟩ : ∃ tx txHash, terminalRow env q db.tables = some (tx, txHash) ∧ txHash ≠ "" :=
          terminalRow_of_final hshape hq (v := .settled) hst
        rw [hterm] at hfound
        cases hfound
    · exact (active hact).elim

/-! ## The answer -/

/-- At the step `ch` after `before`, process `pid` answers that the payment of its request is valid. -/
structure AnswersValid (before : Run lib cfg) (ch : Choice (facilitator lib cfg)) (pid : Nat)
    (payment : ParsedPayment) :
    Prop where
  pending : ∀ e out, ¬ (reach lib cfg before).returned pid e out
  answered : ∃ (request : Request) (response : VerifyResponse), parseRequest lib request = .ok payment ∧
    response.isValid = true ∧
      (reach lib cfg (before ++ [ch])).returned pid (.verify request) (.verified (.ok response))

theorem intake_of_valid {before : Run lib cfg} {ch : Choice (facilitator lib cfg)} {pid : Nat} {payment : ParsedPayment}
    (h : AnswersValid before ch pid payment) : ∃ env db₁, Intake env payment (reach lib cfg before).shared.db db₁ ∧
      Quiet db₁ (reach lib cfg (before ++ [ch])).shared.db := by
  obtain ⟨hpending, request, response, hpay, hvalid, hret⟩ := h
  obtain ⟨result, hout, hgrounds⟩ := (kept_reach (before ++ [ch])).post hret
  cases hout
  obtain ⟨payment', hpay', hlast⟩ := hgrounds response rfl hvalid
  obtain rfl : payment = payment' := Except.ok.inj (hpay.symm.trans hpay')
  have hstep : reach lib cfg (before ++ [ch]) = (reach lib cfg before).step ch := exec_snoc ..
  rw [hstep] at hret hlast ⊢
  obtain ⟨env, q, rfl, hshared, hlog⟩ | hnone := (kept_reach before).returns_at hpending hret
  · rw [hlog, own_snoc_self, List.getLast?_concat] at hlast
    obtain ⟨rfl, hrun⟩ := perform_ok (Option.some.inj hlast)
    obtain ⟨db₁, hin, hquiet⟩ := recordVerified_ok hrun
    rw [hshared]
    exact ⟨env.db, db₁, hin, hquiet⟩
  · rw [hnone] at hlast
    cases hlast

/-- A payment that is answered valid can be settled exactly when no record of it had ended without a transfer. -/
theorem valid_answer_payable {before : Run lib cfg} {ch : Choice (facilitator lib cfg)} {pid : Nat}
    {payment : ParsedPayment} (h : AnswersValid before ch pid payment) :
    Payable (reach lib cfg (before ++ [ch])).shared.db payment.identity ↔
      Undead (reach lib cfg before).shared.db payment.identity := by
  obtain ⟨env, db₁, hin, hquiet⟩ := intake_of_valid h
  cases hin with
  | known q hq hid hdb =>
    -- nothing changes for a payment on record
    subst hdb
    have hq' := hq
    rw [← hquiet.payments] at hq'
    rw [payable_iff_undead hq' hid]
    unfold Undead
    rw [hquiet.payments]
  | inserted merchant amount hamount hnew hfree _ ht =>
    refine ⟨fun _ q hq hid => absurd hid (hnew q hq), fun _ => ?_⟩
    refine ⟨verifiedRow env merchant payment amount, ?_, rfl, .inl (by simp [verifiedRow, payableStates])⟩
    rw [hquiet.payments, ht]
    exact List.mem_concat_self

/-! ## A failed payment that is answered valid -/

/-- Process `pid` has answered that its payment is valid. -/
def answersValid (run : SampleRun) (pid : Nat) : Bool :=
  match resultOf run pid with
  | some (.verified (.ok response)) => response.isValid
  | _ => false

theorem answersValid_of_run {before : SampleRun} {ch : SampleChoice} {pid : Nat} {request : Request}
    (he : (started (before ++ [ch]))[pid]? = some (.verify request)) (hpending : resultOf before pid = none)
    (hvalid : answersValid (before ++ [ch]) pid = true) : ∃ payment, AnswersValid before ch pid payment := by
  unfold answersValid at hvalid
  split at hvalid
  · rename_i response hr
    have hret := returned_of_output he hr
    obtain ⟨result, hout, hgrounds⟩ := (kept_reach (before ++ [ch])).post hret
    cases hout
    obtain ⟨payment, hpay, -⟩ := hgrounds response rfl hvalid
    exact ⟨payment, pending_of_result hpending, request, response, hpay, hvalid, hret⟩
  · cases hvalid

/-- The simulation of the payment reverts, the payment fails, and it is verified once more. -/
def sampleFailed : SampleRun :=
  sampleVerified ++ [enter (.settle (sampleRequest 'a') 0)] ++ calls 9 2 { calm 11 with reverts := true } ++
    [enter (.verify (sampleRequest 'a'))] ++ calls 3 3 (calm 12)

def sampleAgain : SampleChoice := .run 3 (calm 12).env

/-- Every payment of the run has failed. -/
def allFailed (run : SampleRun) : Bool :=
  (reach sampleLib sampleConfig run).shared.db.tables.payments.all fun q => q.state = .failed

theorem not_payable_of_allFailed (before : SampleRun) (ch : SampleChoice) (h : allFailed (before ++ [ch]) = true)
    (identity : String) : ¬ Payable (reach sampleLib sampleConfig (before ++ [ch])).shared.db identity := by
  rintro ⟨q, hq, -, hst⟩
  have hf : q.state = .failed := of_decide_eq_true (List.all_eq_true.1 h q hq)
  rw [hf] at hst
  revert hst
  simp [payableStates]

theorem sampleFailed_run : resultOf sampleFailed 3 = none ∧ answersValid (sampleFailed ++ [sampleAgain]) 3 = true ∧
    allFailed (sampleFailed ++ [sampleAgain]) = true := by
  decide +kernel

/-- The payment is answered valid although it has failed. -/
theorem failed_payment_answered_valid : ∃ payment, AnswersValid sampleFailed sampleAgain 3 payment ∧
    ¬ Payable (reach sampleLib sampleConfig (sampleFailed ++ [sampleAgain])).shared.db payment.identity := by
  obtain ⟨hpending, hvalid, hfailed⟩ := sampleFailed_run
  obtain ⟨payment, hanswer⟩ := answersValid_of_run rfl hpending hvalid
  exact ⟨payment, hanswer, not_payable_of_allFailed sampleFailed sampleAgain hfailed payment.identity⟩

/-- Before its first verification the payment has no record. -/
def sampleAsked : Run sampleLib sampleConfig :=
  [.outside (Move.setMerchants [⟨1, sampleMerchant, .active, 0⟩]), tick 20, enter (.verify (sampleRequest 'a'))] ++
    calls 3 0 (calm 10)

def sampleFirst : Choice (facilitator sampleLib sampleConfig) := .run 0 (calm 10).env

/-- The payment is asked for again while its transaction is in flight. -/
def sampleAskedAgain : Run sampleLib sampleConfig :=
  sampleBroadcast ++ [enter (.verify (sampleRequest 'a'))] ++ calls 3 3 (calm 12)

def sampleSecond : Choice (facilitator sampleLib sampleConfig) := .run 3 (calm 12).env

theorem undead_of_all {db : DB} (h : (db.tables.payments.all fun q => q.state ∉ deadStates) = true)
    (identity : String) :
    Undead db identity := fun q hq _ => of_decide_eq_true (List.all_eq_true.1 h q hq)

/-- A valid answer for a payment that is new, and one for a payment that has been broadcast. -/
theorem valid_answer_payable_sample : (∃ payment, AnswersValid sampleAsked sampleFirst 0 payment ∧
      Payable (reach sampleLib sampleConfig (sampleAsked ++ [sampleFirst])).shared.db payment.identity) ∧
    ∃ payment, AnswersValid sampleAskedAgain sampleSecond 3 payment ∧
      (reach sampleLib sampleConfig sampleAskedAgain).shared.db.tables.payments.map (·.state) = [.broadcast] ∧
      Payable (reach sampleLib sampleConfig (sampleAskedAgain ++ [sampleSecond])).shared.db payment.identity := by
  have hrun : resultOf sampleAsked 0 = none ∧ answersValid (sampleAsked ++ [sampleFirst]) 0 = true ∧
      ((reach sampleLib sampleConfig sampleAsked).shared.db.tables.payments.all fun q =>
        q.state ∉ deadStates) = true := by
    decide +kernel
  have hagain : resultOf sampleAskedAgain 3 = none ∧ answersValid (sampleAskedAgain ++ [sampleSecond]) 3 = true ∧
      ((reach sampleLib sampleConfig sampleAskedAgain).shared.db.tables.payments.all fun q => q.state ∉ deadStates) =
        true ∧
      (reach sampleLib sampleConfig sampleAskedAgain).shared.db.tables.payments.map (·.state) = [.broadcast] := by
    decide +kernel
  obtain ⟨hpending, hvalid, hall⟩ := hrun
  obtain ⟨hpending', hvalid', hall', hstates⟩ := hagain
  obtain ⟨payment, hanswer⟩ := answersValid_of_run rfl hpending hvalid
  obtain ⟨payment', hanswer'⟩ := answersValid_of_run rfl hpending' hvalid'
  exact ⟨⟨payment, hanswer, (valid_answer_payable hanswer).2 (undead_of_all hall payment.identity)⟩,
    payment', hanswer', hstates, (valid_answer_payable hanswer').2 (undead_of_all hall' payment'.identity)⟩

end Eth402.System
