/-
The wait of an HTTP request for a final outcome (`respondWithTx`). It records what it saw under the actor
`http-wait`, which is no actor type of the audit table: the insert is refused, the transaction that would
have made the payment final is rolled back, and the request answers that there is no receipt.
-/
import Eth402.System.Invariant

namespace Eth402.System

open Lib Store Settlement Verification

theorem waitActor_not_admitted : waitActor ∉ actorTypes := by decide

/-! ## What the wait is asked to record -/

/-- The payment `p` waits on its row `t`, which was sent with the hash `txHash`. -/
structure InFlight (p t : Nat) (txHash : String) (db : DB) : Prop where
  state : ∃ s ∈ unsettledStates, stateOf p db.tables = some s
  row : ∃ r ∈ db.tables.transactions, rowOf p t [.broadcast, .confirming] r = true ∧ r.txHash = some txHash

/-- The state a final observation leads to. -/
def outcomeOf : Observation → Option State
  | .pending => none
  | .confirmed _ => some .confirmed
  | .reverted _ => some .reverted

/-- The response a final state is answered with. -/
def responseOf (payment : ParsedPayment) (txHash : String) (outcome : State) : SettleResponse :=
  if outcome = .confirmed then settled payment txHash else revertedTx payment

/-- The payment reached its final state together with its audit row, and the request is answered so. -/
structure OutcomeRecorded (payment : ParsedPayment) (p : Nat) (txHash : String) (outcome : State) (before after : DB)
    (response : SettleResponse) : Prop where
  state : stateOf p after.tables = some outcome
  audit : ∃ r ∈ after.tables.transitions, r ∉ before.tables.transitions ∧ r.paymentId = p ∧ r.toState = outcome
  response : response = responseOf payment txHash outcome

/-! ## Waiting while others work -/

/-- Everything the wait meets: what others do before its `n`th call, and how that call is answered. -/
structure Surroundings where
  others : Nat → Shared → Shared
  env : Nat → StepEnv

/-- The two databases hold the same of the payment `p`. -/
def SamePayment (p : Nat) (db db' : DB) : Prop :=
  stateOf p db'.tables = stateOf p db.tables ∧
    db'.tables.transactions.filter (·.paymentId = p) = db.tables.transactions.filter (·.paymentId = p)

/-- No one else writes the payment `p`. -/
def Surroundings.Leaves (w : Surroundings) (p : Nat) : Prop := ∀ n s, SamePayment p s.db (w.others n s).db

/-- The `n`th call of the wait, after what others did. -/
def Surroundings.answer (w : Surroundings) (x : Nat × Shared) (c : Call) : Resp c × Nat × Shared :=
  let r := perform (w.others x.1 x.2) (w.env x.1) c
  (r.1, x.1 + 1, r.2)

variable (cfg : Settlement.Config) {w : Surroundings} {p t : Nat} {txHash : String} {s : Shared}

theorem InFlight.same {db db' : DB} (h : InFlight p t txHash db) (hs : SamePayment p db db') :
    InFlight p t txHash db' := by
  obtain ⟨r, hr, hrow, htx⟩ := h.row
  have hp : r.paymentId = p := (of_decide_eq_true hrow).2.1
  refine ⟨hs.1 ▸ h.state, r, ?_, hrow, htx⟩
  have hmem : r ∈ db'.tables.transactions.filter (·.paymentId = p) := by
    rw [hs.2]; exact List.mem_filter.2 ⟨hr, decide_eq_true hp⟩
  exact (List.mem_filter.1 hmem).1

/-- After the wait the payment is as it was: it only reads, and the others leave the payment. -/
theorem InFlight.waited (h : InFlight p t txHash s.db) (hw : w.Leaves p) (polls n : Nat) :
    InFlight p t txHash ((waitForSettlement cfg polls txHash).run w.answer (n, s)).2.2.db := by
  have hreads : Prog.wp (fun _ c => waits c = true) [] (waitForSettlement cfg polls txHash) (Seen cfg txHash) :=
    wp_waitForSettlement (fun _ _ hc => hc) polls txHash
  refine Prog.run_inv (I := fun (x : Nat × Shared) => InFlight p t txHash x.2.db) ?_ hreads h
  intro x c hc hx
  cases c with
  | store op => cases hc
  | _ => exact hx.same (hw x.1 x.2)

/-! ## Recording the outcome -/

theorem InFlight.one {db : DB} (h : InFlight p t txHash db) :
    db.tables.transactions.countP (rowOf p t [.broadcast, .confirming]) = 1 := by
  obtain ⟨r, hr, hrow, -⟩ := h.row
  have hpos : 0 < db.tables.transactions.countP (rowOf p t [.broadcast, .confirming]) :=
    List.countP_pos_iff.2 ⟨r, hr, hrow⟩
  have hsplit : rowOf p t [.broadcast, .confirming] = fun r =>
      decide (r.id = t) && decide (r.paymentId = p ∧ r.status ∈ [TxStatus.broadcast, .confirming]) := by
    funext r; exact Bool.decide_and ..
  have hle := countP_key_le_one db.wf.transactionIds t
    fun r => decide (r.paymentId = p ∧ r.status ∈ [TxStatus.broadcast, .confirming])
  rw [← hsplit] at hle
  omega

/-- Under the wait's actor no final outcome is committed for a payment in flight. -/
theorem InFlight.refused {db : DB} (h : InFlight p t txHash db) (env : DbEnv) {status : TxStatus} {state : State}
    {word : String} {assignRow : Transaction → Transaction} {assign : Payment → Payment}
    (hid : ∀ q, (assign q).id = q.id) (hst : ∀ q, (assign q).state = state) :
    ∃ e, (finalize env p t status state word waitActor assignRow assign).run db = (.error e, db) := by
  unfold Txn.run
  split
  · rename_i u db' hok
    obtain ⟨hactor, -⟩ | ⟨hcount, -⟩ := finalize_ok hok hid hst
    · exact absurd hactor waitActor_not_admitted
    · exact absurd h.one hcount
  · rename_i e _
    exact ⟨e, rfl⟩

/-- A fault cannot make a refused call take effect. -/
theorem runStore_refused {env : StepEnv} {op : Op} {db : DB} (h : ∃ e, op.run env.db db = (.error e, db)) :
    ∃ e, runStore env op db = (.error e, db) := by
  obtain ⟨e, he⟩ := h
  unfold runStore
  cases env.fault with
  | none => exact ⟨e, he⟩
  | failed m => exact ⟨.text m, rfl⟩
  | lost m => exact ⟨.text m, by rw [he]⟩

/-- A record that is refused leaves everything as the others left it. -/
theorem run_record {op : Op} {k : Except Err op.Result → P SettleResponse} {response : SettleResponse}
    {x : Nat × Shared} (hk : ∀ e, k (.error e) = pure response)
    (h : ∃ e, op.run (w.env x.1).db (w.others x.1 x.2).db = (.error e, (w.others x.1 x.2).db)) :
    Prog.run w.answer (inStore op >>= k) x = (response, x.1 + 1, w.others x.1 x.2) := by
  obtain ⟨e, he⟩ := runStore_refused h
  show Prog.run w.answer (k (runStore (w.env x.1) op (w.others x.1 x.2).db).1)
    (x.1 + 1, { w.others x.1 x.2 with db := (runStore (w.env x.1) op (w.others x.1 x.2).db).2 }) = _
  rw [he, hk e]
  rfl

/-- Whatever the wait sees, while no one else writes the payment it leaves it in flight and answers that there
is no receipt. -/
theorem respondWithTx_unrecorded (h : InFlight p t txHash s.db) (hw : w.Leaves p) (polls n : Nat)
    (payment : ParsedPayment) :
    ((respondWithTx cfg polls payment p t txHash).run w.answer (n, s)).1 = receiptUnavailable payment ∧
      InFlight p t txHash ((respondWithTx cfg polls payment p t txHash).run w.answer (n, s)).2.2.db := by
  have hwaited := h.waited cfg hw polls n
  unfold respondWithTx
  rw [Prog.run_bind]
  generalize (waitForSettlement cfg polls txHash).run w.answer (n, s) = x at hwaited
  have hnext := hwaited.same (hw x.2.1 x.2.2)
  cases x.1 with
  | pending => exact ⟨rfl, hwaited⟩
  | confirmed receipt =>
    have hop : ∃ e, (Op.markTxConfirmed p t receipt.blockNumber receipt.blockHash receipt.gasUsed
        receipt.effectiveGasPrice waitActor).run (w.env x.2.1).db (w.others x.2.1 x.2.2).db =
        (.error e, (w.others x.2.1 x.2.2).db) := by
      apply hnext.refused <;> exact fun _ => rfl
    dsimp only
    rw [run_record (fun _ => rfl) hop]
    exact ⟨rfl, hnext⟩
  | reverted receipt =>
    have hop : ∃ e, (Op.markTxReverted p t receipt.gasUsed receipt.effectiveGasPrice waitActor).run
        (w.env x.2.1).db (w.others x.2.1 x.2.2).db = (.error e, (w.others x.2.1 x.2.2).db) := by
      apply hnext.refused <;> exact fun _ => rfl
    dsimp only
    rw [run_record (fun _ => rfl) hop]
    exact ⟨rfl, hnext⟩

/-- No final outcome that the wait sees is ever recorded by it: for a payment in flight that no one else writes,
whatever the environment, the payment does not reach the state that was seen, and the request is not answered
with it. -/
theorem wait_never_records (cfg : Settlement.Config) (w : Surroundings) (s : Shared) (p t polls : Nat)
    (txHash : String) (payment : ParsedPayment) (outcome : State) (h : InFlight p t txHash s.db) (hw : w.Leaves p)
    (hseen : outcomeOf ((waitForSettlement cfg polls txHash).run w.answer (0, s)).1 = some outcome) :
    ¬ OutcomeRecorded payment p txHash outcome s.db
        ((respondWithTx cfg polls payment p t txHash).run w.answer (0, s)).2.2.db
        ((respondWithTx cfg polls payment p t txHash).run w.answer (0, s)).1 := by
  intro hrec
  obtain ⟨-, hstill⟩ := respondWithTx_unrecorded cfg h hw polls 0 payment
  obtain ⟨st, hst, hstate⟩ := hstill.state
  rw [hrec.state] at hstate
  cases hstate
  -- the states a payment waits in are not final
  cases ho : ((waitForSettlement cfg polls txHash).run w.answer (0, s)).1 <;> rw [ho] at hseen <;> cases hseen <;>
    exact absurd hst (by decide)

/-- Nobody else is there, and the sent transaction is mined with the given status, five blocks below the head. -/
def sampleSurroundings (status : Nat) : Surroundings := ⟨fun _ s => s, fun _ => ((calm 12).mined "0x0307" 5 status).env⟩

def sampleShared : Shared := (reach sampleLib sampleConfig sampleBroadcast).shared

theorem sample_inFlight : InFlight 10 11 "0x0307" sampleShared.db := by
  suffices h : _ ∧ ∃ r ∈ sampleShared.db.tables.transactions, _ from ⟨⟨.broadcast, by decide, h.1⟩, h.2⟩
  decide +kernel

/-- The payment of the sample request, as a request is answered for it. -/
def samplePayment : ParsedPayment :=
  ⟨"", mainnetUSDC, samplePayer, sampleMerchant, "7", hexText 64 'a', 0, 1000000, "", hexText 128 'a' ++ "1b"⟩

/-- The waiting request sees its transaction confirmed, answers that there is no receipt, and leaves the payment
in state broadcast. -/
theorem confirmed_wait_unrecorded :
    InFlight 10 11 "0x0307" sampleShared.db ∧ (sampleSurroundings 1).Leaves 10 ∧
      outcomeOf ((waitForSettlement sampleConfig 1 "0x0307").run (sampleSurroundings 1).answer (0, sampleShared)).1 =
        some .confirmed ∧
      ¬ OutcomeRecorded samplePayment 10 "0x0307" .confirmed sampleShared.db
          ((respondWithTx sampleConfig 1 samplePayment 10 11 "0x0307").run (sampleSurroundings 1).answer
            (0, sampleShared)).2.2.db
          ((respondWithTx sampleConfig 1 samplePayment 10 11 "0x0307").run (sampleSurroundings 1).answer
            (0, sampleShared)).1 := by
  suffices h : _ ∧ ¬ _ from ⟨sample_inFlight, fun _ _ => ⟨rfl, rfl⟩, h.1, fun hrec => h.2 hrec.state⟩
  decide +kernel

/-- The same for a transaction seen reverted. -/
theorem wait_never_records_reverted :
    outcomeOf ((waitForSettlement sampleConfig 1 "0x0307").run (sampleSurroundings 0).answer (0, sampleShared)).1 =
        some .reverted ∧
      ¬ OutcomeRecorded samplePayment 10 "0x0307" .reverted sampleShared.db
          ((respondWithTx sampleConfig 1 samplePayment 10 11 "0x0307").run
            (sampleSurroundings 0).answer (0, sampleShared)).2.2.db
          ((respondWithTx sampleConfig 1 samplePayment 10 11 "0x0307").run
            (sampleSurroundings 0).answer (0, sampleShared)).1 := by
  suffices h : _ from ⟨h, wait_never_records sampleConfig _ sampleShared 10 11 1 "0x0307" samplePayment .reverted
    sample_inFlight (fun _ _ => ⟨rfl, rfl⟩) h⟩
  decide +kernel

end Eth402.System
