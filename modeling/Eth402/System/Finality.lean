/-
What the facilitator has read when it makes a payment final. The confirmation worker and the waiting request
compare the block of the receipt with the canonical block at its height and wait for the confirmation depth. The
recovery worker's watch over replaced originals waits for the depth too, but never asks which block is canonical.
-/
import Eth402.System.Invariant

namespace Eth402.System

open Lib Store Settlement Verification

variable {lib : Libraries} {cfg : Settlement.Config} {e : Entry} {s : Shared} {log : List (Nat × Ev)} {pid : Nat}

/-- The status of the row that a final outcome rests on. -/
def finalStatus (outcome : State) : TxStatus := if outcome = .confirmed then .confirmed else .reverted

/-- The row the payment was settled with. -/
structure SettledRow (p : Nat) (outcome : State) (db : DB) (r : Transaction) : Prop where
  mem : r ∈ db.tables.transactions
  payment : r.paymentId = p
  status : r.status = finalStatus outcome

/-- The process read a receipt of the row's transaction, the canonical block at its height, which is the block of
the receipt, and a head that makes it deep enough. -/
structure SeenSettled (cfg : Settlement.Config) (past : List Ev) (r : Transaction) (txHash : String) (receipt : Receipt)
    (block : Block) (head : Nat) : Prop where
  hash : r.txHash = some txHash
  readReceipt : (⟨.transactionReceipt txHash, .ok (some receipt)⟩ : Ev) ∈ past
  readBlock : (⟨.blockByNumber (some receipt.blockNumber), .ok block⟩ : Ev) ∈ past
  canonical : equalFold block.hash receipt.blockHash = true
  readHead : (⟨.blockNumber, .ok head⟩ : Ev) ∈ past
  deep : receipt.blockNumber + cfg.confirmations ≤ head + 1

/-- The call records an original as landed. -/
def lands : Call → Bool
  | .store (.markReplacementLanded ..) => true
  | _ => false

theorem deep_of_depthAt {current height : Nat} (h : cfg.confirmations ≤ depthAt current height) :
    height + cfg.confirmations ≤ current + 1 := by
  have hpos := cfg.confirmations_pos
  unfold depthAt at h
  split at h
  · have := Nat.mod_le (current - height + 1) (2 ^ 64)
    omega
  · omega

/-! ## The calls that settle -/

theorem finalizes_of_settled (hi : Inv lib s log) {q : Call} (hj : Allowed lib cfg e (own pid log) q) (env : StepEnv)
    {p : Nat} {outcome : State} (ho : outcome = .confirmed ∨ outcome = .reverted)
    (hbefore : stateOf p s.db.tables ≠ some outcome)
    (hafter : stateOf p (perform s env q).2.db.tables = some outcome) :
    ∃ op, q = .store op ∧ op.finalizes = true ∧ (perform s env q).2.db = (op.run env.db s.db).2 := by
  obtain ⟨k, hk, m⟩ := hi.moves hj env p
  obtain rfl := m.final_of ho hafter hbefore
  cases q with
  | store op =>
    refine ⟨op, rfl, Kinds.of_final hk, (runStore_db env op s.db).resolve_left fun hsame => ?_⟩
    have hdb : (perform s env (.store op)).2.db = s.db := hsame
    rw [hdb] at hafter
    exact hbefore hafter
  | _ => cases hk

/-- What recording an outcome did to the payment it settled: the row it names is the settled one. -/
theorem settled_row_of_finalize {env : DbEnv} {db db' : DB} {p q t : Nat} {status : TxStatus} {state outcome : State}
    {word actor : String} {assignRow : Transaction → Transaction} {assign : Payment → Payment}
    (hdb : db' = ((finalize env q t status state word actor assignRow assign).run db).2)
    (hid : ∀ x, (assign x).id = x.id) (hst : ∀ x, (assign x).state = state)
    (htx : ∀ r, (assignRow r).txHash = r.txHash)
    (hshape : Shape (rawHashOf lib) (lifeOf db.tables p)) (hbefore : stateOf p db.tables ≠ some outcome)
    (hafter : stateOf p db'.tables = some outcome) :
    actor ∈ actorTypes ∧ p = q ∧ ¬ Retired (lifeOf db.tables p) ∧
      ∀ r ∈ db'.tables.transactions, r.paymentId = p → r.status ∈ [TxStatus.confirmed, .reverted] →
        ∃ r₀ ∈ db.tables.transactions, r₀.id = t ∧ r₀.paymentId = p ∧ r.txHash = r₀.txHash := by
  unfold Txn.run at hdb
  split at hdb
  · rename_i u db₁ hok
    change db' = db₁ at hdb
    subst hdb
    obtain ⟨hactor, t₁, ht, -, st, hw, hm⟩ | ⟨-, -, rfl⟩ := finalize_ok hok hid hst
    · -- only the payment named in the call changed its state
      have hpq : p = q := by
        by_contra hne
        rw [hm.state, if_neg hne, ht, stateOf_updateTransactions] at hafter
        exact hbefore hafter
      subst hpq
      have hwait : stateOf p db.tables = some st := by rw [← hm.before, ht]; rfl
      have hpipe : Pipeline (lifeOf db.tables p) := .inl ⟨st, by revert hw; cases st <;> decide, hwait⟩
      refine ⟨hactor, rfl, hpipe.not_retired, fun r hr hp hrs => ?_⟩
      rw [hm.transactions, ht] at hr
      rcases mem_mapIf.1 hr with ⟨r₀, hr₀, hrow, rfl⟩ | ⟨hr, -⟩
      · obtain ⟨hid₀, hp₀, -⟩ := of_decide_eq_true hrow
        exact ⟨r₀, hr₀, hid₀, hp₀, htx r₀⟩
      · -- a row the call did not change is in no final status
        have hold := (sent_of_waiting hshape hwait hw (mem_rowsOf.2 ⟨r, hr, hp, rfl⟩)).1
        change r.status ∈ _ at hold
        exfalso
        revert hold hrs
        cases r.status <;> decide
    · exact absurd hafter hbefore
  · change db' = db at hdb
    rw [hdb] at hafter
    exact absurd hafter hbefore

/-- A process that may record an outcome, under an actor the audit admits, has seen it final for the row it names. -/
theorem seen_of_mayFinalize (hi : Inv lib s log) {p t : Nat} {actor : String} {receipt : Receipt} {r : Transaction}
    (hmay : MayFinalize cfg (own pid log) p t actor receipt) (hactor : actor ∈ actorTypes)
    (hret : ¬ Retired (lifeOf s.db.tables p))
    (hr : ∃ r₀ ∈ s.db.tables.transactions, r₀.id = t ∧ r₀.paymentId = p ∧ r.txHash = r₀.txHash) :
    ∃ txHash block head, SeenSettled cfg (own pid log) r txHash receipt block head := by
  obtain ⟨txHash, ⟨hread, ⟨block, hblock, hcanon⟩, current, hhead, hdepth⟩, hwho⟩ := hmay
  obtain ⟨work, hload, rfl, rfl, hne⟩ := hwho.resolve_left fun h => absurd (h.1 ▸ hactor) (by decide)
  have hsame : work.paymentId = p := hi.stands hload (.loadedPayment p work)
  have hhash := hi.stands hload (.hash p work hne)
  rw [hsame] at hhash
  obtain ⟨x, hx, hxid, hxh⟩ := hhash.resolve_left hret
  obtain ⟨r₀, hr₀, hid, hp, htx⟩ := hr
  obtain ⟨-, hrow⟩ := rowsOf_id s.db (mem_rowsOf.2 ⟨r₀, hr₀, hp, rfl⟩) hx (hid.trans hxid.symm)
  refine ⟨work.txHash, block, current, ?_, hread, hblock, hcanon, hhead, deep_of_depthAt hdepth⟩
  rw [htx, ← hxh, ← hrow]
  rfl

/-- A recovery process has asked for no block by its number. -/
theorem not_seen_of_recovers (hd : Disciplined (Allowed lib cfg e) (own pid log)) (he : e.recovers = true)
    {r : Transaction} {txHash : String} {receipt : Receipt} {block : Block} {head : Nat} :
    ¬ SeenSettled cfg (own pid log) r txHash receipt block head := by
  intro h
  obtain ⟨a, b, hsplit⟩ := List.append_of_mem h.readBlock
  have hno : e.recovers = false := hd a _ b hsplit
  rw [he] at hno
  cases hno

theorem exists_settledRow {db : DB} {p : Nat} {outcome : State} (ho : outcome = .confirmed ∨ outcome = .reverted)
    (hshape : Shape (rawHashOf lib) (lifeOf db.tables p)) (hst : stateOf p db.tables = some outcome) :
    ∃ r, SettledRow p outcome db r := by
  have hmain : Main [finalStatus outcome] (rowsOf db.tables p) := by
    unfold lifeOf at hshape
    rw [hst] at hshape
    rcases ho with rfl | rfl <;> exact hshape.1
  obtain ⟨x, hx, hxs⟩ := hmain
  obtain ⟨r, hr, hp, rfl⟩ := mem_rowsOf.1 hx
  exact ⟨r, hr, hp, List.mem_singleton.1 hxs⟩

theorem SettledRow.final {db : DB} {p : Nat} {outcome : State} {r : Transaction} (h : SettledRow p outcome db r) :
    r.status ∈ [TxStatus.confirmed, .reverted] := by
  rw [h.status]
  unfold finalStatus
  split <;> decide

/-- One settling call: what the process had read is enough exactly when it records no original as landed. -/
theorem seen_iff_not_lands (hi : Inv lib s log) {q : Call} (hj : Allowed lib cfg e (own pid log) q)
    (hd : Disciplined (Allowed lib cfg e) (own pid log)) (env : StepEnv) {p : Nat} {outcome : State}
    (ho : outcome = .confirmed ∨ outcome = .reverted) (hbefore : stateOf p s.db.tables ≠ some outcome)
    (hafter : stateOf p (perform s env q).2.db.tables = some outcome) {r : Transaction}
    (hr : SettledRow p outcome (perform s env q).2.db r) :
    (∃ txHash receipt block head, SeenSettled cfg (own pid log) r txHash receipt block head) ↔ lands q = false := by
  obtain ⟨op, rfl, hfin, hdb⟩ := finalizes_of_settled hi hj env ho hbefore hafter
  cases op with
  | markTxConfirmed q t number hash gasUsed gasPrice actor | markTxReverted q t gasUsed gasPrice actor =>
    obtain ⟨receipt, hmay, -⟩ := hj
    obtain ⟨hactor, rfl, hret, hrows⟩ := settled_row_of_finalize hdb (fun _ => rfl) (fun _ => rfl) (fun _ => rfl)
      (hi.shape p) hbefore hafter
    obtain ⟨txHash, block, head, hseen⟩ := seen_of_mayFinalize hi hmay hactor hret (hrows r hr.mem hr.payment hr.final)
    exact ⟨fun _ => rfl, fun _ => ⟨txHash, receipt, block, head, hseen⟩⟩
  | markReplacementLanded =>
    constructor
    · rintro ⟨txHash, receipt, block, head, hseen⟩
      exact absurd hseen (not_seen_of_recovers hd hj.1)
    · intro h; cases h
  | _ => cases hfin

/-- Each time a payment becomes confirmed or reverted, in every run and whatever the chain answers, some process
made the call that settled it. For the settled row that process had read a receipt in a block that was canonical
and deep enough exactly when the call is not the record of a landed original. -/
theorem settled_on_canonical_block (lib : Libraries) (cfg : Settlement.Config) (run : Run lib cfg)
    (ch : Choice (facilitator lib cfg)) (p : Nat) (outcome : State) (ho : outcome = .confirmed ∨ outcome = .reverted)
    (hbefore : stateOf p (reach lib cfg run).shared.db.tables ≠ some outcome)
    (hafter : stateOf p (reach lib cfg (run ++ [ch])).shared.db.tables = some outcome) :
    ∃ pid q, Makes (reach lib cfg run) ch pid q ∧
      (∃ r, SettledRow p outcome (reach lib cfg (run ++ [ch])).shared.db r) ∧
      ∀ r, SettledRow p outcome (reach lib cfg (run ++ [ch])).shared.db r →
        ((∃ txHash receipt block head,
            SeenSettled cfg (own pid (reach lib cfg run).log) r txHash receipt block head) ↔ lands q = false) := by
  have hrow := exists_settledRow ho ((reach_inv (run ++ [ch])).shape p) hafter
  have hstep : reach lib cfg (run ++ [ch]) = (reach lib cfg run).step ch := exec_snoc _ run ch
  rw [hstep] at hafter hrow ⊢
  rcases step_cases (reach lib cfg run) ch with ⟨pid, env, e, q, k, rfl, hq, hs⟩ | ⟨-, hsh | ⟨m, rfl, hsh⟩⟩
  · have hk := kept_reach run
    refine ⟨pid, q, ⟨env, e, k, rfl, hq⟩, hrow, fun r hr => ?_⟩
    rw [hs] at hafter hr
    exact seen_iff_not_lands (reach_inv run) (hk.wp pid e _ hq).1 (hk.past pid _ hq) env ho hbefore hafter hr
  · rw [hsh] at hafter
    exact absurd hafter hbefore
  · rw [hsh] at hafter
    obtain ⟨hpay, htx, -⟩ := outside_lives (reach lib cfg run).shared m
    have hlife := congrArg Life.state (lifeOf_congr hpay htx p)
    exact absurd (hlife.symm.trans hafter) hbefore

/-- The confirmation worker has read everything but recorded nothing yet. -/
def sampleSeen : Run sampleLib sampleConfig :=
  sampleBroadcast ++ [enter (.confirmationTick "worker")] ++ calls 9 3 ((calm 12).mined "0x0307" 5 1)

/-- It records the outcome. -/
def sampleRecords : Choice (facilitator sampleLib sampleConfig) := .run 3 (calm 12).env

theorem settled_on_canonical_block_sample :
    stateOf 10 (reach sampleLib sampleConfig (sampleSeen ++ [sampleRecords])).shared.db.tables = some .confirmed ∧
      ∃ pid q, Makes (reach sampleLib sampleConfig sampleSeen) sampleRecords pid q ∧
        (∃ r, SettledRow 10 .confirmed (reach sampleLib sampleConfig (sampleSeen ++ [sampleRecords])).shared.db r) ∧
        ∀ r, SettledRow 10 .confirmed (reach sampleLib sampleConfig (sampleSeen ++ [sampleRecords])).shared.db r →
          ((∃ txHash receipt block head, SeenSettled sampleConfig
            (own pid (reach sampleLib sampleConfig sampleSeen).log)
            r txHash receipt block head) ↔ lands q = false) := by
  suffices h : _ ∧ _ from
    ⟨h.1, settled_on_canonical_block _ _ sampleSeen sampleRecords 10 .confirmed (.inl rfl) h.2 h.1⟩
  decide +kernel

/-- A provider that still answers with the receipt of a block which is no longer the canonical one. -/
def orphaned : Script :=
  { late 13 with receipt := fun h => if h = "0x0307" then some ⟨5, "0x0dd", 0, 1, 1⟩ else none }

/-- The recovery worker has read that receipt and the head. -/
def sampleOrphaned : SampleRun := sampleBumped ++ calls 6 4 orphaned

/-- The call asks for the block of a number. -/
def readsBlock (ev : Ev) : Bool :=
  match ev.call with
  | .blockByNumber (some _) => true
  | _ => false

/-- The payment is then reverted for good, though the worker never asked which block is canonical. -/
theorem reverted_on_orphaned_block :
    stateOf 10 (reach sampleLib sampleConfig sampleOrphaned).shared.db.tables = some .replaced ∧
      stateOf 10 (reach sampleLib sampleConfig (sampleOrphaned ++ [.run 4 orphaned.env])).shared.db.tables =
        some .reverted ∧
      ∀ r txHash receipt block head, ¬ SeenSettled sampleConfig
        (own 4 (reach sampleLib sampleConfig sampleOrphaned).log)
        r txHash receipt block head := by
  suffices h : _ ∧ _ ∧ (own 4 (reach sampleLib sampleConfig sampleOrphaned).log).any readsBlock = false from
    ⟨h.1, h.2.1, fun _ _ _ _ _ hseen => List.any_eq_false.1 h.2.2 _ hseen.readBlock rfl⟩
  decide +kernel

end Eth402.System
