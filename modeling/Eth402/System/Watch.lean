/-
What is watched while a payment waits for its outcome. Two steps of the code are told apart: a sighting that
moves the payment although its row is no longer the one watched (`MarkTxConfirming` does not look at the number
of rows it updated), and an original that is taken for landed at its first sighting, whose competitors are given
up at once (`MarkReplacementLanded`). In runs without the first, the payment's state and the status of its active
row agree; in runs without the second, every hash that was sent stays with a row that some worker reads.
-/
import Eth402.System.Sends

namespace Eth402.System

open Lib Store Settlement Verification

variable {lib : Libraries} {cfg : Settlement.Config} {e : Entry} {s : Shared} {log : List (Nat × Ev)} {pid : Nat}

/-! ## The state and the active row -/

/-- The statuses of the payment's active rows. -/
def activeStatuses (p : Nat) (t : Tables) : List TxStatus :=
  (t.transactions.filter fun r => decide (r.paymentId = p) && r.active).map (·.status)

/-- The payment has exactly one active row, in the status its state says. -/
def RowAgrees (p : Nat) (t : Tables) : Prop :=
  (stateOf p t = some .broadcast → activeStatuses p t = [.broadcast]) ∧
    (stateOf p t = some .confirming → activeStatuses p t = [.confirming])

/-- A sighting that would move its payment finds the row it is about still watched. -/
def findsRow (s : Shared) : Call → Bool
  | .store (.markTxConfirming p t _ _ _) =>
    stateOf p s.db.tables = some .broadcast ∨ stateOf p s.db.tables = some .replaced →
      s.db.tables.transactions.any (rowOf p t [.broadcast, .confirming]) = true
  | _ => true

theorem not_missed {q : Call} (h : findsRow s q = true) (k : Kind) (hk : CallKinds s.db q k) : k ≠ .missed := by
  rintro rfl
  cases q with
  | store op =>
    obtain ⟨p, t, n, bh, a, rfl, hmiss, hst⟩ := Kinds.of_missed hk
    obtain ⟨r, hr, hrow⟩ := List.any_eq_true.1 (of_decide_eq_true h hst)
    obtain ⟨hid, hp, hs⟩ := of_decide_eq_true hrow
    exact hmiss ⟨r.row, mem_rowsOf.2 ⟨r, hr, hp, rfl⟩, Row.is_iff.2 ⟨hid, hs⟩⟩
  | _ => cases hk

theorem activeStatuses_of {db : DB} {p : Nat} {r : Row} (hr : r ∈ rowsOf db.tables p) (hact : r.active = true) :
    activeStatuses p db.tables = [r.status] := by
  obtain ⟨x, hx, hxp, rfl⟩ := mem_rowsOf.1 hr
  unfold activeStatuses
  have hmem : x ∈ db.tables.transactions.filter fun r => decide (r.paymentId = p) && r.active :=
    List.mem_filter.2 ⟨hx, by rw [Bool.and_eq_true]; exact ⟨decide_eq_true hxp, hact⟩⟩
  have hnodup : ((db.tables.transactions.filter fun r => decide (r.paymentId = p) && r.active).map
    (·.paymentId)).Nodup := by
    rw [← List.filter_filter]
    exact db.wf.oneActive.sublist (List.filter_sublist.map _)
  rw [eq_singleton_of_key hnodup hmem fun y hy => ?_]
  · rfl
  · have hyp := (List.mem_filter.1 hy).2
    rw [Bool.and_eq_true, decide_eq_true_eq] at hyp
    exact hyp.1.trans hxp.symm

/-- In every run whose sightings find their row, a payment in state broadcast or confirming has exactly one active
row, and it is in the status of that name. -/
theorem state_agrees_with_active_row (lib : Libraries) (cfg : Settlement.Config) (run : Run lib cfg)
    (hrun : Passes (M := facilitator lib cfg) findsRow (start lib cfg) run) (p : Nat) :
    RowAgrees p (reach lib cfg run).shared.db.tables := by
  have hi := (reach_inv run).shape p
  have hsighted : Sighted (lifeOf (reach lib cfg run).shared.db.tables p) := by
    refine run_lives (L := Sighted) (K := (· ≠ .missed)) (fun rows h => by cases h) ?_ ?_ run hrun p
    · exact fun k l l' hk m _ hshape h => h.move m hk hshape
    · exact fun s log pid env q hq => not_missed hq
  constructor
  · intro hst
    unfold Shape lifeOf at hi
    rw [hst] at hi
    obtain ⟨⟨r, hr, hrs⟩, -⟩ := hi
    rw [List.mem_singleton] at hrs
    rw [← hrs]
    exact activeStatuses_of hr (by rw [Row.active_iff, hrs]; decide)
  · intro hst
    obtain ⟨r, hr, hrs⟩ := hsighted hst
    rw [List.mem_singleton] at hrs
    rw [← hrs]
    exact activeStatuses_of hr (by rw [Row.active_iff, hrs]; decide)

/-- A payment sighted by a confirmation worker that holds its lease. -/
theorem state_agrees_sample :
    stateOf 10 (reach sampleLib sampleConfig (sampleBroadcast ++ [enter (.confirmationTick "worker")] ++
        calls 10 3 ((calm 12).mined "0x0307" 10 1))).shared.db.tables = some .confirming ∧
      RowAgrees 10 (reach sampleLib sampleConfig (sampleBroadcast ++ [enter (.confirmationTick "worker")] ++
        calls 10 3 ((calm 12).mined "0x0307" 10 1))).shared.db.tables := by
  suffices h : _ ∧ passes _ (start sampleLib sampleConfig) _ = true from
    ⟨h.1, state_agrees_with_active_row _ _ _ (.of_test h.2) 10⟩
  decide +kernel

/-- The slow worker sights the original in a block after the other replaced it: the payment becomes confirming,
while its active row is the replacement, in status broadcast. -/
theorem stale_sighting_disagrees :
    ¬ RowAgrees 10 (reach sampleLib sampleConfig (sampleBumped ++
      calls 4 3 ((late 13).mined "0x0307" 10 1))).shared.db.tables := by
  unfold RowAgrees
  decide +kernel

/-! ## The hashes that were sent -/

/-- The payment has a row with this transaction hash that some worker reads: the confirmation worker its active
row, the recovery worker those `ListReplacedPending` returns. -/
def Watched (p : Nat) (txHash : String) (db : DB) : Prop :=
  ∃ r ∈ db.tables.transactions, r.paymentId = p ∧ r.txHash = some txHash ∧
    (r.active = true ∨ (r.status = .replaced ∧ ∀ env : DbEnv, ∃ tracked : List TrackedTransaction,
      (Store.listReplacedPending env).run db = (.ok tracked, db) ∧ ⟨p, r.id, txHash, none, []⟩ ∈ tracked))

/-- Every hash sent for a payment that waits for its outcome is watched. -/
def SendsWatched (lib : Libraries) (s : Shared) (log : List (Nat × Ev)) : Prop :=
  ∀ (pid : Nat) (sending : Sending) (text : String) (answer : Except Err String) (st : State),
    (pid, ⟨.sendRawTransaction sending text, answer⟩) ∈ log → st ∈ unsettledStates →
    stateOf sending.paymentId s.db.tables = some st →
    ∃ raw : Bytes, text = "0x" ++ hexEncode raw ∧ Watched sending.paymentId ("0x" ++ rawHashOf lib raw) s.db

/-- The call takes no original for landed at its first sighting. -/
def landsNothing (_ : Shared) : Call → Bool
  | .store (.markReplacementLanded _ _ true ..) => false
  | _ => true

theorem not_landed {q : Call} (h : landsNothing s q = true) (k : Kind) (hk : CallKinds s.db q k) : k ≠ .landed := by
  rintro rfl
  cases q with
  | store op =>
    obtain ⟨p, t, n, bh, g, c, a, rfl⟩ := Kinds.of_landed hk
    cases h
  | _ => cases hk

/-- Whoever may send knows a record of the hash, or that the payment is retired. -/
theorem Inv.recorded (hi : Inv lib s log) {sending : Sending} {raw : Bytes}
    (h : MaySend lib cfg (own pid log) sending raw) :
    Stands s.db (.recorded sending.paymentId (rawHashOf lib raw)) := by
  obtain ⟨site, p, t⟩ := sending
  cases site with
  | broadcastClaimed =>
    obtain ⟨⟨q, work, hl, rfl, rfl⟩, sighash, n, m, f, hlast⟩ := h
    refine .inr (recorded_of_signed (hi.stands hl (.loaded q work)) ?_)
    exact hi.stands (List.mem_of_getLast? hlast) (.signed ..)
  | resolveAmbiguous =>
    rcases h with ⟨q, work, hl, rfl, rfl, hs, hr, hraw⟩ | ⟨r, a, hev, hraw⟩
    · refine .inr (recorded_of_signed (hi.stands hl (.loaded q work)) ?_)
      rw [← hraw]
      exact hi.stands hl (.ambiguous q work hs hr)
    · rw [← hraw]
      exact hi.stands hev (.resigned ..)
  | replaceStuck =>
    obtain ⟨r, a, hev, hraw⟩ := h
    rw [← hraw]
    exact hi.stands hev (.replaced ..)
  | fillNonceGap =>
    obtain ⟨⟨work, ⟨c, signer, works, -, hlist, hw⟩, rfl, rfl⟩, -⟩ := h
    exact .inl (hi.stands hlist (.gapRetired signer _ works work hw))
  | bumpStuckGapFiller =>
    obtain ⟨r, hev, -⟩ := h
    exact .inl (hi.stands hev (.refilled ..))
  | observeGapFiller =>
    obtain ⟨tr, ⟨tracked, hlist, htr⟩, rfl, rfl, -⟩ := h
    exact .inl (hi.stands hlist (.fillerRetired tracked tr htr))

/-- What was sent stays recorded. -/
def SendsRecorded (lib : Libraries) (s : Shared) (log : List (Nat × Ev)) : Prop :=
  ∀ (pid : Nat) (sending : Sending) (text : String) (answer : Except Err String),
    (pid, ⟨.sendRawTransaction sending text, answer⟩) ∈ log →
    ∃ raw : Bytes, text = "0x" ++ hexEncode raw ∧ Stands s.db (.recorded sending.paymentId (rawHashOf lib raw))

theorem reach_sendsRecorded (run : Run lib cfg) :
    SendsRecorded lib (reach lib cfg run).shared (reach lib cfg run).log := by
  refine (run_inv (P := fun _ _ _ _ _ => True) (X := SendsRecorded lib) ?_ ?_ ?_ run ?_).2
  · intro pid sending text answer hx
    cases hx
  · intro s log pid env q e hi hsent hj _ n sending text answer hx
    rcases List.mem_append.1 hx with hx | hx
    · obtain ⟨raw, htext, hrec⟩ := hsent n sending text answer hx
      exact ⟨raw, htext, hrec.move hi.shape (hi.moves hj env) (perform_payments s env q)⟩
    · obtain ⟨-, hev⟩ := Prod.mk.inj (List.mem_singleton.1 hx)
      obtain ⟨rfl, -⟩ := Event.mk.inj hev
      obtain ⟨raw, htext, hmay, -⟩ := hj
      exact ⟨raw, htext, hi.recorded hmay⟩
  · intro s log m hi hsent n sending text answer hx
    obtain ⟨raw, htext, hrec⟩ := hsent n sending text answer hx
    obtain ⟨hpay, htx, -⟩ := outside_lives s m
    exact ⟨raw, htext, hrec.move hi.shape (moves_of_eq (lifeOf_congr hpay htx)) (.of_eq hpay)⟩
  · exact along_of_forall (fun _ _ _ _ _ _ _ _ _ => trivial) _ _

/-- The watch over replaced rows reads them all: every row of a waiting payment has its hash. -/
theorem listReplacedPending_total {db : DB} (hshape : ∀ q, Shape (rawHashOf lib) (lifeOf db.tables q)) (env : DbEnv) :
    ∃ tracked : List TrackedTransaction, (Store.listReplacedPending env).run db = (.ok tracked, db) ∧
      ∀ r ∈ db.tables.transactions, r.status = .replaced → ∀ st ∈ waiting, stateOf r.paymentId db.tables = some st →
        ∀ h, r.txHash = some h → ⟨r.paymentId, r.id, h, none, []⟩ ∈ tracked := by
  have hscan : ∀ r ∈ env.arrange (·.id) (db.tables.transactions.filter fun r =>
      r.status = .replaced ∧ (db.tables.ownerState r).any (· ∈ [.replaced, .confirming, .broadcast])),
      ∃ y, (do let h ← scanText r.txHash; pure (⟨r.paymentId, r.id, h, none, []⟩ : TrackedTransaction)) = .ok y := by
    intro r hr
    rw [DbEnv.mem_arrange] at hr
    obtain ⟨hr, hpick⟩ := List.mem_filter.1 hr
    obtain ⟨-, howner⟩ := of_decide_eq_true hpick
    cases hst : db.tables.ownerState r with
    | none => rw [hst] at howner; cases howner
    | some st =>
      rw [hst] at howner
      have hw : st ∈ waiting := by
        have := of_decide_eq_true howner
        revert this
        cases st <;> decide
      obtain ⟨-, -, h, -, htx⟩ := sent_of_waiting (hshape r.paymentId) hst hw (mem_rowsOf.2 ⟨r, hr, rfl, rfl⟩)
      exact ⟨⟨r.paymentId, r.id, "0x" ++ h, none, []⟩, by rw [show r.txHash = some ("0x" ++ h) from htx]; rfl⟩
  obtain ⟨tracked, hall, hmem⟩ := mapM_total hscan
  refine ⟨tracked, Txn.run_query hall, fun r hr hrs st hw hst h hh => ?_⟩
  have hlisted : r ∈ env.arrange (·.id) (db.tables.transactions.filter fun r =>
      r.status = .replaced ∧ (db.tables.ownerState r).any (· ∈ [.replaced, .confirming, .broadcast])) := by
    rw [DbEnv.mem_arrange, List.mem_filter]
    refine ⟨hr, decide_eq_true ⟨hrs, ?_⟩⟩
    rw [show db.tables.ownerState r = some st from hst]
    revert hw
    cases st <;> decide
  obtain ⟨y, hy, hyr⟩ := hmem r hlisted
  rw [hh] at hyr
  cases hyr
  exact hy

/-- A recorded hash of a waiting payment with no row given up is watched. -/
theorem watched_of_recorded {db : DB} {p : Nat} {h : String} {st : State}
    (hshape : ∀ q, Shape (rawHashOf lib) (lifeOf db.tables q)) (hkept : Undropped (lifeOf db.tables p))
    (hw : st ∈ waiting) (hst : stateOf p db.tables = some st) (hrec : Stands db (.recorded p h)) :
    Watched p ("0x" ++ h) db := by
  have hpipe : Pipeline (lifeOf db.tables p) := .inl ⟨st, by revert hw; cases st <;> decide, hst⟩
  obtain ⟨x, hx, hraw⟩ := hrec.resolve_left hpipe.not_retired
  obtain ⟨hstatus, -, h', hraw', htx⟩ := sent_of_waiting (hshape p) hst hw hx
  rw [hraw] at hraw'
  cases hraw'
  have hund := hkept st hw hst x hx
  obtain ⟨r, hr, rfl, rfl⟩ := mem_rowsOf.1 hx
  refine ⟨r, hr, rfl, htx, ?_⟩
  by_cases hrep : r.status = .replaced
  · refine .inr ⟨hrep, fun env => ?_⟩
    obtain ⟨tracked, hrun, hall⟩ := listReplacedPending_total hshape env
    exact ⟨tracked, hrun, hall r hr hrep st hw hst _ htx⟩
  · have hact : r.row.status ∈ activeTransactionStatuses → r.active = true := fun hs => Row.active_iff.2 hs
    refine .inl (hact ?_)
    have hne : r.row.status ≠ .replaced := hrep
    revert hstatus hund hne
    cases r.row.status <;> decide

/-- In every run that takes no original for landed at its first sighting, every hash sent for a payment is
watched as long as the payment waits for its outcome. -/
theorem sent_hashes_watched (lib : Libraries) (cfg : Settlement.Config) (run : Run lib cfg)
    (hrun : Passes (M := facilitator lib cfg) landsNothing (start lib cfg) run) :
    SendsWatched lib (reach lib cfg run).shared (reach lib cfg run).log := by
  intro pid sending text answer st hmem hw hst
  obtain ⟨raw, htext, hrec⟩ := reach_sendsRecorded run pid sending text answer hmem
  have hkept : Undropped (lifeOf (reach lib cfg run).shared.db.tables sending.paymentId) := by
    refine run_lives (L := Undropped) (K := (· ≠ .landed)) (fun rows s _ h => by cases h) ?_ ?_ run hrun _
    · exact fun k l l' hk m _ hshape h => h.move m hk hshape
    · exact fun s log pid env q hq => not_landed hq
  exact ⟨raw, htext, watched_of_recorded (reach_inv run).shape hkept hw hst hrec⟩

/-- A payment whose transaction was replaced by one with a higher fee: both hashes are watched. -/
theorem sent_hashes_watched_sample :
    stateOf 10 (reach sampleLib sampleConfig sampleBumped).shared.db.tables = some .replaced ∧
      (reach sampleLib sampleConfig sampleBumped).log.countP (fun x => x.2.call matches .sendRawTransaction ..) = 2 ∧
      SendsWatched sampleLib (reach sampleLib sampleConfig sampleBumped).shared
        (reach sampleLib sampleConfig sampleBumped).log := by
  suffices h : _ ∧ _ ∧ passes landsNothing (start sampleLib sampleConfig) sampleBumped = true from
    ⟨h.1, h.2.1, sent_hashes_watched _ _ _ (.of_test h.2.2)⟩
  decide +kernel

/-- The recovery worker meets a receipt of the original in the newest block. -/
def sampleLanded : SampleRun := sampleBumped ++ calls 4 4 (late 13) ++ calls 2 4 ((late 13).mined "0x0307" 10 1)

/-- The payment then waits in state confirming, but the row of the replacement, which was sent, is dropped: its hash
is read by no one, though the block of the original can still be reorganised out. -/
theorem landed_original_unwatches : ¬ SendsWatched sampleLib (reach sampleLib sampleConfig sampleLanded).shared
    (reach sampleLib sampleConfig sampleLanded).log := by
  intro h
  -- the only row with the hash that was sent is neither active nor replaced
  have hrun : stateOf 10 (reach sampleLib sampleConfig sampleLanded).shared.db.tables = some .confirming ∧
      (reach sampleLib sampleConfig sampleLanded).log.any (fun x => match x.2.call with
        | .sendRawTransaction sending text => sending.paymentId = 10 ∧ text = "0x" ++ hexEncode [3, 8]
        | _ => false) = true ∧
      (reach sampleLib sampleConfig sampleLanded).shared.db.tables.transactions.all (fun r =>
        r.paymentId = 10 → r.txHash = some ("0x" ++ rawHashOf sampleLib [3, 8]) →
          r.active = false ∧ r.status ≠ .replaced) = true := by decide +kernel
  obtain ⟨hstate, hsent, hdropped⟩ := hrun
  obtain ⟨⟨pid, q, a⟩, hmem, hq⟩ := List.any_eq_true.1 hsent
  cases q with
  | sendRawTransaction sending text =>
    obtain ⟨hp, rfl⟩ := of_decide_eq_true hq
    obtain ⟨raw, htext, r, hr, hrp, htx, hor⟩ := h pid sending _ a .confirming hmem (by decide)
      (by rw [hp]; exact hstate)
    obtain rfl : raw = [3, 8] := (hexEncode_inj (String.append_right_inj _ |>.1 htext)).symm
    rw [hp] at hrp
    obtain ⟨hidle, hkept⟩ := of_decide_eq_true (List.all_eq_true.1 hdropped r hr) hrp htx
    rcases hor with hact | ⟨hrep, -⟩
    · rw [hidle] at hact; cases hact
    · exact hkept hrep
  | _ => cases hq

end Eth402.System
