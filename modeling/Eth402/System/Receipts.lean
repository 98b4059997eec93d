/-
Receipts and the rows they are recorded for. A worker takes a row and its hash from one answer of the store. A request
does not: the row is the one admission named, and the hash is that of the work its inline broadcast loaded, which is
another row's when the first was replaced in between. As long as a request loads the row of its intent, and no filler is
prepared over a recorded signature, every outcome is recorded for the row whose hash the receipt was read under.
-/
import Eth402.System.Signatures

namespace Eth402.System

open Lib Store Settlement Verification

variable {lib : Libraries} {cfg : Settlement.Config} {e : Entry} {s : Shared} {log : List (Nat × Ev)} {pid : Nat}

/-! ## Rows and receipts -/

/-- The row `t` of the payment has the transaction hash `h`. -/
def HasHash (db : DB) (p t : Nat) (h : String) : Prop := ∃ r ∈ rowsOf db.tables p, r.id = t ∧ r.txHash = some h

/-- The row an outcome is recorded for, with its payment. -/
def outcomeRow : Op → Option (Nat × Nat)
  | .markTxConfirmed p t .. | .markTxReverted p t .. | .markReplacementLanded p t .. => some (p, t)
  | _ => none

/-- The call passes this receipt. -/
def PassesReceipt (receipt : Receipt) : Op → Prop
  | .markTxConfirmed _ _ number hash gasUsed gasPrice _ | .markReplacementLanded _ _ _ number hash gasUsed gasPrice _ =>
    number = receipt.blockNumber ∧ hash = receipt.blockHash ∧ gasUsed = receipt.gasUsed ∧
      gasPrice = receipt.effectiveGasPrice
  | .markTxReverted _ _ gasUsed gasPrice _ => gasUsed = receipt.gasUsed ∧ gasPrice = receipt.effectiveGasPrice
  | _ => False

/-- The call passes a receipt that its process read under the hash of the row `t`. -/
def PairedCall (past : List Ev) (db : DB) (op : Op) (p t : Nat) : Prop :=
  ∃ receipt txHash, PassesReceipt receipt op ∧ HasHash db p t txHash ∧
    (⟨.transactionReceipt txHash, .ok (some receipt)⟩ : Ev) ∈ past

/-- The hash of a settled answer is on the row that admission found confirmed, or on the one just marked confirmed. -/
def PairedAnswer (past : List Ev) (db : DB) (txHash : String) : Prop :=
  (∃ request intent, (⟨.store (.createSettlementIntent request), .ok intent⟩ : Ev) ∈ past ∧ intent.confirmed = true ∧
      HasHash db intent.paymentId intent.transactionId txHash) ∨
    ∃ p t n h g c a, past.getLast? = some ⟨.store (.markTxConfirmed p t n h g c a), .ok ()⟩ ∧ HasHash db p t txHash

/-- Along the run, receipts and rows belong together. -/
structure ReceiptsPaired (run : Run lib cfg) : Prop where
  calls : ∀ before ch rest pid op p t, run = before ++ ch :: rest → Makes (reach lib cfg before) ch pid (.store op) →
    outcomeRow op = some (p, t) →
      PairedCall (own pid (reach lib cfg before).log) (reach lib cfg before).shared.db op p t
  answers : ∀ before rest pid request polls response, run = before ++ rest →
    (reach lib cfg before).returned pid (.settle request polls) (.settled (.ok response)) → response.success = true →
      PairedAnswer (own pid (reach lib cfg before).log) (reach lib cfg before).shared.db response.transaction

/-! ## Requests that load the row of their intent -/

/-- The last call claimed a payment. -/
def justClaimed (past : List Ev) : Bool :=
  match past.getLast? with
  | some ⟨.store (.claimPayment ..), .ok _⟩ => true
  | _ => false

/-- If the answer admitted a request, every active row of the payment is the one it named. -/
def activeIsNamed (t : Tables) (p : Nat) : Ev → Bool
  | ⟨.store (.createSettlementIntent _), .ok intent⟩ =>
    t.transactions.all fun r => r.paymentId = p ∧ r.active = true → r.id = Intent.transactionId intent
  | _ => true

/-- A request that broadcasts inline loads the row of its intent, and a filler is prepared on a row that was never
signed. -/
def keepsRow (s : Shared) (past : List Ev) : Call → Bool
  | .store (.loadSettlementWork p) => justClaimed past = true → past.all (activeIsNamed s.db.tables p) = true
  | q => preparesUnsigned s q

/-- All calls of the run do. -/
def KeepsRows (run : Run lib cfg) : Prop :=
  CallsAlong (M := facilitator lib cfg) (fun s log pid _ q => keepsRow s (own pid log) q = true) (start lib cfg) run

theorem preparesUnsigned_of_keepsRow {past : List Ev} {q : Call} (h : keepsRow s past q = true) :
    preparesUnsigned s q = true := by
  cases q with
  | store op => cases op <;> first | exact h | rfl
  | _ => rfl

/-! ## What answers say about hashes -/

/-- The answer names the row `t` of the payment with its transaction hash. -/
inductive Names : Ev → Nat → Nat → String → Prop
  | loaded (p : Nat) (work : Work) (hne : work.txHash ≠ "") :
      Names ⟨.store (.loadSettlementWork p), .ok work⟩ p work.transactionId work.txHash
  | broadcast (p t : Nat) (h a : String) : Names ⟨.store (.markTxBroadcast p t h a), .ok ()⟩ p t h
  | replaced (tracked : List TrackedTransaction) (x : TrackedTransaction) (hx : x ∈ tracked) :
      Names ⟨.store .listReplacedPending, .ok tracked⟩ x.paymentId x.transactionId x.txHash
  | intent (request : IntentRequest) (intent : Intent) (hne : intent.txHash ≠ "") :
      Names ⟨.store (.createSettlementIntent request), .ok intent⟩ intent.paymentId intent.transactionId intent.txHash

theorem Names.ok {ev : Ev} {p t : Nat} {h : String} (hn : Names ev p t h) : ∃ op r, ev = ⟨.store op, .ok r⟩ := by
  cases hn <;> exact ⟨_, _, rfl⟩

section Store

variable {env : DbEnv} {db db' : DB}

theorem hasHash_of_row {r : Transaction} {h : String} (hr : r ∈ db.tables.transactions) (hh : r.txHash = some h) :
    HasHash db r.paymentId r.id h :=
  ⟨r.row, mem_rowsOf.2 ⟨r, hr, rfl, rfl⟩, rfl, hh⟩

theorem listReplacedPending_hash {tracked : List TrackedTransaction}
    (h : listReplacedPending env db = .ok (tracked, db'))
    {x : TrackedTransaction} (hx : x ∈ tracked) : HasHash db' x.paymentId x.transactionId x.txHash := by
  obtain ⟨hq, rfl⟩ := Txn.query_ok h
  obtain ⟨r, hr, hf⟩ := mem_of_mapM_ok hq hx
  rw [DbEnv.mem_arrange, List.mem_filter] at hr
  obtain ⟨h', hscan, hf⟩ := except_bind_ok hf
  cases hf
  refine hasHash_of_row hr.1 ?_
  unfold scanText at hscan
  split at hscan <;> cases hscan
  assumption

theorem markTxBroadcast_hash {p t : Nat} {txHash actor : String} {u : Unit}
    (h : markTxBroadcast env p t txHash actor db = .ok (u, db')) : HasHash db' p t txHash := by
  obtain ⟨db₁, hc, ht, hm⟩ := updateOne_ok h
  obtain ⟨r, hr, hw⟩ := exists_of_countP_one hc
  obtain ⟨hid, hp, -⟩ := of_decide_eq_true hw
  have hmem : { r with
      status := .broadcast, txHash := some txHash, broadcastAttemptedAt := some env.now, updatedAt := env.now } ∈
      db₁.tables.transactions := by
    rw [ht]
    exact mem_mapIf.2 (.inl ⟨r, hr, hw, rfl⟩)
  obtain ⟨x, hx, hxid, hxh⟩ := hasHash_of_row hmem rfl
  rw [hp, ← (transitionPayment_ok hm).rowsOf] at hx
  exact ⟨x, hx, hxid.trans hid, hxh⟩

theorem intent_hash {request : IntentRequest} {intent : Intent}
    (h : createSettlementIntent env request db = .ok (.ok intent, db')) (hne : intent.txHash ≠ "") :
    HasHash db' intent.paymentId intent.transactionId intent.txHash := by
  obtain ⟨signer, -, ho⟩ := createSettlementIntent_outcome h
  cases ho with
  | terminal p tx txHash hp ht hq =>
    obtain ⟨hmem, howner, -, hh⟩ := terminalRow_mem ht
    rw [← hq.transactions] at hmem
    have hrow := hasHash_of_row hmem hh
    rwa [howner] at hrow
  | duplicate p tx hp ht ha hq =>
    unfold Tables.activeRow at ha
    have hmem := List.mem_of_find?_eq_some ha
    rw [← hq.transactions] at hmem
    have hcond := List.find?_some ha
    simp only [decide_eq_true_eq] at hcond
    have howner := hcond.1
    have hrow := hasHash_of_row hmem (eq_some_of_getD rfl hne)
    rwa [howner] at hrow
  | committed p nonce => exact absurd rfl hne

theorem Names.hasHash {op : Op} {r : Except Err op.Result} {p t : Nat} {h : String} (hn : Names ⟨.store op, r⟩ p t h)
    (hrun : op.run env db = (r, db')) : HasHash db' p t h := by
  cases hn with
  | loaded p work hne =>
    obtain ⟨rfl, hp, q, r, hb, -, -, htx, -⟩ := loadSettlementWork_ok (run_ok hrun)
    have hrow := hasHash_of_row hb.row (eq_some_of_getD htx hne)
    rwa [hb.owner, ← hb.paymentId, hp, ← hb.transactionId] at hrow
  | broadcast p t h a => exact markTxBroadcast_hash (run_ok hrun)
  | replaced tracked x hx => exact listReplacedPending_hash (run_ok hrun) hx
  | intent request intent hne => exact intent_hash (runInner_ok hrun) hne

end Store

/-! ## One call -/

theorem rawHash_of_txHash {hash : Bytes → String} {l : Life} (h : Shape hash l) {r : Row} (hr : r ∈ l.rows) {x : String}
    (hx : r.txHash = some x) : ∃ y, r.rawHash = some y := by
  obtain ⟨state, rows⟩ := l
  have sent : r.Sent → ∃ y, r.rawHash = some y := fun hs => hs.2.imp fun _ hy => hy.1
  have filler : r.Filler hash → ∃ y, r.rawHash = some y := by
    rintro (⟨-, -, -, hnone⟩ | ⟨y, hy, -⟩)
    · rw [hx] at hnone; cases hnone
    · exact ⟨y, hy⟩
  have rowless : rows = [] → ∃ y, r.rawHash = some y := fun hnil => by
    change r ∈ rows at hr
    rw [hnil] at hr
    cases hr
  cases state with
  | none => exact rowless h
  | some st =>
    cases st with
    | received | verificationFailed | verified => exact rowless h
    | broadcasting =>
      obtain ⟨-, hnone, -⟩ := h.2 r hr
      rw [hx] at hnone
      cases hnone
    | broadcast | replaced | confirming | confirmed | reverted => exact sent (h.2 r hr).2
    | manualReview =>
      rcases h with ⟨-, hall⟩ | ⟨-, hall⟩
      · have hnone := (hall r hr).2.2.1
        rw [hx] at hnone
        cases hnone
      · exact filler (hall r hr).2
    | expired | failed => exact filler (h r hr).2

theorem HasHash.kept {hash : Bytes → String} {db db' : DB} {p t : Nat} {h : String} (hh : HasHash db p t h)
    (hshape : Shape hash (lifeOf db.tables p)) (hk : SignaturesKept (rowsOf db.tables p) (rowsOf db'.tables p)) :
    HasHash db' p t h := by
  obtain ⟨r, hr, hid, htx⟩ := hh
  obtain ⟨y, hy⟩ := rawHash_of_txHash hshape hr htx
  obtain ⟨r', hr', hkept⟩ := hk r hr
  refine ⟨r', hr', hkept.id.trans hid, ?_⟩
  rcases hkept.txHash y hy with hsame | ⟨hnone, -⟩
  · rw [hsame, htx]
  · rw [htx] at hnone
    cases hnone

/-- What the processes know of hashes is so, and the requests that broadcast inline loaded the rows of their intents. -/
structure HashesKnown (s : Shared) (log : List (Nat × Ev)) : Prop where
  named : ∀ x ∈ log, ∀ p t h, Names x.2 p t h → HasHash s.db p t h
  inline : ∀ pid intent work, LoadedInline (own pid log) intent work → work.transactionId = intent.transactionId

/-- A load right after a claim, at the end of what the process did, or earlier. -/
theorem LoadedInline.snoc {past : List Ev} {ev : Ev} {intent : Intent} {work : Work}
    (h : LoadedInline (past ++ [ev]) intent work) : LoadedInline past intent work ∨
      ev = ⟨.store (.loadSettlementWork intent.paymentId), .ok work⟩ ∧ justClaimed past = true ∧
        ∃ request, (⟨.store (.createSettlementIntent request), .ok intent⟩ : Ev) ∈ past := by
  obtain ⟨pre, post, request, w, d, now, lease, heq, hmem⟩ := h
  rcases List.eq_nil_or_concat post with rfl | ⟨post', x, rfl⟩
  · have hsplit : past ++ [ev] = (pre ++ [⟨.store (.claimPayment intent.paymentId w d now), .ok lease⟩]) ++
        [⟨.store (.loadSettlementWork intent.paymentId), .ok work⟩] := by rw [heq]; simp
    obtain ⟨rfl, hev⟩ := List.append_inj' hsplit rfl
    refine .inr ⟨List.singleton_inj.1 hev, ?_, request, List.mem_append_left _ hmem⟩
    unfold justClaimed
    rw [List.getLast?_concat]
  · refine .inl ⟨pre, post', request, w, d, now, lease, ?_, hmem⟩
    rw [List.concat_eq_append, ← List.cons_append, ← List.cons_append, ← List.append_assoc] at heq
    exact (List.append_inj' heq rfl).1

/-- The active row that the load found is the one the intent named. -/
theorem loaded_named {past : List Ev} {env : DbEnv} {db' : DB} {request : IntentRequest} {intent : Intent} {work : Work}
    (hkeep : keepsRow s past (.store (.loadSettlementWork intent.paymentId)) = true) (hclaim : justClaimed past = true)
    (hmem : (⟨.store (.createSettlementIntent request), .ok intent⟩ : Ev) ∈ past)
    (hload : loadSettlementWork env intent.paymentId s.db = .ok (work, db')) :
    work.transactionId = intent.transactionId := by
  obtain ⟨-, hp, q, r, hb, hact, -⟩ := loadSettlementWork_ok hload
  have hall := of_decide_eq_true hkeep hclaim
  have hnamed : (s.db.tables.transactions.all fun r =>
      decide (r.paymentId = intent.paymentId ∧ r.active = true → r.id = intent.transactionId)) = true :=
    List.all_eq_true.1 hall _ hmem
  have hid := of_decide_eq_true (List.all_eq_true.1 hnamed r hb.row) ⟨(hb.owner.trans hb.paymentId.symm).trans hp, hact⟩
  exact hb.transactionId.trans hid

theorem HashesKnown.call (hi : Inv lib s log) (hx : HashesKnown s log) {q : Call}
    (hj : Allowed lib cfg e (own pid log) q)
    (env : StepEnv) (hkeep : keepsRow s (own pid log) q = true) :
    HashesKnown (perform s env q).2 (log ++ [(pid, ⟨q, (perform s env q).1⟩)]) := by
  have hsig : ∀ p, SignaturesKept (rowsOf s.db.tables p) (rowsOf (perform s env q).2.db.tables p) :=
    signaturesKept_call hi hj (preparesUnsigned_of_keepsRow hkeep)
  constructor
  · intro x hmem p t h hn
    rcases List.mem_append.1 hmem with hmem | hmem
    · exact (hx.named x hmem p t h hn).kept (hi.shape p) (hsig p)
    · rw [List.mem_singleton.1 hmem] at hn
      obtain ⟨op, r, hev⟩ := hn.ok
      rw [hev] at hn
      exact hn.hasHash (perform_ok hev).2
  · intro n intent work hl
    by_cases hn : pid = n
    · subst hn
      rw [own_snoc_self] at hl
      rcases hl.snoc with hl | ⟨hev, hclaim, request, hmem⟩
      · exact hx.inline pid intent work hl
      · obtain ⟨rfl, hrun⟩ := perform_ok hev
        exact loaded_named hkeep hclaim hmem (run_ok hrun)
    · rw [own_snoc_ne hn] at hl
      exact hx.inline n intent work hl

theorem hashesKnown {run : Run lib cfg} (h : KeepsRows run) :
    HashesKnown (reach lib cfg run).shared (reach lib cfg run).log := by
  refine (run_inv (X := HashesKnown) ?_ ?_ ?_ run h).2
  · constructor
    · intro x hx
      cases hx
    · rintro pid intent work ⟨pre, post, request, w, d, now, lease, hnil, -⟩
      cases pre <;> cases hnil
  · exact fun s log pid env q e hi hx hj hkeep => hx.call hi hj env hkeep
  · intro s log m hi hx
    obtain ⟨-, htx, -⟩ := outside_lives s m
    refine ⟨fun x hmem p t h hn => ?_, hx.inline⟩
    unfold HasHash rowsOf
    rw [htx]
    exact hx.named x hmem p t h hn

/-! ## Whole runs -/

/-- The hash a process waits for is on the row it waits for. -/
theorem HashesKnown.awaited (hi : Inv lib s log) (hx : HashesKnown s log) {p t : Nat} {h : String}
    (ha : Awaits (own pid log) p t h) : HasHash s.db p t h := by
  have named : ∀ {ev : Ev} {p t h}, ev ∈ own pid log → Names ev p t h → HasHash s.db p t h := fun hev hn =>
    hx.named _ (mem_own.1 hev) _ _ _ hn
  rcases ha with ⟨request, intent, hmem, rfl, rfl, ⟨rfl, hne⟩ | ⟨work, hl, ho⟩⟩ | ⟨work, hl, rfl, rfl, hne⟩
  · exact named hmem (.intent request intent hne)
  · -- the row of the hash is the row that was loaded, so it is the one of the intent
    rw [← hx.inline pid intent work hl]
    obtain ⟨pre, post, _, w, d, now, lease, hpast, -⟩ := hl
    have hload : Loaded (own pid log) intent.paymentId work := by
      rw [hpast]
      simp [Loaded]
    rcases ho with ⟨rfl, hne⟩ | ⟨a, hmark⟩
    · exact named hload (.loaded _ work hne)
    · have hsame : work.paymentId = intent.paymentId := hi.stands hload (.loadedPayment _ work)
      rw [← hsame]
      exact named hmark (.broadcast ..)
  · exact named hl (.loaded p work hne)

/-- One call that records an outcome. -/
theorem pairedCall (hi : Inv lib s log) (hx : HashesKnown s log) {op : Op} {p t : Nat}
    (hj : Allowed lib cfg e (own pid log) (.store op)) (ht : outcomeRow op = some (p, t)) :
    PairedCall (own pid log) s.db op p t := by
  have seen : ∀ {actor receipt}, MayFinalize cfg (own pid log) p t actor receipt → PassesReceipt receipt op →
      PairedCall (own pid log) s.db op p t := by
    rintro actor receipt ⟨txHash, hseen, hwho⟩ hpass
    exact ⟨receipt, txHash, hpass, hx.awaited hi (hwho.imp_left And.right), hseen.read⟩
  cases op with
  | markTxConfirmed =>
    cases ht
    obtain ⟨receipt, hmay, hn, hh, hg, hc, -⟩ := hj
    exact seen hmay ⟨hn, hh, hg, hc⟩
  | markTxReverted =>
    cases ht
    obtain ⟨receipt, hmay, hg, hc, -⟩ := hj
    exact seen hmay ⟨hg, hc⟩
  | markReplacementLanded =>
    cases ht
    obtain ⟨-, x, receipt, ⟨tracked, hlist, hmem⟩, rfl, rfl, hread, hpass⟩ := hj
    exact ⟨receipt, x.txHash, hpass, hx.named _ (mem_own.1 hlist) _ _ _ (.replaced tracked x hmem), hread⟩
  | _ => cases ht

/-- An answer that reports a settled payment. -/
theorem pairedAnswer (hi : Inv lib s log) (hx : HashesKnown s log) {payment : ParsedPayment} {response : SettleResponse}
    (h : SettleGrounds cfg payment (own pid log) (.ok response)) (hs : response.success = true) :
    PairedAnswer (own pid log) s.db response.transaction := by
  obtain ⟨now, answer, hmem, ⟨err, rfl, hr, -⟩ | ⟨intent, response', rfl, hr, hg, -⟩⟩ := h
  · -- a refusal of admission is no success
    unfold admissionAnswer at hr
    split at hr <;> cases hr
    cases hs
  · cases hr
    rcases hg.settled hs with ⟨hc, htx, hne⟩ | ⟨t, n, b, g, c, a, hlast, ha⟩
    · rw [← htx] at hne ⊢
      exact .inl ⟨_, intent, hmem, hc, hx.named _ (mem_own.1 hmem) _ _ _ (.intent _ intent hne)⟩
    · exact .inr ⟨_, t, n, b, g, c, a, hlast, hx.awaited hi ha⟩

/-- In every run whose requests load the rows of their intents, and whose fillers are prepared on rows that were never
signed, each outcome is recorded from a receipt that was read under the hash of its row, and each settled answer names
the hash stored on the row it rests on. -/
theorem receipts_paired (lib : Libraries) (cfg : Settlement.Config) (run : Run lib cfg) (h : KeepsRows run) :
    ReceiptsPaired run := by
  constructor
  · rintro before ch rest pid op p t rfl ⟨env, e, k, rfl, hproc⟩ ht
    have hj := ((kept_reach before).wp pid e _ hproc).1
    exact pairedCall (reach_inv before) (hashesKnown (along_append.1 h).1) hj ht
  · rintro before rest pid request polls response rfl hret hs
    obtain ⟨result, hout, hpost⟩ := (kept_reach before).post hret
    cases hout
    split at hpost
    · obtain ⟨message, hr⟩ := hpost
      cases hr
      cases hs
    · exact pairedAnswer (reach_inv before) (hashesKnown (along_append.1 h).1) hpost hs

/-- The row that process `pid` is about to record an outcome for. -/
def recordsNext (run : SampleRun) (pid : Nat) : Option (Nat × Nat) :=
  match (reach sampleLib sampleConfig run).procs[pid]? with
  | some ⟨_, some (.call (.store op) _)⟩ => outcomeRow op
  | _ => none

theorem makes_of_recordsNext {run : SampleRun} {pid p t : Nat} (h : recordsNext run pid = some (p, t)) (env : StepEnv) :
    ∃ op, Makes (reach sampleLib sampleConfig run) (.run pid env) pid (.store op) ∧ outcomeRow op = some (p, t) := by
  unfold recordsNext at h
  split at h
  · rename_i e op k hproc
    exact ⟨op, ⟨env, e, k, rfl, hproc⟩, h⟩
  · cases h

/-- A request broadcasts the row `11` inline, waits, and finds it mined. -/
def sampleWaited : SampleRun :=
  sampleVerified ++ [enter (.settle (sampleRequest 'a') 3)] ++ calls 13 2 (calm 11) ++
    calls 3 2 ((calm 12).mined "0x0307" 5 1)

def sampleOutcome : SampleChoice := .run 2 (calm 12).env

theorem sampleWaited_keeps : testCalls (M := facilitator sampleLib sampleConfig)
    (fun s log pid q => keepsRow s (own pid log) q)
    (start sampleLib sampleConfig) (sampleWaited ++ [sampleOutcome]) = true ∧
    recordsNext sampleWaited 2 = some (10, 11) := by
  decide +kernel

theorem receipts_paired_sample : recordsNext sampleWaited 2 = some (10, 11) ∧
    ReceiptsPaired (sampleWaited ++ [sampleOutcome]) :=
  ⟨sampleWaited_keeps.2, receipts_paired sampleLib sampleConfig _ (CallsAlong.of_test sampleWaited_keeps.1)⟩

/-- The request is overtaken: a worker broadcasts its row `11`, and when that is stuck another replaces it by the row
`12`. Then the request claims the payment, loads the row `12`, and finds that one mined. -/
def sampleOvertaken : SampleRun :=
  sampleVerified ++ [enter (.settle (sampleRequest 'a') 3)] ++ calls 2 2 (calm 11) ++
    [enter (.broadcastTick "worker")] ++ calls 14 3 (calm 12) ++ [tick 100, enter (.recoveryTick "fast")] ++
    calls 11 4 (late 12) ++ [tick 200] ++ calls 7 2 ((late 13).mined "0x0308" 5 1)

/-- Process `pid` has read no receipt under the hash. -/
def neverRead (run : SampleRun) (pid : Nat) (h : String) : Bool :=
  (own pid (reach sampleLib sampleConfig run).log).all fun ev =>
    match ev.call with
    | .transactionReceipt x => x ≠ h
    | _ => true

theorem sampleOvertaken_run : recordsNext sampleOvertaken 2 = some (10, 11) ∧
    neverRead sampleOvertaken 2 "0x0307" = true ∧
    ((rowsOf (reach sampleLib sampleConfig sampleOvertaken).shared.db.tables 10).all fun r =>
      r.id ≠ 11 ∨ r.txHash = some "0x0307") = true := by
  decide +kernel

/-- It records the receipt of the row `12` for the row `11`. -/
theorem overtaken_request_mispairs : ¬ ReceiptsPaired (sampleOvertaken ++ [sampleOutcome]) := by
  intro h
  obtain ⟨hnext, hnever, hrows⟩ := sampleOvertaken_run
  obtain ⟨op, hmakes, hrow⟩ := makes_of_recordsNext hnext (calm 12).env
  obtain ⟨receipt, txHash, -, ⟨r, hr, hid, htx⟩, hread⟩ :=
    h.calls sampleOvertaken sampleOutcome [] 2 op 10 11 rfl hmakes hrow
  have hsome := (of_decide_eq_true (List.all_eq_true.1 hrows r hr)).resolve_left (not_not.2 hid)
  rw [htx] at hsome
  cases hsome
  have hne := List.all_eq_true.1 hnever _ hread
  simp at hne

end Eth402.System
