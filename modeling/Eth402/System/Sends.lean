/-
What the facilitator sends. Whatever the leases and the crashes, the pipeline sends for an intent row at
most once: a send follows the signing of its row within one process, and a row is signed once. And no bytes
are sent before a row of the payment with their hash is in the database.
-/
import Eth402.System.Invariant

namespace Eth402.System

open Lib Store Settlement Verification

/-! ## One send for each intent -/

/-- A send of the broadcast pipeline for the intent row `t`. -/
def sendsIntent (t : Nat) (x : Nat × Ev) : Bool :=
  match x.2.call with
  | .sendRawTransaction s _ => s.site = .broadcastClaimed ∧ s.transactionId = t
  | _ => false

/-- The row `t` was signed by this call. -/
def Signs (t : Nat) (ev : Ev) : Prop :=
  ∃ h sighash n m f, ev = ⟨.store (.markTxSigned t h sighash n m f), .ok ()⟩

/-- The process `pid` has just signed the row `t`. -/
def Poised (log : List (Nat × Ev)) (t pid : Nat) : Prop := ∃ ev, (own pid log).getLast? = some ev ∧ Signs t ev

/-- How far an intent row has come: not signed; signed by a process that may be about to send; sent. -/
inductive Stage (t : Nat) (log : List (Nat × Ev)) : Prop
  | idle (hs : ∀ x ∈ log, ¬ Signs t x.2) (h : log.countP (sendsIntent t) = 0)
  | poised (pid : Nat) (hs : ∃ x ∈ log, Signs t x.2) (hp : ∀ n, Poised log t n → n = pid)
      (h : log.countP (sendsIntent t) = 0)
  | sent (hs : ∃ x ∈ log, Signs t x.2) (hp : ∀ n, ¬ Poised log t n) (h : log.countP (sendsIntent t) = 1)

variable {lib : Libraries} {cfg : Settlement.Config} {e : Entry} {s : Shared} {log : List (Nat × Ev)} {pid t : Nat}

theorem Poised.signs (h : Poised log t pid) : ∃ x ∈ log, Signs t x.2 := by
  obtain ⟨ev, hlast, hs⟩ := h
  exact ⟨(pid, ev), mem_own.1 (List.mem_of_getLast? hlast), hs⟩

/-- After a call only its process can have become poised, and only by signing. -/
theorem Poised.of_snoc {n : Nat} {ev : Ev} (h : Poised (log ++ [(pid, ev)]) t n) :
    (n = pid ∧ Signs t ev) ∨ (n ≠ pid ∧ Poised log t n) := by
  obtain ⟨last, hlast, hs⟩ := h
  by_cases hn : pid = n
  · subst hn
    rw [own_snoc_self, List.getLast?_concat] at hlast
    cases hlast
    exact .inl ⟨rfl, hs⟩
  · rw [own_snoc_ne hn] at hlast
    exact .inr ⟨fun h => hn h.symm, last, hlast, hs⟩

/-- A signed row is never an intent again. -/
theorem not_intent_of_signed {db : DB} (hshape : ∀ q, Shape (rawHashOf lib) (lifeOf db.tables q)) {h : String}
    (hst : Stands db (.signed t h)) (p : Nat) : ¬ Has t [.intent] (rowsOf db.tables p) := by
  rintro ⟨r, hr, his⟩
  obtain ⟨hid, hs⟩ := Row.is_iff.1 his
  obtain ⟨q, hpipe, x, hx, hxt, -⟩ := hst
  obtain ⟨rfl, rfl⟩ := rowsOf_id db hr hx (hid.trans hxt.symm)
  rw [List.mem_singleton] at hs
  -- an intent lives in a broadcasting payment, and a signed one has no intent left
  have hstate := (hshape p).of_intent hr hs
  rcases hpipe with ⟨s, hmem, hs'⟩ | ⟨-, hall⟩ | ⟨hs', -⟩
  · rw [hstate] at hs'
    cases hs'
    simp at hmem
  · have := hall r hr
    rw [hs] at this
    cases this
  · rw [hstate] at hs'
    cases hs'

theorem not_signs_twice (hi : Inv lib s log) {x : Nat × Ev} (hx : x ∈ log) (hs : Signs t x.2) {q : Call}
    (env : StepEnv) : ¬ Signs t ⟨q, (perform s env q).1⟩ := by
  rintro ⟨h, sighash, n, m, f, heq⟩
  obtain ⟨-, hrun⟩ := perform_ok heq
  obtain ⟨h', sighash', n', m', f', hev⟩ := hs
  obtain ⟨p, hint, -⟩ := markTxSigned_ok (run_ok hrun)
  exact not_intent_of_signed hi.shape (hi.told x hx _ (by rw [hev]; exact .signed t h' sighash' n' m' f')) p hint

theorem exists_snoc {P : Nat × Ev → Prop} (x : Nat × Ev) (h : ∃ y ∈ log, P y) : ∃ y ∈ log ++ [x], P y := by
  obtain ⟨y, hy, hp⟩ := h
  exact ⟨y, List.mem_append_left _ hy, hp⟩

theorem countP_snoc_of_not (log : List (Nat × Ev)) {P : Nat × Ev → Bool} {x : Nat × Ev} (h : P x = false) :
    (log ++ [x]).countP P = log.countP P := by
  rw [List.countP_append, List.countP_singleton, h]
  rfl

/-- The row is signed by this call, so it was not signed before. -/
theorem Stage.sign (hi : Inv lib s log) (hst : Stage t log) {q : Call} (env : StepEnv)
    (hs : Signs t ⟨q, (perform s env q).1⟩) : Stage t (log ++ [(pid, ⟨q, (perform s env q).1⟩)]) := by
  have hfresh : ¬ ∃ x ∈ log, Signs t x.2 := fun ⟨x, hx, hxs⟩ => not_signs_twice hi hx hxs env hs
  cases hst with
  | poised _ hold | sent hold => exact absurd hold hfresh
  | idle _ h =>
    refine .poised pid ⟨_, List.mem_concat_self, hs⟩ (fun n hn => ?_) ?_
    · rcases hn.of_snoc with ⟨rfl, -⟩ | ⟨-, hold⟩
      · rfl
      · exact absurd hold.signs hfresh
    · obtain ⟨_, _, _, _, _, heq⟩ := hs
      rw [countP_snoc_of_not log (by rw [heq]; rfl), h]

/-- A send of the pipeline is made by the process that has just signed the row. -/
theorem poised_of_send {q : Call} {a : Resp q} (hj : Allowed lib cfg e (own pid log) q)
    (hsend : sendsIntent t (pid, ⟨q, a⟩) = true) : Poised log t pid := by
  cases q with
  | sendRawTransaction sending text =>
    obtain ⟨hsite, rfl⟩ := of_decide_eq_true hsend
    obtain ⟨raw, -, hmay, -⟩ := hj
    unfold MaySend at hmay
    rw [hsite] at hmay
    obtain ⟨-, sighash, n, m, f, hlast⟩ := hmay
    exact ⟨_, hlast, _, _, _, _, _, rfl⟩
  | _ => cases hsend

theorem Stage.send (hst : Stage t log) {q : Call} {a : Resp q} (hj : Allowed lib cfg e (own pid log) q)
    (hs : ¬ Signs t ⟨q, a⟩) (hsend : sendsIntent t (pid, ⟨q, a⟩) = true) : Stage t (log ++ [(pid, ⟨q, a⟩)]) := by
  have hpoised := poised_of_send hj hsend
  cases hst with
  | idle hno _ =>
    obtain ⟨x, hx, hxs⟩ := hpoised.signs
    exact absurd hxs (hno x hx)
  | sent _ hp _ => exact absurd hpoised (hp pid)
  | poised pid' hold hp h =>
    refine .sent (exists_snoc _ hold) (fun n hn => ?_) ?_
    · rcases hn.of_snoc with ⟨-, hsigns⟩ | ⟨hne, hn⟩
      · exact hs hsigns
      · exact hne ((hp n hn).trans (hp pid hpoised).symm)
    · rw [List.countP_append, List.countP_singleton, hsend, h]
      rfl

/-- Any other call leaves the stage, or a poised process goes on without sending. -/
theorem Stage.other (hst : Stage t log) {ev : Ev} (hs : ¬ Signs t ev) (hsend : sendsIntent t (pid, ev) = false) :
    Stage t (log ++ [(pid, ev)]) := by
  have hpoised : ∀ n, Poised (log ++ [(pid, ev)]) t n → Poised log t n := fun n hn => by
    rcases hn.of_snoc with ⟨-, hsigns⟩ | ⟨-, hn⟩
    · exact absurd hsigns hs
    · exact hn
  have hcount := countP_snoc_of_not log hsend
  cases hst with
  | idle hno h =>
    refine .idle (fun x hx => ?_) (hcount.trans h)
    rcases List.mem_append.1 hx with hx | hx
    · exact hno x hx
    · rw [List.mem_singleton.1 hx]; exact hs
  | poised pid' hold hp h => exact .poised pid' (exists_snoc _ hold) (fun n hn => hp n (hpoised n hn)) (hcount.trans h)
  | sent hold hp h => exact .sent (exists_snoc _ hold) (fun n hn => hp n (hpoised n hn)) (hcount.trans h)

theorem Stage.call (hi : Inv lib s log) (hst : Stage t log) {q : Call} (hj : Allowed lib cfg e (own pid log) q)
    (env : StepEnv) : Stage t (log ++ [(pid, ⟨q, (perform s env q).1⟩)]) := by
  by_cases hs : Signs t ⟨q, (perform s env q).1⟩
  · exact hst.sign hi env hs
  · cases hsend : sendsIntent t (pid, ⟨q, (perform s env q).1⟩) with
    | true => exact hst.send hj hs hsend
    | false => exact hst.other hs hsend

theorem reach_stage (run : Run lib cfg) (t : Nat) : Stage t (reach lib cfg run).log := by
  refine (run_inv (P := fun _ _ _ _ _ => True) (X := fun _ log => Stage t log) ?_ ?_ ?_ run ?_).2
  · exact .idle (fun x hx => by cases hx) rfl
  · intro s log pid env q e hi hst hj _
    exact hst.call hi hj env
  · intro s log m _ hst
    exact hst
  · exact along_of_forall (fun _ _ _ _ _ _ _ _ _ => trivial) _ _

theorem Stage.once (h : Stage t log) : log.countP (sendsIntent t) ≤ 1 := by
  cases h with
  | idle _ h | poised _ _ _ h | sent _ _ h => omega

/-! ## A record before each send -/

/-- At some point of the run, with no more than the calls of `l` made, a row of the payment `p` with the raw
hash `h` was in the database. -/
def RecordedBefore {lib : Libraries} {cfg : Settlement.Config} (run : Run lib cfg) (l : List (Nat × Ev)) (p : Nat)
    (h : String) : Prop :=
  ∃ before rest : Run lib cfg, run = before ++ rest ∧ (reach lib cfg before).log <+: l ∧
    ∃ row ∈ (reach lib cfg before).shared.db.tables.transactions,
      row.paymentId = p ∧ row.rawTransactionHash = some h

variable {run : Run lib cfg} {l : List (Nat × Ev)}

theorem recordedBefore_of {before rest : Run lib cfg} {p : Nat} {h : String} (hrun : run = before ++ rest)
    (hlog : (reach lib cfg before).log <+: l) (hrec : Recorded (reach lib cfg before).shared.db p h) :
    RecordedBefore run l p h := by
  obtain ⟨x, hx, hh⟩ := hrec
  obtain ⟨row, hrow, hp, rfl⟩ := mem_rowsOf.1 hx
  exact ⟨before, rest, hrun, hlog, row, hrow, hp, hh⟩

/-- A store call that a process made without error, where the run had made it. -/
structure Made (run : Run lib cfg) (pid : Nat) (op : Op) (r : op.Result) (after : Run lib cfg) : Prop where
  extends_to : after <+: run
  allowed : ∃ e log, Allowed lib cfg e (own pid log) (.store op) ∧
    (reach lib cfg after).log = log ++ [(pid, ⟨.store op, .ok r⟩)]
  ran : ∃ (s : Shared) (log : List (Nat × Ev)) (env : DbEnv), Inv lib s log ∧
    op.run env s.db = (.ok r, (reach lib cfg after).shared.db)
  logged : (reach lib cfg after).log <+: (reach lib cfg run).log

theorem exists_made {op : Op} {r : op.Result} (hev : (⟨.store op, .ok r⟩ : Ev) ∈ own pid (reach lib cfg run).log) :
    ∃ after, Made run pid op r after := by
  obtain ⟨l₁, l₂, hsplit⟩ := List.append_of_mem (mem_own.1 hev)
  obtain ⟨before, env, rest, e, hrun, hlog, hj, hop, hlog'⟩ := stored_at hsplit
  refine ⟨before ++ [.run pid env], ⟨⟨rest, by simp [hrun]⟩, ⟨e, l₁, hj, hlog'⟩, ?_, ?_⟩⟩
  · exact ⟨_, _, env.db, reach_inv before, hop⟩
  · rw [hlog', hsplit]
    exact ⟨l₂, by simp⟩

theorem Made.recordedBefore {op : Op} {r : op.Result} {after : Run lib cfg} {p : Nat} {h : String}
    (hm : Made run pid op r after) (hrec : Recorded (reach lib cfg after).shared.db p h) :
    RecordedBefore run (reach lib cfg run).log p h := by
  obtain ⟨rest, hrest⟩ := hm.extends_to
  exact recordedBefore_of hrest.symm hm.logged hrec

theorem recorded_of_signed {db : DB} {p : Nat} {h : String} (hrow : Stands db (.row p t))
    (hs : Stands db (.signed t h)) :
    Recorded db p h := by
  obtain ⟨x, hx, hid⟩ := hrow
  exact ⟨x, hx, hs.rawHash p x hx hid⟩

/-- The row that a filler was prepared on is the row its process listed. -/
theorem prepared_before {work : Work} {rawHash txHash : String} {raw : Bytes} {n : Nat} {m f : Int}
    (hgap : ListedGap cfg (own pid (reach lib cfg run).log) work)
    (hev : (⟨.store (.markGapFillerPrepared work.transactionId rawHash txHash raw n m f), .ok ()⟩ : Ev) ∈
      own pid (reach lib cfg run).log) :
    RecordedBefore run (reach lib cfg run).log work.paymentId rawHash := by
  obtain ⟨after, hm⟩ := exists_made hev
  obtain ⟨s, log, env, -, hrun⟩ := hm.ran
  obtain ⟨p, x, hx, hid, hh⟩ := markGapFillerPrepared_ok (run_ok hrun)
  -- both the listing at hand and the one before the preparation name the payment of the row
  obtain ⟨e, log', ⟨-, -, -, work', ⟨c', signer', works', -, hlist', hw'⟩, hid'⟩, hlog'⟩ := hm.allowed
  have hafter := (reach_inv after).told _ (by rw [hlog']; exact List.mem_append_left _ (mem_own.1 hlist')) _
    (.gap signer' _ works' work' hw')
  obtain ⟨y, hy, hyid⟩ := hafter
  obtain ⟨rfl, -⟩ := rowsOf_id _ hx hy (hid.trans (hid'.symm.trans hyid.symm))
  obtain ⟨c, signer, works, -, hlist, hw⟩ := hgap
  obtain ⟨a, ha, haid⟩ := (reach_inv run).stands hlist (.gap signer _ works work hw)
  have hmem := hm.logged.subset (by rw [hlog']; exact List.mem_append_left _ (mem_own.1 hlist'))
  have hend := (reach_inv run).told _ hmem _ (.gap signer' _ works' work' hw')
  obtain ⟨b, hb, hbid⟩ := hend
  obtain ⟨hp, -⟩ := rowsOf_id _ ha hb (haid.trans (hid'.symm.trans hbid.symm))
  rw [hp]
  exact hm.recordedBefore ⟨x, hx, hh⟩

/-- A listed filler carries the bytes its row has the hash of. -/
theorem listed_before {tr : TrackedTransaction} (h : ListedFiller (own pid (reach lib cfg run).log) tr) :
    RecordedBefore run (reach lib cfg run).log tr.paymentId (rawHashOf lib tr.rawTransaction) := by
  obtain ⟨tracked, hlist, htr⟩ := h
  obtain ⟨after, hm⟩ := exists_made hlist
  obtain ⟨s, log, env, hi, hrun⟩ := hm.ran
  obtain ⟨hdb, hall⟩ := listGapFillers_ok (run_ok hrun)
  obtain ⟨r, hr, hp, -, hraw, -, st, hst, hstate⟩ := hall tr htr
  have hmem : r.row ∈ rowsOf s.db.tables tr.paymentId := mem_rowsOf.2 ⟨r, hr, hp, rfl⟩
  have hfiller := ((hi.shape tr.paymentId).retired (retired_of_state hstate hst) _ hmem).2
  refine hm.recordedBefore ?_
  rw [hdb]
  rcases hfiller with ⟨-, hnone, -⟩ | ⟨h', hh', -, hbytes⟩
  · rw [show r.row.raw = r.rawTransaction from rfl, hraw] at hnone
    cases hnone
  · exact ⟨r.row, hmem, by rw [hh', hbytes _ hraw]⟩

theorem recordedBefore_of_maySend {sending : Sending} {raw : Bytes}
    (h : MaySend lib cfg (own pid (reach lib cfg run).log) sending raw) :
    RecordedBefore run (reach lib cfg run).log sending.paymentId (rawHashOf lib raw) := by
  have hi := reach_inv run
  have now : Recorded (reach lib cfg run).shared.db sending.paymentId (rawHashOf lib raw) →
      RecordedBefore run (reach lib cfg run).log sending.paymentId (rawHashOf lib raw) :=
    recordedBefore_of (List.append_nil run).symm (List.prefix_refl _)
  obtain ⟨site, p, t⟩ := sending
  cases site with
  | broadcastClaimed =>
    obtain ⟨⟨q, work, hl, rfl, rfl⟩, sighash, n, m, f, hlast⟩ := h
    refine now (recorded_of_signed (hi.stands hl (.loaded q work)) ?_)
    exact hi.stands (List.mem_of_getLast? hlast) (.signed ..)
  | resolveAmbiguous =>
    rcases h with ⟨q, work, hl, rfl, rfl, hs, hr, hraw⟩ | ⟨r, a, hev, hraw⟩
    · refine now (recorded_of_signed (hi.stands hl (.loaded q work)) ?_)
      rw [← hraw]
      exact hi.stands hl (.ambiguous q work hs hr)
    · obtain ⟨after, hm⟩ := exists_made hev
      obtain ⟨_, _, _, -, hrun⟩ := hm.ran
      rw [← hraw]
      exact hm.recordedBefore (markTxAmbiguousReplaced_ok (run_ok hrun))
  | replaceStuck =>
    obtain ⟨r, a, hev, hraw⟩ := h
    obtain ⟨after, hm⟩ := exists_made hev
    obtain ⟨_, _, _, -, hrun⟩ := hm.ran
    rw [← hraw]
    exact hm.recordedBefore (markTxReplaced_ok (run_ok hrun))
  | fillNonceGap =>
    obtain ⟨⟨work, hgap, rfl, rfl⟩, txHash, n, m, f, hev⟩ := h
    exact prepared_before hgap hev
  | bumpStuckGapFiller =>
    obtain ⟨r, hev, hraw⟩ := h
    obtain ⟨after, hm⟩ := exists_made hev
    obtain ⟨_, _, _, -, hrun⟩ := hm.ran
    rw [← hraw]
    exact hm.recordedBefore (markGapFillerReplaced_ok (run_ok hrun)).1
  | observeGapFiller =>
    obtain ⟨tr, hlist, rfl, rfl, rfl⟩ := h
    exact listed_before hlist

theorem RecordedBefore.append {p : Nat} {h : String} (hr : RecordedBefore run l p h) (more : Run lib cfg) :
    RecordedBefore (run ++ more) l p h := by
  obtain ⟨before, rest, rfl, hlog, hrow⟩ := hr
  exact ⟨before, rest ++ more, by simp, hlog, hrow⟩

/-- In every run: the broadcast pipeline sends at most once for an intent row, whoever runs it and whatever
leases they hold; and whatever is sent, from any place of the code, is bytes whose hash a row of the payment
had recorded before. -/
theorem sends_once_after_record (lib : Libraries) (cfg : Settlement.Config) (run : Run lib cfg) :
    (∀ t, (reach lib cfg run).log.countP (sendsIntent t) ≤ 1) ∧
      ∀ (l₁ l₂ : List (Nat × Ev)) (pid : Nat) (sending : Sending) (text : String) (answer : Except Err String),
        (reach lib cfg run).log = l₁ ++ (pid, ⟨.sendRawTransaction sending text, answer⟩) :: l₂ →
        ∃ raw : Bytes, text = "0x" ++ hexEncode raw ∧
          RecordedBefore run l₁ sending.paymentId (hexEncode (lib.keccak256 raw)) := by
  refine ⟨fun t => (reach_stage run t).once, fun l₁ l₂ pid sending text answer hl => ?_⟩
  obtain ⟨before, env, rest, e, rfl, rfl, ⟨raw, htext, hmay, -⟩, -⟩ := called_at hl
  exact ⟨raw, htext, (recordedBefore_of_maySend hmay).append _⟩

/-- A run in which the intent row `11` is sent for. -/
theorem sends_once_after_record_sample :
    (reach sampleLib sampleConfig sampleBroadcast).log.countP (sendsIntent 11) = 1 ∧
      ∀ (l₁ l₂ : List (Nat × Ev)) (pid : Nat) (sending : Sending) (text : String) (answer : Except Err String),
        (reach sampleLib sampleConfig sampleBroadcast).log =
          l₁ ++ (pid, ⟨.sendRawTransaction sending text, answer⟩) :: l₂ →
        ∃ raw : Bytes, text = "0x" ++ hexEncode raw ∧
          RecordedBefore sampleBroadcast l₁ sending.paymentId (hexEncode (sampleLib.keccak256 raw)) :=
  ⟨by decide +kernel, (sends_once_after_record sampleLib sampleConfig sampleBroadcast).2⟩

end Eth402.System
