/-
The invariant of the running facilitator: every payment has the shape its state says, and whatever a
process was told about the database still stands. With it every store call of every run is a move of the
lives it touches (`Inv.moves`), so a claim about runs is a claim about moves (`run_inv`).
-/
import Eth402.System.Compliance

namespace Eth402.System

open Lib Store Settlement Verification

structure Inv (lib : Libraries) (s : Shared) (log : List (Nat × Ev)) : Prop where
  shape : ∀ q, Shape (rawHashOf lib) (lifeOf s.db.tables q)
  told : ∀ x ∈ log, ∀ a, Tells x.2 a → Stands s.db a

variable {lib : Libraries} {cfg : Settlement.Config} {e : Entry} {s : Shared} {log : List (Nat × Ev)} {pid : Nat}

/-! ## What a caller knows -/

/-- What a process was told stands. -/
theorem Inv.stands (hi : Inv lib s log) {ev : Ev} (hev : ev ∈ own pid log) {a : Lasting} (ht : Tells ev a) :
    Stands s.db a := hi.told (pid, ev) (mem_own.1 hev) a ht

/-- The hash of a signed row is known to whoever knows it was recorded. -/
theorem Stands.rawHash {db : DB} {t : Nat} {raw : String} (h : Stands db (.signed t raw)) (p : Nat) :
    ∀ r ∈ rowsOf db.tables p, r.id = t → r.rawHash = some raw := by
  obtain ⟨q, -, x, hx, rfl, hraw⟩ := h
  intro r hr hid
  rw [(rowsOf_id db hr hx hid).2, hraw]

theorem retired_of_row {db : DB} {p t : Nat} (hrow : Stands db (.row p t)) (hret : Stands db (.retired p)) {q : Nat}
    {S : List TxStatus} (h : Has t S (rowsOf db.tables q)) : Retired (lifeOf db.tables q) := by
  obtain ⟨x, hx, hid⟩ := hrow
  obtain ⟨r, hr, his⟩ := h
  rw [(rowsOf_id db hr hx ((Row.is_iff.1 his).1.trans hid.symm)).1]
  exact hret

/-- A row of a waiting payment carries the transaction hash of its signed bytes. -/
theorem sent_of_waiting {db : DB} {p : Nat} {st : State} {r : Row}
    (hshape : Shape (rawHashOf lib) (lifeOf db.tables p)) (hst : stateOf p db.tables = some st) (hw : st ∈ waiting)
    (hr : r ∈ rowsOf db.tables p) : r.status ∈ [.broadcast, .confirming, .replaced, .dropped] ∧ r.Sent := by
  unfold lifeOf at hshape
  rw [hst] at hshape
  exact (hshape.waiting hw).2 r hr

/-- What is allowed is known. -/
theorem Inv.knows (hi : Inv lib s log) {op : Op} (hj : Allowed lib cfg e (own pid log) (.store op)) :
    Knows (rawHashOf lib) s.db op := by
  cases op with
  | markTxBroadcast p t txHash a =>
    obtain ⟨raw, sighash, n, m, f, rfl, hev⟩ := hj
    exact ⟨raw, rfl, (hi.stands hev (.signed ..)).rawHash p⟩
  | markTxRecoveredBroadcast p t txHash a =>
    obtain ⟨-, p', work, hl, rfl, hs, hr, rfl⟩ := hj
    exact ⟨work.rawHash, rfl, (hi.stands hl (.ambiguous p' work hs hr)).rawHash p⟩
  | markTxConfirming p t n h a =>
    obtain ⟨request, leases, lease, hev, hs, hl, rfl⟩ := hj
    exact hi.stands hev (.claimed request leases lease hs hl)
  | markTxAmbiguousReplaced p t r a | markTxReplaced p t r a => exact hj.1
  | markGapFillerReplaced p t r raw => exact ⟨hj.1, hj.2.1⟩
  | markGapFillerPrepared t rawHash txHash raw n m f =>
    obtain ⟨-, rfl, rfl, work, ⟨c, signer, works, -, hev, hw⟩, rfl⟩ := hj
    exact ⟨rfl, rfl, fun q => retired_of_row (hi.stands hev (.gap signer _ works work hw))
      (hi.stands hev (.gapRetired signer _ works work hw))⟩
  | markGapFillerResolved t n c =>
    obtain ⟨x, receipt, ⟨tracked, hev, hx⟩, rfl, -⟩ := hj
    exact fun q => retired_of_row (hi.stands hev (.filler tracked x hx)) (hi.stands hev (.fillerRetired tracked x hx))
  | _ => trivial

/-! ## One call -/

/-- The kinds of moves a call may make. -/
def CallKinds (db : DB) : Call → Kind → Prop
  | .store op => Kinds db op
  | _ => Plain

/-- A store call under a fault leaves what it leaves without one, or nothing. -/
theorem runStore_cases (env : StepEnv) (op : Op) (db : DB) :
    runStore env op db = op.run env.db db ∨
      ∃ m, (runStore env op db).1 = .error (.text m) ∧
        ((runStore env op db).2 = db ∨ (runStore env op db).2 = (op.run env.db db).2) := by
  unfold runStore
  cases env.fault with
  | none => exact .inl rfl
  | failed m => exact .inr ⟨m, rfl, .inl rfl⟩
  | lost m => exact .inr ⟨m, rfl, .inr rfl⟩

theorem runStore_db (env : StepEnv) (op : Op) (db : DB) :
    (runStore env op db).2 = db ∨ (runStore env op db).2 = (op.run env.db db).2 := by
  rcases runStore_cases env op db with h | ⟨m, -, h⟩
  · exact .inr (congrArg Prod.snd h)
  · exact h

theorem runStore_ok {env : StepEnv} {op : Op} {db : DB} {a : op.Result} (h : (runStore env op db).1 = .ok a) :
    runStore env op db = op.run env.db db := by
  rcases runStore_cases env op db with hr | ⟨m, hm, -⟩
  · exact hr
  · rw [hm] at h; cases h

/-- A store call had no effect and was answered with an error, or its transaction committed; whether or not the answer
arrived is another matter. -/
theorem runStore_commit (env : StepEnv) (op : Op) (db : DB) {m : Txn op.Result} (hm : op.run env.db db = m.run db) :
    ((runStore env op db).2 = db ∧ ∃ e, (runStore env op db).1 = .error e) ∨
      ∃ a, m db = .ok (a, (runStore env op db).2) ∧
        ((runStore env op db).1 = .ok a ∨ ∃ e, (runStore env op db).1 = .error e) := by
  rcases runStore_cases env op db with h | ⟨message, he, h | h⟩
  · rw [h, hm]
    unfold Txn.run
    cases hr : m db with
    | ok r => exact .inr ⟨r.1, rfl, .inl rfl⟩
    | error e => exact .inl ⟨rfl, e, rfl⟩
  · exact .inl ⟨h, _, he⟩
  · rw [h, hm, he]
    unfold Txn.run
    cases hr : m db with
    | ok r => exact .inr ⟨r.1, rfl, .inr ⟨_, rfl⟩⟩
    | error e => exact .inl ⟨rfl, _, rfl⟩

theorem runStore_commits {env : StepEnv} (h : ∀ m, env.fault ≠ .failed m) (op : Op) (db : DB) :
    (runStore env op db).2 = (op.run env.db db).2 := by
  unfold runStore
  cases hf : env.fault with
  | none | lost => rfl
  | failed m => exact absurd hf (h m)

/-- A call that was answered as a store call without error did what its method does. -/
theorem perform_ok {env : StepEnv} {q : Call} {op : Op} {r : op.Result}
    (h : (⟨q, (perform s env q).1⟩ : Ev) = ⟨.store op, .ok r⟩) :
    q = .store op ∧ op.run env.db s.db = (.ok r, (perform s env q).2.db) := by
  obtain ⟨rfl, hans⟩ := Event.mk.inj h
  have hok : (runStore env op s.db).1 = .ok r := eq_of_heq hans
  refine ⟨rfl, ?_⟩
  rw [← runStore_ok hok]
  exact Prod.ext hok rfl

/-- Every call of every run moves each payment's life by at most one move. -/
theorem Inv.moves (hi : Inv lib s log) {q : Call} (hj : Allowed lib cfg e (own pid log) q) (env : StepEnv) :
    Moves (rawHashOf lib) (CallKinds s.db q) s.db (perform s env q).2.db := by
  cases q with
  | store op =>
    change Moves _ (Kinds s.db op) s.db (runStore env op s.db).2
    rcases runStore_db env op s.db with h | h
    · rw [h]; exact (moves_of_eq fun _ => rfl).mono fun _ hk => .inl hk
    · rw [h]; exact run_moves op hi.shape (hi.knows hj)
  | _ => exact moves_of_eq fun _ => rfl

theorem perform_payments (s : Shared) (env : StepEnv) (q : Call) :
    PaymentsKept s.db.tables (perform s env q).2.db.tables := by
  cases q with
  | store op =>
    change PaymentsKept _ (runStore env op s.db).2.tables
    rcases runStore_db env op s.db with h | h
    · rw [h]; exact .of_eq rfl
    · rw [h]; exact run_payments env.db op s.db
  | _ => exact .of_eq rfl

/-- Only an answer that is no error tells anything. -/
theorem Tells.ok {ev : Ev} {a : Lasting} (h : Tells ev a) : ∃ op r, ev = ⟨.store op, .ok r⟩ := by
  cases h <;> exact ⟨_, _, rfl⟩

theorem Inv.call (hi : Inv lib s log) {q : Call} (hj : Allowed lib cfg e (own pid log) q) (env : StepEnv) :
    Inv lib (perform s env q).2 (log ++ [(pid, ⟨q, (perform s env q).1⟩)]) := by
  have hm := hi.moves hj env
  have hp := perform_payments s env q
  have hshape : ∀ p, Shape (rawHashOf lib) (lifeOf (perform s env q).2.db.tables p) := fun p => by
    obtain ⟨k, -, m⟩ := hm p
    exact m.shape (oneActive_rowsOf _ p) (oneActive_rowsOf _ p) (hi.shape p)
  refine ⟨hshape, fun x hx a ht => ?_⟩
  rcases List.mem_append.1 hx with hx | hx
  · exact (hi.told x hx a ht).move hi.shape hm hp
  · rw [List.mem_singleton.1 hx] at ht
    obtain ⟨op, r, hev⟩ := ht.ok
    rw [hev] at ht
    exact ht.stands (perform_ok hev).2 hi.shape hshape hm hp

/-! ## Whole runs -/

theorem outside_lives (s : Shared) (m : Move) : (outside s m).db.tables.payments = s.db.tables.payments ∧
    (outside s m).db.tables.transactions = s.db.tables.transactions ∧
    (outside s m).db.tables.signerAccounts = s.db.tables.signerAccounts := by
  cases m with
  | tick t => exact ⟨rfl, rfl, rfl⟩
  | setMerchants merchants => exact s.db.setMerchants_keeps merchants

theorem Inv.outside (hi : Inv lib s log) (m : Move) : Inv lib (outside s m) log := by
  obtain ⟨hpay, htx, -⟩ := outside_lives s m
  have hlife := lifeOf_congr hpay htx
  refine ⟨fun q => by rw [hlife]; exact hi.shape q, fun x hx a ht => ?_⟩
  exact (hi.told x hx a ht).move hi.shape (moves_of_eq hlife) (.of_eq hpay)

theorem inv_empty (t : Time) : Inv lib ⟨DB.empty, t⟩ [] := ⟨fun _ => rfl, fun _ hx => by cases hx⟩

/-- The start of a run. -/
def start (lib : Libraries) (cfg : Settlement.Config) : Lib.Config (facilitator lib cfg) :=
  Lib.Config.init (M := facilitator lib cfg) (⟨DB.empty, 0⟩ : Shared)

theorem kept_start : Kept (M := facilitator lib cfg) (Allowed lib cfg) (Returns lib cfg) (start lib cfg) := Kept.init _

theorem kept_reach (run : Run lib cfg) : Kept (M := facilitator lib cfg) (Allowed lib cfg) (Returns lib cfg)
    (reach lib cfg run) := kept_start.exec code_disciplined run

/-- The invariant rule of the facilitator: `X` holds in every state reached when each call that meets `P`
and each move from outside keeps it. -/
theorem run_inv {P : Shared → List (Nat × Ev) → Nat → StepEnv → Call → Prop}
    {X : Shared → List (Nat × Ev) → Prop} (hstart : X ⟨DB.empty, 0⟩ [])
    (hcall : ∀ s log pid env q e, Inv lib s log → X s log → Allowed lib cfg e (own pid log) q → P s log pid env q →
      X (perform s env q).2 (log ++ [(pid, ⟨q, (perform s env q).1⟩)]))
    (hout : ∀ s log m, Inv lib s log → X s log → X (outside s m) log) (run : Run lib cfg)
    (hP : CallsAlong (M := facilitator lib cfg) P (start lib cfg) run) :
    Inv lib (reach lib cfg run).shared (reach lib cfg run).log ∧
      X (reach lib cfg run).shared (reach lib cfg run).log := by
  refine Kept.exec_inv (M := facilitator lib cfg) (P := P) (V := fun _ _ => True)
    (I := fun s log => Inv lib s log ∧ X s log) code_disciplined ?_ ?_ kept_start ⟨inv_empty 0, hstart⟩ hP ?_
  · intro s log pid env q e hi hj hd hp
    exact ⟨hi.1.call hj env, hcall s log pid env q e hi.1 hi.2 hj hp⟩
  · intro s log m hi _
    exact ⟨hi.1.outside m, hout s log m hi.1 hi.2⟩
  · exact along_of_forall (fun _ _ _ _ => trivial) _ _

/-- A property of lives that the moves of some calls keep holds in every run of such calls. -/
theorem run_lives {P : Shared → List (Nat × Ev) → Nat → StepEnv → Call → Prop} {L : Life → Prop} {K : Kind → Prop}
    (hstart : ∀ rows, L ⟨none, rows⟩)
    (hmove : ∀ k l l', K k → Settlement.Move (rawHashOf lib) k l l' → OneActive l.rows → Shape (rawHashOf lib) l →
    L l → L l')
    (hK : ∀ s log pid env q, P s log pid env q → ∀ k, CallKinds s.db q k → K k) (run : Run lib cfg)
    (hP : CallsAlong (M := facilitator lib cfg) P (start lib cfg) run) (p : Nat) :
    L (lifeOf (reach lib cfg run).shared.db.tables p) := by
  refine (run_inv (X := fun s _ => ∀ p, L (lifeOf s.db.tables p)) (fun _ => hstart _) ?_ ?_ run hP).2 p
  · intro s log pid env q e hi hl hj hp p
    obtain ⟨k, hk, m⟩ := hi.moves hj env p
    exact hmove k _ _ (hK s log pid env q hp k hk) m (oneActive_rowsOf _ p) (hi.shape p) (hl p)
  · intro s log m hi hl p
    obtain ⟨hpay, htx, -⟩ := outside_lives s m
    rw [lifeOf_congr hpay htx]
    exact hl p

theorem reach_inv (run : Run lib cfg) : Inv lib (reach lib cfg run).shared (reach lib cfg run).log := by
  refine (run_inv (P := fun _ _ _ _ _ => True) (X := fun _ _ => True) trivial ?_ ?_ run ?_).1
  · intros; trivial
  · intros; trivial
  · exact along_of_forall (fun _ _ _ _ _ _ _ _ _ => trivial) _ _

theorem reach_append (run more : Run lib cfg) : reach lib cfg (run ++ more) = (reach lib cfg run).exec more :=
  exec_append _ run more

theorem reach_log (run more : Run lib cfg) : (reach lib cfg run).log <+: (reach lib cfg (run ++ more)).log := by
  rw [reach_append]
  exact log_exec _ more

theorem Stands.later {run : Run lib cfg} {a : Lasting} (h : Stands (reach lib cfg run).shared.db a)
    (more : Run lib cfg) : Stands (reach lib cfg (run ++ more)).shared.db a := by
  induction more using List.reverseRecOn with
  | nil => rw [List.append_nil]; exact h
  | append_singleton more ch ih =>
    have hi := reach_inv (run ++ more)
    rw [← List.append_assoc, reach_append (run ++ more)]
    refine (kept_reach (run ++ more)).step_inv (I := fun (s : Shared) _ => Stands s.db a) ch ?_ ?_ ih
    · intro pid env q e k _ _ hj _
      exact ih.move hi.shape (hi.moves hj env) (perform_payments _ env q)
    · intro m _
      obtain ⟨hpay, htx, -⟩ := outside_lives (reach lib cfg (run ++ more)).shared m
      exact ih.move hi.shape (moves_of_eq (lifeOf_congr hpay htx)) (.of_eq hpay)

/-- What every move keeps of a life holds of a payment however the run goes on. -/
theorem lives_later {L : Life → Prop} (hmove : ∀ k l l', Settlement.Move (rawHashOf lib) k l l' → OneActive l.rows →
    Shape (rawHashOf lib) l → L l → L l') {run : Run lib cfg} {p : Nat}
    (h : L (lifeOf (reach lib cfg run).shared.db.tables p)) (more : Run lib cfg) :
    L (lifeOf (reach lib cfg (run ++ more)).shared.db.tables p) := by
  induction more using List.reverseRecOn with
  | nil => rw [List.append_nil]; exact h
  | append_singleton more ch ih =>
    have hi := reach_inv (run ++ more)
    rw [← List.append_assoc, reach_append (run ++ more)]
    refine (kept_reach (run ++ more)).step_inv (I := fun (s : Shared) _ => L (lifeOf s.db.tables p)) ch ?_ ?_ ih
    · intro pid env q e k _ _ hj _
      obtain ⟨k, -, m⟩ := hi.moves hj env p
      exact hmove k _ _ m (oneActive_rowsOf _ p) (hi.shape p) ih
    · intro m _
      obtain ⟨hpay, htx, -⟩ := outside_lives (reach lib cfg (run ++ more)).shared m
      change L (lifeOf (outside (reach lib cfg (run ++ more)).shared m).db.tables p)
      rw [lifeOf_congr hpay htx]
      exact ih

/-! ## Where a call was made -/

/-- The choice makes the call `q` of process `pid`. -/
def Makes (c : Lib.Config (facilitator lib cfg)) (ch : Choice (facilitator lib cfg)) (pid : Nat) (q : Call) : Prop :=
  ∃ env e k, ch = .run pid env ∧ c.procs[pid]? = some ⟨e, some (.call q k)⟩

/-- Every call of the log was made at a prefix of the run, as its process was allowed to. -/
theorem called_at {run : Run lib cfg} {l₁ l₂ : List (Nat × Ev)} {ev : Ev}
    (hl : (reach lib cfg run).log = l₁ ++ (pid, ev) :: l₂) :
    ∃ (before : Run lib cfg) (env : StepEnv) (rest : Run lib cfg) (e : Entry), run = before ++ .run pid env :: rest ∧
      (reach lib cfg before).log = l₁ ∧ Allowed lib cfg e (own pid l₁) ev.call ∧
      (perform (reach lib cfg before).shared env ev.call).1 = ev.answer ∧
      (reach lib cfg (before ++ [.run pid env])).shared = (perform (reach lib cfg before).shared env ev.call).2 ∧
      (reach lib cfg (before ++ [.run pid env])).log = l₁ ++ [(pid, ev)] := by
  have hlog : ((start lib cfg).exec run).log = (start lib cfg).log ++ (l₁ ++ (pid, ev) :: l₂) := hl
  obtain ⟨before, env, rest, e, k, hrun, hlog, -, hj, -, hans, hshared, hlog'⟩ :=
    made_at code_disciplined kept_start hlog
  exact ⟨before, env, rest, e, hrun, hlog, hj, hans, hshared, hlog'⟩

/-- A store call that returned no error did what its method does. -/
theorem stored_at {run : Run lib cfg} {l₁ l₂ : List (Nat × Ev)} {op : Op} {r : op.Result}
    (hl : (reach lib cfg run).log = l₁ ++ (pid, ⟨.store op, .ok r⟩) :: l₂) :
    ∃ (before : Run lib cfg) (env : StepEnv) (rest : Run lib cfg) (e : Entry), run = before ++ .run pid env :: rest ∧
      (reach lib cfg before).log = l₁ ∧ Allowed lib cfg e (own pid l₁) (.store op) ∧
      op.run env.db (reach lib cfg before).shared.db = (.ok r, (reach lib cfg (before ++ [.run pid env])).shared.db) ∧
      (reach lib cfg (before ++ [.run pid env])).log = l₁ ++ [(pid, ⟨.store op, .ok r⟩)] := by
  obtain ⟨before, env, rest, e, hrun, hlog, hj, hans, hshared, hlog'⟩ := called_at hl
  refine ⟨before, env, rest, e, hrun, hlog, hj, ?_, hlog'⟩
  rw [hshared]
  exact (perform_ok (congrArg (Event.mk (Call.store op)) hans)).2

/-! ## Runs of the small deployment -/

/-- The merchant is registered, the signer seeded with 3, and the payment `10` verified. -/
def sampleVerified : SampleRun :=
  [.outside (Move.setMerchants [⟨1, sampleMerchant, .active, 0⟩]), tick 20, enter (.seedSigner sampleSigner 3)] ++
    calls 1 0 (calm 0) ++ [enter (.verify (sampleRequest 'a'))] ++ calls 4 1 (calm 10)

/-- A request settles it: its intent is row `11`, and is broadcast. -/
def sampleBroadcast : SampleRun :=
  sampleVerified ++ [enter (.settle (sampleRequest 'a') 0)] ++ calls 13 2 (calm 11)

/-- A confirmation worker loads the broadcast row and stalls; its lease lapses, and a recovery worker replaces the
row `11` by a row `12` with a higher fee. -/
def sampleBumped : SampleRun :=
  sampleBroadcast ++ [enter (.confirmationTick "slow")] ++ calls 6 3 (calm 12) ++
    [tick 100, enter (.recoveryTick "fast")] ++ calls 11 4 (late 12)

end Eth402.System
