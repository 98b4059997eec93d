/-
Every method of the store, as a step of the lives of the payments. `Knows` collects what the methods
rely on their callers for; with it, `run_moves` is the refinement theorem for the whole store.
-/
import Eth402.Store.Frame

namespace Eth402.Store

open Lib Settlement Verification

variable {hash : Bytes → String} {db db' : DB} {env : DbEnv}

/-- No life changes. -/
def SameLives (t t' : Tables) : Prop := ∀ q, lifeOf t' q = lifeOf t q

theorem sameLives_leaseBlind : LeaseBlind SameLives where
  refl _ _ := rfl
  trans _ _ _ h₁ h₂ q := (h₂ q).trans (h₁ q)
  lease _ _ hf t q := by
    unfold lifeOf
    rw [stateOf_updatePayments_keeps (fun p => (hf p).id) (fun p => (hf p).state)]
    rfl

theorem SameLives.moves (h : SameLives db.tables db'.tables) : Moves hash Plain db db' := moves_of_eq h

/-! ## Verification records -/

/-- The row of a payment that was just verified. -/
def verifiedRow (env : DbEnv) (merchant : Option Nat) (p : ParsedPayment) (amount : Int) : Payment :=
  { paymentRow env merchant p amount with verificationStatus := .verified, state := .verified, updatedAt := env.now }

/-- What recording a verified payment comes to. -/
inductive Intake (env : DbEnv) (p : ParsedPayment) (db db' : DB) : Prop
  | known (q : Payment) (hq : q ∈ db.tables.payments) (hid : q.paymentIdentity = padTo 68 p.identity) (hdb : db' = db)
  | inserted (merchant : Option Nat) (amount : Int) (hamount : setString10 p.amount = some amount)
      (hnew : ∀ q ∈ db.tables.payments, q.paymentIdentity ≠ padTo 68 p.identity)
      (hfree : ∀ q ∈ db.tables.payments, q.id ≠ env.freshId)
      (hclaim : merchant = claimant (padTo 42 p.recipient) db.tables)
      (ht : db'.tables = { db.tables with
        payments := db.tables.payments ++ [verifiedRow env merchant p amount]
        transitions := db.tables.transitions ++ [⟨env.freshId, .received, .verified, none, "http"⟩] })

variable {p : ParsedPayment}

theorem insertVerified_ok {n : Nat} (h : insertVerified env p db = .ok (n, db')) : Intake env p db db' := by
  obtain ⟨existing, db₁, hr, hrest⟩ := Txn.bind_ok h
  obtain ⟨hex, rfl⟩ := Prod.mk.inj (Txn.read_ok hr)
  cases existing with
  | some q =>
    cases Txn.pure_ok hrest
    exact .known q (List.mem_of_find?_eq_some hex) (by simpa using List.find?_some hex) rfl
  | none =>
    cases hamount : setString10 p.amount with
    | none =>
      simp only [hamount] at hrest
      exact (Txn.fail_ok hrest).elim
    | some amount =>
      simp only [hamount] at hrest
      obtain ⟨merchant, db₂, hr, hrest⟩ := Txn.bind_ok hrest
      obtain ⟨hclaim, rfl⟩ := Prod.mk.inj (Txn.read_ok hr)
      obtain ⟨_, db₃, hw, hrest⟩ := Txn.bind_ok hrest
      have ht₃ := Txn.write_ok hw
      obtain ⟨_, db₄, hu, hrest⟩ := Txn.bind_ok hrest
      obtain ⟨-, ht₄⟩ := updatePayments_ok hu
      obtain ⟨_, db₅, hi, hrest⟩ := Txn.bind_ok hrest
      have ht₅ := Txn.write_ok hi
      cases Txn.pure_ok hrest
      have hids := db₃.wf.paymentIds
      rw [ht₃, List.map_append, List.nodup_append] at hids
      -- the fresh id was free
      have hfree : ∀ q ∈ db.tables.payments, q.id ≠ env.freshId := fun q hq =>
        hids.2.2 q.id (List.mem_map.2 ⟨q, hq, rfl⟩) env.freshId (by simp [paymentRow])
      refine .inserted merchant amount hamount (fun q hq => by simpa using List.find?_eq_none.1 hex q hq) hfree
        hclaim.symm ?_
      have hpay : mapIf (fun q => decide (q.id = env.freshId ∧ q.state = .received)) (fun q => { q with
          verificationStatus := .verified, state := .verified, updatedAt := env.now })
          (db.tables.payments ++ [paymentRow env merchant p amount]) =
          db.tables.payments ++ [verifiedRow env merchant p amount] := by
        rw [mapIf_append, mapIf_of_false fun q hq => by simp [hfree q hq]]
        simp [mapIf, verifiedRow, paymentRow]
      rw [ht₅, ht₄, Tables.updatePayments, ht₃]
      simp only [hpay]

theorem insertVerified_moves {n : Nat} (h : insertVerified env p db = .ok (n, db')) : Moves hash Plain db db' := by
  cases insertVerified_ok h with
  | known q hq hid hdb => rw [hdb]; exact moves_of_eq fun _ => rfl
  | inserted merchant amount hamount hnew hfree _ ht =>
    have hnone : db.tables.payments.find? (fun q => q.id = env.freshId) = none :=
      List.find?_eq_none.2 fun q hq => by simpa using hfree q hq
    have hst : ∀ q, stateOf q db'.tables = if q = env.freshId then some .verified else stateOf q db.tables :=
      fun q => by
      unfold stateOf
      rw [ht, List.find?_append]
      by_cases hq : q = env.freshId
      · subst hq
        simp [hnone, verifiedRow, paymentRow]
      · have hne : env.freshId ≠ q := fun h => hq h.symm
        simp [hq, hne, verifiedRow, paymentRow]
    have hrows : ∀ q, rowsOf db'.tables q = rowsOf db.tables q := fun q => by
      unfold rowsOf; rw [ht]
    refine moves_at_plain (p := env.freshId) (fun q hq => ?_) ?_
    · unfold lifeOf; rw [hst, hrows, if_neg hq]
    · unfold lifeOf
      rw [hst, hrows, if_pos rfl, show stateOf env.freshId db.tables = none by unfold stateOf; rw [hnone]; rfl]
      exact .record _

theorem insertVerificationAttempt_ok {r : VerificationAttempt} {u : Unit}
    (h : insertVerificationAttempt r db = .ok (u, db')) : Quiet db db' := by
  have := Txn.write_ok h
  exact ⟨by rw [this], by rw [this], by rw [this], by rw [this], by rw [this]⟩

theorem Moves.quiet {db₁ : DB} (h : Moves hash Plain db db₁) (hq : Quiet db₁ db') :
    Moves hash Plain db db' := fun q => by
  rw [lifeOf_congr hq.payments hq.transactions]; exact h q

theorem recordAttempt_moves {attempt : Attempt} {u : Unit} (h : recordAttempt env attempt db = .ok (u, db')) :
    Moves hash Plain db db' := by
  unfold recordAttempt at h
  split at h
  · cases hpay : attempt.payment with
    | none =>
      simp only [hpay] at h
      obtain ⟨_, _, hf, -⟩ := Txn.bind_ok h
      exact (Txn.fail_ok hf).elim
    | some p =>
      simp only [hpay] at h
      obtain ⟨_, db₁, hm, hi⟩ := Txn.bind_ok h
      obtain ⟨n, db₂, hv, heq⟩ := Txn.map_ok hm
      obtain ⟨-, rfl⟩ := Prod.mk.inj heq
      exact (insertVerified_moves hv).quiet (insertVerificationAttempt_ok hi)
  · obtain ⟨_, db₁, hm, hi⟩ := Txn.bind_ok h
    cases Txn.pure_ok hm
    exact (insertVerificationAttempt_ok hi).moves

theorem recordVerified_ok {reason : String} {u : Unit}
    (h : recordVerification env ⟨p.identity, "verified", "", some p⟩ reason db = (.ok u, db')) :
    ∃ db₁, Intake env p db db₁ ∧ Quiet db₁ db' := by
  unfold recordVerification at h
  split at h
  · rename_i hok
    cases h
    obtain ⟨_, db₁, hm, hi⟩ := Txn.bind_ok hok
    obtain ⟨n, db₂, hv, heq⟩ := Txn.map_ok hm
    obtain ⟨-, rfl⟩ := Prod.mk.inj heq
    exact ⟨_, insertVerified_ok hv, insertVerificationAttempt_ok hi⟩
  · split at h <;> cases h
  · cases h

theorem recordVerification_moves (attempt : Attempt) (reason : String) (db : DB) :
    Moves hash Plain db (recordVerification env attempt reason db).2 := by
  unfold recordVerification
  split
  · exact recordAttempt_moves ‹_›
  · split
    · exact (insertVerificationAttempt_ok ‹_›).moves
    · exact moves_of_eq fun _ => rfl
  · exact moves_of_eq fun _ => rfl

/-! ## Retention and seeding -/

theorem stateOf_expire (now : Time) (ids : List Nat) (t : Tables) (q : Nat) :
    stateOf q (t.expire now ids) = stateOf q t ∨
      (stateOf q t = some .verified ∧ stateOf q (t.expire now ids) = some .expired) := by
  have heq : stateOf q (t.expire now ids) = stateOf q (t.updatePayments (fun p => p.id ∈ ids ∧ p.state = .verified)
      fun p => { p with state := .expired, updatedAt := now }) := by
    unfold stateOf Tables.expire Tables.updatePayments mapIf; simp
  rw [heq, stateOf_updatePayments ?hid]
  case hid => exact fun _ => rfl
  unfold stateOf
  cases hf : t.payments.find? (fun p => decide (p.id = q)) with
  | none => exact .inl rfl
  | some a =>
    by_cases ha : a.id ∈ ids ∧ a.state = .verified
    · exact .inr ⟨by simp [ha.2], by simp [ha]⟩
    · exact .inl (by simp [ha])

theorem stateOf_redact (now : Time) (ids : List Nat) (t : Tables) (q : Nat) :
    stateOf q (t.redact now ids) = stateOf q t := by
  have := stateOf_updatePayments_keeps (w := fun p => p.id ∈ ids) (f := fun p => p.redact now)
    (fun _ => rfl) (fun _ => rfl) t q
  rw [← this]
  unfold stateOf Tables.redact Tables.updatePayments mapIf
  simp

theorem rowsOf_redact (now : Time) (ids : List Nat) (t : Tables) (q : Nat) :
    rowsOf (t.redact now ids) q = if q ∈ ids then (rowsOf t q).map fun r => { r with raw := none } else rowsOf t q := by
  have hupdate : (t.redact now ids).transactions = (t.updateTransactions
      (fun r => r.paymentId ∈ ids ∧ r.rawTransaction.isSome)
      fun r => { r with rawTransaction := none, updatedAt := now }).transactions := by
    unfold Tables.redact Tables.updateTransactions mapIf; simp
  have hrows : rowsOf (t.redact now ids) q = rowsOf (t.updateTransactions
      (fun r => r.paymentId ∈ ids ∧ r.rawTransaction.isSome)
      fun r => { r with rawTransaction := none, updatedAt := now }) q := by
    unfold rowsOf; rw [hupdate]
  by_cases hq : q ∈ ids
  · have hcleared : rowsOf (t.updateTransactions (fun r => r.paymentId ∈ ids ∧ r.rawTransaction.isSome)
        fun r => { r with rawTransaction := none, updatedAt := now }) q =
        mapIf (fun r => r.raw.isSome) (fun r => { r with raw := none }) (rowsOf t q) := by
      refine rowsOf_update ?_ (fun r _ hr => ?_) ?_
      · exact fun _ => rfl
      · simp [hr, hq, Transaction.row]
      · exact fun _ => rfl
    rw [if_pos hq, hrows, hcleared]
    refine List.map_congr_left fun r _ => ?_
    cases hraw : r.raw with
    | none => simp [← hraw]
    | some b => simp [hraw]
  · rw [if_neg hq, hrows, rowsOf_update_other ?hp fun r _ hr => by simp [hr, hq]]
    exact fun _ => rfl

variable {request : RetentionRequest}

theorem redactable_of_candidate {p : Payment} (hp : p ∈ db.tables.payments)
    (h : p.id ∈ redactionCandidates env request db.tables) :
    redactable (request.now - request.paymentAfter) db.tables p = true := by
  obtain ⟨q, hq, hid⟩ := List.mem_map.1 h
  have hq := List.mem_of_mem_filter (List.mem_of_mem_take hq)
  rw [List.mem_insertionSort] at hq
  obtain ⟨hqt, hred⟩ := List.mem_filter.1 hq
  obtain rfl := eq_of_key db.wf.paymentIds hqt hp hid
  exact hred

/-- A retired payment is redacted only once all its rows reverted. -/
theorem reverted_of_candidate {q : Nat} (h : q ∈ redactionCandidates env request db.tables)
    (hs : stateOf q db.tables = some .expired ∨ stateOf q db.tables = some .failed) :
    ∀ r ∈ rowsOf db.tables q, r.status = .reverted := by
  obtain ⟨s, hst, hdead⟩ : ∃ s, stateOf q db.tables = some s ∧ (s = .expired ∨ s = .failed) := by
    rcases hs with hs | hs
    · exact ⟨_, hs, .inl rfl⟩
    · exact ⟨_, hs, .inr rfl⟩
  obtain ⟨p, hp, rfl, rfl⟩ := exists_of_stateOf hst
  obtain ⟨-, -, -, -, hfinal | hrows⟩ := of_decide_eq_true (redactable_of_candidate hp h)
  · rcases hdead with hd | hd <;> rw [hd] at hfinal <;> simp at hfinal
  · intro x hx
    obtain ⟨r, hr, hrp, rfl⟩ := mem_rowsOf.1 hx
    exact of_decide_eq_true (List.all_eq_true.1 hrows r hr) hrp

/-- Expiry moves verified payments, which have no rows yet; redaction clears the bytes of rows. -/
theorem applyRetention_moves {r : Nat × Nat}
    (hshape : ∀ q, Shape hash (lifeOf db.tables q)) (h : applyRetention env request db = .ok (r, db')) :
    Moves hash Plain db db' := by
  obtain ⟨-, ids, mid, hexpire, hredact⟩ := applyRetention_steps h
  intro q
  refine ⟨.plain, rfl, ?_⟩
  have hrows : rowsOf mid.tables q = rowsOf db.tables q := by rw [hexpire]; rfl
  have hexpired := stateOf_expire request.now ids db.tables q
  rw [← hexpire] at hexpired
  unfold lifeOf
  rw [hredact, stateOf_redact, rowsOf_redact, hrows]
  rcases hexpired with hs | ⟨hv, hs⟩
  · rw [hs]
    split
    · refine .forget ⟨stateOf q db.tables, rowsOf db.tables q⟩ fun hdead => ?_
      change ∀ r ∈ rowsOf db.tables q, _
      rw [← hrows]
      exact reverted_of_candidate ‹_› (by rw [hs]; exact hdead)
    · exact .keep _
  · have hnil : rowsOf db.tables q = [] := by
      have := hshape q
      unfold lifeOf at this
      rw [hv] at this
      exact this
    rw [hs, hv, hnil, List.map_nil, ite_self]
    exact .lapse []

theorem seedSignerAccount_quiet {address : String} {chainNonce n : Nat}
    (h : seedSignerAccount address chainNonce db = .ok (n, db')) :
    db'.tables.payments = db.tables.payments ∧ db'.tables.transactions = db.tables.transactions ∧
      db'.tables.transitions = db.tables.transitions ∧ db'.tables.merchants = db.tables.merchants := by
  obtain ⟨a, db₁, hl, hrest⟩ := Txn.bind_ok h
  obtain ⟨-, rfl⟩ := Txn.lift_ok hl
  obtain ⟨stored, db₂, hr, hrest⟩ := Txn.bind_ok hrest
  obtain ⟨-, rfl⟩ := Prod.mk.inj (Txn.read_ok hr)
  cases stored with
  | none | some =>
    obtain ⟨_, db₃, hw, hrest⟩ := Txn.bind_ok hrest
    obtain ⟨-, rfl⟩ := Txn.lift_ok hrest
    rw [Txn.write_ok hw]
    exact ⟨rfl, rfl, rfl, rfl⟩

/-! ## The whole store -/

variable {R : Tables → Tables → Prop}

theorem Motions.applyRetention (hR : Motions R)
    (hredact : ∀ db : DB, R db.tables (db.tables.redact request.now (redactionCandidates env request db.tables))) :
    Txn.Keeps R (applyRetention env request) := fun _ _ _ h => by
  obtain ⟨mid, hmid, ht⟩ := applyRetention_ok hR h
  rw [ht]
  exact hR.trans _ _ _ hmid (hredact mid)

/-- What every part of the methods keeps, every call that records no verification keeps. -/
theorem run_keeps_others (hR : Motions R) (hlease : LeaseBlind R) (op : Op)
    (hrec : op.records = false) (hintake : ∀ request, Txn.Keeps R (createSettlementIntent env request))
    (hseed : ∀ a n, Txn.Keeps R (seedSignerAccount a n))
    (hretain : ∀ request, op = .applyRetention request → Txn.Keeps R (applyRetention env request)) (db : DB) :
    R db.tables (op.run env db).2.tables := by
  cases op with
  | createSettlementIntent request => exact (hintake request).runInner hR.refl db
  | seedSignerAccount a n => exact (hseed a n).run hR.refl db
  | applyRetention request => exact (hretain request rfl).run hR.refl db
  | claimPayment | claimPayments | renewLease | releaseLease => exact hlease.run env _ rfl db
  | recordVerification => cases hrec
  | _ => exact run_motions hR env _ rfl rfl db

/-- What the units of settlement, the leases, admission, seeding and retention keep every call keeps. -/
theorem run_keeps (hR : Units R) (hlease : LeaseBlind R) (op : Op)
    (hintake : ∀ request, Txn.Keeps R (createSettlementIntent env request))
    (hseed : ∀ a n, Txn.Keeps R (seedSignerAccount a n))
    (hretain : ∀ request, op = .applyRetention request → Txn.Keeps R (applyRetention env request)) (db : DB) :
    R db.tables (op.run env db).2.tables := by
  cases hrec : op.records with
  | false => exact run_keeps_others hR.toMotions hlease op hrec hintake hseed hretain db
  | true =>
    cases op with
    | recordVerification => exact run_units hR env _ rfl db
    | _ => cases hrec

theorem createSettlementIntent_payments (request : IntentRequest) :
    Txn.Keeps PaymentsKept (createSettlementIntent env request) := by
  have hstarted : State.broadcasting ∉ unadmitted := by decide
  refine .createSettlementIntent (fun _ _ hq => .of_eq hq.payments) fun db _ _ _ _ _ hc => ?_
  refine .trans ?_ (.of_eq hc.payments)
  refine .update ?_ _
  exact fun _ _ => ⟨rfl, rfl, .inl rfl, fun h => absurd h hstarted⟩

theorem run_payments (env : DbEnv) (op : Op) (db : DB) : PaymentsKept db.tables (op.run env db).2.tables := by
  cases hop : op.movesSequence with
  | false => exact (run_frame env op hop db).payments
  | true =>
    cases op with
    | createSettlementIntent request =>
      exact (createSettlementIntent_payments request).runInner (fun _ => .of_eq rfl) db
    | seedSignerAccount address nonce =>
      have hseed : Txn.Keeps PaymentsKept (seedSignerAccount address nonce) := fun _ _ _ h =>
        .of_eq (seedSignerAccount_quiet h).1
      exact hseed.run (fun _ => .of_eq rfl) db
    | _ => cases hop

/-- What a method relies on its caller for. -/
def Knows (hash : Bytes → String) (db : DB) : Op → Prop
  | .markTxBroadcast p t txHash _ | .markTxRecoveredBroadcast p t txHash _ =>
    ∃ raw, txHash = "0x" ++ raw ∧ ∀ r ∈ rowsOf db.tables p, r.id = t → r.rawHash = some raw
  | .markTxConfirming p _ _ _ _ => Broadcasted (lifeOf db.tables p)
  | .markTxAmbiguousReplaced _ _ replacement _ | .markTxReplaced _ _ replacement _ =>
    replacement.txHash = "0x" ++ replacement.rawHash
  | .markGapFillerPrepared t rawHash txHash raw _ _ _ =>
    rawHash = hash raw ∧ txHash = "0x" ++ hash raw ∧
      ∀ p, Has t [.dropped] (rowsOf db.tables p) → Retired (lifeOf db.tables p)
  | .markGapFillerReplaced _ _ replacement raw =>
    replacement.txHash = "0x" ++ replacement.rawHash ∧ replacement.rawHash = hash raw
  | .markGapFillerResolved t _ _ =>
    ∀ p, Has t [.broadcast, .replaced] (rowsOf db.tables p) → Retired (lifeOf db.tables p)
  | _ => True

/-- The methods that record a final outcome. -/
def Op.finalizes : Op → Bool
  | .markTxConfirmed .. | .markTxReverted .. | .markReplacementLanded .. => true
  | _ => false

/-- The methods that end the watch of a filler. -/
def Op.retiresFiller : Op → Bool
  | .markGapFillerResolved .. | .markGapFillerSucceeded .. => true
  | _ => false

/-- The kinds of moves a call may make. -/
def Kinds (db : DB) (op : Op) (k : Kind) : Prop :=
  k = .plain ∨
    (k = .missed ∧ ∃ p t n h a, op = .markTxConfirming p t n h a ∧ misses db p t ∧
      (stateOf p db.tables = some .broadcast ∨ stateOf p db.tables = some .replaced)) ∨
    (k = .landed ∧ ∃ p t n h g c a, op = .markReplacementLanded p t true n h g c a) ∨
    (k = .final ∧ op.finalizes = true) ∨
    (k = .prepared ∧ ∃ t h x raw g m f, op = .markGapFillerPrepared t h x raw g m f) ∨
    (k = .consumed ∧ op.retiresFiller = true)

section

variable {op : Op}

theorem Kinds.of_missed (h : Kinds db op .missed) : ∃ p t n bh a, op = .markTxConfirming p t n bh a ∧ misses db p t ∧
    (stateOf p db.tables = some .broadcast ∨ stateOf p db.tables = some .replaced) := by simpa [Kinds] using h

theorem Kinds.of_landed (h : Kinds db op .landed) :
    ∃ p t n bh g c a, op = .markReplacementLanded p t true n bh g c a := by
  simpa [Kinds] using h

theorem Kinds.of_final (h : Kinds db op .final) : op.finalizes = true := by simpa [Kinds] using h

theorem Kinds.of_prepared (h : Kinds db op .prepared) :
    ∃ t rh x raw g m f, op = .markGapFillerPrepared t rh x raw g m f := by simpa [Kinds] using h

theorem Kinds.of_consumed (h : Kinds db op .consumed) : op.retiresFiller = true := by simpa [Kinds] using h

end

theorem run_moves_of {α : Type} {m : Txn α} {K : Kind → Prop} (hplain : K .plain)
    (h : ∀ a db', m db = .ok (a, db') → Moves hash K db db') : Moves hash K db (m.run db).2 := by
  unfold Txn.run
  split
  · exact h _ _ ‹_›
  · exact fun q => ⟨.plain, hplain, .keep _⟩

/-- The refinement theorem of the store: a call moves each payment's life by at most one move. -/
theorem run_moves (op : Op) (hshape : ∀ q, Shape hash (lifeOf db.tables q)) (hknow : Knows hash db op) :
    Moves hash (Kinds db op) db (op.run env db).2 := by
  have plain : ∀ {α : Type} {m : Txn α}, (∀ a db', m db = .ok (a, db') → Moves hash Plain db db') →
      Moves hash (Kinds db op) db (m.run db).2 :=
    fun h => run_moves_of (.inl rfl) fun a db' hm => (h a db' hm).mono fun _ hk => .inl hk
  have same : ∀ {α : Type} {m : Txn α}, Txn.Keeps SameLives m → Moves hash (Kinds db op) db (m.run db).2 :=
    fun h => plain fun a db' hm => (SameLives.moves (h _ _ _ hm))
  cases op with
  | createSettlementIntent request =>
    change Moves hash _ db ((createSettlementIntent env request).runInner db).2
    unfold Txn.runInner
    split
    · obtain ⟨signer, -, ho⟩ := createSettlementIntent_outcome ‹_›
      exact ho.moves.mono fun _ hk => .inl hk
    · exact fun q => ⟨.plain, .inl rfl, .keep _⟩
  | claimPayment => exact same (sameLives_leaseBlind.claimPayment env _ _ _ _)
  | claimPayments => exact same (sameLives_leaseBlind.claimPayments env _)
  | renewLease => exact same (sameLives_leaseBlind.renewLease _ _ _ _)
  | releaseLease => exact same (sameLives_leaseBlind.releaseLease env _ _)
  | loadSettlementWork | listReplacedPending | listDroppedBlockingGaps | listGapFillers | listStuckGapFillers =>
    exact same (.query sameLives_leaseBlind.refl _)
  | markTxSigned => exact plain fun _ _ h => markTxSigned_moves h
  | markTxBroadcast =>
    obtain ⟨raw, rfl, hk⟩ := hknow
    exact plain fun _ _ h => markTxBroadcast_moves hk h
  | markTxAmbiguous => exact plain fun _ _ h => markTxAmbiguous_moves h
  | markIntentExpired => exact plain fun _ _ h => retireIntent_moves (.inr rfl) h
  | markIntentUnsettleable => exact plain fun _ _ h => retireIntent_moves (.inl rfl) h
  | markTxConfirming p t n bh a =>
    refine run_moves_of (.inl rfl) fun _ _ h => (markTxConfirming_moves hknow h).mono fun k hk => ?_
    exact hk.imp (fun h => h) fun ⟨hk, hm, hs⟩ => .inl ⟨hk, p, t, n, bh, a, rfl, hm, hs⟩
  | markTxConfirmed =>
    refine run_moves_of (.inl rfl) fun _ _ h => (markTxConfirmed_moves h).mono fun k hk => ?_
    exact hk.imp (fun h => h) fun hk => .inr (.inr (.inl ⟨hk, rfl⟩))
  | markTxReverted =>
    refine run_moves_of (.inl rfl) fun _ _ h => (markTxReverted_moves h).mono fun k hk => ?_
    exact hk.imp (fun h => h) fun hk => .inr (.inr (.inl ⟨hk, rfl⟩))
  | markTxRecoveredBroadcast =>
    obtain ⟨raw, rfl, hk⟩ := hknow
    exact plain fun _ _ h => markTxRecoveredBroadcast_moves hk h
  | markAmbiguousRetry => exact plain fun _ _ h => markAmbiguousRetry_moves h
  | markTxAmbiguousReplaced => exact plain fun _ _ h => markTxAmbiguousReplaced_moves hknow h
  | markTxReplaced => exact plain fun _ _ h => markTxReplaced_moves hknow h
  | markReplacementLanded p t s n bh g c a =>
    refine run_moves_of (.inl rfl) fun _ _ h => (markReplacementLanded_moves h).mono fun k hk => ?_
    rcases hk with hk | ⟨hk, rfl⟩ | ⟨hk, rfl⟩
    · exact .inl hk
    · exact .inr (.inr (.inl ⟨hk, p, t, n, bh, g, c, a, rfl⟩))
    · exact .inr (.inr (.inr (.inl ⟨hk, rfl⟩)))
  | markTxReorgedOut => exact plain fun _ _ h => markTxReorgedOut_moves h
  | markGapFillerPrepared =>
    obtain ⟨rfl, rfl, hknow⟩ := hknow
    refine run_moves_of (.inl rfl) fun _ _ h => (markGapFillerPrepared_moves hknow h).mono fun k hk => ?_
    exact hk.imp (fun h => h) fun hk => .inr (.inr (.inr (.inl ⟨hk, _, _, _, _, _, _, _, rfl⟩)))
  | markGapFillerReplaced => exact plain fun _ _ h => markGapFillerReplaced_moves hknow.1 hknow.2 h
  | markGapFillerResolved =>
    refine run_moves_of (.inl rfl) fun _ _ h => (markGapFillerResolved_moves hknow h).mono fun k hk => ?_
    exact hk.imp (fun h => h) fun hk => .inr (.inr (.inr (.inr ⟨hk, rfl⟩)))
  | markGapFillerSucceeded =>
    refine run_moves_of (.inl rfl) fun _ _ h => (markGapFillerSucceeded_moves h).mono fun k hk => ?_
    exact hk.imp (fun h => h) fun hk => .inr (.inr (.inr (.inr ⟨hk, rfl⟩)))
  | recordVerification attempt reason =>
    exact (recordVerification_moves attempt reason db).mono fun _ hk => .inl hk
  | applyRetention => exact plain fun _ _ h => applyRetention_moves hshape h
  | seedSignerAccount =>
    refine plain fun _ _ h => ?_
    obtain ⟨hp, ht, -⟩ := seedSignerAccount_quiet h
    exact moves_of_eq (lifeOf_congr hp ht)

end Eth402.Store
