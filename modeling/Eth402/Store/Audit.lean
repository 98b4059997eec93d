/-
The audit of payments: every method that moves a payment leaves one audit row for the move, and no other row. So the
rows of a payment, in the order they were inserted, are a walk through the state machine from `received` to the state
the payment is in, whatever methods were called in whatever order with whatever arguments.
-/
import Eth402.Lib.Walk
import Eth402.Store.Nonces

namespace Eth402.Store

open Lib Settlement Verification

variable {db db' : DB} {env : DbEnv} {t t' : Tables} {p : Nat}

/-- An edge of the state machine. -/
def Edge (source target : State) : Prop := canTransition source target = true

instance (source target : State) : Decidable (Edge source target) :=
  inferInstanceAs (Decidable (canTransition source target = true))

/-- The audited moves of a payment, in the order of their rows. -/
def history (t : Tables) (q : Nat) : List (State × State) :=
  (t.transitions.filter fun r => r.paymentId = q).map fun r => (r.fromState, r.toState)

/-- The state of a payment; before it is on record it is as good as received. -/
def current (t : Tables) (q : Nat) : State := (stateOf q t).getD .received

/-- What was added to the audit of each payment takes it from the state it was in to the state it is in. -/
def Audits (t t' : Tables) : Prop :=
  ∀ q, ∃ w, history t' q = history t q ++ w ∧ Walk Edge (current t q) w (current t' q)

/-! ## One move, one row -/

theorem Audits.same (hs : ∀ q, stateOf q t' = stateOf q t) (ht : t'.transitions = t.transitions) : Audits t t' := by
  intro q
  refine ⟨[], ?_, ?_⟩
  · unfold history
    rw [ht, List.append_nil]
  · unfold current
    rw [hs]
    rfl

theorem Audits.of_eq (hp : t'.payments = t.payments) (ht : t'.transitions = t.transitions) : Audits t t' :=
  .same (fun q => by unfold stateOf; rw [hp]) ht

theorem Audits.trans {a b c : Tables} (h₁ : Audits a b) (h₂ : Audits b c) : Audits a c := by
  intro q
  obtain ⟨w, hw, hwalk⟩ := h₁ q
  obtain ⟨w', hw', hwalk'⟩ := h₂ q
  exact ⟨w ++ w', by rw [hw', hw, List.append_assoc], hwalk.append hwalk'⟩

theorem history_append {rows : List Transition} (ht : t'.transitions = t.transitions ++ rows) (q : Nat) :
    history t' q = history t q ++ (rows.filter fun r => r.paymentId = q).map fun r => (r.fromState, r.toState) := by
  unfold history
  rw [ht, List.filter_append, List.map_append]

/-- A payment is moved along an edge, and the move is audited. -/
theorem Audits.moved {s target : State} {row : Transition} (hm : Moved t t' p s target) (hedge : Edge s target)
    (ht : t'.transitions = t.transitions ++ [row])
    (hrow : row.paymentId = p ∧ row.fromState = s ∧ row.toState = target) : Audits t t' := by
  obtain ⟨rfl, rfl, rfl⟩ := hrow
  intro q
  rw [history_append ht]
  by_cases hq : q = row.paymentId
  · subst hq
    refine ⟨[(row.fromState, row.toState)], by simp, ?_⟩
    unfold current
    rw [hm.before, hm.state, if_pos rfl]
    exact .single hedge
  · refine ⟨[], by simp [Ne.symm hq], ?_⟩
    unfold current
    rw [hm.state, if_neg hq]
    rfl

/-! ## The statements that move payments -/

/-- A move of one payment, once it is audited. -/
theorem Audits.recorded {db₁ : DB} {s target : State} {actor : String} {u : Unit}
    (hm : Moved db.tables db₁.tables p s target) (ht : db₁.tables.transitions = db.tables.transitions)
    (hedge : Edge s target)
    (h : recordTransition p s target actor db₁ = .ok (u, db')) : Audits db.tables db'.tables := by
  have hrec : db'.tables = { db₁.tables with transitions := db₁.tables.transitions ++ [⟨p, s, target, none, actor⟩] } :=
    by
    unfold recordTransition insertTransition at h
    exact Txn.write_ok h
  have hm' : Moved db.tables db'.tables p s target := by
    rw [hrec]
    exact ⟨hm.before, hm.state, hm.transactions⟩
  have htr : db'.tables.transitions = db.tables.transitions ++ [⟨p, s, target, none, actor⟩] := by rw [hrec, ht]
  exact .moved hm' hedge htr ⟨rfl, rfl, rfl⟩

/-- An update of one payment hits it and moves it, or leaves the payments as they are. -/
theorem update_counted {db : DB} {p n : Nat} {v : Tables} {S : Payment → Bool} {f : Payment → Payment} {target : State}
    (hp : v.payments = (db.tables.updatePayments (fun q => decide (q.id = p) && S q) f).payments)
    (ht : v.transactions = db.tables.transactions) (hid : ∀ q, (f q).id = q.id) (hst : ∀ q, (f q).state = target)
    (hn : n = db.tables.payments.countP fun q => decide (q.id = p) && S q) :
    (n = 1 ∧ ∃ q ∈ db.tables.payments, S q = true ∧ Moved db.tables v p q.state target) ∨
      (n ≠ 1 ∧ v.payments = db.tables.payments) := by
  by_cases hone : n = 1
  · obtain ⟨q, hq, -, hs, hm⟩ := moved_update hp ht hid hst (hn.symm.trans hone)
    exact .inl ⟨hone, q, hq, hs, hm⟩
  · refine .inr ⟨hone, ?_⟩
    rcases update_or_miss hp ht hid hst with ⟨q, hq, hqp, hs, -⟩ | ⟨hsame, -⟩
    · have hpos : 0 < db.tables.payments.countP fun q => decide (q.id = p) && S q :=
        List.countP_pos_iff.2 ⟨q, hq, by simp [hqp, hs]⟩
      have hle := countP_key_le_one db.wf.paymentIds p S
      omega
    · exact hsame

theorem transitionPayment_audits (now : Time) (p : Nat) (source target : State) (actor : String) :
    Txn.Keeps Audits (transitionPayment now p source target actor) := by
  intro db u db' h
  obtain ⟨_, db₀, hv, hrest⟩ := Txn.bind_ok h
  have hedge : Edge source target := by
    unfold validateTransition at hv
    split at hv
    · assumption
    · cases hv
  cases validateTransition_ok hv
  obtain ⟨db₁, hc, ht, hrec⟩ := updateOnePayment_ok hrest
  simp only [Bool.decide_and] at ht hc
  obtain ⟨q, -, -, hs, hm⟩ := moved_update (v := db₁.tables) (congrArg Tables.payments ht) (by rw [ht]; rfl)
    (fun _ => rfl) (fun _ => rfl) hc
  rw [of_decide_eq_true hs] at hm
  exact .recorded hm (by rw [ht]; rfl) hedge hrec

theorem transitionPaymentIn_audits (now : Time) (p : Nat) (source : List State) (target : State) (actor : String)
    (assign : Payment → Payment) (hs : ∀ q, (assign q).state = target) (hf : ∀ q, Advanced q (assign q)) :
    Txn.Keeps Audits (transitionPaymentIn now p source target actor assign) := by
  intro db u db' h
  unfold transitionPaymentIn at h
  split at h
  · exact (Txn.fail_ok (Txn.bind_ok h).choose_spec.choose_spec.1).elim
  rename_i hall
  obtain ⟨previous, db₀, hr, hrest⟩ := Txn.bind_ok h
  obtain ⟨hprev, rfl⟩ := Prod.mk.inj (Txn.read_ok hr)
  obtain ⟨n, db₁, hu, hrest⟩ := Txn.bind_ok hrest
  obtain ⟨hn, ht⟩ := updatePayments_ok hu
  split at hrest
  · simp only [Bool.decide_and] at ht hn
    obtain ⟨q, -, -, hsel, hm⟩ := moved_update (v := db₁.tables) (congrArg Tables.payments ht) (by rw [ht]; rfl)
      (fun q => (hf q).id) hs hn.symm
    cases hm.before.symm.trans hprev
    exact .recorded hm (by rw [ht]; rfl) (List.all_eq_true.1 (not_not.1 hall) _ (of_decide_eq_true hsel)) hrest
  · exact (Txn.fail_ok hrest).elim

/-- A sighting moves the payment from `broadcast` or `replaced` and audits that, or moves nothing. -/
theorem sightPayment_audits (now : Time) (p : Nat) (actor : String) : Txn.Keeps Audits (sightPayment now p actor) := by
  intro db u db' h
  obtain ⟨previous, db₀, hr, hrest⟩ := Txn.bind_ok h
  obtain ⟨hprev, rfl⟩ := Prod.mk.inj (Txn.read_ok hr)
  obtain ⟨n, db₁, hu, hrest⟩ := Txn.bind_ok hrest
  obtain ⟨hn, ht⟩ := updatePayments_ok hu
  simp only [Bool.decide_and] at hn ht
  have hcases := update_counted (v := db₁.tables) (congrArg Tables.payments ht) (by rw [ht]; rfl) (fun _ => rfl)
    (fun _ => rfl) hn
  split at hrest
  · rcases hcases with ⟨-, q, -, hs, hm⟩ | ⟨hne, -⟩
    · cases hm.before.symm.trans hprev
      have hedge : Edge q.state .confirming := by
        have hmem := of_decide_eq_true hs
        revert hmem
        cases q.state <;> decide
      exact .recorded hm (by rw [ht]; rfl) hedge hrest
    · exact absurd rfl hne
  · rename_i hno
    cases Txn.pure_ok hrest
    rcases hcases with ⟨rfl, q, -, -, hm⟩ | ⟨-, hsame⟩
    · exact absurd rfl (hno q.state (hprev.symm.trans hm.before))
    · exact .of_eq hsame (by rw [ht]; rfl)

/-- A first replacement is audited; a further one leaves the payment in `replaced`. -/
theorem supersedePayment_audits (now : Time) (p : Nat) (context actor : String) :
    Txn.Keeps Audits (supersedePayment now p context actor) := by
  intro db u db' h
  obtain ⟨previous, db₀, hr, hrest⟩ := Txn.bind_ok h
  obtain ⟨hprev, rfl⟩ := Prod.mk.inj (Txn.read_ok hr)
  obtain ⟨n, db₁, hu, hrest⟩ := Txn.bind_ok hrest
  obtain ⟨hn, ht⟩ := updatePayments_ok hu
  simp only [Bool.decide_and] at hn ht
  have hcases := update_counted (v := db₁.tables) (congrArg Tables.payments ht) (by rw [ht]; rfl) (fun _ => rfl)
    (fun _ => rfl) hn
  split at hrest
  · rcases hcases with ⟨-, q, -, -, hm⟩ | ⟨hne, -⟩
    · have hq : q.state = .broadcast := Option.some.inj (hm.before.symm.trans hprev)
      rw [hq] at hm
      exact .recorded hm (by rw [ht]; rfl) (by decide) hrest
    · exact absurd rfl hne
  · rename_i s hne _
    cases Txn.pure_ok hrest
    rcases hcases with ⟨-, q, -, hs, hm⟩ | ⟨hne', -⟩
    · -- neither broadcast nor moved from elsewhere: it was replaced already
      have hq : q.state = s := Option.some.inj (hm.before.symm.trans hprev)
      have hrep : q.state = .replaced := by
        have hmem := of_decide_eq_true hs
        simp only [List.mem_cons, List.not_mem_nil, or_false] at hmem
        exact hmem.resolve_left fun hb => hne (hq.symm.trans hb)
      refine .same (fun x => ?_) (by rw [ht]; rfl)
      rw [hm.state]
      split
      · subst_vars
        rw [hm.before, hrep]
      · rfl
    · exact absurd rfl hne'
  · exact (Txn.fail_ok hrest).elim

theorem insertVerified_audits (env : DbEnv) (p : ParsedPayment) : Txn.Keeps Audits (insertVerified env p) := by
  intro db n db' h
  cases insertVerified_ok h with
  | known _ _ _ hdb =>
    subst hdb
    exact .of_eq rfl rfl
  | inserted merchant amount hamount hnew hfree _ ht =>
    -- a payment that was not on record: as good as received
    have hnone : db.tables.payments.find? (fun q => decide (q.id = env.freshId)) = none :=
      List.find?_eq_none.2 fun q hq => by simpa using hfree q hq
    have htr : db'.tables.transitions = db.tables.transitions ++ [⟨env.freshId, .received, .verified, none,
      "http"⟩] := by
      rw [ht]
    intro q
    rw [history_append htr]
    by_cases hq : q = env.freshId
    · subst hq
      refine ⟨[(.received, .verified)], by simp, ?_⟩
      have hbefore : current db.tables env.freshId = .received := by unfold current stateOf; rw [hnone]; rfl
      have hafter : current db'.tables env.freshId = .verified := by
        unfold current stateOf
        rw [ht, List.find?_append, hnone]
        simp [verifiedRow, paymentRow]
      rw [hbefore, hafter]
      exact .single (by decide)
    · refine ⟨[], by simp [Ne.symm hq], ?_⟩
      have hsame : stateOf q db'.tables = stateOf q db.tables := by
        unfold stateOf
        rw [ht, List.find?_append]
        cases db.tables.payments.find? fun x => decide (x.id = q) with
        | some r => rfl
        | none => simp [verifiedRow, paymentRow, Ne.symm hq]
      unfold current
      rw [hsame]
      rfl

/-- Expiry audits each payment it expires. -/
theorem expire_audits (db : DB) (now : Time) (ids : List Nat) : Audits db.tables (db.tables.expire now ids) := by
  let due : Payment → Bool := fun p => p.id ∈ ids ∧ p.state = .verified
  have hstate : ∀ q, stateOf q (db.tables.expire now ids) = (db.tables.payments.find? fun p => decide (p.id = q)).map
      fun p => if due p then .expired else p.state := fun q => by
    rw [expire_eq]
    exact stateOf_updatePayments (w := due) (f := fun p => { p with state := .expired, updatedAt := now }) (fun _ =>
      rfl)
      db.tables q
  have hhistory : ∀ q, history (db.tables.expire now ids) q = history db.tables q ++
      (db.tables.payments.filter fun p => decide (p.id = q) && due p).map fun _ => (.verified, .expired) := fun q => by
    rw [expire_eq, history_append (t := db.tables) rfl, List.filter_map, List.map_map, List.filter_filter]
    rfl
  intro q
  rw [hhistory]
  unfold current
  rw [hstate]
  unfold stateOf
  cases hfind : db.tables.payments.find? fun p => decide (p.id = q) with
  | none =>
    have hnil : (db.tables.payments.filter fun p => decide (p.id = q) && due p) = [] :=
      List.filter_eq_nil_iff.2 fun p hp => by simp [of_decide_eq_false (by simpa using List.find?_eq_none.1 hfind p hp)]
    rw [hnil]
    exact ⟨[], rfl, rfl⟩
  | some p =>
    have hp : p ∈ db.tables.payments := List.mem_of_find?_eq_some hfind
    have hid : p.id = q := by simpa using List.find?_some hfind
    by_cases hdue : due p = true
    · have hone : (db.tables.payments.filter fun p => decide (p.id = q) && due p) = [p] :=
        filter_eq_singleton_of_key db.wf.paymentIds hp (by simp [hid, hdue]) fun y _ hy => by
          rw [of_decide_eq_true (Bool.and_eq_true_iff.1 hy).1, hid]
      rw [hone]
      refine ⟨[(.verified, .expired)], rfl, ?_⟩
      have hs : p.state = .verified := (of_decide_eq_true hdue).2
      simp only [Option.map_some, Option.getD_some, hdue, if_true, hs]
      exact .single (by decide)
    · have hnil : (db.tables.payments.filter fun p => decide (p.id = q) && due p) = [] :=
        List.filter_eq_nil_iff.2 fun y hy hsel => by
          obtain ⟨hy', hd⟩ := Bool.and_eq_true_iff.1 hsel
          rw [eq_of_key db.wf.paymentIds hy hp ((of_decide_eq_true hy').trans hid.symm)] at hd
          exact hdue hd
      rw [hnil]
      refine ⟨[], rfl, ?_⟩
      simp only [Option.map_some, hdue]
      rfl

/-! ## Every method -/

theorem audits_units : Units Audits where
  refl _ := .of_eq rfl rfl
  trans _ _ _ := .trans
  rows _ _ _ _ := .of_eq rfl rfl
  replace _ _ _ _ _ := .of_eq rfl rfl
  attempt _ _ := .of_eq rfl rfl
  transition now p source target actor _ := transitionPayment_audits now p source target actor
  transitionIn := transitionPaymentIn_audits
  sight := sightPayment_audits
  supersede := supersedePayment_audits
  insertVerified := insertVerified_audits
  expire := expire_audits

theorem audits_leaseBlind : LeaseBlind Audits where
  refl _ := .of_eq rfl rfl
  trans _ _ _ := .trans
  lease _ _ hf t := .same (stateOf_updatePayments_keeps (fun p => (hf p).id) (fun p => (hf p).state) t) rfl

theorem Quiet.audits (h : Quiet db db') : Audits db.tables db'.tables := .of_eq h.payments h.transitions

/-- Admission moves the payment it admits and audits that, or moves none. -/
theorem createSettlementIntent_audits (request : IntentRequest) :
    Txn.Keeps Audits (createSettlementIntent env request) := by
  refine .createSettlementIntent (fun _ _ hq => hq.audits) fun db db' _ p _ hr hc => ?_
  have hm : Moved db.tables { db'.tables with transactions := db.tables.transactions } p.id p.state .broadcasting :=
    ⟨hc.moved.before, hc.moved.state, rfl⟩
  have hedge : Edge p.state .broadcasting := by
    rw [(verified_of_not_refused hr).1]
    decide
  have haudits := Audits.moved hm hedge hc.transitions ⟨rfl, rfl, rfl⟩
  exact haudits

theorem run_audits (env : DbEnv) (op : Op) (db : DB) : Audits db.tables (op.run env db).2.tables := by
  refine run_keeps audits_units audits_leaseBlind op createSettlementIntent_audits ?_ ?_ db
  · intro a n _ _ _ h
    obtain ⟨hp, -, ht, -⟩ := seedSignerAccount_quiet h
    exact .of_eq hp ht
  · exact fun _ _ => audits_units.applyRetention fun _ => .same (stateOf_redact _ _ _) rfl

/-- A relation that each step keeps relates the tables after some steps to the tables after more. -/
theorem execute_keeps {R : Tables → Tables → Prop} (hrefl : ∀ t, R t t) (htrans : ∀ a b c, R a b → R b c → R a c)
    (hstep : ∀ (s : StoreStep) db, R db.tables (s.run db).tables) (steps more : List StoreStep) :
    R (execute steps).tables (execute (steps ++ more)).tables := by
  induction more using List.reverseRecOn with
  | nil =>
    rw [List.append_nil]
    exact hrefl _
  | append_singleton more s ih =>
    rw [← List.append_assoc, execute_snoc]
    exact htrans _ _ _ ih (hstep s _)

theorem execute_audits (steps more : List StoreStep) :
    Audits (execute steps).tables (execute (steps ++ more)).tables := by
  refine execute_keeps (fun _ => .of_eq rfl rfl) (fun _ _ _ => .trans) (fun s db => ?_) steps more
  cases s with
  | commit env op => exact run_audits env op db
  | rollback op => exact .of_eq rfl rfl
  | setMerchants merchants => exact .of_eq (db.setMerchants_keeps merchants).1 (db.setMerchants_transitions merchants)

theorem execute_payments (steps more : List StoreStep) :
    PaymentsKept (execute steps).tables (execute (steps ++ more)).tables := by
  refine execute_keeps (fun _ => .of_eq rfl) (fun _ _ _ => .trans) (fun s db => ?_) steps more
  cases s with
  | commit env op => exact run_payments env op db
  | rollback op => exact .of_eq rfl
  | setMerchants merchants => exact .of_eq (db.setMerchants_keeps merchants).1

/-- The states the state machine has no edge out of. -/
def finalStates : List State := [.confirmed, .reverted, .failed, .verificationFailed]

theorem not_edge_of_final {s : State} (h : s ∈ finalStates) (target : State) : ¬ Edge s target := by
  revert h
  cases s <;> cases target <;> decide

theorem edge_expired {target : State} (h : Edge .expired target) : target = .manualReview := by
  revert h
  cases target <;> decide

/-- What the calls that follow add to the audit of a payment starts in its state. -/
theorem execute_walk {steps : List StoreStep} {q : Nat} {s : State} (hs : stateOf q (execute steps).tables = some s)
    (more : List StoreStep) : ∃ w s', stateOf q (execute (steps ++ more)).tables = some s' ∧
      history (execute (steps ++ more)).tables q = history (execute steps).tables q ++ w ∧ Walk Edge s w s' := by
  obtain ⟨p, hp, rfl, rfl⟩ := exists_of_stateOf hs
  -- no payment is deleted
  obtain ⟨p', hp', hkept⟩ := execute_payments steps more p hp
  have hs' : stateOf p.id (execute (steps ++ more)).tables = some p'.state := hkept.id ▸ stateOf_eq_some hp'
  obtain ⟨w, hw, hwalk⟩ := execute_audits steps more p.id
  unfold current at hwalk
  rw [hs, hs'] at hwalk
  exact ⟨w, p'.state, hs', hw, hwalk⟩

/-- After any sequence of store calls, committed or rolled back, with any arguments: the audit rows of every payment, in
the order they were inserted, are a walk along the edges of the state machine from `received` to the state the payment
is in. So whatever calls follow, a payment in a final state stays in it, and one that has expired stays so or is first
moved to manual review. -/
theorem transitions_chain (steps : List StoreStep) :
    (∀ q s, stateOf q (execute steps).tables = some s → Walk Edge .received (history (execute steps).tables q) s) ∧
      (∀ q s more, stateOf q (execute steps).tables = some s → s ∈ finalStates →
        stateOf q (execute (steps ++ more)).tables = some s) ∧
      ∀ q more, stateOf q (execute steps).tables = some .expired →
        stateOf q (execute (steps ++ more)).tables = some .expired ∨
          ∃ rest, history (execute (steps ++ more)).tables q =
          history (execute steps).tables q ++ (.expired, .manualReview) :: rest := by
  refine ⟨fun q s hs => ?_, fun q s more hs hfinal => ?_, fun q more hs => ?_⟩
  · obtain ⟨w, hw, hwalk⟩ := execute_audits [] steps q
    have hcurrent : current (execute ([] ++ steps)).tables q = s := by
      unfold current
      rw [List.nil_append, hs]
      rfl
    rw [hcurrent] at hwalk
    rw [List.nil_append] at hw
    rw [hw]
    exact hwalk
  · obtain ⟨w, s', hs', -, hwalk⟩ := execute_walk hs more
    rw [hs', (hwalk.eq_nil (not_edge_of_final hfinal)).2]
  · obtain ⟨w, s', hs', hw, hwalk⟩ := execute_walk hs more
    cases w with
    | nil =>
      cases hwalk
      exact .inl hs'
    | cons step rest =>
      obtain ⟨source, target⟩ := step
      obtain ⟨rfl, hedge, -⟩ := hwalk
      rw [edge_expired hedge] at hw
      exact .inr ⟨rest, hw⟩

end Eth402.Store
