/-
Runs of any number of calls that record verifications: what holds of the payments in every database, and what each call
returns.
-/
import Eth402.Store.Recording

namespace Eth402.Recording

open Lib Lib.Relational Lib.Relational.Sql Settlement Store Verification

variable {lib : Libraries} {D : Discipline tables} {N : Unit → Int → Db tables → Prop} {p : Nat} {c τ : Int}
  {db db' : Db tables} {w : Work tables} {β : Type}

/-! ## What stays true of the payments -/

/-- The column that holds the token. -/
def usdcColumn : String := padTo 42 (lower mainnetUSDC)

/-- The audit row of the verification of a payment. -/
def Verifies (tr : Transition) (id : Nat) : Prop :=
  tr.paymentId = id ∧ tr.fromState = .received ∧ tr.toState = .verified

/-- The payment is past the state it was inserted in and is a payment of the token, and one that is not redacted has its
authorization. -/
structure Fine (r : Payment) : Prop where
  moved : r.state ≠ .received
  asset : r.asset = usdcColumn
  keyed : r.redactedAt = none → r.authorizationKey.isSome

/-- Every payment is fine, and was verified once. -/
structure Clean (db : Db tables) : Prop where
  fine : ∀ {id r}, db.find .payments id = some r → Fine r
  once : ∀ {id r}, db.find .payments id = some r → ∃ i tr, db.find .transitions i = some tr ∧ Verifies tr id ∧
    ∀ j tr', db.find .transitions j = some tr' → Verifies tr' id → j = i

theorem clean_empty : Clean empty := by
  constructor <;> intro id r h <;> exact absurd h (by simp [Db.find, empty])

namespace Clean

theorem same (h : Clean db) (hp : db.Same .payments db') (ht : db.Same .transitions db') : Clean db' where
  fine hr := h.fine ((hp _).symm.trans hr)
  once hr := by
    obtain ⟨i, tr, htr, hv, hone⟩ := h.once ((hp _).symm.trans hr)
    exact ⟨i, tr, (ht i).trans htr, hv, fun j tr' hj => hone j tr' ((ht j).symm.trans hj)⟩

theorem update (h : Clean db) {id : Nat} {r r' : Payment} (hr : db.find .payments id = some r)
    (hfine : Fine r → Fine r') : Clean (db.put ⟨.payments, id, r'⟩) := by
  have hback : ∀ {i q}, (db.put ⟨.payments, id, r'⟩).find .payments i = some q →
      Fine q ∧ ∃ q₀, db.find .payments i = some q₀ := by
    intro i q hq
    rw [Db.find_put] at hq
    split at hq
    · rename_i hi
      cases hq
      exact ⟨hfine (h.fine hr), r, hi ▸ hr⟩
    · exact ⟨h.fine hq, q, hq⟩
  have hsame : ∀ i, (db.put ⟨.payments, id, r'⟩).find .transitions i = db.find .transitions i := fun i => by simp
  refine ⟨fun hq => (hback hq).1, fun hq => ?_⟩
  obtain ⟨-, q₀, hq₀⟩ := hback hq
  simpa only [hsame] using h.once hq₀

/-- The audit row of another move is added. -/
theorem audit (h : Clean db) {i : Nat} {tr : Transition} (hi : db.find .transitions i = none)
    (hno : tr.fromState ≠ .received) : Clean (db.put ⟨.transitions, i, tr⟩) := by
  have hsame : ∀ id, (db.put ⟨.transitions, i, tr⟩).find .payments id = db.find .payments id := fun id => by simp
  refine ⟨fun hr => h.fine ((hsame _).symm.trans hr), fun {id r} hr => ?_⟩
  obtain ⟨j, tr', htr, hv, hone⟩ := h.once ((hsame id).symm.trans hr)
  have hj : j ≠ i := by
    rintro rfl
    rw [hi] at htr
    cases htr
  refine ⟨j, tr', (Db.find_put_id hj).trans htr, hv, fun k tr'' hk hv' => ?_⟩
  rw [Db.find_put] at hk
  split at hk
  · cases hk
    exact absurd hv'.2.1 hno
  · exact hone k tr'' hk hv'

/-- A payment is added together with the audit row of its verification. -/
theorem enter (h : Clean db) (hsound : db.Sound) {id i : Nat} {row : Payment} {tr : Transition}
    (hid : db.find .payments id = none) (hp : db.Sets .payments id row db') (ht : db.Sets .transitions i tr db')
    (hi : db.find .transitions i = none) (hv : Verifies tr id) (hfine : Fine row) : Clean db' := by
  -- a payment that is not on record has no audit rows
  have hnone : ∀ j tr', db.find .transitions j = some tr' → ¬ Verifies tr' id := by
    intro j tr' hj hv'
    have := hsound.parents hj (.payments, tr'.paymentId) (List.mem_singleton_self _)
    rw [show db.find .payments tr'.paymentId = none from hv'.1 ▸ hid] at this
    cases this
  refine ⟨fun hr => ?_, fun {k r} hr => ?_⟩
  · rcases hp.cases hr with ⟨-, rfl⟩ | ⟨-, hr⟩
    · exact hfine
    · exact h.fine hr
  · rcases hp.cases hr with ⟨rfl, -⟩ | ⟨hk, hr⟩
    · refine ⟨i, tr, ht.at, hv, fun j tr' hj hv' => ?_⟩
      rcases ht.cases hj with ⟨rfl, -⟩ | ⟨-, hj⟩
      · rfl
      · exact absurd hv' (hnone j tr' hj)
    · obtain ⟨j, tr', hj, hv', hone⟩ := h.once hr
      have hne : j ≠ i := by
        rintro rfl
        rw [hi] at hj
        cases hj
      refine ⟨j, tr', (ht j).trans ((if_neg hne).trans hj), hv', fun j' tr'' hj' hv'' => ?_⟩
      rcases ht.cases hj' with ⟨-, rfl⟩ | ⟨-, hj'⟩
      · exact absurd (hv''.1.symm.trans hv.1) hk
      · exact hone j' tr'' hj' hv''

end Clean

/-! ## What commits do -/

/-- The payment of the attempt is added under a new number. -/
def Adds (payment : ParsedPayment) (db db' : Db tables) : Prop :=
  ∃ id row, db.find .payments id = none ∧ row.paymentIdentity = padTo 68 payment.identity ∧
    db.Sets .payments id row db'

/-- A row of the payment's identity is on record. -/
def Present (payment : ParsedPayment) (db : Db tables) : Prop :=
  ∃ id row, db.find .payments id = some row ∧ row.paymentIdentity = padTo 68 payment.identity

theorem Adds.present {payment : ParsedPayment} (h : Adds payment db db') : Present payment db' := by
  obtain ⟨id, row, -, hid, hsets⟩ := h
  exact ⟨id, row, hsets.at, hid⟩

theorem Present.moves {payment : ParsedPayment} (h : Present payment db) (hm : db.Moves db') : Present payment db' := by
  obtain ⟨id, row, hrow, hid⟩ := h
  obtain ⟨row', hrow', hkept⟩ := hm .payments id row hrow
  have hkept : Kept row row' := hkept
  exact ⟨id, row', hrow', hkept.identity.trans hid⟩

/-- What a commit of the operation does to the payments. -/
def Touches (db db' : Db tables) : Op → Prop
  | .record attempt =>
    (∀ payment, attempt.result = "verified" → attempt.payment = some payment → Present payment db') ∧
      (db.Same .payments db' ∨ ∃ payment, attempt.payment = some payment ∧ Adds payment db db')
  | .recordConflict => db.Same .payments db'
  | _ => True

def spec (lib : Libraries) : Spec (service lib) where
  note _ _ _ := True
  post _ op _ db w := (db.Sound → Clean db → Clean (db.puts w.puts)) ∧ Touches db (db.puts w.puts) op

/-- Any error is allowed. -/
def Free : Reply → Prop := fun _ => True

theorem ok_insertRow {t : Table} {r : Row t} {f : Nat → Body β} {E : Reply → Prop} {Q : β → Int → Work tables → Prop}
    (herr : E (.failed "23505"))
    (h : ∀ id, (db.puts w.puts).find t id = none → Ok D N p c db τ (w.insert t id r) (f id) E Q) :
    Ok D N p c db τ w (insertRow t r >>= f) E Q :=
  ok_bind (ok_insert (fun id hid _ _ _ => h id hid) fun _ _ _ _ _ => herr)

/-- A row of another identity holds the entry of the payment's authorization. -/
def Blocked (payment : ParsedPayment) (db : Db tables) : Prop :=
  ∃ id q, db.find .payments id = some q ∧ q.paymentIdentity ≠ padTo 68 payment.identity ∧
    q.authorizationKey = some ("eip155:1", padTo 42 payment.asset, padTo 42 payment.payer, padTo 66 payment.nonce)

/-- The caller was shown a database in which the payment of the attempt was blocked. -/
def Conflicts (D : Discipline tables) (p : Nat) (attempt : Attempt) : Prop :=
  ∃ payment db, attempt.payment = some payment ∧ db.Sound ∧ D.Shown p db ∧ Blocked payment db

/-- How the transaction of an attempt gives up. -/
def GivesUp (D : Discipline tables) (p : Nat) (attempt : Attempt) : Reply → Prop
  | .failed _ => True
  | .duplicate => Conflicts D p attempt
  | _ => False

theorem mem_slots_authorization {q : Payment} {key : String × String × String × String} :
    Slot.authorization key ∈ slots .payments q ↔ q.authorizationKey = some key := by
  cases h : q.authorizationKey <;> simp [slots, h, eq_comm]

/-- The index entry that the insert met is the authorization's, and the identity's was free. -/
theorem blocked_of_refused {env : DbEnv} {merchant : Option Nat} {payment : ParsedPayment} {amount : Int}
    {key : String × String × String × String}
    (h : Refused db .payments (paymentRow env merchant payment amount) (.authorization key)) : Blocked payment db := by
  obtain ⟨hheld, front, back, hslots, hfront⟩ := h
  cases front with
  | nil => cases hslots
  | cons first front =>
    obtain ⟨rfl, hrest⟩ := List.cons.inj hslots
    obtain ⟨id, q, hq, hkey⟩ := Db.holds_iff.1 hheld
    refine ⟨id, q, hq, fun hid => ?_, ?_⟩
    · have hfree := hfront _ List.mem_cons_self
      refine absurd (Db.holds_iff.2 ⟨id, q, hq, ?_⟩) (Bool.eq_false_iff.1 hfree)
      change Slot.identity (padTo 68 payment.identity) ∈ slots .payments q
      rw [← hid]
      exact List.mem_cons_self
    · have hmine : Slot.authorization key ∈ slots .payments (paymentRow env merchant payment amount) := by
        change _ ∈ tables.slots .payments _
        rw [hslots]
        exact List.mem_append_right _ List.mem_cons_self
      rw [mem_slots_authorization] at hmine
      exact (mem_slots_authorization.1 hkey).trans hmine.symm

/-- The payment and the audit row of its verification are written, and nothing else. -/
def Entered (payment : ParsedPayment) (db : Db tables) (puts : List (Put tables)) (id : Nat) : Prop :=
  ∃ i row₀ row, puts = [⟨.payments, id, row₀⟩, ⟨.payments, id, row⟩,
      ⟨.transitions, i, ⟨id, .received, .verified, none, "http"⟩⟩] ∧
    db.find .payments id = none ∧ db.find .transitions i = none ∧
    row.paymentIdentity = padTo 68 payment.identity ∧ row.state = .verified ∧ row.asset = padTo 42 payment.asset ∧
    row.authorizationKey.isSome

theorem present_of_select {payment : ParsedPayment} {n : Nat}
    (h : n ∈ ((paymentsOf db).filter fun q => q.paymentIdentity = padTo 68 payment.identity).map (·.id)) :
    Present payment db := by
  obtain ⟨q, hq, -⟩ := List.mem_map.1 h
  obtain ⟨hq, hid⟩ := List.mem_filter.1 hq
  obtain ⟨e, he, rfl⟩ := List.mem_map.1 hq
  exact ⟨e.1, e.2, AList.mem_lookup_iff.2 he, of_decide_eq_true hid⟩

theorem ok_recordPayment {now : Time} {attempt : Attempt} {payment : ParsedPayment}
    (hp : attempt.payment = some payment) :
    Ok D N p c db τ {} (recordPayment lib now payment) (GivesUp D p attempt) fun n _ w =>
      (w.puts = [] ∧ Present payment db) ∨ Entered payment db w.puts n := by
  unfold recordPayment
  refine ok_hold ?_
  split
  · exact trivial
  · refine ok_query fun τ₁ db₁ _ _ _ => ok_insert (fun n hn _ _ _ => ?_) fun slot db₂ hs hshown hrefused => ?_
    · -- the row it inserted is its own, so that the update finds it as it was inserted
      refine ok_update_held rfl (Locks.writes_inserted _ _ _ _) (by simp [Work.insert, Work.lock]; rfl) rfl fun _ => ?_
      refine ok_insertRow trivial fun i hi => ok_pure (.inr ⟨i, _, _, rfl, hn, ?_, rfl, rfl, rfl, rfl⟩)
      simpa [Work.insert, Work.update, Work.lock] using hi
    · rcases slot with identity | key
      · refine ok_query fun τ₃ db₃ _ _ hrely => ?_
        split
        · rename_i n ids hids
          refine ok_pure (.inl ⟨rfl, .moves ?_ hrely.moves⟩)
          have hn : n ∈ n :: ids := List.mem_cons_self
          rw [← hids] at hn
          exact present_of_select hn
        · exact trivial
      · exact ⟨payment, db₂, hp, hs, hshown, blocked_of_refused hrefused⟩

theorem Entered.adds {payment : ParsedPayment} {puts : List (Put tables)} {id j : Nat} {a : VerificationAttempt}
    (h : Entered payment db puts id) : Adds payment db (db.puts (puts ++ [⟨.attempts, j, a⟩])) := by
  obtain ⟨i, row₀, row, rfl, hid, hi, hidentity, -⟩ := h
  refine ⟨id, row, hid, hidentity, fun k => ?_⟩
  by_cases hk : k = id <;> simp [hk]

theorem Entered.clean {payment : ParsedPayment} {puts : List (Put tables)} {id j : Nat} {a : VerificationAttempt}
    (h : Entered payment db puts id) (hasset : payment.asset = lower mainnetUSDC) (hsound : db.Sound) (hc : Clean db) :
    Clean (db.puts (puts ++ [⟨.attempts, j, a⟩])) := by
  obtain ⟨i, row₀, row, rfl, hid, hi, hidentity, hstate, hcol, hkey⟩ := h
  have hv : Verifies ⟨id, .received, .verified, none, "http"⟩ id := ⟨rfl, rfl, rfl⟩
  refine hc.enter hsound hid (fun k => ?_) (fun k => ?_) hi hv ⟨by rw [hstate]; decide, by rw [hcol, hasset]; rfl,
    fun _ => hkey⟩
  · by_cases hk : k = id <;> simp [hk]
  · simp [Db.find_put]

theorem ok_attempt {r : VerificationAttempt} {E : Reply → Prop} {Q : Reply → Int → Work tables → Prop}
    (herr : E (.failed "23505")) (h : ∀ j, Q .done τ (w.insert .attempts j r)) :
    Ok D N p c db τ w (insertRow .attempts r >>= fun _ => pure .done : Body Reply) E Q :=
  ok_insertRow herr fun j _ => ok_pure (h j)

theorem ok_recordVerification {attempt : Attempt}
    (hasset : ∀ payment, attempt.payment = some payment → payment.asset = lower mainnetUSDC) :
    Ok D N p c db τ {} (recordVerification lib attempt) (GivesUp D p attempt) fun r _ w =>
      r = .done ∧ (spec lib).post p (.record attempt) c db w := by
  -- only the attempt is written
  have alone : ∀ {j : Nat} {a : VerificationAttempt} {w : Work tables}, w.puts = [] →
      (∀ payment, attempt.result = "verified" → attempt.payment = some payment → Present payment db) →
      Reply.done = .done ∧ (spec lib).post p (.record attempt) c db (w.insert .attempts j a) := by
    intro j a w hw hpresent
    have hputs : (w.insert .attempts j a).puts = [⟨.attempts, j, a⟩] := congrArg (· ++ _) hw
    have hsame : db.Same .payments (db.puts [⟨.attempts, j, a⟩]) := fun k => by simp
    refine ⟨rfl, fun _ hc => ?_, fun payment hr hp => ?_, .inl ?_⟩ <;> rw [hputs]
    · exact hc.same hsame fun k => by simp
    · obtain ⟨id, row, hrow, hid⟩ := hpresent payment hr hp
      exact ⟨id, row, (hsame id).trans hrow, hid⟩
    · exact hsame
  unfold recordVerification
  refine ok_now fun t _ _ => ?_
  split
  · split
    · exact trivial
    · rename_i payment hpayment
      refine ok_bind (ok_mono (ok_recordPayment hpayment) (fun _ h => h) fun n τ' w hw => ok_attempt trivial fun j =>
        ?_)
      rcases hw with ⟨hw, hpresent⟩ | hw
      · refine alone hw fun payment' _ hp => ?_
        obtain rfl := Option.some.inj (hpayment.symm.trans hp)
        exact hpresent
      · refine ⟨rfl, hw.clean (hasset payment hpayment), fun payment' _ hp => ?_, .inr ⟨payment, hpayment, hw.adds⟩⟩
        obtain rfl := Option.some.inj (hpayment.symm.trans hp)
        exact hw.adds.present
  · rename_i hresult
    exact ok_attempt trivial fun j => alone rfl fun _ hr => absurd hr hresult

theorem ok_recordConflict {identity : String} :
    Ok D N p c db τ {} (recordConflict lib identity) (fun r => ∃ code, r = .failed code) fun r _ w =>
      r = .done ∧ (spec lib).post p .recordConflict c db w := by
  refine ok_attempt ⟨_, rfl⟩ fun j => ⟨rfl, fun _ hc => ?_, fun k => ?_⟩
  · exact hc.same (fun k => by simp [Work.insert]) fun k => by simp [Work.insert]
  · simp [Work.insert]

/-- The payments stay clean through the work so far. -/
def Keeps (db : Db tables) (w : Work tables) : Prop := Clean db → Clean (db.puts w.puts)

theorem Keeps.move (h : Keeps db w) {id i : Nat} {r r' : Payment} {tr : Transition}
    (hr : (db.puts w.puts).find .payments id = some r) (hfine : Fine r → Fine r')
    (hi : (db.puts (w.update .payments id r').puts).find .transitions i = none) (hno : tr.fromState ≠ .received) :
    Keeps db ((w.update .payments id r').insert .transitions i tr) := by
  intro hc
  have hc' := (h hc).update hr hfine
  simp only [Work.update, Work.insert, Db.puts_append] at hi ⊢
  exact hc'.audit hi hno

theorem ok_expireEach (now : Time) : ∀ (n : Nat) (ids : List Nat) {τ : Int} {w : Work tables}, Keeps db w →
    Ok D N p c db τ w (expireEach now n ids) Free fun _ _ w => Keeps db w
  | _, [], _, _, h => by unfold expireEach; exact h
  | 0, _ :: _, _, _, h => h
  | n + 1, id :: ids, τ, w, h => by
    refine ok_update (fun r hr hcond _ => ok_insertRow trivial fun i hi => ?_) fun τ' db₀ _ _ _ _ => ?_
    · exact ok_expireEach now n ids (h.move hr (fun hfine => ⟨nofun, hfine.asset, hfine.keyed⟩) hi nofun)
    · exact ok_expireEach now (n + 1) ids h

theorem ok_redactEach (now cutoff : Time) : ∀ (n : Nat) (ids : List Nat) {τ : Int} {w : Work tables}, Keeps db w →
    Ok D N p c db τ w (redactEach now cutoff n ids) Free fun _ _ w => Keeps db w
  | _, [], _, _, h => by unfold redactEach; exact h
  | 0, _ :: _, _, _, h => h
  | n + 1, id :: ids, τ, w, h => by
    refine ok_flip fun b => ?_
    split
    · refine ok_update (fun r hr hcond _ => ?_) fun τ' db₀ _ _ _ _ => ?_
      · refine ok_redactEach now cutoff n ids fun hc => ?_
        simp only [Work.update, Db.puts_append]
        exact (h hc).update hr fun hfine => ⟨hfine.moved, hfine.asset, nofun⟩
      · exact ok_redactEach now cutoff (n + 1) ids h
    · exact ok_redactEach now cutoff (n + 1) ids h

theorem ok_applyRetention {request : RetentionRequest} :
    Ok D N p c db τ {} (applyRetention request) Free fun _ _ w => (spec lib).post p .retain c db w := by
  unfold applyRetention
  split
  · exact trivial
  · refine ok_query fun τ₁ db₁ _ _ _ => ?_
    refine ok_bind (ok_mono (ok_expireEach _ _ _ fun hc => hc) (fun _ h => h) fun _ τ₂ w hw => ?_)
    refine ok_query fun τ₃ db₃ _ _ _ => ?_
    refine ok_bind (ok_mono (ok_redactEach _ _ _ _ hw) (fun _ h => h) fun _ τ₄ w hw => ok_pure ⟨fun _ => hw, trivial⟩)

theorem not_edge_received (s : State) : canTransition s .received ≠ true := by cases s <;> decide

theorem ok_movePayment {id : Nat} {m : Motion} :
    Ok D N p c db τ {} (movePayment id m) Free fun _ _ w => (spec lib).post p .movePayment c db w := by
  refine ok_update (fun r hr hcond _ => ?_) fun τ' db₀ _ _ _ _ => trivial
  dsimp only
  have hsource : r.state = m.source := of_decide_eq_true hcond
  have hfine : Fine r → Fine (m.change r) := by
    intro h
    refine ⟨?_, (m.asset r).trans h.asset, fun hlive => m.key r ▸ h.keyed ((m.redactedAt r).symm.trans hlive)⟩
    rw [m.state]
    rcases m.edge with he | he
    · exact he ▸ hsource ▸ h.moved
    · rintro ht
      exact not_edge_received m.source (ht ▸ he)
  split
  · exact ok_pure ⟨fun _ hc => hc.update hr hfine, trivial⟩
  · refine ok_insertRow trivial fun i hi => ok_pure ⟨fun _ hc => ?_, trivial⟩
    have hkeep : Keeps db {} := fun hc => hc
    exact hkeep.move hr hfine hi (hsource ▸ (hc.fine hr).moved) hc

theorem ok_addMerchant {m : Merchant} :
    Ok D N p c db τ {} (addMerchant m) Free fun _ _ w => (spec lib).post p .merchants c db w :=
  ok_insertRow trivial fun id _ => ok_pure
    ⟨fun _ hc => hc.same (fun k => by simp [Work.insert]) fun k => by simp [Work.insert], trivial⟩

theorem ok_setMerchant {id : Nat} {m : Merchant} :
    Ok D N p c db τ {} (setMerchant id m) Free fun _ _ w => (spec lib).post p .merchants c db w :=
  ok_update (fun r _ _ _ => ok_pure
    ⟨fun _ hc => hc.same (fun k => by simp [Work.update]) fun k => by simp [Work.update], trivial⟩)
    fun _ _ _ _ _ _ => ok_pure ⟨fun _ hc => hc, trivial⟩

/-! ## The calls -/

section Returns

variable {attempt : Attempt} {past : List (Commit (service lib))}

/-- Nothing was committed that the caller knows of. -/
def Untold (attempt : Attempt) (past : List (Commit (service lib))) : Prop :=
  ∀ c ∈ past, c.told = false ∧ (c.op = .record attempt ∨ c.op = .recordConflict)

/-- How an attempt returns. -/
def Returns (D : Discipline tables) (p : Nat) (attempt : Attempt) (past : List (Commit (service lib))) : Reply → Prop
  | .done => ∃ c ∈ past, c.op = .record attempt
  | .conflict => Conflicts D p attempt
  | .failed _ => Untold attempt past
  | .duplicate | .fault => False

theorem Untold.snoc (h : Untold attempt past) {op : Op} {c : Int} {w : Work tables}
    (hop : op = .record attempt ∨ op = .recordConflict) : Untold attempt (past ++ [⟨p, op, c, db, w, false⟩]) := by
  intro c hc
  rcases List.mem_append.1 hc with hc | hc
  · exact h c hc
  · rw [List.mem_singleton.1 hc]
    exact ⟨rfl, hop⟩

/-- The insert after the rollback: the caller returns the conflict it met, or the error of the insert. -/
theorem ends_recordConflict (h : Untold attempt past) (hconflict : Conflicts D p attempt) {identity : String} :
    Ends D (spec lib) p (Returns D p attempt) past (do
      match ← transact .recordConflict (recordConflict lib identity) with
      | .done => pure .conflict
      | .fault => failure
      | r => pure r : Call) := by
  refine ends_bind (V := service lib) ⟨fun _ => h, fun τ c db _ => ok_mono ok_recordConflict (fun r hr => ?_) ?_⟩
  · obtain ⟨code, rfl⟩ := hr
    exact h
  · rintro r τ' w ⟨rfl, hpost⟩
    refine ⟨hpost, fun told => ?_⟩
    cases told with
    | true => exact hconflict
    | false => exact fun _ => h.snoc (.inr rfl)

theorem ends_recordOnce (hasset : ∀ payment, attempt.payment = some payment → payment.asset = lower mainnetUSDC)
    (h : Untold attempt past) : Ends D (spec lib) p (Returns D p attempt) past (recordOnce lib attempt) := by
  refine ends_bind (V := service lib) ⟨fun _ => h, fun τ c db _ => ok_mono (ok_recordVerification hasset)
    (fun r hr => ?_) ?_⟩
  · cases r with
    | failed code => exact h
    | duplicate => exact ends_recordConflict h hr
    | done | conflict | fault => exact hr.elim
  · rintro r τ' w ⟨rfl, hpost⟩
    refine ⟨hpost, fun told => ?_⟩
    cases told with
    | true => exact ⟨_, List.mem_concat_self, rfl⟩
    | false => exact fun _ => h.snoc (.inl rfl)

theorem ends_recordLoop (hasset : ∀ payment, attempt.payment = some payment → payment.asset = lower mainnetUSDC) :
    ∀ (left : Nat) (last : Reply) (past : List (Commit (service lib))), Untold attempt past →
      (left = 0 → Returns D p attempt past last) →
      Ends D (spec lib) p (Returns D p attempt) past (recordLoop lib attempt left last)
  | 0, _, _, _, hlast => hlast rfl
  | left + 1, _, past, h, _ => by
    refine ends_bind (V := service lib) (ends_mono (fun past' r hr => ?_) (ends_recordOnce hasset h))
    cases r with
    | failed code =>
      simp only
      split
      · exact ends_recordLoop hasset left _ past' hr fun _ => hr
      · exact hr
    | done | conflict | duplicate | fault => exact hr

theorem ends_transact {op : Op} {body : Body Reply} {Q : List (Commit (service lib)) → Reply → Prop}
    (hbody : ∀ τ c db, Ok D (spec lib).note p c db τ {} body Free fun _ _ w => (spec lib).post p op c db w)
    (hq : ∀ past r, Q past r) : Ends D (spec lib) p Q past (transact op body) :=
  ⟨hq _ _, fun τ c db _ => ok_mono (hbody τ c db) (fun _ _ => hq _ _) fun _ _ _ hp => ⟨hp, fun _ => hq _ _⟩⟩

theorem asset_of_parse {request : Request} {payment : ParsedPayment} (h : parseRequest lib request = .ok payment) :
    payment.asset = lower mainnetUSDC := by
  obtain ⟨e, value, after, before, hacc⟩ := accepted_of_parse h
  rw [(paymentOf_ok hacc.payment).1, hacc.asset]

/-- Of the other entries nothing is said. -/
def EntryReturns (D : Discipline tables) (p : Nat) : Entry lib → List (Commit (service lib)) → Reply → Prop
  | .verified _ payment _, past, r => Returns D p (verifiedAttempt payment) past r
  | _, _, _ => True

theorem ends_code (e : Entry lib) : Ends D (spec lib) p (EntryReturns D p e) [] ((service lib).code e) := by
  cases e with
  | verified request payment parsed =>
    refine ends_recordLoop (fun payment' hp => ?_) maxAttempts .done [] (fun _ hc => by cases hc) nofun
    obtain rfl := Option.some.inj hp
    exact asset_of_parse parsed
  | failed identity reason =>
    exact ends_mono (Q := Returns D p (failedAttempt identity reason)) (fun _ _ _ => trivial)
      (ends_recordLoop (fun _ hp => by cases hp) maxAttempts .done [] (fun _ hc => by cases hc) nofun)
  | retention request => exact ends_transact (fun _ _ _ => ok_applyRetention) fun _ _ => trivial
  | movePayment id m => exact ends_transact (fun _ _ _ => ok_movePayment) fun _ _ => trivial
  | addMerchant m => exact ends_transact (fun _ _ _ => ok_addMerchant) fun _ _ => trivial
  | setMerchant id m => exact ends_transact (fun _ _ _ => ok_setMerchant) fun _ _ => trivial

end Returns

/-! ## Runs -/

/-- The row is not redacted, is of another identity, and holds the authorization of the payment. -/
structure Rival (payment : ParsedPayment) (q : Payment) : Prop where
  live : q.redactedAt = none
  identity : q.paymentIdentity ≠ padTo 68 payment.identity
  payer : q.payerAddress = some (padTo 42 payment.payer)
  nonce : q.authorizationNonce = some (padTo 66 payment.nonce)

theorem authorizationKey_eq {q : Payment} {key : String × String × String × String}
    (h : q.authorizationKey = some key) :
    q.payerAddress = some key.2.2.1 ∧ q.authorizationNonce = some key.2.2.2 := by
  unfold Payment.authorizationKey at h
  split at h
  · rename_i payer nonce hpayer hnonce
    cases h
    exact ⟨hpayer, hnonce⟩
  · cases h

theorem live_of_payer {q : Payment} (hcheck : check .payments q = true) (hpayer : q.payerAddress.isSome) :
    q.redactedAt = none := by
  simp only [check, Payment.check, Payment.redactionComplete, Bool.and_eq_true, decide_eq_true_eq] at hcheck
  rcases hcheck.2.2.2.2.2.2.2.2.2.2 with hlive | ⟨-, hnone, -⟩
  · simpa using hlive
  · rw [Option.isNone_iff_eq_none.1 hnone] at hpayer
    cases hpayer

theorem Blocked.rival {payment : ParsedPayment} (h : Blocked payment db) (hsound : db.Sound) :
    ∃ id q, db.find .payments id = some q ∧ Rival payment q := by
  obtain ⟨id, q, hq, hidentity, hkey⟩ := h
  obtain ⟨hpayer, hnonce⟩ := authorizationKey_eq hkey
  exact ⟨id, q, hq, live_of_payer (hsound.checked hq) (by rw [hpayer]; rfl), hidentity, hpayer, hnonce⟩

abbrev Run (lib : Libraries) := List (Choice (service lib))

/-- How a verified attempt ended: on record; in conflict with a row it met; or failed, without a commit that touched a
payment, or with one whose acknowledgement was lost and that added the row of the attempt. -/
inductive Outcome (chs : Run lib) (s : World (service lib)) (p : Nat) (payment : ParsedPayment) : Reply → Prop
  | present (h : Present payment s.db) : Outcome chs s p payment .done
  | conflict (db : Db tables) (hmet : Met (.init (service lib) empty) chs p db) (id : Nat) (q : Payment)
      (hq : db.find .payments id = some q) (hrival : Rival payment q) : Outcome chs s p payment .conflict
  | failed (code : String) (h : ∀ c ∈ s.log, c.caller = p →
      c.before.Same .payments c.after ∨ (.finish p .lost ∈ chs ∧ Adds payment c.before c.after)) :
      Outcome chs s p payment (.failed code)

section Runs

variable {chs : Run lib} {s : World (service lib)}

theorem run_inv (h : (World.init (service lib) empty).run chs = some s) :
    Inv (.any tables) (spec lib) (fun e => (spec lib).post e.caller e.op e.clock e.before e.work) empty s :=
  Inv.run_any empty_sound (fun _ e => safe_of_ends (ends_code e)) h

theorem run_clean (h : (World.init (service lib) empty).run chs = some s) : Clean s.db :=
  (run_inv h).history.inv (fun _ db => Clean db) clean_empty fun _ _ hsound _ hpost hc => hpost.1 hsound hc

theorem outcome_of_returned (h : (World.init (service lib) empty).run chs = some s) {p : Nat} {request : Request}
    {payment : ParsedPayment} {parsed : parseRequest lib request = .ok payment} {r : Reply}
    (hstart : .start p (.verified request payment parsed) ∈ chs)
    (hback : s.callers.lookup p = some (.idle (.pure r))) (hr : r ≠ .fault) : Outcome chs s p payment r := by
  have htraced := Traced.run empty_sound h fun p e => ends_code e
  have hreturns : Returns (.tracing (.init (service lib) empty) chs) p (verifiedAttempt payment) (s.by p) r :=
    (htraced.callers p _ _ hstart hback).resolve_left fun he => by cases he; exact hr rfl
  have hhistory := (run_inv h).history
  cases r with
  | done =>
    obtain ⟨c, hc, hop⟩ := hreturns
    obtain ⟨hpost, -, -, hmoves⟩ := hhistory.mem (List.mem_of_mem_filter hc)
    have htouches := hpost.2
    rw [hop] at htouches
    exact .present ((htouches.1 payment rfl rfl).moves hmoves)
  | conflict =>
    obtain ⟨payment', db, hpayment, hsound, hmet, hblocked⟩ := hreturns
    obtain rfl := Option.some.inj hpayment
    obtain ⟨id, q, hq, hrival⟩ := hblocked.rival hsound
    exact .conflict db hmet id q hq hrival
  | failed code =>
    refine .failed code fun c hc hp => ?_
    obtain ⟨htold, hop⟩ := hreturns c (List.mem_filter.2 ⟨hc, decide_eq_true hp⟩)
    have htouches := (hhistory.mem hc).1.2
    rcases hop with hop | hop <;> rw [hop] at htouches
    · rcases htouches.2 with hsame | ⟨payment', hpayment, hadds⟩
      · exact .inl hsame
      · obtain rfl := Option.some.inj hpayment
        exact .inr ⟨hp ▸ htraced.untold c hc htold, hadds⟩
    · exact .inl htouches
  | duplicate | fault => exact hreturns.elim

/-- Rows that are not redacted and have the payer and the nonce in common are one row. -/
theorem authorization_unique (hsound : db.Sound) (hc : Clean db) {id id' : Nat} {q q' : Payment}
    (hq : db.find .payments id = some q) (hq' : db.find .payments id' = some q') (hlive : q.redactedAt = none)
    (hpayer : q.payerAddress = q'.payerAddress) (hnonce : q.authorizationNonce = q'.authorizationNonce) : id = id' := by
  have hnetwork : ∀ {id q}, db.find .payments id = some q → q.network = "eip155:1" := by
    intro id q hq
    have hcheck : check .payments q = true := hsound.checked hq
    simp only [check, Payment.check, Bool.and_eq_true, decide_eq_true_eq] at hcheck
    exact hcheck.2.1
  obtain ⟨key, hkey⟩ := Option.isSome_iff_exists.1 ((hc.fine hq).keyed hlive)
  have hkey' : q'.authorizationKey = some key := by
    rw [← hkey]
    unfold Payment.authorizationKey
    rw [hpayer, hnonce, hnetwork hq, hnetwork hq', (hc.fine hq).asset, (hc.fine hq').asset]
  exact hsound.unique hq hq' (mem_slots_authorization.2 hkey) (mem_slots_authorization.2 hkey')

/-- In every interleaving of the statements of `RecordVerification` with each other, with retention and with the rest of
the service: a payment identity has one row and one transition from received to verified, no row is in the state it was
inserted in, no two rows that are not redacted have the same payer and nonce, and a verified attempt that has returned
is on record, or was in conflict with a row of another identity, or failed and has changed no payment, unless it was not
told of the commit that added its own. -/
theorem verifications_converge (lib : Libraries) {chs : Run lib} {s : World (service lib)}
    (h : (World.init (service lib) empty).run chs = some s) :
    (∀ id id' q q', s.db.find .payments id = some q → s.db.find .payments id' = some q' →
      q.paymentIdentity = q'.paymentIdentity → id = id') ∧
    (∀ id q, s.db.find .payments id = some q → q.state ≠ .received ∧
      ∃! i, ∃ tr, s.db.find .transitions i = some tr ∧ Verifies tr id) ∧
    (∀ id id' q q', s.db.find .payments id = some q → s.db.find .payments id' = some q' → q.redactedAt = none →
      q'.redactedAt = none → q.payerAddress = q'.payerAddress → q.authorizationNonce = q'.authorizationNonce →
        id = id') ∧
    -- a process that crashed is left with a fault: it has returned nothing
    ∀ p request payment parsed r, .start p (.verified request payment parsed) ∈ chs →
      s.callers.lookup p = some (.idle (.pure r)) → r ≠ .fault → Outcome chs s p payment r := by
  have hsound := (run_inv h).sound
  have hclean := run_clean h
  refine ⟨fun id id' q q' hq hq' hid => ?_, fun id q hq => ⟨(hclean.fine hq).moved, ?_⟩,
    fun id id' q q' hq hq' hlive _ => authorization_unique hsound hclean hq hq' hlive,
    fun p request payment parsed r => outcome_of_returned h⟩
  · have hslot : Slot.identity q.paymentIdentity ∈ slots .payments q := List.mem_cons_self
    exact hsound.unique hq hq' hslot (hid ▸ List.mem_cons_self)
  · obtain ⟨i, tr, htr, hv, hone⟩ := hclean.once hq
    refine ⟨i, ⟨tr, htr, hv⟩, ?_⟩
    rintro j ⟨tr', htr', hv'⟩
    exact hone j tr' htr' hv'

end Runs

/-! ### Runs of four callers -/

def samplePayment (nonce signature : Char) : ParsedPayment :=
  ⟨"pay_" ++ hexEncode [UInt8.ofNat signature.toNat], lower mainnetUSDC, samplePayer, sampleMerchant, "7",
    hexText 64 nonce, 0, 1000000, "", hexText 128 signature ++ "1b"⟩

theorem parse_aa : parseRequest sampleLib (sampleRequestOf 'a' 'a') = .ok (samplePayment 'a' 'a') := by
  decide +kernel

theorem parse_ab : parseRequest sampleLib (sampleRequestOf 'a' 'b') = .ok (samplePayment 'a' 'b') := by
  decide +kernel

def steps (p n : Nat) (inp : Input) : Run sampleLib := List.replicate n (.go p inp)

/-- The statements of the first attempt on a payment, which gets the number `id`. -/
def firstAttempt (p id : Nat) : Run sampleLib :=
  .start p (.verified _ _ parse_aa) :: steps p 8 { id := id }

/-- The reply of a caller that has returned. -/
def replyOf (s : World (service sampleLib)) (p : Nat) : Option Reply :=
  match s.callers.lookup p with
  | some (.idle (.pure r)) => some r
  | _ => none

theorem replyOf_some {s : World (service sampleLib)} {p : Nat} {r : Reply} (h : replyOf s p = some r) :
    s.callers.lookup p = some (.idle (.pure r)) := by
  unfold replyOf at h
  split at h
  · rename_i hl
    rw [hl, Option.some.inj h]
  · cases h

/-- Two callers attempt one payment and a third one a payment with the same nonce. All have begun before the first one
commits; retention then expires the payment. -/
def sampleRecording : Run sampleLib :=
  firstAttempt 1 10 ++ .start 2 (.verified _ _ parse_aa) :: steps 2 2 {} ++
    .start 3 (.verified _ _ parse_ab) :: steps 3 2 {} ++ [.finish 1 .made] ++
    steps 2 5 { id := 12 } ++ [.finish 2 .made] ++ steps 3 3 {} ++ [.finish 3 .made] ++ steps 3 2 { id := 13 } ++
    [.finish 3 .made] ++ .start 4 (.retention ⟨2000000, 1, 1, 1, 9⟩) :: steps 4 5 { id := 11 } ++ [.finish 4 .made]

/-- The second attempt is on record without a row of its own, and the third one met the row that retention has expired
since. -/
theorem verifications_converge_four : ∃ s, (World.init (service sampleLib) empty).run sampleRecording = some s ∧
    (s.db.rows .payments).keys = [10] ∧ (s.db.find .payments 10).map Payment.state = some .expired ∧
    (∃! i, ∃ tr, s.db.find .transitions i = some tr ∧ Verifies tr 10) ∧
    Outcome sampleRecording s 2 (samplePayment 'a' 'a') .done ∧
    Outcome sampleRecording s 3 (samplePayment 'a' 'b') .conflict := by
  have hfacts : ((World.init (service sampleLib) empty).run sampleRecording).map (fun s =>
      ((s.db.rows .payments).keys, (s.db.find .payments 10).map Payment.state, replyOf s 2, replyOf s 3)) =
        some ([10], some .expired, some .done, some .conflict) := by decide +kernel
  obtain ⟨s, hs, hfacts⟩ := Option.map_eq_some_iff.1 hfacts
  obtain ⟨hkeys, hrest⟩ := Prod.mk.inj hfacts
  obtain ⟨hstate, hrest⟩ := Prod.mk.inj hrest
  obtain ⟨h₂, h₃⟩ := Prod.mk.inj hrest
  obtain ⟨q, hq, -⟩ := Option.map_eq_some_iff.1 hstate
  obtain ⟨-, honce, -, hreturned⟩ := verifications_converge sampleLib hs
  exact ⟨s, hs, hkeys, hstate, (honce 10 q hq).2,
    hreturned 2 _ _ parse_aa .done (by simp [sampleRecording]) (replyOf_some h₂) nofun,
    hreturned 3 _ _ parse_ab .conflict (by simp [sampleRecording]) (replyOf_some h₃) nofun⟩

/-- The connection breaks after the commit, and before its acknowledgement. -/
def lostCommit : Run sampleLib := firstAttempt 1 10 ++ [.finish 1 .lost, .go 1 { text := "08006" }]

/-- The only caller returns the error of its connection, and has added a row. -/
theorem lost_commit_adds_row : ∃ s q, (World.init (service sampleLib) empty).run lostCommit = some s ∧
    s.callers.lookup 1 = some (.idle (.pure (.failed "08006"))) ∧ s.log.map Commit.caller = [1] ∧
    empty.find .payments 10 = none ∧ s.db.find .payments 10 = some q := by
  have hfacts : ((World.init (service sampleLib) empty).run lostCommit).map (fun s =>
      (replyOf s 1, s.log.map Commit.caller, (s.db.find .payments 10).isSome)) =
        some (some (.failed "08006"), [1], true) := by decide +kernel
  obtain ⟨s, hs, hfacts⟩ := Option.map_eq_some_iff.1 hfacts
  obtain ⟨hreply, hrest⟩ := Prod.mk.inj hfacts
  obtain ⟨hlog, hsome⟩ := Prod.mk.inj hrest
  obtain ⟨q, hq⟩ := Option.isSome_iff_exists.1 hsome
  exact ⟨s, q, hs, replyOf_some hreply, hlog, rfl, hq⟩

end Eth402.Recording
