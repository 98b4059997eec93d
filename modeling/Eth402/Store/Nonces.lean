/-
The nonce sequences of the signers, over any sequence of store calls with any arguments: the tables are a
ledger of numbers given out (`Lib/Ledger.lean`), and every call leaves it, gives one number to a payment
that had none, or starts or raises a sequence.
-/
import Mathlib.Data.List.Induction
import Eth402.Lib.Ledger
import Eth402.Store.Steps

namespace Eth402.Store

open Lib Settlement

variable {db db' : DB} {env : DbEnv}

/-- The sequences and who owns which nonce of them. -/
def Tables.ledger (t : Tables) : Ledger String Nat := ⟨t.nextNonce, t.Owns⟩

/-- A payment that was not admitted has no transaction row. -/
def Unowned (t : Tables) : Prop := ∀ p ∈ t.payments, p.state ∈ unadmitted → ∀ a n, ¬ t.Owns p.id a n

theorem Unowned.step (hu : Unowned db.tables) (hp : PaymentsKept db.tables db'.tables)
    (ho : ∀ p ∈ db'.tables.payments, p.state ∈ unadmitted → ∀ a n, db'.tables.Owns p.id a n → db.tables.Owns p.id a n) :
    Unowned db'.tables := by
  intro p' hp' hs a n howns
  have hold := ho p' hp' hs a n howns
  obtain ⟨r, hr, hid, -, -⟩ := hold
  obtain ⟨q, hq, hqid⟩ := List.mem_map.1 (db.wf.owner r hr)
  obtain ⟨q', hq', hk⟩ := hp q hq
  -- the payment of the row is the one at hand, and it was not admitted before either
  have heq : q' = p' := eq_of_key db'.wf.paymentIds hq' hp' (hk.id.trans (hqid.trans hid))
  subst heq
  exact hu q hq (hk.unadmitted hs) a n (by rw [← hk.id]; exact ho q' hp' hs a n howns)

/-! ## What a call does to the ledger -/

theorem nextNonce_setNonce (t : Tables) (a : String) (n : Nat) (b : String) :
    (t.setNonce a n).nextNonce b = if b = a then (t.nextNonce a).map fun _ => n else t.nextNonce b := by
  unfold Tables.nextNonce Tables.setNonce
  rw [List.find?_map]
  have hkey : ((fun x : SignerAccount => decide (x.signerAddress = b)) ∘ fun x =>
      if x.signerAddress = a then { x with nextNonce := n } else x) = fun x => decide (x.signerAddress = b) := by
    funext x
    simp only [Function.comp_apply]
    split <;> rfl
  rw [hkey, Option.map_map]
  split
  · subst b
    rw [Option.map_map]
    refine Option.map_congr fun x hx => ?_
    have : x.signerAddress = a := by simpa using List.find?_some hx
    simp [this]
  · rename_i hne
    refine Option.map_congr fun x hx => ?_
    have hxb : x.signerAddress = b := by simpa using List.find?_some hx
    have hxa : x.signerAddress ≠ a := fun h => hne (hxb.symm.trans h)
    simp [hxa]

theorem seedSignerAccount_raises {address : String} {chainNonce n : Nat}
    (h : seedSignerAccount address chainNonce db = .ok (n, db')) :
    ∃ a m, Ledger.Raises a m db.tables.ledger db'.tables.ledger := by
  have hquiet := seedSignerAccount_quiet h
  obtain ⟨a, db₁, hl, hrest⟩ := Txn.bind_ok h
  obtain ⟨-, rfl⟩ := Txn.lift_ok hl
  obtain ⟨stored, db₂, hr, hrest⟩ := Txn.bind_ok hrest
  obtain ⟨hstored, rfl⟩ := Prod.mk.inj (Txn.read_ok hr)
  have howns : ∀ p b m, db'.tables.Owns p b m ↔ db₁.tables.Owns p b m := fun p b m => by
    unfold Tables.Owns; rw [hquiet.2.1]
  cases stored with
  | none =>
    obtain ⟨_, db₃, hw, hrest⟩ := Txn.bind_ok hrest
    obtain ⟨-, rfl⟩ := Txn.lift_ok hrest
    refine ⟨a, chainNonce, fun m hm => ?_, fun b => ?_, howns⟩
    · change db₁.tables.nextNonce a = some m at hm
      rw [hstored] at hm
      cases hm
    · change db'.tables.nextNonce b = if b = a then some chainNonce else db₁.tables.nextNonce b
      rw [Txn.write_ok hw]
      unfold Tables.nextNonce at hstored ⊢
      rw [List.find?_append]
      split
      · subst b
        cases hf : db₁.tables.signerAccounts.find? (fun x => x.signerAddress = a) with
        | some x => rw [hf] at hstored; cases hstored
        | none => simp
      · rename_i hne
        have : ¬ a = b := fun h => hne h.symm
        simp [this]
  | some next =>
    obtain ⟨_, db₃, hw, hrest⟩ := Txn.bind_ok hrest
    obtain ⟨-, rfl⟩ := Txn.lift_ok hrest
    refine ⟨a, max next chainNonce, fun m hm => ?_, fun b => ?_, howns⟩
    · change db₁.tables.nextNonce a = some m at hm
      rw [hstored] at hm
      cases hm
      exact Nat.le_max_left ..
    · change db'.tables.nextNonce b = if b = a then some (max next chainNonce) else db₁.tables.nextNonce b
      rw [Txn.write_ok hw, nextNonce_setNonce, hstored]
      rfl

theorem Quiet.same (h : Quiet db db') : Ledger.Same db.tables.ledger db'.tables.ledger where
  next a := by
    change db'.tables.nextNonce a = db.tables.nextNonce a
    unfold Tables.nextNonce; rw [h.signerAccounts]
  owns p a n := by
    change db'.tables.Owns p a n ↔ db.tables.Owns p a n
    unfold Tables.Owns; rw [h.transactions]

theorem Frame.same (h : Frame db.tables db'.tables) : Ledger.Same db.tables.ledger db'.tables.ledger where
  next a := by
    change db'.tables.nextNonce a = db.tables.nextNonce a
    unfold Tables.nextNonce; rw [h.signerAccounts]
  owns := h.owned

section Commit

variable {request : IntentRequest} {signer : String} {p : Payment} {nonce : Nat}

theorem Committed.owns (h : Committed env request signer p nonce db db') (q : Nat) (b : String) (m : Nat) :
    db'.tables.Owns q b m ↔ db.tables.Owns q b m ∨ (q = p.id ∧ b = signer ∧ m = nonce) := by
  unfold Tables.Owns
  rw [h.transactions]
  constructor
  · rintro ⟨r, hr, rfl, rfl, rfl⟩
    rcases List.mem_append.1 hr with hr | hr
    · exact .inl ⟨r, hr, rfl, rfl, rfl⟩
    · rw [List.mem_singleton.1 hr]; exact .inr ⟨rfl, rfl, rfl⟩
  · rintro (⟨r, hr, hrest⟩ | ⟨rfl, rfl, rfl⟩)
    · exact ⟨r, List.mem_append_left _ hr, hrest⟩
    · exact ⟨_, List.mem_concat_self, rfl, rfl, rfl⟩

/-- An admitted payment had no nonce. -/
theorem Committed.allocates (h : Committed env request signer p nonce db db') (hu : Unowned db.tables)
    (hmem : p ∈ db.tables.payments) (hs : p.state = .verified) :
    Ledger.Allocates p.id signer nonce db.tables.ledger db'.tables.ledger where
  free a n := hu p hmem (by rw [hs]; decide) a n
  from_next := h.next
  next b := by
    have hnext : db'.tables.nextNonce b = (db.tables.setNonce signer (nonce + 1)).nextNonce b := by
      unfold Tables.nextNonce; rw [h.signerAccounts]
    change db'.tables.nextNonce b = if b = signer then some (nonce + 1) else db.tables.nextNonce b
    rw [hnext, nextNonce_setNonce, h.next]
    rfl
  owns := h.owns

end Commit

/-- What a call may do to the ledger. Only a seeding starts or raises a sequence. -/
inductive LedgerStep (op : Op) (t t' : Tables) : Prop
  | same (h : Ledger.Same t.ledger t'.ledger)
  | allocates (p : Nat) (a : String) (n : Nat) (h : Ledger.Allocates p a n t.ledger t'.ledger)
  | raises (address : String) (chainNonce : Nat) (hop : op = .seedSignerAccount address chainNonce) (a : String)
    (n : Nat)
      (h : Ledger.Raises a n t.ledger t'.ledger)

theorem ledgerStep_refl (op : Op) (t : Tables) : LedgerStep op t t := .same ⟨fun _ => rfl, fun _ _ _ => Iff.rfl⟩

theorem Outcome.ledgerStep {request : IntentRequest} {signer : String} {r : Except Err Intent} {op : Op}
    (h : Outcome env request signer db db' r) (hu : Unowned db.tables) (hp : PaymentsKept db.tables db'.tables) :
    LedgerStep op db.tables db'.tables ∧ Unowned db'.tables := by
  cases h with
  | unknown _ hq | terminal _ _ _ _ _ hq | duplicate _ _ _ _ _ hq | refused _ _ _ _ _ _ _ hq =>
    exact ⟨.same hq.same, hu.step hp fun p _ _ a n => (hq.same.owns p.id a n).1⟩
  | committed p nonce hreq ht ha hr hc =>
    refine ⟨.allocates _ _ _ (hc.allocates hu (List.mem_of_find?_eq_some hreq) (verified_of_not_refused hr).1), ?_⟩
    refine hu.step hp fun q hq hs a n howns => ?_
    rcases (hc.owns q.id a n).1 howns with hold | ⟨hid, -, -⟩
    · exact hold
    · -- the admitted payment is broadcasting now
      have hst : stateOf q.id db'.tables = some .broadcasting := by
        have := hc.moved.state q.id
        rw [if_pos hid] at this
        exact this
      rw [stateOf_eq_some hq] at hst
      rw [Option.some.inj hst] at hs
      exact absurd hs (by decide)

theorem run_ledger (op : Op) (hu : Unowned db.tables) :
    LedgerStep op db.tables (op.run env db).2.tables ∧ Unowned (op.run env db).2.tables := by
  have hkept := run_payments env op db
  cases hop : op.movesSequence with
  | false =>
    have hframe := run_frame env op hop db
    exact ⟨.same hframe.same, hu.step hkept fun p _ _ a n => (hframe.owned p.id a n).1⟩
  | true =>
    cases op with
    | createSettlementIntent request =>
      change LedgerStep _ _ ((createSettlementIntent env request).runInner db).2.tables ∧
        Unowned ((createSettlementIntent env request).runInner db).2.tables
      change PaymentsKept _ ((createSettlementIntent env request).runInner db).2.tables at hkept
      unfold Txn.runInner at hkept ⊢
      cases hm : createSettlementIntent env request db with
      | error e => exact ⟨ledgerStep_refl _ _, hu⟩
      | ok r =>
        rw [hm] at hkept
        obtain ⟨signer, -, ho⟩ := createSettlementIntent_outcome hm
        exact ho.ledgerStep hu hkept
    | seedSignerAccount address chainNonce =>
      change LedgerStep _ _ ((seedSignerAccount address chainNonce).run db).2.tables ∧
        Unowned ((seedSignerAccount address chainNonce).run db).2.tables
      change PaymentsKept _ ((seedSignerAccount address chainNonce).run db).2.tables at hkept
      unfold Txn.run at hkept ⊢
      cases hm : seedSignerAccount address chainNonce db with
      | error e => exact ⟨ledgerStep_refl _ _, hu⟩
      | ok r =>
        rw [hm] at hkept
        obtain ⟨a, n, hraise⟩ := seedSignerAccount_raises hm
        exact ⟨.raises address chainNonce rfl a n hraise, hu.step hkept fun p _ _ b m => (hraise.owns p.id b m).1⟩
    | _ => cases hop

/-! ## Runs of the store -/

/-- One transaction of the store, committed or rolled back whatever it had done; or a change of the merchants. -/
inductive StoreStep
  | commit (env : DbEnv) (op : Op)
  | rollback (op : Op)
  | setMerchants (merchants : List Merchant)

def StoreStep.run (db : DB) : StoreStep → DB
  | .commit env op => (op.run env db).2
  | .rollback _ => db
  | .setMerchants merchants => db.setMerchants merchants

/-- The database after the steps, in the order their transactions ended. -/
def execute (steps : List StoreStep) : DB := steps.foldl StoreStep.run DB.empty

theorem execute_snoc (steps : List StoreStep) (s : StoreStep) : execute (steps ++ [s]) = s.run (execute steps) :=
  List.foldl_concat ..

/-- A seeding in the run took the sequence of `a` from `old` to `new`. -/
def Seeded (steps : List StoreStep) (a : String) (old new : Option Nat) : Prop :=
  ∃ before env address chainNonce after,
    steps = before ++ .commit env (.seedSignerAccount address chainNonce) :: after ∧
      (execute before).tables.nextNonce a = old ∧
      (execute (before ++ [.commit env (.seedSignerAccount address chainNonce)])).tables.nextNonce a = new

/-- The value the sequence of `a` was first seeded with. -/
def FirstSeeded (steps : List StoreStep) (a : String) (n : Nat) : Prop := Seeded steps a none (some n)

/-- A later seeding raised the sequence of `a` past `n`. -/
def JumpedOver (steps : List StoreStep) (a : String) (n : Nat) : Prop :=
  ∃ old new, Seeded steps a (some old) (some new) ∧ old ≤ n ∧ n < new

theorem Seeded.snoc {steps : List StoreStep} {a : String} {old new : Option Nat} (h : Seeded steps a old new)
    (s : StoreStep) : Seeded (steps ++ [s]) a old new := by
  obtain ⟨before, env, address, chainNonce, after, rfl, hrest⟩ := h
  exact ⟨before, env, address, chainNonce, after ++ [s], by simp, hrest⟩

theorem execute_inv (steps : List StoreStep) :
    Ledger.Sound (execute steps).tables.ledger ∧ Unowned (execute steps).tables ∧
      Ledger.Covered (FirstSeeded steps) (JumpedOver steps) (execute steps).tables.ledger := by
  induction steps using List.reverseRecOn with
  | nil =>
    refine ⟨⟨?_, ?_, ?_⟩, ?_, ?_⟩
    · rintro p q a n ⟨r, hr, -⟩; cases hr
    · rintro p a b n m ⟨r, hr, -⟩; cases hr
    · rintro p a n ⟨r, hr, -⟩; cases hr
    · intro p hp; cases hp
    · intro a next hnext; cases hnext
  | append_singleton steps s ih =>
    obtain ⟨hsound, hu, hcov⟩ := ih
    have hf : ∀ a v, FirstSeeded steps a v → FirstSeeded (steps ++ [s]) a v := fun a v h => h.snoc s
    have hj : ∀ a n, JumpedOver steps a n → JumpedOver (steps ++ [s]) a n := by
      rintro a n ⟨old, new, hs, hrange⟩
      exact ⟨old, new, hs.snoc s, hrange⟩
    cases s with
    | rollback op =>
      rw [execute_snoc]
      exact ⟨hsound, hu, Ledger.Same.covered ⟨fun _ => rfl, fun _ _ _ => Iff.rfl⟩ hcov hf hj⟩
    | setMerchants merchants =>
      rw [execute_snoc]
      obtain ⟨hp, ht, ha⟩ := (execute steps).setMerchants_keeps merchants
      have hframe : Frame (execute steps).tables ((execute steps).setMerchants merchants).tables :=
        .of_transactions (.of_eq hp) ha ht
      exact ⟨hframe.same.sound hsound, hu.step hframe.payments fun p _ _ a n => (hframe.owned p.id a n).1,
        hframe.same.covered hcov hf hj⟩
    | commit env op =>
      obtain ⟨hstep, hu'⟩ : LedgerStep op _ (op.run env (execute steps)).2.tables ∧ _ := run_ledger op hu
      rw [execute_snoc]
      cases hstep with
      | same h | allocates p a n h => exact ⟨h.sound hsound, hu', h.covered hcov hf hj⟩
      | raises address chainNonce hop a n h =>
        subst hop
        have hnext : (execute (steps ++ [.commit env (.seedSignerAccount address chainNonce)])).tables.nextNonce a =
            some n := by
          rw [execute_snoc]
          exact (h.next a).trans (if_pos rfl)
        refine ⟨h.sound hsound, hu', h.covered hcov hf hj (fun hnone => ?_) fun m hm k hle hlt => ?_⟩
        · exact ⟨steps, env, address, chainNonce, [], rfl, hnone, hnext⟩
        · exact ⟨m, n, ⟨steps, env, address, chainNonce, [], rfl, hm, hnext⟩, hle, hlt⟩

/-- After any sequence of store calls, committed or rolled back, with any arguments: no two payments have rows on the
same nonce of a signer; all rows of a payment are on one nonce of one signer; a signer's next nonce is above every nonce
on its rows; and each nonce from the first seeded one up to the next is owned by exactly one payment, unless a later
seeding jumped over it. -/
theorem nonces_owned_once (steps : List StoreStep) :
    (∀ p q a n, (execute steps).tables.Owns p a n → (execute steps).tables.Owns q a n → p = q) ∧
      (∀ p a b n m, (execute steps).tables.Owns p a n → (execute steps).tables.Owns p b m → a = b ∧ n = m) ∧
      (∀ r ∈ (execute steps).tables.transactions, ∃ next,
        (execute steps).tables.nextNonce r.signerAddress = some next ∧ r.transactionNonce < next) ∧
      ∀ a next, (execute steps).tables.nextNonce a = some next → ∃ first, FirstSeeded steps a first ∧
        ∀ n, first ≤ n → n < next → (∃! p, (execute steps).tables.Owns p a n) ∨ JumpedOver steps a n := by
  obtain ⟨hsound, -, hcov⟩ := execute_inv steps
  refine ⟨hsound.owner, hsound.number, fun r hr => ?_, fun a next hnext => ?_⟩
  · exact hsound.below r.paymentId r.signerAddress r.transactionNonce ⟨r, hr, rfl, rfl, rfl⟩
  · obtain ⟨first, hfirst, hall⟩ := hcov a next hnext
    refine ⟨first, hfirst, fun n hle hlt => (hall n hle hlt).imp ?_ fun h => h⟩
    rintro ⟨p, hp⟩
    exact ⟨p, hp, fun q hq => hsound.owner q p a n hq hp⟩

end Eth402.Store
