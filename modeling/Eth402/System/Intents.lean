/-
What a call of `CreateSettlementIntent` leaves, for every database, every request and every point at which it can fail:
an error leaves at most a refused attempt, a duplicate leaves an attempt, and a new intent takes one nonce.
-/
import Eth402.System.Machine
import Eth402.Store.Attribution

namespace Eth402.System

open Lib Settlement Store

/-- The intent is new: it has the next nonce of its signer, its row and its transition are the one row and the one
transition that were added, and the payment of the request is the one payment that changed. -/
structure NewIntent (request : IntentRequest) (intent : Intent) (t t' : Tables) : Prop where
  nonce : t.nextNonce intent.signerAddress = some intent.nonce
  allocated : ∀ a, t'.nextNonce a = if a = intent.signerAddress then some (intent.nonce + 1) else t.nextNonce a
  row : ∃ r : Transaction, t'.transactions = t.transactions ++ [r] ∧ r.status = .intent ∧ r.id = intent.transactionId ∧
    r.paymentId = intent.paymentId ∧ r.signerAddress = intent.signerAddress ∧ r.transactionNonce = intent.nonce
  transition : t'.transitions = t.transitions ++ [⟨intent.paymentId, .verified, .broadcasting, none, "http"⟩]
  before : ∃ p, t.requested request = some p ∧ p.id = intent.paymentId ∧ p.state = .verified
  after : ∃ p, t'.requested request = some p ∧ p.id = intent.paymentId ∧ p.state = .broadcasting ∧
    p.payerSignature = some request.payerSignature
  others : ∀ p : Payment, p.id ≠ intent.paymentId → (p ∈ t'.payments ↔ p ∈ t.payments)

/-- An update that keeps identities updates the payment a request names. -/
theorem requested_updatePayments {w : Payment → Bool} {f : Payment → Payment}
    (hf : ∀ p, (f p).paymentIdentity = p.paymentIdentity) (request : IntentRequest) (t : Tables) :
    (t.updatePayments w f).requested request = (t.requested request).map fun p => if w p then f p else p := by
  unfold Tables.requested Tables.updatePayments mapIf
  rw [List.find?_map]
  congr 2
  funext p
  simp only [Function.comp]
  split
  · rw [hf]
  · rfl

theorem newIntent_of_committed {env : DbEnv} {request : IntentRequest} {signer : String} {p : Payment} {nonce : Nat}
    {db db' : DB} (hp : db.tables.requested request = some p) (hr : refusal env request p db.tables = none)
    (hc : Committed env request signer p nonce db db') :
    NewIntent request ⟨p.id, request.paymentIdentity, env.freshId, signer, nonce, "", false, false, false⟩ db.tables
      db'.tables where
  nonce := hc.next
  allocated a := by
    have hnext : db'.tables.nextNonce a = (db.tables.setNonce signer (nonce + 1)).nextNonce a := by
      unfold Tables.nextNonce
      rw [hc.signerAccounts]
    rw [hnext, nextNonce_setNonce, hc.next]
    rfl
  row := ⟨_, hc.transactions, rfl, rfl, rfl, rfl, rfl⟩
  transition := by rw [hc.transitions, (verified_of_not_refused hr).1]
  before := ⟨p, hp, rfl, (verified_of_not_refused hr).1⟩
  after := by
    have hafter := requested_updatePayments (w := fun q => q.id = p.id ∧ q.state = p.state) (f := fun q => { q with
      state := .broadcasting, settlementRequestedAt := some env.now
      payerSignature := some request.payerSignature, updatedAt := env.now }) (fun _ => rfl) request db.tables
    rw [hp, Option.map_some, if_pos (by simp)] at hafter
    unfold Tables.requested at hafter ⊢
    rw [hc.payments, hafter]
    exact ⟨_, rfl, rfl, rfl, rfl⟩
  others q hq := by
    rw [hc.payments]
    unfold Tables.updatePayments
    rw [mem_mapIf]
    constructor
    · rintro (⟨r, -, hw, rfl⟩ | ⟨hmem, -⟩)
      · exact absurd (of_decide_eq_true hw).1 hq
      · exact hmem
    · exact fun hmem => .inr ⟨hmem, decide_eq_false fun h => hq h.1⟩

/-- What an answer of `CreateSettlementIntent` says about the database after it. -/
def Effects (request : IntentRequest) (db : DB) : Except Err Intent × DB → Prop
  | (.error _, db') => db' = db ∨ Attempted .rejected db db'
  | (.ok intent, db') =>
    if intent.duplicate then Attempted .duplicate db db' else NewIntent request intent db.tables db'.tables

/-- A transaction that does not commit leaves the database as it was; one that does leaves an attempt row, or a new
intent. -/
theorem createSettlementIntent_effects (env : DbEnv) (request : IntentRequest) (db : DB) :
    Effects request db ((createSettlementIntent env request).runInner db) := by
  unfold Txn.runInner
  cases hrun : createSettlementIntent env request db with
  | error e => exact .inl rfl
  | ok result =>
    obtain ⟨r, db'⟩ := result
    obtain ⟨signer, -, hout⟩ := createSettlementIntent_outcome hrun
    cases hout with
    | unknown _ hq | refused _ _ _ _ _ _ _ hq => exact .inr hq
    | terminal _ _ _ _ _ hq | duplicate _ _ _ _ _ hq => exact hq
    | committed p nonce hp _ _ hr hc => exact newIntent_of_committed hp hr hc

/-- For every database, request and failure of the call, a commit that is lost apart: an error leaves the database as it
was or with one refused attempt more; a duplicate leaves one duplicate attempt more and nothing else; and a new intent
is one nonce, one row, one transition and the signature of the request. -/
theorem intent_effects (env : StepEnv) (hcommit : ∀ message, env.fault ≠ .lost message) (request : IntentRequest)
    (db : DB) : Effects request db (runStore env (.createSettlementIntent request) db) := by
  unfold runStore
  cases hfault : env.fault with
  | none => exact createSettlementIntent_effects env.db request db
  | failed message => exact .inl rfl
  | lost message => exact absurd hfault (hcommit message)

/-- The first settlement of a verified payment. -/
def soldAnswer : Except Err Intent × DB :=
  runStore (calm 11).env (.createSettlementIntent soldRequest) (execute (soldThen homeAddress))

theorem intent_effects_sample : soldAnswer.1 = .ok soldIntent ∧
    NewIntent soldRequest soldIntent (execute (soldThen homeAddress)).tables soldAnswer.2.tables := by
  have hanswer : soldAnswer.1.toOption = some soldIntent := by decide +kernel
  have hok := toOption_ok.1 hanswer
  have hcommit : ∀ message, (calm 11).env.fault ≠ .lost message := fun _ h => by cases h
  unfold soldAnswer at hok ⊢
  generalize execute (soldThen homeAddress) = db at hok ⊢
  generalize soldRequest = request at hok ⊢
  have heffects := intent_effects (calm 11).env hcommit request db
  rw [show runStore (calm 11).env (.createSettlementIntent request) db =
    (.ok soldIntent, (runStore (calm 11).env (.createSettlementIntent request) db).2) from Prod.ext hok rfl] at heffects
  exact ⟨hok, heffects⟩

end Eth402.System
