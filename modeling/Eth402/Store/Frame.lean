/-
What the store never touches: a payment keeps its identity and, until it is redacted, its authorization
window, and never returns to a state before admission; only admission and seeding move a signer's nonce
sequence, and only admission gives a payment a nonce. `Txn.Keeps` carries such a relation through a
transaction statement by statement, and `run_steady` through every method whose statements keep it.
-/
import Eth402.Store.Intake

namespace Eth402.Store

open Lib Settlement Verification

variable {R : Tables → Tables → Prop}

/-! ## Relations along a transaction -/

section Keeps

variable {α β : Type}

/-- Whatever the transaction reaches, `R` relates the tables before to the tables after. -/
def Txn.Keeps (R : Tables → Tables → Prop) (m : Txn α) : Prop :=
  ∀ db a db', m db = .ok (a, db') → R db.tables db'.tables

theorem Txn.Keeps.bind (htrans : ∀ a b c, R a b → R b c → R a c) {m : Txn α} {k : α → Txn β} (hm : Txn.Keeps R m)
    (hk : ∀ a, Txn.Keeps R (k a)) : Txn.Keeps R (m >>= k) := fun db b db' h => by
  obtain ⟨a, db₁, h₁, h₂⟩ := Txn.bind_ok h
  exact htrans _ _ _ (hm _ _ _ h₁) (hk a _ _ _ h₂)

theorem Txn.Keeps.pure (hrefl : ∀ a, R a a) (a : α) : Txn.Keeps R (pure a : Txn α) := fun db b db' h => by
  cases Txn.pure_ok h; exact hrefl _

theorem Txn.Keeps.fail (e : Err) : Txn.Keeps R (Txn.fail e : Txn α) := fun _ _ _ h => (Txn.fail_ok h).elim

theorem Txn.Keeps.read (hrefl : ∀ a, R a a) (f : Tables → α) : Txn.Keeps R (Txn.read f) := fun db b db' h => by
  cases Txn.read_ok h; exact hrefl _

theorem Txn.Keeps.query (hrefl : ∀ a, R a a) (f : Tables → Except Err α) : Txn.Keeps R (Txn.query f) :=
  fun db b db' h => by obtain ⟨-, rfl⟩ := Txn.query_ok h; exact hrefl _

theorem Txn.Keeps.ite {c : Prop} [Decidable c] {a b : Txn α} (ha : Txn.Keeps R a) (hb : Txn.Keeps R b) :
    Txn.Keeps R (if c then a else b) := by
  split
  · exact ha
  · exact hb

theorem Txn.Keeps.write {f : Tables → Tables} (h : ∀ t, R t (f t)) : Txn.Keeps R (Txn.write f) :=
  fun db _ db' hw => by rw [Txn.write_ok hw]; exact h _

theorem Txn.Keeps.run (hrefl : ∀ a, R a a) {m : Txn α} (h : Txn.Keeps R m) (db : DB) :
    R db.tables (m.run db).2.tables := by
  unfold Txn.run
  split
  · exact h _ _ _ ‹_›
  · exact hrefl _

theorem Txn.Keeps.runInner (hrefl : ∀ a, R a a) {m : Txn (Except Err α)} (h : Txn.Keeps R m) (db : DB) :
    R db.tables (m.runInner db).2.tables := by
  unfold Txn.runInner
  split
  · exact h _ _ _ ‹_›
  · exact hrefl _

end Keeps

/-! ## Leases -/

/-- The terms of a payment: whom it pays, in which asset, and the authorization it was made with. -/
def Payment.terms (p : Payment) : Option String × String × Option String × Option String :=
  (p.recipientAddress, p.asset, p.payerAddress, p.authorizationNonce)

/-- What a lease leaves of a payment. -/
structure Leased (p p' : Payment) : Prop where
  id : p'.id = p.id
  identity : p'.paymentIdentity = p.paymentIdentity
  merchantId : p'.merchantId = p.merchantId
  validBefore : p'.validBefore = p.validBefore
  requestedAt : p'.settlementRequestedAt = p.settlementRequestedAt
  terms : p'.terms = p.terms
  redactedAt : p'.redactedAt = p.redactedAt
  state : p'.state = p.state

/-- A relation that does not see leases. -/
structure LeaseBlind (R : Tables → Tables → Prop) : Prop where
  refl : ∀ t, R t t
  trans : ∀ a b c, R a b → R b c → R a c
  lease : ∀ w f, (∀ p, Leased p (f p)) → ∀ t, R t (t.updatePayments w f)

section LeaseMethods

variable (h : LeaseBlind R) (env : DbEnv)
include h

theorem LeaseBlind.updatePayments (w : Payment → Bool) {f : Payment → Payment} (hf : ∀ p, Leased p (f p)) :
    Txn.Keeps R (updatePayments w f) :=
  .bind h.trans (.read h.refl _) fun _ => .bind h.trans (.write (h.lease w f hf)) fun _ => .pure h.refl _

theorem LeaseBlind.claimPayment (p : Nat) (w : String) (d : Int) (now : Time) :
    Txn.Keeps R (claimPayment env p w d now) := by
  unfold Store.claimPayment
  split
  on_goal 1 => refine .bind h.trans (.fail _) fun _ => ?_
  all_goals
    refine .bind h.trans (.read h.refl _) fun found => .bind h.trans
      (h.updatePayments _ fun _ => ⟨rfl, rfl, rfl, rfl, rfl, rfl, rfl, rfl⟩) fun _ => ?_
    cases found
    · exact .fail _
    · exact .pure h.refl _

theorem LeaseBlind.claimPayments (request : ClaimRequest) : Txn.Keeps R (claimPayments env request) := by
  unfold Store.claimPayments
  split
  · exact .fail _
  · exact .bind h.trans (.read h.refl _) fun _ =>
      .bind h.trans (h.updatePayments _ fun _ => ⟨rfl, rfl, rfl, rfl, rfl, rfl, rfl, rfl⟩) fun _ => .pure h.refl _

theorem LeaseBlind.renewLease (p : Nat) (w : String) (now : Time) (d : Int) : Txn.Keeps R (renewLease p w now d) := by
  unfold Store.renewLease
  split
  on_goal 1 => refine .bind h.trans (.fail _) fun _ => ?_
  all_goals
    refine .bind h.trans (h.updatePayments _ fun _ => ⟨rfl, rfl, rfl, rfl, rfl, rfl, rfl, rfl⟩) fun _ => ?_
    split
    · exact .bind h.trans (.fail _) fun _ => .pure h.refl _
    · exact .pure h.refl _

theorem LeaseBlind.releaseLease (p : Nat) (w : String) : Txn.Keeps R (releaseLease env p w) := by
  unfold Store.releaseLease
  split
  on_goal 1 => refine .bind h.trans (.fail _) fun _ => ?_
  all_goals
    refine .bind h.trans (h.updatePayments _ fun _ => ⟨rfl, rfl, rfl, rfl, rfl, rfl, rfl, rfl⟩) fun _ => ?_
    split
    · exact .fail _
    · exact .pure h.refl _

end LeaseMethods

/-! ## Relations the methods of settlement keep -/

/-- The states of a payment that was not admitted to settlement yet. -/
def unadmitted : List State := [.received, .verified]

/-- What settlement leaves of a payment it moves on. -/
structure Advanced (p p' : Payment) : Prop where
  id : p'.id = p.id
  identity : p'.paymentIdentity = p.paymentIdentity
  merchantId : p'.merchantId = p.merchantId
  validBefore : p'.validBefore = p.validBefore
  requestedAt : p'.settlementRequestedAt = p.settlementRequestedAt
  claimedBy : p'.claimedBy = p.claimedBy
  claimedUntil : p'.claimedUntil = p.claimedUntil
  terms : p'.terms = p.terms
  redactedAt : p'.redactedAt = p.redactedAt
  unadmitted : p'.state ∈ unadmitted → p.state ∈ unadmitted

/-- A payment that moves on in settlement. -/
theorem Advanced.moved {p p' : Payment} {target : State} (ht : target ∉ Store.unadmitted) (hs : p'.state = target)
    (hid : p'.id = p.id) (hident : p'.paymentIdentity = p.paymentIdentity) (hm : p'.merchantId = p.merchantId)
    (hv : p'.validBefore = p.validBefore) (hr : p'.settlementRequestedAt = p.settlementRequestedAt)
    (hb : p'.claimedBy = p.claimedBy) (hu : p'.claimedUntil = p.claimedUntil)
    (ha : p'.terms = p.terms) (hd : p'.redactedAt = p.redactedAt) : Advanced p p' :=
  ⟨hid, hident, hm, hv, hr, hb, hu, ha, hd, fun h => absurd (hs ▸ h) ht⟩

/-- The rows are on the same nonce of the same payment. -/
structure SameNonce (r r' : Transaction) : Prop where
  paymentId : r'.paymentId = r.paymentId
  signerAddress : r'.signerAddress = r.signerAddress
  transactionNonce : r'.transactionNonce = r.transactionNonce

/-- The row has moved on, and is still the same row with the same bytes. -/
structure SameRow (r r' : Transaction) : Prop extends SameNonce r r' where
  id : r'.id = r.id
  rawTransaction : r'.rawTransaction = r.rawTransaction

/-- A relation that the statements of settlement on payments keep. -/
structure PaymentCalm (R : Tables → Tables → Prop) : Prop where
  refl : ∀ t, R t t
  trans : ∀ a b c, R a b → R b c → R a c
  advance : ∀ w f, (∀ p, w p = true → Advanced p (f p)) → ∀ t, R t (t.updatePayments w f)
  audit : ∀ t rs, R t { t with transitions := t.transitions ++ rs }

/-- A relation that the statements of settlement keep: a payment moves on, rows stay on their nonce. -/
structure Calm (R : Tables → Tables → Prop) : Prop extends PaymentCalm R where
  rows : ∀ w f, (∀ r, SameNonce r (f r)) → ∀ t, R t (t.updateTransactions w f)
  replace : ∀ t o r, o ∈ t.transactions → SameNonce o r → R t { t with transactions := t.transactions ++ [r] }
  attempt : ∀ t r, R t { t with verificationAttempts := t.verificationAttempts ++ [r] }

/-- A relation that every statement of the store keeps, but for those of leases, admission, seeding and redaction. -/
structure Steady (R : Tables → Tables → Prop) : Prop extends Calm R where
  intake : ∀ t p, p.settlementRequestedAt = none → p.claimedBy = none → R t { t with payments := t.payments ++ [p] }

/-- The part of `MarkTxConfirming` that moves the payment and audits the move. -/
def sightPayment (now : Time) (p : Nat) (actor : String) : Txn Unit := do
  let previous ← Txn.read (stateOf p)
  let n ← updatePayments (fun q => q.id = p ∧ q.state ∈ [.broadcast, .replaced])
    fun q => { q with state := .confirming, updatedAt := now }
  match previous, n with
  | some s, 1 => recordTransition p s .confirming actor
  | _, _ => pure ()

/-- The part of `MarkTxReplaced` that moves the payment and audits the move. -/
def supersedePayment (now : Time) (p : Nat) (context actor : String) : Txn Unit := do
  let previous ← Txn.read (stateOf p)
  let moved ← updatePayments (fun q => q.id = p ∧ q.state ∈ [.broadcast, .replaced])
    fun q => { q with state := .replaced, updatedAt := now }
  match previous, moved with
  | some .broadcast, 1 => recordTransition p .broadcast .replaced actor
  | some _, 1 => pure ()
  | _, _ => Txn.fail (.wrap context (.sentinel .settlementRace))

/-- A relation kept by every move of a payment together with its audit row. -/
structure PaymentMotions (R : Tables → Tables → Prop) : Prop where
  refl : ∀ t, R t t
  trans : ∀ a b c, R a b → R b c → R a c
  transition : ∀ now p source target actor, target ∉ unadmitted →
    Txn.Keeps R (transitionPayment now p source target actor)
  transitionIn : ∀ now p source target actor assign, (∀ q, (assign q).state = target) → (∀ q, Advanced q (assign q)) →
    Txn.Keeps R (transitionPaymentIn now p source target actor assign)
  sight : ∀ now p actor, Txn.Keeps R (sightPayment now p actor)
  supersede : ∀ now p context actor, Txn.Keeps R (supersedePayment now p context actor)

/-- And by every statement on rows but those that record the bytes of a filler. -/
structure RowMotions (R : Tables → Tables → Prop) : Prop extends PaymentMotions R where
  rows : ∀ w f, (∀ r, SameRow r (f r)) → ∀ t, R t (t.updateTransactions w f)
  replace : ∀ t o r, o ∈ t.transactions → SameNonce o r → r.rawTransaction = none →
    R t { t with transactions := t.transactions ++ [r] }

/-- And by every statement on rows, of verifications too. -/
structure Motions (R : Tables → Tables → Prop) : Prop extends PaymentMotions R where
  rows : ∀ w f, (∀ r, SameNonce r (f r)) → ∀ t, R t (t.updateTransactions w f)
  replace : ∀ t o r, o ∈ t.transactions → SameNonce o r → R t { t with transactions := t.transactions ++ [r] }
  attempt : ∀ t r, R t { t with verificationAttempts := t.verificationAttempts ++ [r] }
  expire : ∀ (db : DB) now ids, R db.tables (db.tables.expire now ids)

/-- With the insertion of a verified payment these are the parts of every method. -/
structure Units (R : Tables → Tables → Prop) : Prop extends Motions R where
  insertVerified : ∀ env p, Txn.Keeps R (insertVerified env p)

theorem expire_eq (now : Time) (ids : List Nat) (t : Tables) : t.expire now ids =
    { t.updatePayments (fun p => p.id ∈ ids ∧ p.state = .verified) (fun p => { p with
        state := .expired, updatedAt := now }) with
      transitions := t.transitions ++ (t.payments.filter fun p => p.id ∈ ids ∧ p.state = .verified).map fun p =>
        ⟨p.id, .verified, .expired, some "authorization_expired", "system"⟩ } := by
  simp only [Tables.expire, Tables.updatePayments, mapIf, decide_eq_true_eq]

namespace PaymentCalm

/-! ### Statements -/

section Statements

variable {α β : Type} (h : PaymentCalm R)
include h

theorem bind {m : Txn α} {k : α → Txn β} (hm : Txn.Keeps R m) (hk : ∀ a, Txn.Keeps R (k a)) : Txn.Keeps R (m >>= k) :=
  .bind h.trans hm hk

theorem pure (a : α) : Txn.Keeps R (pure a : Txn α) := .pure h.refl a

theorem read (f : Tables → α) : Txn.Keeps R (Txn.read f) := .read h.refl f

theorem updatePayments {w : Payment → Bool} {f : Payment → Payment} (hf : ∀ p, w p = true → Advanced p (f p)) :
    Txn.Keeps R (updatePayments w f) :=
  h.bind (h.read _) fun _ => h.bind (.write (h.advance w f hf)) fun _ => h.pure _

theorem insertTransition (r : Transition) : Txn.Keeps R (insertTransition r) := .write fun t => h.audit t [r]

theorem expectOne (n : Nat) (c : String) : Txn.Keeps R (expectOne n c) := .ite (h.pure _) (.fail _)

theorem transitionPayment (now : Time) (p : Nat) (source : State) {target : State} (actor : String)
    (ht : target ∉ unadmitted) : Txn.Keeps R (transitionPayment now p source target actor) :=
  h.bind (.ite (h.pure _) (.fail _)) fun _ =>
    h.bind (h.updatePayments fun _ _ => .moved ht rfl rfl rfl rfl rfl rfl rfl rfl rfl rfl) fun _ =>
      h.bind (h.expectOne _ _) fun _ => h.insertTransition _

theorem transitionPaymentIn (now : Time) (p : Nat) (source : List State) (target : State) (actor : String)
    {assign : Payment → Payment} (hf : ∀ p, Advanced p (assign p)) :
    Txn.Keeps R (transitionPaymentIn now p source target actor assign) := by
  unfold Store.transitionPaymentIn
  refine .ite (h.bind (.fail _) fun _ => ?_) ?_ <;>
  · refine h.bind (h.read _) fun previous => h.bind (h.updatePayments fun p _ =>
      ⟨(hf p).id, (hf p).identity, (hf p).merchantId, (hf p).validBefore, (hf p).requestedAt, (hf p).claimedBy,
        (hf p).claimedUntil, (hf p).terms, (hf p).redactedAt, (hf p).unadmitted⟩) fun n => ?_
    split
    · exact h.insertTransition _
    · exact .fail _

theorem sightPayment (now : Time) (p : Nat) (actor : String) : Txn.Keeps R (sightPayment now p actor) := by
  have ht : State.confirming ∉ unadmitted := by decide
  refine h.bind (h.read _) fun previous =>
    h.bind (h.updatePayments fun _ _ => .moved ht rfl rfl rfl rfl rfl rfl rfl rfl rfl rfl) fun n => ?_
  split
  · exact h.insertTransition _
  · exact h.pure _

theorem supersedePayment (now : Time) (p : Nat) (context actor : String) :
    Txn.Keeps R (supersedePayment now p context actor) := by
  have ht : State.replaced ∉ unadmitted := by decide
  refine h.bind (h.read _) fun previous =>
    h.bind (h.updatePayments fun _ _ => .moved ht rfl rfl rfl rfl rfl rfl rfl rfl rfl rfl) fun n => ?_
  split
  · exact h.insertTransition _
  · exact h.pure _
  · exact .fail _

theorem expire (now : Time) (ids : List Nat) (t : Tables) : R t (t.expire now ids) := by
  have hexpired : State.expired ∉ unadmitted := by decide
  rw [expire_eq]
  refine h.trans _ _ _ (h.advance _ _ ?_ t) (h.audit _ _)
  exact fun _ _ => .moved hexpired rfl rfl rfl rfl rfl rfl rfl rfl rfl rfl

theorem motions : PaymentMotions R where
  refl := h.refl
  trans := h.trans
  transition now p source _ actor ht := h.transitionPayment now p source actor ht
  transitionIn now p source target actor _ _ hf := h.transitionPaymentIn now p source target actor hf
  sight := h.sightPayment
  supersede := h.supersedePayment

end Statements

end PaymentCalm

namespace Calm

variable (h : Calm R)
include h

theorem motions : Motions R where
  toPaymentMotions := h.toPaymentCalm.motions
  rows := h.rows
  replace := h.replace
  attempt := h.attempt
  expire db now ids := h.expire now ids db.tables

theorem units (hinsert : ∀ env p, Txn.Keeps R (Store.insertVerified env p)) : Units R := ⟨h.motions, hinsert⟩

end Calm

theorem Steady.insertVerified (h : Steady R) (env : DbEnv) (p : ParsedPayment) :
    Txn.Keeps R (insertVerified env p) := by
  refine h.bind (h.read _) fun existing => ?_
  split
  · exact h.pure _
  · split
    · exact .fail _
    · refine h.bind (h.read _) fun _ => h.bind (.write fun t => h.intake t _ rfl rfl) fun _ =>
        h.bind (h.updatePayments fun q hq => ⟨rfl, rfl, rfl, rfl, rfl, rfl, rfl, rfl, rfl, fun _ => ?_⟩) fun _ =>
          h.bind (h.insertTransition _) fun _ => h.pure _
      -- only the row this transaction inserted is moved to verified
      rw [(of_decide_eq_true hq).2]
      decide

theorem Steady.units (h : Steady R) : Units R := h.toCalm.units h.insertVerified

/-! ### Methods -/

theorem Motions.rowMotions (h : Motions R) : RowMotions R :=
  ⟨h.toPaymentMotions, fun w f hf => h.rows w f fun r => (hf r).toSameNonce, fun t o r ho hs _ => h.replace t o r ho hs⟩

theorem Motions.updateTransactions (h : Motions R) (w : Transaction → Bool)
    {f : Transaction → Transaction} (hf : ∀ r, SameNonce r (f r)) : Txn.Keeps R (updateTransactions w f) :=
  .bind h.trans (.read h.refl _) fun _ => .bind h.trans (.write (h.rows w f hf)) fun _ => .pure h.refl _

/-- The insertion of a replacement: its row, then the link to it. -/
theorem Txn.Keeps.insertReplacement (htrans : ∀ a b c, R a b → R b c → R a c) (env : DbEnv)
    (p t : Nat) {row : Transaction → Transaction}
    (hrow : ∀ t o, o ∈ t.transactions → R t { t with transactions := t.transactions ++ [row o] })
    (hlink : ∀ w t, R t (t.updateTransactions w fun r => { r with replacedById := some env.freshId })) :
    Txn.Keeps R (insertReplacement env p t row) := by
  intro db u db' hok
  obtain ⟨o, ho, -, -, ht⟩ := insertReplacement_tables hok
  rw [ht]
  exact htrans _ _ _ (hrow _ o ho) (hlink _ _)

namespace RowMotions

section Methods

variable {α β : Type} (h : RowMotions R) (env : DbEnv)
include h

omit env in
theorem bind {m : Txn α} {k : α → Txn β} (hm : Txn.Keeps R m) (hk : ∀ a, Txn.Keeps R (k a)) : Txn.Keeps R (m >>= k) :=
  .bind h.trans hm hk

omit env in
theorem pure (a : α) : Txn.Keeps R (pure a : Txn α) := .pure h.refl a

omit env in
theorem read (f : Tables → α) : Txn.Keeps R (Txn.read f) := .read h.refl f

omit env in
theorem query (f : Tables → Except Err α) : Txn.Keeps R (Txn.query f) := .query h.refl f

omit env in
theorem updateTransactions (w : Transaction → Bool) {f : Transaction → Transaction} (hf : ∀ r, SameRow r (f r)) :
    Txn.Keeps R (updateTransactions w f) :=
  h.bind (h.read _) fun _ => h.bind (.write (h.rows w f hf)) fun _ => h.pure _

omit env in
theorem expectOne (n : Nat) (c : String) : Txn.Keeps R (expectOne n c) := .ite (h.pure _) (.fail _)

theorem retireIntent (what : String) {target : State} (p t : Nat) (actor : String) (ht : target ∉ unadmitted) :
    Txn.Keeps R (retireIntent env what target p t actor) :=
  h.bind (h.updateTransactions _ fun _ => ⟨⟨rfl, rfl, rfl⟩, rfl, rfl⟩) fun _ => h.bind (h.expectOne _ _) fun _ =>
    h.transition _ _ _ _ _ ht

theorem markTxConfirming (p t n : Nat) (hash a : String) : Txn.Keeps R (markTxConfirming env p t n hash a) :=
  h.bind (h.updateTransactions _ fun _ => ⟨⟨rfl, rfl, rfl⟩, rfl, rfl⟩) fun _ => h.sight env.now p a

theorem finalize (p t : Nat) (status : TxStatus) (state : State) (word actor : String)
    {assignRow : Transaction → Transaction} {assign : Payment → Payment} (hrow : ∀ r, SameRow r (assignRow r))
    (hs : ∀ q, (assign q).state = state) (hf : ∀ p, Advanced p (assign p)) :
    Txn.Keeps R (finalize env p t status state word actor assignRow assign) :=
  h.bind (h.updateTransactions _ hrow) fun _ =>
    .ite (h.transitionIn _ _ _ _ _ _ hs hf) <| h.bind (h.read _) fun _ => .ite (h.pure _) (.fail _)

theorem insertReplacement (p t : Nat) {row : Transaction → Transaction} (hrow : ∀ r, SameNonce r (row r))
    (hraw : ∀ r, (row r).rawTransaction = none) : Txn.Keeps R (insertReplacement env p t row) := by
  refine .insertReplacement h.trans env p t (fun t o ho => h.replace t o _ ho (hrow o) (hraw o)) fun w => h.rows w _ ?_
  exact fun _ => ⟨⟨rfl, rfl, rfl⟩, rfl, rfl⟩

theorem markTxReplaced (p t : Nat) (r : Replacement) (a : String) : Txn.Keeps R (markTxReplaced env p t r a) :=
  h.bind (h.updateTransactions _ fun _ => ⟨⟨rfl, rfl, rfl⟩, rfl, rfl⟩) fun _ => h.bind (h.expectOne _ _) fun _ =>
    h.bind (h.insertReplacement env _ _ (fun _ => ⟨rfl, rfl, rfl⟩) fun _ => rfl) fun _ => h.supersede env.now p _ a

end Methods

end RowMotions

section Recording

variable (hrefl : ∀ t, R t t) (htrans : ∀ a b c, R a b → R b c → R a c)
  (hattempt : ∀ t r, R t { t with verificationAttempts := t.verificationAttempts ++ [r] })
  (hinsert : ∀ env p, Txn.Keeps R (insertVerified env p))
include hrefl htrans hattempt hinsert

theorem Txn.Keeps.recordAttempt (env : DbEnv) (attempt : Attempt) : Txn.Keeps R (recordAttempt env attempt) := by
  have hlast : ∀ r, Txn.Keeps R (insertVerificationAttempt r) := fun r => .write fun t => hattempt t r
  unfold Store.recordAttempt
  refine .ite ?_ (.bind htrans (.pure hrefl _) fun _ => hlast _)
  split
  · exact .bind htrans (.fail _) fun _ => hlast _
  · exact .bind htrans (.bind htrans (hinsert env _) fun _ => .pure hrefl _) fun _ => hlast _

/-- The recording of a verification, whichever way it ends. -/
theorem recordVerification_keeps (env : DbEnv) (attempt : Attempt) (reason : String) (db : DB) :
    R db.tables (recordVerification env attempt reason db).2.tables := by
  unfold recordVerification
  split
  · exact Txn.Keeps.recordAttempt hrefl htrans hattempt hinsert env _ _ _ _ ‹_›
  · split
    · exact Txn.Keeps.write (fun t => hattempt t _) _ _ _ ‹_›
    · exact hrefl _
  · exact hrefl _

end Recording

/-- The methods that write leases only. -/
def Op.leases : Op → Bool
  | .claimPayment .. | .claimPayments .. | .renewLease .. | .releaseLease .. => true
  | _ => false

/-- Admission, seeding and retention, and leases, write what a steady relation need not keep. -/
def Op.steady : Op → Bool
  | .createSettlementIntent .. | .seedSignerAccount .. | .applyRetention .. => false
  | op => !op.leases

theorem LeaseBlind.run (hR : LeaseBlind R) (env : DbEnv) (op : Op) (h : op.leases = true)
    (db : DB) : R db.tables (op.run env db).2.tables := by
  cases op with
  | claimPayment => exact (hR.claimPayment env _ _ _ _).run hR.refl db
  | claimPayments => exact (hR.claimPayments env _).run hR.refl db
  | renewLease => exact (hR.renewLease _ _ _ _).run hR.refl db
  | releaseLease => exact (hR.releaseLease env _ _).run hR.refl db
  | _ => cases h

/-- The method that records a verification. -/
def Op.records : Op → Bool
  | .recordVerification .. => true
  | _ => false

/-- The methods that record the bytes of a filler. -/
def Op.fills : Op → Bool
  | .markGapFillerPrepared .. | .markGapFillerReplaced .. => true
  | _ => false

/-- Every other method but the recording of a verification is made of motions of rows. -/
theorem run_rowMotions (hR : RowMotions R) (env : DbEnv) (op : Op) (h : op.steady = true)
    (hrec : op.records = false) (hfill : op.fills = false) (db : DB) : R db.tables (op.run env db).2.tables := by
  have keep : ∀ {α : Type} {m : Txn α}, Txn.Keeps R m → R db.tables (m.run db).2.tables := fun h => h.run hR.refl db
  have one := fun {α : Type} (w : Transaction → Bool) {f : Transaction → Transaction}
    (hf : ∀ r, SameRow r (f r)) (c : String) {m : Txn α} (hm : Txn.Keeps R m) =>
    hR.bind (hR.updateTransactions w hf) fun n => hR.bind (hR.expectOne n c) fun _ => hm
  have last := fun (w : Transaction → Bool) {f : Transaction → Transaction} (hf : ∀ r, SameRow r (f r)) (c : String) =>
    hR.bind (hR.updateTransactions w hf) fun n => hR.expectOne n c
  cases op with
  | createSettlementIntent | seedSignerAccount | applyRetention
  | claimPayment | claimPayments | renewLease | releaseLease => cases h
  | loadSettlementWork | listReplacedPending | listDroppedBlockingGaps | listGapFillers | listStuckGapFillers =>
    exact keep (hR.query _)
  | markTxSigned | markAmbiguousRetry =>
    refine keep (last _ ?_ _)
    exact fun _ => ⟨⟨rfl, rfl, rfl⟩, rfl, rfl⟩
  | markTxBroadcast | markTxAmbiguous | markTxRecoveredBroadcast | markTxReorgedOut =>
    refine keep (one _ ?_ _ (hR.transition _ _ _ _ _ (by decide)))
    exact fun _ => ⟨⟨rfl, rfl, rfl⟩, rfl, rfl⟩
  | markIntentExpired | markIntentUnsettleable => exact keep (hR.retireIntent env _ _ _ _ (by decide))
  | markTxConfirming => exact keep (hR.markTxConfirming env _ _ _ _ _)
  | markTxConfirmed =>
    refine keep (hR.finalize env _ _ _ _ _ _ ?_ ?_ ?_)
    · exact fun _ => ⟨⟨rfl, rfl, rfl⟩, rfl, rfl⟩
    · exact fun _ => rfl
    · exact fun _ => .moved (by decide : State.confirmed ∉ unadmitted) rfl rfl rfl rfl rfl rfl rfl rfl rfl rfl
  | markTxReverted =>
    refine keep (hR.finalize env _ _ _ _ _ _ ?_ ?_ ?_)
    · exact fun _ => ⟨⟨rfl, rfl, rfl⟩, rfl, rfl⟩
    · exact fun _ => rfl
    · exact fun _ => .moved (by decide : State.reverted ∉ unadmitted) rfl rfl rfl rfl rfl rfl rfl rfl rfl rfl
  | markTxAmbiguousReplaced =>
    refine keep (one _ ?_ _ (hR.bind (hR.insertReplacement env _ _ ?_ ?_) fun _ =>
      hR.transition _ _ _ _ _ (by decide)))
    · exact fun _ => ⟨⟨rfl, rfl, rfl⟩, rfl, rfl⟩
    · exact fun _ => ⟨rfl, rfl, rfl⟩
    · exact fun _ => rfl
  | markTxReplaced => exact keep (hR.markTxReplaced env _ _ _ _)
  | markReplacementLanded p t succeeded =>
    refine keep (one _ ?_ _ (one _ ?_ _ (hR.transitionIn _ _ _ _ _ _ ?_ ?_)))
    · exact fun _ => ⟨⟨rfl, rfl, rfl⟩, rfl, rfl⟩
    · intro r
      cases succeeded <;> exact ⟨⟨rfl, rfl, rfl⟩, rfl, rfl⟩
    · exact fun _ => rfl
    · intro q
      cases succeeded
      · exact .moved (by decide : State.reverted ∉ unadmitted) rfl rfl rfl rfl rfl rfl rfl rfl rfl rfl
      · exact .moved (by decide : State.confirming ∉ unadmitted) rfl rfl rfl rfl rfl rfl rfl rfl rfl rfl
  | markGapFillerPrepared | markGapFillerReplaced => cases hfill
  | markGapFillerResolved =>
    refine keep (one _ ?_ _ (hR.bind (hR.read _) fun _ => hR.bind (hR.updateTransactions _ ?_) fun _ => hR.pure _)) <;>
      exact fun _ => ⟨⟨rfl, rfl, rfl⟩, rfl, rfl⟩
  | markGapFillerSucceeded =>
    refine keep (one _ ?_ _ (hR.bind (hR.updateTransactions _ ?_) fun _ =>
      hR.transition _ _ _ _ _ (by decide))) <;> exact fun _ => ⟨⟨rfl, rfl, rfl⟩, rfl, rfl⟩
  | recordVerification => cases hrec

/-- Every other method but the recording of a verification is made of motions. -/
theorem run_motions (hR : Motions R) (env : DbEnv) (op : Op) (h : op.steady = true)
    (hrec : op.records = false) (db : DB) : R db.tables (op.run env db).2.tables := by
  cases op with
  | markGapFillerPrepared =>
    refine (hR.rowMotions.bind (hR.updateTransactions _ ?_) fun n => hR.rowMotions.expectOne n _).run hR.refl db
    exact fun _ => ⟨rfl, rfl, rfl⟩
  | markGapFillerReplaced p t =>
    refine (hR.rowMotions.bind (hR.updateTransactions _ ?_) fun n => hR.rowMotions.bind (hR.rowMotions.expectOne n _)
      fun _ => .insertReplacement hR.trans env p t (fun t o ho => hR.replace t o _ ho ?_) fun w =>
        hR.rows w _ ?_).run hR.refl db
    · exact fun _ => ⟨rfl, rfl, rfl⟩
    · exact ⟨rfl, rfl, rfl⟩
    · exact fun _ => ⟨rfl, rfl, rfl⟩
  | _ => exact run_rowMotions hR.rowMotions env _ h hrec rfl db

/-- Every other method is made of such units. -/
theorem run_units (hR : Units R) (env : DbEnv) (op : Op) (h : op.steady = true)
    (db : DB) : R db.tables (op.run env db).2.tables := by
  cases op with
  | recordVerification attempt reason =>
    exact recordVerification_keeps hR.refl hR.trans hR.attempt hR.insertVerified env attempt reason db
  | _ => exact run_motions hR.toMotions env _ h rfl db

/-- Every other method keeps every steady relation. -/
theorem run_steady (hR : Steady R) (env : DbEnv) (op : Op) (h : op.steady = true)
    (db : DB) : R db.tables (op.run env db).2.tables := run_units hR.units env op h db

/-- Retention expires payments and then redacts some. -/
theorem applyRetention_steps {env : DbEnv} {request : RetentionRequest} {db db' : DB} {r : Nat × Nat}
    (h : applyRetention env request db = .ok (r, db')) : request.validate = none ∧ ∃ ids, ∃ mid : DB,
      mid.tables = db.tables.expire request.now ids ∧ db'.tables = mid.tables.redact request.now
        (redactionCandidates env request mid.tables) := by
  unfold applyRetention at h
  cases hv : request.validate with
  | some e =>
    rw [hv] at h
    exact (Txn.fail_ok h).elim
  | none =>
    rw [hv] at h
    obtain ⟨expired, db₁, hr, hrest⟩ := Txn.bind_ok h
    obtain ⟨-, rfl⟩ := Prod.mk.inj (Txn.read_ok hr)
    obtain ⟨_, mid, hw, hrest⟩ := Txn.bind_ok hrest
    obtain ⟨redacted, db₃, hr, hrest⟩ := Txn.bind_ok hrest
    obtain ⟨rfl, rfl⟩ := Prod.mk.inj (Txn.read_ok hr)
    obtain ⟨_, db₄, hw', hrest⟩ := Txn.bind_ok hrest
    cases Txn.pure_ok hrest
    exact ⟨rfl, expired, mid, Txn.write_ok hw, Txn.write_ok hw'⟩

/-- The expiry is a unit of its own. -/
theorem applyRetention_ok (hR : Motions R) {env : DbEnv} {request : RetentionRequest}
    {db db' : DB} {r : Nat × Nat} (h : applyRetention env request db = .ok (r, db')) :
    ∃ mid : DB, R db.tables mid.tables ∧ db'.tables = mid.tables.redact request.now
      (redactionCandidates env request mid.tables) := by
  obtain ⟨-, ids, mid, hexpire, hredact⟩ := applyRetention_steps h
  refine ⟨mid, ?_, hredact⟩
  rw [hexpire]
  exact hR.expire db _ _

/-- What a quiet call keeps, and the commit of a payment, admission keeps. -/
theorem Txn.Keeps.createSettlementIntent {env : DbEnv} {request : IntentRequest}
    (hquiet : ∀ db db' : DB, Quiet db db' → R db.tables db'.tables)
    (hcommit : ∀ (db db' : DB) signer p nonce, refusal env request p db.tables = none →
      Committed env request signer p nonce db db' → R db.tables db'.tables) :
    Txn.Keeps R (createSettlementIntent env request) := by
  intro db r db' h
  obtain ⟨signer, -, hout⟩ := createSettlementIntent_outcome h
  cases hout with
  | committed p nonce _ _ _ hr hc => exact hcommit db db' signer p nonce hr hc
  | _ => exact hquiet db db' (Attempted.toQuiet ‹_›)

/-! ## The frame -/

/-- What stays of a payment row. -/
structure PaymentKept (p p' : Payment) : Prop where
  id : p'.id = p.id
  identity : p'.paymentIdentity = p.paymentIdentity
  validBefore : p'.validBefore = p.validBefore ∨ p'.validBefore = none
  unadmitted : p'.state ∈ unadmitted → p.state ∈ unadmitted

theorem PaymentKept.refl (p : Payment) : PaymentKept p p := ⟨rfl, rfl, .inl rfl, fun h => h⟩

theorem PaymentKept.trans {p q r : Payment} (h₁ : PaymentKept p q) (h₂ : PaymentKept q r) : PaymentKept p r where
  id := h₂.id.trans h₁.id
  identity := h₂.identity.trans h₁.identity
  validBefore := by
    rcases h₂.validBefore with h | h
    · rw [h]; exact h₁.validBefore
    · exact .inr h
  unadmitted h := h₁.unadmitted (h₂.unadmitted h)

theorem Advanced.kept {p p' : Payment} (h : Advanced p p') : PaymentKept p p' :=
  ⟨h.id, h.identity, .inl h.validBefore, h.unadmitted⟩

/-- Every payment is still there. -/
def PaymentsKept (t t' : Tables) : Prop := LiveOn PaymentKept t.payments t'.payments

theorem PaymentsKept.of_eq {t t' : Tables} (h : t'.payments = t.payments) : PaymentsKept t t' :=
  fun p hp => ⟨p, h ▸ hp, .refl p⟩

theorem PaymentsKept.trans {a b c : Tables} (h₁ : PaymentsKept a b) (h₂ : PaymentsKept b c) : PaymentsKept a c :=
  LiveOn.trans .trans h₁ h₂

theorem PaymentsKept.update {w : Payment → Bool} {f : Payment → Payment} (hf : ∀ p, w p = true → PaymentKept p (f p))
    (t : Tables) : PaymentsKept t (t.updatePayments w f) := LiveOn.mapIf .refl fun p _ => hf p

/-- The payment `p` has a row with the nonce `n` of the signer `a`. -/
def Tables.Owns (t : Tables) (p : Nat) (a : String) (n : Nat) : Prop :=
  ∃ r ∈ t.transactions, r.paymentId = p ∧ r.signerAddress = a ∧ r.transactionNonce = n

theorem owns_update {w : Transaction → Bool} {f : Transaction → Transaction} (hf : ∀ r, SameNonce r (f r)) (t : Tables)
    (p : Nat) (a : String) (n : Nat) : (t.updateTransactions w f).Owns p a n ↔ t.Owns p a n := by
  constructor
  · rintro ⟨r', hr', rfl, rfl, rfl⟩
    rcases mem_mapIf.1 hr' with ⟨r, hr, -, rfl⟩ | ⟨hr, -⟩
    · exact ⟨r, hr, (hf r).paymentId.symm, (hf r).signerAddress.symm, (hf r).transactionNonce.symm⟩
    · exact ⟨r', hr, rfl, rfl, rfl⟩
  · rintro ⟨r, hr, rfl, rfl, rfl⟩
    by_cases hw : w r = true
    · exact ⟨f r, mem_mapIf.2 (.inl ⟨r, hr, hw, rfl⟩), (hf r).paymentId, (hf r).signerAddress, (hf r).transactionNonce⟩
    · exact ⟨r, mem_mapIf.2 (.inr ⟨hr, by simpa using hw⟩), rfl, rfl, rfl⟩

/-- A row on the nonce of another row of its payment gives the payment nothing. -/
theorem owns_insert {t : Tables} {o r : Transaction} (ho : o ∈ t.transactions) (h : SameNonce o r) (p : Nat)
    (a : String)
    (n : Nat) : ({ t with transactions := t.transactions ++ [r] } : Tables).Owns p a n ↔ t.Owns p a n := by
  constructor
  · rintro ⟨r', hr', rfl, rfl, rfl⟩
    rcases List.mem_append.1 hr' with hr' | hr'
    · exact ⟨r', hr', rfl, rfl, rfl⟩
    · rw [List.mem_singleton.1 hr']
      exact ⟨o, ho, h.paymentId.symm, h.signerAddress.symm, h.transactionNonce.symm⟩
  · rintro ⟨r', hr', hrest⟩
    exact ⟨r', List.mem_append_left _ hr', hrest⟩

structure Frame (t t' : Tables) : Prop where
  payments : PaymentsKept t t'
  signerAccounts : t'.signerAccounts = t.signerAccounts
  owned : ∀ p a n, t'.Owns p a n ↔ t.Owns p a n

theorem Frame.of_transactions {t t' : Tables} (hp : PaymentsKept t t') (ha : t'.signerAccounts = t.signerAccounts)
    (ht : t'.transactions = t.transactions) : Frame t t' :=
  ⟨hp, ha, fun _ _ _ => by unfold Tables.Owns; rw [ht]⟩

theorem Frame.refl (t : Tables) : Frame t t := .of_transactions (.of_eq rfl) rfl rfl

theorem Frame.trans {a b c : Tables} (h₁ : Frame a b) (h₂ : Frame b c) : Frame a c where
  payments := h₁.payments.trans h₂.payments
  signerAccounts := h₂.signerAccounts.trans h₁.signerAccounts
  owned p a n := (h₂.owned p a n).trans (h₁.owned p a n)

theorem frame_steady : Steady Frame where
  refl := Frame.refl
  trans _ _ _ := Frame.trans
  advance _ _ hf t := .of_transactions (PaymentsKept.update (fun p hp => (hf p hp).kept) t) rfl rfl
  rows _ _ hf t := ⟨.of_eq rfl, rfl, owns_update hf t⟩
  replace _ _ _ ho h := ⟨.of_eq rfl, rfl, owns_insert ho h⟩
  audit _ _ := .of_transactions (.of_eq rfl) rfl rfl
  attempt _ _ := .of_transactions (.of_eq rfl) rfl rfl
  intake _ _ _ _ := .of_transactions (fun q hq => ⟨q, List.mem_append_left _ hq, .refl q⟩) rfl rfl

theorem frame_leaseBlind : LeaseBlind Frame where
  refl := Frame.refl
  trans _ _ _ := Frame.trans
  lease _ _ hf t := .of_transactions (PaymentsKept.update (fun p _ =>
    ⟨(hf p).id, (hf p).identity, .inl (hf p).validBefore, fun h => (hf p).state ▸ h⟩) t) rfl rfl

theorem frame_redact (now : Time) (ids : List Nat) (t : Tables) : Frame t (t.redact now ids) := by
  refine ⟨fun q hq => ⟨_, List.mem_map.2 ⟨q, hq, rfl⟩, ?_⟩, rfl, fun p a n => ?_⟩
  · split
    · exact ⟨rfl, rfl, .inr rfl, fun h => h⟩
    · exact .refl q
  · refine Iff.trans ?_ (owns_update (w := fun r => r.paymentId ∈ ids ∧ r.rawTransaction.isSome)
      (f := fun r => { r with rawTransaction := none, updatedAt := now }) (fun _ => ⟨rfl, rfl, rfl⟩) t p a n)
    simp only [Tables.Owns, Tables.redact, Tables.updateTransactions, mapIf, decide_eq_true_eq]

/-- Only admission and seeding touch a nonce sequence. -/
def Op.movesSequence : Op → Bool
  | .createSettlementIntent .. | .seedSignerAccount .. => true
  | _ => false

/-- Every method but admission and seeding stays in the frame. -/
theorem run_frame (env : DbEnv) (op : Op) (h : op.movesSequence = false) (db : DB) :
    Frame db.tables (op.run env db).2.tables := by
  cases op with
  | createSettlementIntent | seedSignerAccount => cases h
  | applyRetention request =>
    change Frame db.tables ((applyRetention env request).run db).2.tables
    unfold Txn.run
    split
    · obtain ⟨mid, hmid, hredact⟩ := applyRetention_ok frame_steady.motions ‹_›
      exact hmid.trans (hredact ▸ frame_redact _ _ _)
    · exact .refl _
  | claimPayment | claimPayments | renewLease | releaseLease => exact frame_leaseBlind.run env _ rfl db
  | _ => exact run_steady frame_steady env _ rfl db

end Eth402.Store
