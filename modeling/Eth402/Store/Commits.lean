/-
When a transaction commits: the constraints one by one, what a statement has to respect for them to hold after it, and
that a transaction whose statements do reaches its end.
-/
import Eth402.Store.View

namespace Eth402.Store

open Lib Settlement

variable {db : DB} {t : Tables}

/-! ## The constraints -/

theorem violation_eq_none : t.violation = none ↔
    (t.payments.all (·.fits) ∧ t.transactions.all (·.fits)) ∧
      (t.payments.all (·.check) ∧ t.transactions.all (·.check) ∧ t.transitions.all (·.check) ∧
        t.verificationAttempts.all (·.check) ∧ t.signerAccounts.all (·.check)) ∧
      t.unique = true ∧ t.references = true := by
  unfold Tables.violation
  constructor
  · intro h
    split at h
    · cases h
    split at h
    · cases h
    split at h
    · cases h
    split at h
    · cases h
    rename_i hfits hcheck hunique hrefs
    exact ⟨not_not.1 hfits, not_not.1 hcheck, not_not.1 hunique, not_not.1 hrefs⟩
  · rintro ⟨hfits, hcheck, hunique, hrefs⟩
    rw [if_neg (not_not.2 hfits), if_neg (not_not.2 hcheck), if_neg (not_not.2 hunique), if_neg (not_not.2 hrefs)]

theorem fits_of_mem {r : Transaction} (hr : r ∈ db.tables.transactions) : r.fits = true ∧ r.check = true := by
  obtain ⟨⟨-, hfits⟩, ⟨-, hcheck, -⟩, -⟩ := violation_eq_none.1 db.valid
  exact ⟨List.all_eq_true.1 hfits r hr, List.all_eq_true.1 hcheck r hr⟩

/-- The columns of a transaction row that constraints between rows are about, but for its status. -/
structure SameKeys (r r' : Transaction) : Prop where
  id : r'.id = r.id
  paymentId : r'.paymentId = r.paymentId
  txHash : r'.txHash = r.txHash
  replacedById : r'.replacedById = r.replacedById

variable {w : Transaction → Bool} {f : Transaction → Transaction}

/-- An update of rows commits when each row it changes fits, and no two rows of a payment end up active. -/
theorem updateTransactions_valid (hkeys : ∀ r, SameKeys r (f r))
    (hrow : ∀ r ∈ db.tables.transactions, w r = true → (f r).fits = true ∧ (f r).check = true)
    (hactive : ∀ a ∈ mapIf w f db.tables.transactions, ∀ b ∈ mapIf w f db.tables.transactions, a.active = true →
      b.active = true → a.paymentId = b.paymentId → a = b) :
    (db.tables.updateTransactions w f).violation = none := by
  obtain ⟨⟨hfitp, hfit⟩, ⟨hcheckp, hcheck, hrest⟩, hunique, hrefs⟩ := violation_eq_none.1 db.valid
  have hids : (mapIf w f db.tables.transactions).map (·.id) = db.tables.transactions.map (·.id) :=
    map_mapIf_of_keeps (fun r _ => (hkeys r).id) _
  refine violation_eq_none.2 ⟨⟨hfitp, List.all_eq_true.2 fun x hx => ?_⟩, ⟨hcheckp, List.all_eq_true.2 fun x hx =>
    ?_, hrest⟩,
    ?_, ?_⟩
  · rcases mem_mapIf.1 hx with ⟨r, hr, hw, rfl⟩ | ⟨hr, -⟩
    · exact (hrow r hr hw).1
    · exact List.all_eq_true.1 hfit x hr
  · rcases mem_mapIf.1 hx with ⟨r, hr, hw, rfl⟩ | ⟨hr, -⟩
    · exact (hrow r hr hw).2
    · exact List.all_eq_true.1 hcheck x hr
  · simp only [Tables.unique, decide_eq_true_eq] at hunique ⊢
    obtain ⟨h1, h2, h3, h4, h5, -, h7⟩ := hunique
    have hhash : (mapIf w f db.tables.transactions).filterMap (·.txHash) = db.tables.transactions.filterMap
      (·.txHash) :=
      filterMap_mapIf_of_keeps (fun r _ => (hkeys r).txHash) _
    refine ⟨h1, h2, h3, hids ▸ h4, hhash ▸ h5, ?_, h7⟩
    refine List.Nodup.map_on (fun a ha b hb hab => ?_) ((List.Nodup.of_map _ (hids ▸ h4)).filter _)
    obtain ⟨ha, hact⟩ := List.mem_filter.1 ha
    obtain ⟨hb, hbct⟩ := List.mem_filter.1 hb
    exact hactive a ha b hb hact hbct hab
  · simp only [Tables.references, decide_eq_true_eq, List.all_eq_true] at hrefs ⊢
    obtain ⟨htx, hothers⟩ := hrefs
    refine ⟨fun x hx => ?_, hothers⟩
    change x.paymentId ∈ db.tables.payments.map (·.id) ∧
      x.replacedById.all (· ∈ (mapIf w f db.tables.transactions).map (·.id))
    rw [hids]
    rcases mem_mapIf.1 hx with ⟨r, hr, -, rfl⟩ | ⟨hr, -⟩
    · rw [(hkeys r).paymentId, (hkeys r).replacedById]
      exact htx r hr
    · exact htx x hr

/-- An update that activates no row leaves at most one active row of each payment. -/
theorem active_of_deactivating (hoff : ∀ r, (f r).active = false) :
    ∀ a ∈ mapIf w f db.tables.transactions, ∀ b ∈ mapIf w f db.tables.transactions,
      a.active = true → b.active = true → a.paymentId = b.paymentId → a = b := by
  have hold : ∀ x ∈ mapIf w f db.tables.transactions, x.active = true → x ∈ db.tables.transactions := by
    intro x hx hact
    rcases mem_mapIf.1 hx with ⟨r, -, -, rfl⟩ | ⟨hx, -⟩
    · rw [hoff r] at hact
      cases hact
    · exact hx
  intro a ha b hb hact hbct hab
  exact eq_of_key db.wf.oneActive (List.mem_filter.2 ⟨hold a ha hact, hact⟩) (List.mem_filter.2 ⟨hold b hb hbct,
    hbct⟩) hab

/-- A payment may move to any state but from `confirmed`, the one state whose time of confirmation is set. -/
theorem updatePayments_valid {w : Payment → Bool} {target : State} {now : Time}
    (hw : ∀ p ∈ db.tables.payments, w p = true → p.state ≠ .confirmed) :
    (db.tables.updatePayments w fun p => { p with state := target, updatedAt := now }).violation = none := by
  obtain ⟨⟨hfitp, hfit⟩, ⟨hcheckp, hcheck⟩, hunique, hrefs⟩ := violation_eq_none.1 db.valid
  let f : Payment → Payment := fun p => { p with state := target, updatedAt := now }
  have hids : (mapIf w f db.tables.payments).map (·.id) = db.tables.payments.map (·.id) :=
    map_mapIf_of_keeps (f := f) (fun _ _ => rfl) _
  have hidentities : (mapIf w f db.tables.payments).map (·.paymentIdentity) = db.tables.payments.map
    (·.paymentIdentity) :=
    map_mapIf_of_keeps (f := f) (fun _ _ => rfl) _
  have hkeys : (mapIf w f db.tables.payments).filterMap (·.authorizationKey) =
      db.tables.payments.filterMap (·.authorizationKey) := filterMap_mapIf_of_keeps (f := f) (fun _ _ => rfl) _
  change ({ db.tables with payments := mapIf w f db.tables.payments } : Tables).violation = none
  refine violation_eq_none.2 ⟨⟨List.all_eq_true.2 fun x hx => ?_, hfit⟩, ⟨List.all_eq_true.2 fun x hx => ?_, hcheck⟩,
    ?_, ?_⟩
  · rcases mem_mapIf.1 hx with ⟨p, hp, -, rfl⟩ | ⟨hp, -⟩
    · exact List.all_eq_true.1 hfitp p hp
    · exact List.all_eq_true.1 hfitp x hp
  · rcases mem_mapIf.1 hx with ⟨p, hp, hsel, rfl⟩ | ⟨hp, -⟩
    · have hold := List.all_eq_true.1 hcheckp p hp
      simp only [Payment.check, decide_eq_true_eq] at hold ⊢
      obtain ⟨h1, h2, h3, h4, h5, h6, h7, h8⟩ := hold
      exact ⟨h1, h2, h3, h4, h5, h6, .inl (h7.resolve_right (hw p hp hsel)), h8⟩
    · exact List.all_eq_true.1 hcheckp x hp
  · simp only [Tables.unique, decide_eq_true_eq] at hunique ⊢
    obtain ⟨h1, h2, h3, hrest⟩ := hunique
    exact ⟨hids ▸ h1, hidentities ▸ h2, hkeys ▸ h3, hrest⟩
  · simp only [Tables.references, decide_eq_true_eq, hids] at hrefs ⊢
    obtain ⟨htx, htr, hsa, hva, hmerchant⟩ := hrefs
    refine ⟨htx, htr, hsa, hva, List.all_eq_true.2 fun x hx => ?_⟩
    rcases mem_mapIf.1 hx with ⟨p, hp, -, rfl⟩ | ⟨hp, -⟩
    · exact List.all_eq_true.1 hmerchant p hp
    · exact List.all_eq_true.1 hmerchant x hp

theorem insertTransition_valid {r : Transition} (hactor : r.actorType ∈ actorTypes)
    (howner : r.paymentId ∈ db.tables.payments.map (·.id)) :
    ({ db.tables with transitions := db.tables.transitions ++ [r] } : Tables).violation = none := by
  obtain ⟨hfits, ⟨h1, h2, h3, h4⟩, hunique, hrefs⟩ := violation_eq_none.1 db.valid
  refine violation_eq_none.2 ⟨hfits, ⟨h1, h2, ?_, h4⟩, hunique, ?_⟩
  · simp only [List.all_append, Bool.and_eq_true]
    exact ⟨h3, by simp [Transition.check, hactor]⟩
  · simp only [Tables.references, decide_eq_true_eq] at hrefs ⊢
    obtain ⟨htx, htr, hrest⟩ := hrefs
    refine ⟨htx, ?_, hrest⟩
    simp only [List.all_append, Bool.and_eq_true]
    exact ⟨htr, by simpa using howner⟩

/-! ## Transactions that reach their end -/

theorem Txn.bind_eq {α β : Type} {m : Txn α} {k : α → Txn β} {a : α} {db' : DB} (h : m db = .ok (a, db')) :
    (m >>= k) db = k a db' := by
  change Txn.bind m k db = _
  unfold Txn.bind
  rw [h]

theorem Txn.write_eq {f : Tables → Tables} (h : (f db.tables).violation = none) :
    ∃ db', Txn.write f db = .ok ((), db') ∧ db'.tables = f db.tables := by
  unfold Txn.write
  rw [dif_pos h]
  exact ⟨_, rfl, rfl⟩

theorem updateTransactions_eq (h : (db.tables.updateTransactions w f).violation = none) :
    ∃ db', updateTransactions w f db =
      .ok (db.tables.transactions.countP w, db') ∧ db'.tables = db.tables.updateTransactions w f := by
  obtain ⟨db', hw, ht⟩ := Txn.write_eq (f := Tables.updateTransactions w f) h
  refine ⟨db', ?_, ht⟩
  unfold updateTransactions
  rw [Txn.bind_eq (a := db.tables.transactions.countP w) rfl, Txn.bind_eq hw]
  rfl

theorem updatePayments_eq {w : Payment → Bool} {f : Payment → Payment}
    (h : (db.tables.updatePayments w f).violation = none) : ∃ db', updatePayments w f db =
      .ok (db.tables.payments.countP w, db') ∧ db'.tables = db.tables.updatePayments w f := by
  obtain ⟨db', hw, ht⟩ := Txn.write_eq (f := Tables.updatePayments w f) h
  refine ⟨db', ?_, ht⟩
  unfold updatePayments
  rw [Txn.bind_eq (a := db.tables.payments.countP w) rfl, Txn.bind_eq hw]
  rfl

theorem expectOne_eq (context : String) (db : DB) : expectOne 1 context db = .ok ((), db) := rfl

theorem validateTransition_eq {source target : State} (h : canTransition source target = true) (db : DB) :
    validateTransition source target db = .ok ((), db) := by
  unfold validateTransition
  rw [if_pos h]
  rfl

/-- A transition along an edge commits for a payment in the state it starts from. -/
theorem transitionPayment_commits {now : Time} {p : Nat} {source target : State} {actor : String}
    (hedge : canTransition source target = true) (hsource : source ≠ .confirmed) (hactor : actor ∈ actorTypes)
    (hstate : stateOf p db.tables = some source) :
    ∃ db', transitionPayment now p source target actor db = .ok ((), db') := by
  obtain ⟨q, hq, rfl, hs⟩ := exists_of_stateOf hstate
  have hcount : db.tables.payments.countP (fun x => decide (x.id = q.id ∧ x.state = source)) = 1 := by
    have hpos : 0 < db.tables.payments.countP fun x => decide (x.id = q.id ∧ x.state = source) :=
      List.countP_pos_iff.2 ⟨q, hq, decide_eq_true ⟨rfl, hs⟩⟩
    have hle := countP_key_le_one db.wf.paymentIds q.id fun x => decide (x.state = source)
    simp only [Bool.decide_and] at hpos ⊢
    omega
  let move : Payment → Payment := fun x => { x with state := target, updatedAt := now }
  have hvalid : (db.tables.updatePayments (fun x => x.id = q.id ∧ x.state = source) move).violation = none :=
    updatePayments_valid fun x _ hx => by
      rw [(of_decide_eq_true hx).2]
      exact hsource
  obtain ⟨db₁, hu, ht₁⟩ := updatePayments_eq hvalid
  have hids : db₁.tables.payments.map (·.id) = db.tables.payments.map (·.id) := by
    rw [ht₁]
    exact map_mapIf_of_keeps (f := move) (fun _ _ => rfl) _
  obtain ⟨db₂, hi, -⟩ := Txn.write_eq (f := fun t => { t with
      transitions := t.transitions ++ [⟨q.id, source, target, none, actor⟩] })
    (insertTransition_valid hactor (hids ▸ List.mem_map.2 ⟨q, hq, rfl⟩))
  refine ⟨db₂, ?_⟩
  unfold transitionPayment
  rw [Txn.bind_eq (validateTransition_eq hedge db), Txn.bind_eq hu, hcount, Txn.bind_eq (expectOne_eq _ _)]
  exact hi

end Eth402.Store
