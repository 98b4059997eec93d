/-
The panel's wallet proofs, over every run of the service: what a session that is stamped as wallet-verified has shown.
Two of the three transactions that stamp a session consume a challenge and hold the merchant's row; the third stamps
after another transaction has consumed it, and the recipient may have changed in between. Where it has not, a session
that passes `lockWalletAuthenticatedAdmin` has shown a signature by the recipient of the moment.
-/
import Eth402.Merchant.Recipients
import Eth402.Merchant.Resend

namespace Eth402.Merchants

open Lib Lib.Relational

variable {env : Env} {D : Discipline tables} {p : Nat} {c : Int} {db db' : Db tables} {w : Work tables} {op : Op}

/-! ## What commits do to the sessions -/

/-- A request with the session's token consumed the challenge, which was for the address. -/
def Shown (env : Env) (db : Db tables) (s : Session) (id : Nat) (address : String) : Prop :=
  ∃ ch proof token, Spent env db s.merchantID id ch proof ∧ ch.address = address ∧ proof.session = some token ∧
    env.lib.hash token = s.tokenHash

theorem Shown.moves {s s' : Session} {id : Nat} {address : String} (h : Shown env db s id address) (hm : db.Moves db')
    (hmerchant : s'.merchantID = s.merchantID) (hhash : s'.tokenHash = s.tokenHash) : Shown env db' s' id address := by
  obtain ⟨ch, proof, token, hspent, haddress, hsession, ht⟩ := h
  exact ⟨ch, proof, token, hmerchant ▸ hspent.moves hm, haddress, hsession, ht.trans hhash.symm⟩

/-- The session was stamped before. -/
def WasStamped (db : Db tables) (sid : Nat) (s' : Session) : Prop :=
  ∃ s, db.find .sessions sid = some s ∧ s.walletVerifiedAt.isSome ∧ s'.merchantID = s.merchantID ∧
    s'.tokenHash = s.tokenHash

/-- What a commit under the locks `L` does to the stamped sessions and the recipients. -/
inductive PanelChange (env : Env) (D : Discipline tables) (c : Int) (db db' : Db tables) (L : Locks tables) (op : Op) :
    Prop
  | kept : (∀ sid s', db'.find .sessions sid = some s' → s'.walletVerifiedAt.isSome → WasStamped db sid s') →
      (∀ m r, db.find .merchants m = some r → r.status.established = true →
        ∃ r', db'.find .merchants m = some r' ∧ r'.recipientAddress = r.recipientAddress) →
          PanelChange env D c db db' L op
  | stamped (m id : Nat) (address : String) :
      (∀ sid s', db'.find .sessions sid = some s' → s'.walletVerifiedAt.isSome →
        WasStamped db sid s' ∨ s'.merchantID = m ∧ Shown env db' s' id address) →
      (∃ ch, db.find .challenges id = some ch ∧ ch.address = address) → db.Same .merchants db' →
      ((∃ token, op = .markAdminSessionWalletVerified m token id) ∨
        Holds L m ∧ ∃ r, db.find .merchants m = some r ∧ r.recipientAddress = address) → PanelChange env D c db db' L op
  | changed {m : Nat} {nulls : List (Put tables)} (id : Nat) (r' : Merchant) : Clearing D c db m [] nulls → Holds L m →
      db.Sets .merchants m r' db' →
      (∀ sid s', db'.find .sessions sid = some s' → s'.walletVerifiedAt.isSome →
        WasStamped db sid s' ∧ (∀ r, ⟨.sessions, sid, r⟩ ∉ nulls) ∨
          s'.merchantID = m ∧ Shown env db' s' id r'.recipientAddress) → PanelChange env D c db db' L op

theorem challenge_lower (hs : db.Sound) {id : Nat} {ch : WalletChallenge} (h : db.find .challenges id = some ch) :
    lower ch.address = ch.address := by
  have hcheck := hs.checked h
  simp only [check, Bool.and_eq_true, decide_eq_true_eq] at hcheck
  exact hcheck.1.1

theorem recipient_lower (hs : db.Sound) {m : Nat} {r : Merchant} (h : db.find .merchants m = some r) :
    lower r.recipientAddress = r.recipientAddress := by
  have hcheck := hs.checked h
  simp only [check, Bool.and_eq_true, decide_eq_true_eq] at hcheck
  exact hcheck.2

theorem wasStamped_of_same (h : db.Same .sessions db') {sid : Nat} {s' : Session}
    (hr : db'.find .sessions sid = some s')
    (hset : s'.walletVerifiedAt.isSome) : WasStamped db sid s' :=
  ⟨s', (h sid).symm.trans hr, hset, rfl, rfl⟩

/-- A session found after the proofs were taken back is one whose proof was not. -/
theorem Clearing.wasStamped {m sid : Nat} {ids : List Nat} {nulls : List (Put tables)} {s' : Session}
    (h : Clearing D c db m ids nulls) (hsame : db.Same .sessions db')
    (hr : (db'.puts nulls).find .sessions sid = some s')
    (hset : s'.walletVerifiedAt.isSome) : WasStamped db sid s' ∧ ∀ r, ⟨.sessions, sid, r⟩ ∉ nulls := by
  -- a session that was written was written without its proof
  have hno : ∀ r, ⟨.sessions, sid, r⟩ ∉ nulls := fun r hmem => by
    obtain ⟨r', hr', hmem'⟩ := Db.find_puts_of_mem (S := tables) db' hmem
    obtain rfl := Option.some.inj (hr.symm.trans hr')
    obtain ⟨sid', s, he, -⟩ := h.rows _ hmem'
    cases he
    cases hset
  rcases Db.find_puts_cases (S := tables) .sessions sid nulls db' with hf | ⟨r, -, hmem⟩
  · exact ⟨⟨s', (hsame sid).symm.trans (hf.symm.trans hr), hset, rfl, rfl⟩, hno⟩
  · exact absurd hmem (hno r)

theorem Change.panel (hs : db.Sound) (h : Change env D p c db w op) :
    PanelChange env D c db (db.puts w.puts) w.locks op := by
  have edited : ∀ {m : Nat} {r : Merchant} (r' : Merchant),
      (∀ sid s', (db.puts w.puts).find .sessions sid = some s' → s'.walletVerifiedAt.isSome → WasStamped db sid s') →
      db.find .merchants m = some r → (r.status.established = true → r'.recipientAddress = r.recipientAddress) →
      db.Sets .merchants m r' (db.puts w.puts) → PanelChange env D c db (db.puts w.puts) w.locks op := by
    intro m r r' hsess hr haddress hset
    refine .kept hsess fun m₁ r₁ hr₁ hest => ?_
    by_cases he : m₁ = m
    · subst he
      obtain rfl := Option.some.inj (hr.symm.trans hr₁)
      exact ⟨r', hset.at, haddress hest⟩
    · exact ⟨r₁, by rw [hset, if_neg he, hr₁], rfl⟩
  have other : (∀ x ∈ w.puts, x.table ≠ .sessions ∧ x.table ≠ .merchants) →
      PanelChange env D c db (db.puts w.puts) w.locks op := fun hw =>
    .kept (fun _ _ hr hset => wasStamped_of_same (Db.same_puts db fun x hx => (hw x hx).1) hr hset)
      fun m r hr _ => ⟨r, (Db.same_puts db (fun x hx => (hw x hx).2) m).trans hr, rfl⟩
  cases h with
  | registered hputs hm =>
    refine .kept (fun sid s' hr hset => wasStamped_of_same (fun i => by simp [hputs]) hr hset)
      fun m₁ r₁ hr₁ _ => ⟨r₁, ?_, rfl⟩
    have hne : m₁ ≠ _ := fun he => by rw [he, hm] at hr₁; cases hr₁
    simpa [hputs, hne] using hr₁
  | @emailVerified t tok r now issued hputs _ _ hr hissued =>
    refine edited { r with emailVerifiedAt := r.emailVerifiedAt <|> some now } (fun sid' s' hr hset =>
      ?_) hr (fun _ => rfl)
      (fun i => by rcases hissued with rfl | ⟨sid, s, rfl, -⟩ <;> simp [hputs, Db.find_put])
    rcases hissued with rfl | ⟨sid, s, rfl, -, hnone⟩
    · exact wasStamped_of_same (fun i => by simp [hputs]) hr hset
    · -- a session is issued without a proof
      have hsets : db.Sets .sessions sid s (db.puts w.puts) := fun i => by simp [hputs, Db.find_put]
      rcases hsets.cases hr with ⟨-, rfl⟩ | ⟨-, hr⟩
      · rw [hnone] at hset
        cases hset
      · exact ⟨s', hr, hset, rfl, rfl⟩
  | @replaced m id ch r address hputs hr hpending =>
    refine edited { r with recipientAddress := address }
      (fun _ _ hr hset => wasStamped_of_same (fun i => by simp [hputs]) hr hset) hr (fun hest => ?_)
      (fun i => by simp [hputs, Db.find_put])
    rw [(unproven_pending hpending).1] at hest
    cases hest
  | @activated m id hid kid ch r h key proof now hputs _ hr =>
    exact edited { r with walletVerifiedAt := some now, status := .active }
      (fun _ _ hr hset => wasStamped_of_same (fun i => by simp [hputs]) hr hset) hr (fun _ => rfl)
      (fun i => by simp [hputs, Db.find_put])
  | @changed m id hid ch r h proof now nulls hputs hp hr hactive _ _ _ hclear hholds =>
    refine .changed id (r.withRecipient (lower ch.address) now) hclear hholds (fun i => ?_)
      fun sid s' hr hset => .inl ?_
    · simp [hputs, Db.puts_append, hclear.find_table, Db.find_put]
    · rw [hputs, Db.puts_append, Db.puts_append, Db.puts_cons, Db.puts_nil, Db.find_put_table (by simp)] at hr
      exact hclear.wasStamped (fun i => by simp) hr hset
  | @authenticated m id sid ch r s proof now token hputs hp hr hactive haddress hsession hsid hm hhash hholds =>
    refine .stamped m id ch.address (fun sid' s' hr' hset => ?_) ⟨ch, hp.row, rfl⟩
      (fun i => by simp [hputs]) (.inr ⟨hholds, r, hr, ?_⟩)
    · have hsets : db.Sets .sessions sid { s with walletVerifiedAt := some now } (db.puts w.puts) := fun i => by
        simp [hputs, Db.find_put]
      rcases hsets.cases hr' with ⟨-, rfl⟩ | ⟨-, hr'⟩
      · refine .inr ⟨hm, ch.consumed now proof, proof, token, ?_, rfl, hsession, hhash.symm⟩
        exact hm ▸ hp.spent (by simp [hputs])
      · exact .inl ⟨s', hr', hset, rfl, rfl⟩
    · rw [← recipient_lower hs hr, haddress, challenge_lower hs hp.row]
  | @changedByAdmin m id hid sid ch r h s proof now nulls token hputs hp hr hactive _ _ _ hclear hsession _ hm hhash
    hholds =>
    refine .changed id (r.withRecipient (lower ch.address) now) hclear hholds (fun i => ?_)
      fun sid' s' hr' hset => ?_
    · simp [hputs, Db.puts_append, hclear.find_table, Db.find_put]
    · rw [hputs, Db.puts_append, Db.puts_append, Db.puts_cons, Db.puts_nil, Db.find_put] at hr'
      split at hr'
      · obtain rfl := Option.some.inj hr'
        refine .inr ⟨hm, ch.consumed now proof, proof, token, ?_, (challenge_lower hs hp.row).symm, hsession,
          hhash.symm⟩
        exact hm ▸ hp.spent (by simp [hputs, Db.puts_append, hclear.find_table])
      · exact .inl (hclear.wasStamped (fun i => by simp) hr' hset)
  | @stamped m id sid token ch proof s now hputs hsid hm hhash hspent hsession =>
    refine .stamped m id ch.address (fun sid' s' hr' hset => ?_) ⟨ch, hspent.row, rfl⟩
      (fun i => by simp [hputs]) (.inl ⟨token, rfl⟩)
    have hsets : db.Sets .sessions sid { s with walletVerifiedAt := some now } (db.puts w.puts) := fun i => by
      simp [hputs, Db.find_put]
    rcases hsets.cases hr' with ⟨-, rfl⟩ | ⟨-, hr'⟩
    · refine .inr ⟨hm, ch, proof, token, ?_, rfl, hsession, hhash.symm⟩
      exact hm ▸ { hspent with row := by simpa [hputs] using hspent.row }
    · exact .inl ⟨s', hr', hset, rfl, rfl⟩
  | @sessionRevoked sid s now hputs hsid =>
    refine .kept (fun sid' s' hr' hset => ?_) fun m r hr _ => ⟨r, by simpa [hputs] using hr, rfl⟩
    have hsets : db.Sets .sessions sid { s with revokedAt := some now } (db.puts w.puts) := fun i => by
      simp [hputs, Db.find_put]
    rcases hsets.cases hr' with ⟨rfl, rfl⟩ | ⟨-, hr'⟩
    · exact ⟨s, hsid, hset, rfl, rfl⟩
    · exact ⟨s', hr', hset, rfl, rfl⟩
  | @consented _ m r r' _ hputs hr _ hsame =>
    exact edited r' (fun _ _ hr hset => wasStamped_of_same (fun i => by simp [hputs]) hr hset) hr (fun _ => by
      rw [hsame])
      (fun i => by simp [hputs, Db.find_put])
  | @suspended m sid s r hputs _ _ _ _ hr =>
    exact edited { r with status := .suspended }
      (fun _ _ hr hset => wasStamped_of_same (fun i => by simp [hputs]) hr hset) hr (fun _ => rfl)
      (fun i => by simp [hputs, Db.find_put])
  | @reinstated m sid s r operator now hputs _ _ _ hr =>
    exact edited { r with status := .active }
      (fun _ _ hr hset => wasStamped_of_same (fun i => by simp [hputs]) hr hset) hr (fun _ => rfl)
      (fun i => by simp [hputs, Db.find_put])
  | expired hputs =>
    refine other fun x hx => ?_
    obtain ⟨id, r, rfl, -⟩ := hputs x hx
    simp
  | delivered hputs _ _ _ _ hsent =>
    rcases hsent with ⟨tok, rfl, -⟩ | ⟨rfl, -⟩ <;> exact other (by simp [hputs])
  | nothing _ hputs | enqueued _ hputs | challenged hputs | keyWritten _ hputs | claimed hputs | released hputs
  | abandoned hputs | paymentRecorded hputs | admitted hputs => exact other (by simp [hputs])

/-! ## Stamped sessions -/

/-- While a transaction holds a merchant's row, no session of the merchant is stamped. -/
def panel : Discipline tables where
  Later _ _ := True
  Spares _ key db db' := ∀ sid s', db'.find .sessions sid = some s' → key = (.merchants, s'.merchantID) →
    s'.walletVerifiedAt.isSome → WasStamped db sid s'
  later_refl _ := trivial
  later_trans _ _ := trivial
  spares_refl _ _ _ _ s' hr _ hset := ⟨s', hr, hset, rfl, rfl⟩
  spares_trans {_ _ key db db₁ db₂} := by
    intro h _ h' sid s₂ hr hkey hset
    obtain ⟨s₁, hr₁, hset₁, hm₁, ht₁⟩ := h' sid s₂ hr hkey hset
    obtain ⟨s, hr₀, hset₀, hm₀, ht₀⟩ := h sid s₁ hr₁ (hm₁ ▸ hkey) hset₁
    exact ⟨s, hr₀, hset₀, hm₁.trans hm₀, ht₁.trans ht₀⟩

/-- Every stamped session has shown the recipient of the moment. -/
def Elevated (env : Env) (db : Db tables) : Prop :=
  ∀ sid s, db.find .sessions sid = some s → s.walletVerifiedAt.isSome →
    ∃ r id, db.find .merchants s.merchantID = some r ∧ Shown env db s id r.recipientAddress

/-- The challenge was for the recipient the merchant has. -/
def provesRecipient (db : Db tables) (m id : Nat) : Bool :=
  (db.find .merchants m).any fun r => (db.find .challenges id).any fun ch => ch.address = r.recipientAddress

/-- A session stamped before a commit that leaves its merchant's recipient has shown it still. -/
theorem WasStamped.elevated {l : List (Commit (service env))} {sid : Nat} {s' : Session} (h : WasStamped db sid s')
    (he : Elevated env db) (hrec : Recipients env l db) (hm : db.Moves db')
    (hkept : ∀ r, db.find .merchants s'.merchantID = some r → r.status.established = true →
      ∃ r', db'.find .merchants s'.merchantID = some r' ∧ r'.recipientAddress = r.recipientAddress) :
    ∃ r id, db'.find .merchants s'.merchantID = some r ∧ Shown env db' s' id r.recipientAddress := by
  obtain ⟨s, hs, hset, hmerchant, hhash⟩ := h
  obtain ⟨r, id, hr, hshown⟩ := he sid s hs hset
  -- its challenge was consumed, so the merchant is past activation
  obtain ⟨ch, proof, token, hspent, haddress, hrest⟩ := hshown
  obtain ⟨r₁, hr₁, hest⟩ := hrec.consumed hspent.row hspent.consumedAt
  rw [hspent.merchantID] at hr₁
  obtain rfl := Option.some.inj (hr.symm.trans hr₁)
  obtain ⟨r', hr', haddr⟩ := hkept r (hmerchant ▸ hr) hest
  exact ⟨r', id, hr', Shown.moves ⟨ch, proof, token, hspent, haddress.trans haddr.symm, hrest⟩ hm hmerchant hhash⟩

theorem Elevated.step {l : List (Commit (service env))} {L : Locks tables} (h : Elevated env db)
    (hrec : Recipients env l db)
    (hm : db.Moves db') (hc : PanelChange env panel c db db' L op)
    (hprompt : ∀ m token id, op = .markAdminSessionWalletVerified m token id → provesRecipient db m id = true) :
    Elevated env db' := by
  intro sid s' hr' hset
  cases hc with
  | kept hsess hkept => exact (hsess sid s' hr' hset).elevated h hrec hm (hkept s'.merchantID)
  | stamped m id address hsess hch hsame hby =>
    rcases hsess sid s' hr' hset with hwas | ⟨hmerchant, hshown⟩
    · exact hwas.elevated h hrec hm fun r hr _ => ⟨r, (hsame _).trans hr, rfl⟩
    · have hr : ∃ r, db.find .merchants m = some r ∧ r.recipientAddress = address := by
        rcases hby with ⟨token, hop⟩ | ⟨-, hr⟩
        · obtain ⟨ch, hch, rfl⟩ := hch
          have hproves := hprompt m token id hop
          simp only [provesRecipient, hch, Option.any_some, Option.any_eq_true, decide_eq_true_eq] at hproves
          obtain ⟨r, hr, heq⟩ := hproves
          exact ⟨r, hr, heq.symm⟩
        · exact hr
      obtain ⟨r, hr, rfl⟩ := hr
      exact ⟨r, id, by rw [hmerchant, hsame, hr], hshown⟩
  | @changed m nulls id r' hclear hholds hsets hsess =>
    rcases hsess sid s' hr' hset with ⟨hwas, hno⟩ | ⟨hmerchant, hshown⟩
    · by_cases hm' : s'.merchantID = m
      · -- a session of the merchant that kept its stamp was stamped behind the change's back
        obtain ⟨s, hs, hset₀, hmerchant, -⟩ := hwas
        rcases hclear.all sid s hs (hmerchant.symm.trans hm') hset₀ with hids | ⟨r, hr⟩ | ⟨L', τ, db₀, hrely,
          hheld, hnone⟩
        · cases hids
        · exact absurd hr (hno r)
        · obtain ⟨s₀, hs₀, hset₁, -⟩ := hrely.spares hheld sid s hs (by rw [← hmerchant, hm']) hset₀
          rw [hnone s₀ hs₀] at hset₁
          cases hset₁
      · exact hwas.elevated h hrec hm fun r hr _ => ⟨r, by rw [hsets, if_neg hm', hr], rfl⟩
    · exact ⟨r', id, by rw [hmerchant, hsets.at], hshown⟩

/-! ## Every run -/

/-- If the commit is a stamp that follows an activation, the merchant's recipient is the address of the challenge its
request consumed, and no other caller holds the merchant's row. -/
def promptStamp {env : Env} (s : World (service env)) (ch : Choice (service env)) (e : Commit (service env)) : Bool :=
  match e.op with
  | .markAdminSessionWalletVerified m _ id =>
    provesRecipient e.before m id && s.callers.entries.all fun y => y.1 == ch.caller || !holding m y.2
  | _ => true

def Prompt {env : Env} (s : World (service env)) (ch : Choice (service env)) (s' : World (service env)) : Prop :=
  ∀ e ∈ s'.log.drop s.log.length, promptStamp s ch e = true

instance {s s' : World (service env)} {ch : Choice (service env)} : Decidable (Prompt s ch s') :=
  inferInstanceAs (Decidable (∀ e ∈ s'.log.drop s.log.length, _))

theorem Prompt.stamp {s s' : World (service env)} {ch : Choice (service env)} {e : Commit (service env)}
    (h : Prompt s ch s')
    (hlog : s'.log = s.log ++ [e]) {m id : Nat} {token : String}
    (hop : e.op = .markAdminSessionWalletVerified m token id) :
    provesRecipient e.before m id = true ∧ ∀ y ∈ s.callers.entries, y.1 ≠ ch.caller → holding m y.2 = false := by
  have hstamp := h e (by simp [hlog])
  simp only [promptStamp, hop, Bool.and_eq_true, List.all_eq_true, Bool.or_eq_true, beq_iff_eq,
    Bool.not_eq_true'] at hstamp
  exact ⟨hstamp.1, fun y hy hne => (hstamp.2 y hy).resolve_left hne⟩

/-- A commit that is made, stamps included, for the recipient of the moment. -/
def Proper (env : Env) (e : Commit (service env)) : Prop :=
  Change env panel e.caller e.clock e.before e.work e.op ∧
    ∀ m token id, e.op = .markAdminSessionWalletVerified m token id → provesRecipient e.before m id = true

theorem fair_of_prompt {Y : Commit (service env) → Prop} {s s' : World (service env)} {ch : Choice (service env)}
    (h : Inv panel (spec env panel) Y empty s) (hs : s.step ch = some s') (ht : Prompt s ch s') :
    Fair panel s ch s' := by
  refine ⟨trivial, fun {q tx k} hq hl hk => ?_, fun _ _ => trivial, fun _ => trivial⟩
  rcases step_commits hs with ⟨hdb, -⟩ | ⟨p, tx', r, told, hp, hl', hr, -, hdb, hlog⟩
  · rw [hdb]
    exact fun sid s₁ hr₁ _ hset => ⟨s₁, hr₁, hset, rfl, rfl⟩
  · have hpanel := (h.post hl' hr).panel h.sound
    rw [hdb]
    intro sid s₁ hr₁ hkey hset
    -- whoever stamps a session holding the merchant's row is the only one to hold it
    have hne : p ≠ q := fun he => hq (he.symm.trans hp.symm)
    have alone : ∀ {m : Nat}, Holds tx'.work.locks m → s₁.merchantID = m → WasStamped s.db sid s₁ := by
      rintro m hholds rfl
      exact absurd (hkey ▸ hk) ((h.apart hne hl' hl).alone hholds _)
    cases hpanel with
    | kept hsess => exact hsess sid s₁ hr₁ hset
    | stamped _ _ _ hsess _ _ hby =>
      rcases hsess sid s₁ hr₁ hset with hwas | ⟨hm, -⟩
      · exact hwas
      · rcases hby with ⟨token, hop⟩ | ⟨hholds, -⟩
        · have hnobody := (ht.stamp hlog hop).2 ⟨q, .busy tx⟩ (AList.mem_lookup_iff.1 hl) hq
          rw [hkey, hm] at hk
          simp [holding, hk] at hnobody
        · exact alone hholds hm
    | changed _ _ _ hholds _ hsess =>
      rcases hsess sid s₁ hr₁ hset with ⟨hwas, -⟩ | ⟨hm, -⟩
      · exact hwas
      · exact alone hholds hm

theorem elevated_reached {log : List (Commit (service env))} (h : History (Proper env) empty log db) :
    Recipients env log db ∧ Elevated env db := by
  refine h.inv (fun l db => Recipients env l db ∧ Elevated env db) ⟨recipients_empty, ?_⟩ ?_
  · exact fun sid s hs => absurd hs (by simp [Db.find, empty])
  · rintro l e hs hm ⟨hc, hstamp⟩ ⟨hrec, helev⟩
    exact ⟨hrec.step hs hm hc.merchant, helev.step hrec hm (hc.panel hs) hstamp⟩

/-- If every stamp is prompt, then whenever a transaction has passed `lockWalletAuthenticatedAdmin`, a challenge signed
by the recipient the merchant has was consumed in a request with the session's token. -/
theorem panel_proves_recipient (env : Env) {s : World (service env)} {chs : List (Choice (service env))}
    (hrun : (World.init (service env) empty).run chs = some s)
    (hprompt : Along Prompt (World.init (service env) empty) chs)
    {p m : Nat} {tx : Tx (service env)} {token : String} (htx : s.callers.lookup p = some (.busy tx))
    (hpassed : .walletAuthenticated m token ∈ tx.work.notes) :
    ∃ r id ch proof token', s.db.find .merchants m = some r ∧ Spent env s.db m id ch proof ∧
      ch.address = r.recipientAddress ∧ proof.session = some token' ∧ env.lib.hash token' = env.lib.hash token := by
  have hinv : Inv panel (spec env panel) (Proper env) empty s :=
    Inv.run (fun _ e => safe_code e) fair_of_prompt
      (fun _ _ ht hlog hpost => ⟨hpost, fun m token id hop => (ht.stamp hlog hop).1⟩) (.init empty_sound) hprompt hrun
  obtain ⟨r, sid, s₁, hr, -, hs₁, hm, hhash, hset⟩ := hinv.notes htx _ hpassed
  obtain ⟨r', id, hr', ch, proof, token', hspent, haddress, hsession, ht⟩ :=
    (elevated_reached hinv.history).2 sid s₁ hs₁ hset
  obtain rfl := Option.some.inj ((hm ▸ hr').symm.trans hr)
  exact ⟨r', id, ch, proof, token', hr, hm ▸ hspent, haddress, hsession, ht.trans hhash⟩

def otherSession : String := adminSessionPrefix ++ "t"

/-- The session of the registration's mail. -/
def panelOpened : List (Choice (service sampleEnv)) :=
  sampleRegistration ++ .start 1 (.verifyEmail sampleToken true) :: steps 1 { time := 10, text := "s" } 8
    ++ [.finish 1 .made]

/-- Caller `p` asks with the session for a challenge, `id` and `nonce`, to the merchant's recipient. -/
def panelChallenge (p : Nat) (session : String) (time : Int) (nonce : String) (id : Nat) :
    List (Choice (service sampleEnv)) :=
  .start p (.adminWalletChallenge session "") :: steps p { time := time } 3 ++ [.finish p .made] ++ steps p {} 2
    ++ [.finish p .made] ++ steps p { time := time, text := nonce, id := id } 5 ++ [.finish p .made]

/-- A request with the session answers the first challenge and stops after its first transaction. -/
def panelActivated (p : Nat) (time : Int) : List (Choice (service sampleEnv)) :=
  .start p (.adminVerifyWallet sampleSession 0 (sampleMessage sampleAddress "n" .verifyRecipient) sampleSignature)
    :: steps p { time := time } 3 ++ [.finish p .made] ++ steps p { time := time, text := "k" } 9 ++ [.finish p .made]

/-- It stamps the session. -/
def panelStamped (p : Nat) (time : Int) : List (Choice (service sampleEnv)) :=
  steps p { time := time } 4 ++ [.finish p .made]

/-- Caller `p` asks for the keys with the session, up to the point where the session has been checked. -/
def panelPassed (p : Nat) (time : Int) : List (Choice (service sampleEnv)) :=
  .start p (.listKeys (.session sampleSession)) :: steps p { time := time } 3 ++ [.finish p .made] ++ steps p
    { time := time } 6

/-- The session activates the merchant, is stamped and asks for the keys. -/
def panelRun : List (Choice (service sampleEnv)) :=
  panelOpened ++ panelChallenge 2 sampleSession 20 "n" 0 ++ panelActivated 3 30 ++ panelStamped 3 30 ++ panelPassed 4 40

/-- Caller `p` has an open transaction that passed `lockWalletAuthenticatedAdmin` for the session. -/
def passed {env : Env} (s : World (service env)) (p m : Nat) (token : String) : Bool :=
  match s.callers.lookup p with
  | some (.busy tx) => tx.work.notes.any fun | .walletAuthenticated m' token' => m' = m && token' = token
  | _ => false

theorem exists_of_passed {s : World (service env)} {p m : Nat} {token : String} (h : passed s p m token = true) :
    ∃ tx, s.callers.lookup p = some (.busy tx) ∧ Point.walletAuthenticated m token ∈ tx.work.notes := by
  unfold passed at h
  split at h
  · rename_i tx hl
    obtain ⟨⟨m', token'⟩, hmem, he⟩ := List.any_eq_true.1 h
    obtain ⟨rfl, rfl⟩ : m' = m ∧ token' = token := by simpa using he
    exact ⟨tx, hl, hmem⟩
  · cases h

theorem panel_proves_recipient_sample : ∃ s tx, sampleWorld.run panelRun = some s ∧
    s.callers.lookup 4 = some (.busy tx) ∧
    Point.walletAuthenticated 0 sampleSession ∈ tx.work.notes ∧
    ∃ r id ch proof token', s.db.find .merchants 0 = some r ∧ Spent sampleEnv s.db 0 id ch proof ∧
      ch.address = r.recipientAddress ∧ proof.session = some token' ∧ token' = sampleSession := by
  have hrun : ((sampleWorld.run panelRun).any fun s => passed s 4 0 sampleSession) = true ∧
      Along Prompt sampleWorld panelRun := by decide +kernel
  obtain ⟨s, hs, hpassed⟩ := (Option.any_eq_true ..).1 hrun.1
  obtain ⟨tx, htx, hnote⟩ := exists_of_passed hpassed
  exact ⟨s, tx, hs, htx, hnote, panel_proves_recipient sampleEnv hs hrun.2 htx hnote⟩

/-- The activation is followed by its stamp only after another session has changed the recipient. -/
def lateStamp : List (Choice (service sampleEnv)) :=
  panelOpened
    ++ .start 2 (.adminLink "a@b.org") :: steps 2 { time := 200, text := "zyxwvutsrqponmlkjihgfedcba", id := 1 } 9
    ++ [.finish 2 .made]
    ++ .start 3 (.verifyEmail "zyxwvutsrqponmlkjihgfedcba" true) :: steps 3 { time := 210, text := "t", id := 1 } 8
    ++ [.finish 3 .made]
    ++ panelChallenge 4 sampleSession 220 "n" 0 ++ panelActivated 5 230
    ++ panelChallenge 6 otherSession 240 "o" 1
    ++ .start 7 (.adminVerifyWallet otherSession 1 (sampleMessage sampleAddress "o" .authenticateAdmin) sampleSignature)
      :: steps 7 { time := 250 } 3 ++ [.finish 7 .made] ++ steps 7 { time := 250 } 7 ++ [.finish 7 .made]
    ++ .start 8 (.adminRecipientChallenge otherSession otherAddress) :: steps 8 { time := 260 } 3 ++ [.finish 8 .made]
    ++ steps 8 { time := 260, text := "p", id := 2 } 11 ++ [.finish 8 .made]
    ++ .start 9 (.adminVerifyRecipientChange otherSession 2 (sampleMessage otherAddress "p" .changeRecipient)
      sampleSignature)
      :: steps 9 { time := 270 } 3 ++ [.finish 9 .made] ++ steps 9 { time := 270, id := 1 } 14 ++ [.finish 9 .made]
    ++ panelStamped 5 280 ++ panelPassed 10 290

/-- The session passes for the new recipient, which signed nothing in a request with its token. -/
theorem lateStamp_elevates : ∃ s tx r, sampleWorld.run lateStamp = some s ∧ s.callers.lookup 10 = some (.busy tx) ∧
    Point.walletAuthenticated 0 sampleSession ∈ tx.work.notes ∧ s.db.find .merchants 0 = some r ∧
    ¬ ∃ id ch proof, Spent sampleEnv s.db 0 id ch proof ∧ ch.address = r.recipientAddress ∧
      proof.session = some sampleSession := by
  have hrun : ((sampleWorld.run lateStamp).any fun s => passed s 10 0 sampleSession &&
      (s.db.find .merchants 0).any fun r => (s.db.rows .challenges).entries.all fun x =>
        x.2.address != r.recipientAddress || x.2.proof.all fun proof =>
          proof.session != some sampleSession) = true := by
    decide +kernel
  obtain ⟨s, hs, hfacts⟩ := (Option.any_eq_true ..).1 hrun
  obtain ⟨hpassed, hnone⟩ := (Bool.and_eq_true ..).mp hfacts
  obtain ⟨tx, htx, hnote⟩ := exists_of_passed hpassed
  obtain ⟨r, hr, hnone⟩ := (Option.any_eq_true ..).1 hnone
  refine ⟨s, tx, r, hs, htx, hnote, hr, ?_⟩
  rintro ⟨id, ch, proof, hspent, haddress, hsession⟩
  have := List.all_eq_true.1 hnone ⟨id, ch⟩ (AList.mem_lookup_iff.1 hspent.row)
  simp [haddress, hspent.spentOn, hsession] at this

end Eth402.Merchants
