/-
Merchants and their suspensions, over every run of the service: a merchant is suspended exactly while one suspension is
open, and from the commit of a suspension to the next reinstatement no credential of the merchant and no payment to it
gets anything written, however early the request was let in.
-/
import Eth402.Merchant.Runs

namespace Eth402.Merchants

open Lib Lib.Relational

variable {env : Env} {D : Discipline tables} {p : Nat} {c : Int} {db db' : Db tables} {w : Work tables} {op : Op}

/-! ## What commits do to the merchants -/

/-- What a commit does to the merchants, their suspensions, their challenges and the history of their recipients. -/
inductive MerchantChange (env : Env) (op : Op) (db db' : Db tables) : Prop
  | same : db.Same .merchants db' → db.Same .suspensions db' → db.Same .challenges db' → db.Same .history db' →
      MerchantChange env op db db'
  | registered {m : Nat} {r : Merchant} :
    db.find .merchants m = none → r.status = .pending → db.Sets .merchants m r db' →
      db.Same .suspensions db' → db.Same .challenges db' → db.Same .history db' → MerchantChange env op db db'
  /-- Another column. -/
  | edited {m : Nat} {r : Merchant} (r' : Merchant) : db.find .merchants m = some r → r'.status = r.status →
      r'.recipientAddress = r.recipientAddress → (r.emailVerifiedAt.isSome → r'.emailVerifiedAt.isSome) →
      db.Sets .merchants m r' db' → db.Same .suspensions db' → db.Same .challenges db' → db.Same .history db' →
      MerchantChange env op db db'
  | challenged {id : Nat} {ch : WalletChallenge} : db.find .challenges id = none → ch.consumedAt = none →
      db.Same .merchants db' → db.Same .suspensions db' → db.Sets .challenges id ch db' → db.Same .history db' →
      MerchantChange env op db db'
  | replaced {m id : Nat} {ch : WalletChallenge} {r : Merchant} (address : String) : db.find .merchants m = some r →
      unproven r = true → db.find .challenges id = none → ch.consumedAt = none →
      db.Sets .merchants m { r with recipientAddress := address } db' → db.Same .suspensions db' →
      db.Sets .challenges id ch db' → db.Same .history db' → MerchantChange env op db db'
  /-- A first proof of the pending recipient, or a later one of another. -/
  | proven {m id hid : Nat} {ch : WalletChallenge} {r : Merchant} {proof : Proof} {h : Recipient} (now : Int)
    (r' : Merchant) :
      Proves env db m id ch proof → db.find .merchants m = some r →
      unproven r = true ∧ r.recipientAddress = lower ch.address ∨ r.status = .active ∧ CooledDown env db m now →
      r'.status = .active → r'.recipientAddress = lower ch.address → r'.emailVerifiedAt = r.emailVerifiedAt →
      db.Sets .merchants m r' db' → db.Same .suspensions db' → db.Sets .challenges id (ch.consumed now proof) db' →
      db.find .history hid = none → Records m id ch now h → db.Sets .history hid h db' → MerchantChange env op db db'
  /-- The proof of a session. -/
  | spent {m id : Nat} {ch : WalletChallenge} {r : Merchant} {proof : Proof} (now : Int) : Proves env db m id ch proof →
      db.find .merchants m = some r → r.status = .active → db.Same .merchants db' → db.Same .suspensions db' →
      db.Sets .challenges id (ch.consumed now proof) db' → db.Same .history db' → MerchantChange env op db db'
  | suspended {m sid : Nat} {s : Suspension} {r : Merchant} :
    op = .suspend m → db.find .suspensions sid = none → s.merchantID = m →
      s.reinstatedAt = none → (∀ i s', db.find .suspensions i = some s' → s'.merchantID = m → s'.reinstatedAt.isSome) →
      db.find .merchants m = some r → r.status.established = true →
      db.Sets .merchants m { r with status := .suspended } db' → db.Sets .suspensions sid s db' →
      db.Same .challenges db' → db.Same .history db' → MerchantChange env op db db'
  | reinstated {m sid : Nat} {s : Suspension} {r : Merchant} (s' : Suspension) : op = .reinstate m →
      db.find .suspensions sid = some s → s.merchantID = m →
      s.reinstatedAt = none → s'.merchantID = m → s'.reinstatedAt.isSome → db.find .merchants m = some r →
      db.Sets .merchants m { r with status := .active } db' → db.Sets .suspensions sid s' db' →
      db.Same .challenges db' → db.Same .history db' → MerchantChange env op db db'

theorem Change.merchant (h : Change env D p c db w op) : MerchantChange env op db (db.puts w.puts) := by
  have other : (∀ x ∈ w.puts, x.table ≠ .merchants ∧ x.table ≠ .suspensions ∧ x.table ≠ .challenges ∧
    x.table ≠ .history) →
      MerchantChange env op db (db.puts w.puts) := fun hw =>
    .same (Db.same_puts db fun x hx => (hw x hx).1) (Db.same_puts db fun x hx => (hw x hx).2.1)
      (Db.same_puts db fun x hx => (hw x hx).2.2.1) (Db.same_puts db fun x hx => (hw x hx).2.2.2)
  cases h with
  | registered hputs hm _ _ hstatus _ _ =>
    rw [hputs]
    refine .registered hm hstatus (fun i => ?_) (fun i => ?_) (fun i => ?_) (fun i => ?_) <;> simp [Db.find_put]
  | @emailVerified t tok r now issued hputs _ _ hr hissued =>
    refine .edited { r with emailVerifiedAt := r.emailVerifiedAt <|> some now } hr rfl rfl (fun he => ?_) (fun i => ?_)
      (fun i => ?_) (fun i => ?_) (fun i => ?_)
    · cases hv : r.emailVerifiedAt with
      | none => rw [hv] at he; cases he
      | some _ => rfl
    all_goals rcases hissued with rfl | ⟨sid, s, rfl, -⟩ <;> simp [hputs, Db.find_put]
  | challenged hputs hid _ hc _ =>
    rw [hputs]
    refine .challenged hid hc (fun i => ?_) (fun i => ?_) (fun i => ?_) (fun i => ?_) <;> simp [Db.find_put]
  | @replaced m id ch r address hputs hr hpending hid _ hc =>
    rw [hputs]
    refine .replaced address hr hpending hid hc (fun i => ?_) (fun i => ?_) (fun i => ?_) (fun i =>
      ?_) <;> simp [Db.find_put]
  | @activated m id hid kid ch r h key proof now hputs hp hr hpending haddress hhid hrec =>
    rw [hputs]
    refine .proven now { r with walletVerifiedAt := some now, status := .active } hp hr (.inl ⟨hpending, haddress⟩) rfl
      haddress rfl (fun i => ?_) (fun i => ?_) (fun i => ?_) hhid hrec (fun i => ?_) <;> simp [Db.find_put]
  | @changed m id hid ch r h proof now nulls hputs hp hr hactive hhid hrec hcool hclear hholds
  | @changedByAdmin m id hid sid ch r h s proof now nulls token hputs hp hr hactive hhid hrec hcool hclear =>
    rw [hputs]
    refine .proven now (r.withRecipient (lower ch.address) now) hp hr (.inr ⟨hactive, hcool⟩) hactive rfl rfl
      (fun i => ?_) (fun i => ?_) (fun i => ?_) hhid hrec (fun i => ?_)
    all_goals simp [Db.puts_append, hclear.find_table, Db.find_put]
  | @authenticated m id sid ch r s proof now token hputs hp hr hactive =>
    rw [hputs]
    refine .spent now hp hr hactive (fun i => ?_) (fun i => ?_) (fun i => ?_) (fun i => ?_) <;> simp [Db.find_put]
  | @consented _ m r r' _ hputs hr _ hsame =>
    rw [hputs]
    refine .edited r' hr (by rw [hsame]) (by rw [hsame]) (fun he => by rw [hsame]; exact he) (fun i => ?_) (fun i => ?_)
      (fun i => ?_) (fun i => ?_) <;> simp [Db.find_put]
  | suspended hputs hsid hm hopen hall hr hest =>
    rw [hputs]
    refine .suspended rfl hsid hm hopen hall hr hest (fun i => ?_) (fun i => ?_) (fun i => ?_) (fun i => ?_) <;>
      simp [Db.find_put]
  | @reinstated m sid s r operator now hputs hs hm hopen hr =>
    rw [hputs]
    refine .reinstated { s with reinstatedAt := some now, reinstatedBy := some operator } rfl hs hm hopen hm rfl hr
      (fun i => ?_) (fun i => ?_) (fun i => ?_) (fun i => ?_) <;> simp [Db.find_put]
  | expired hputs =>
    refine other fun x hx => ?_
    obtain ⟨id, r, rfl, -⟩ := hputs x hx
    simp
  | delivered hputs _ _ _ _ hsent =>
    rcases hsent with ⟨tok, rfl, -⟩ | ⟨rfl, -⟩ <;> exact other (by simp [hputs])
  | nothing _ hputs | enqueued _ hputs | stamped hputs | sessionRevoked hputs | keyWritten _ hputs | claimed hputs
  | released hputs | abandoned hputs | paymentRecorded hputs | admitted hputs => exact other (by simp [hputs])

/-! ## Suspensions -/

/-- The suspension is open, for the merchant. -/
def OpenFor (db : Db tables) (m sid : Nat) : Prop :=
  ∃ s, db.find .suspensions sid = some s ∧ s.merchantID = m ∧ s.reinstatedAt = none

/-- Suspended is to have an open suspension. -/
def Suspensions (db : Db tables) : Prop :=
  ∀ {m r}, db.find .merchants m = some r → (r.status = .suspended ↔ ∃ sid, OpenFor db m sid)

/-- The unique index on open suspensions. -/
theorem OpenFor.unique {m sid sid' : Nat} (hs : db.Sound) (h : OpenFor db m sid) (h' : OpenFor db m sid') :
    sid = sid' := by
  obtain ⟨s, hf, hm, ho⟩ := h
  obtain ⟨s', hf', hm', ho'⟩ := h'
  exact hs.unique hf hf' (s := .openSuspension m) (by simp [slots, ho, hm]) (by simp [slots, ho', hm'])

/-- The suspensions are as they were, and whoever is suspended was; a merchant that was not there has none. -/
theorem Suspensions.keep (h : Suspensions db) (hsame : db.Same .suspensions db')
    (hm : ∀ m r', db'.find .merchants m = some r' →
      (∃ r, db.find .merchants m = some r ∧ (r'.status = .suspended ↔ r.status = .suspended)) ∨
        r'.status ≠ .suspended ∧ ∀ sid, ¬ OpenFor db m sid) : Suspensions db' := by
  intro m r' hr'
  have hopen : (∃ sid, OpenFor db' m sid) ↔ ∃ sid, OpenFor db m sid := by
    simp only [OpenFor, hsame _]
  rw [hopen]
  rcases hm m r' hr' with ⟨r, hr, hiff⟩ | ⟨hne, hnone⟩
  · exact hiff.trans (h hr)
  · exact ⟨fun he => absurd he hne, fun ⟨sid, hsid⟩ => absurd hsid (hnone sid)⟩

/-- One merchant's row is rewritten without suspending or reinstating it. -/
theorem Suspensions.rewrite (h : Suspensions db) (hsame : db.Same .suspensions db') {m : Nat} {r r' : Merchant}
    (hr : db.find .merchants m = some r) (hset : db.Sets .merchants m r' db')
    (hiff : r'.status = .suspended ↔ r.status = .suspended) : Suspensions db' := by
  refine h.keep hsame fun m₁ r₁ hr₁ => .inl ?_
  rcases hset.cases hr₁ with ⟨rfl, rfl⟩ | ⟨-, hr₁⟩
  · exact ⟨r, hr, hiff⟩
  · exact ⟨r₁, hr₁, Iff.rfl⟩

theorem Suspensions.suspended (h : Suspensions db) {m sid : Nat} {s : Suspension} {r : Merchant}
    (hnew : db.find .suspensions sid = none) (hm : s.merchantID = m) (ho : s.reinstatedAt = none)
    (hset : db.Sets .merchants m { r with status := .suspended } db') (hsets : db.Sets .suspensions sid s db') :
    Suspensions db' := by
  intro m' r' hr'
  rcases hset.cases hr' with ⟨rfl, rfl⟩ | ⟨hne, hr'⟩
  · exact ⟨fun _ => ⟨sid, s, hsets.at, hm, ho⟩, fun _ => rfl⟩
  · rw [h hr']
    constructor
    · rintro ⟨i, s', hf, hrest⟩
      have hi : i ≠ sid := fun he => by rw [he, hnew] at hf; cases hf
      exact ⟨i, s', by rw [hsets, if_neg hi, hf], hrest⟩
    · rintro ⟨i, s', hf, hm', ho'⟩
      rcases hsets.cases hf with ⟨-, rfl⟩ | ⟨-, hf⟩
      · exact absurd (hm'.symm.trans hm) hne
      · exact ⟨i, s', hf, hm', ho'⟩

theorem Suspensions.reinstated (h : Suspensions db) (hs : db.Sound) {m sid : Nat} {s' : Suspension} {r : Merchant}
    (hopen : OpenFor db m sid) (hm : s'.merchantID = m) (hc : s'.reinstatedAt.isSome)
    (hset : db.Sets .merchants m { r with status := .active } db') (hsets : db.Sets .suspensions sid s' db') :
    Suspensions db' := by
  intro m' r' hr'
  -- an open suspension of afterwards is another one of before
  have back : ∀ i, OpenFor db' m' i → i ≠ sid ∧ OpenFor db m' i := by
    rintro i ⟨s₁, hf, hm₁, ho₁⟩
    rcases hsets.cases hf with ⟨-, rfl⟩ | ⟨hne, hf⟩
    · rw [ho₁] at hc
      cases hc
    · exact ⟨hne, s₁, hf, hm₁, ho₁⟩
  rcases hset.cases hr' with ⟨rfl, rfl⟩ | ⟨hne, hr'⟩
  · refine ⟨fun he => (by cases he), fun ⟨i, hi⟩ => ?_⟩
    exact absurd ((back i hi).2.unique hs hopen) (back i hi).1
  · rw [h hr']
    refine ⟨fun ⟨i, s₁, hf, hm₁, ho₁⟩ => ?_, fun ⟨i, hi⟩ => ⟨i, (back i hi).2⟩⟩
    have hi : i ≠ sid := by
      rintro rfl
      obtain ⟨s₂, hf₂, hm₂, -⟩ := hopen
      obtain rfl := Option.some.inj (hf.symm.trans hf₂)
      exact hne (hm₁.symm.trans hm₂)
    exact ⟨i, s₁, by rw [hsets, if_neg hi, hf], hm₁, ho₁⟩

theorem unproven_pending {r : Merchant} (h : unproven r = true) : r.status = .pending ∧ r.emailVerifiedAt.isSome := by
  simp_all [unproven]

theorem Suspensions.step (h : Suspensions db) (hs : db.Sound) (hc : MerchantChange env op db db') :
    Suspensions db' := by
  cases hc with
  | same hm hsusp | challenged _ _ hm hsusp | spent _ _ _ _ hm hsusp =>
    exact h.keep hsusp fun m r hr => .inl ⟨r, (hm m).symm.trans hr, Iff.rfl⟩
  | registered hnone hstatus hset hsusp =>
    refine h.keep hsusp fun m₁ r₁ hr₁ => ?_
    rcases hset.cases hr₁ with ⟨rfl, rfl⟩ | ⟨-, hr₁⟩
    · refine .inr ⟨(by rw [hstatus]; decide), fun sid ⟨s, hf, hm, _⟩ => ?_⟩
      -- a suspension refers to a merchant that is there
      have := hs.parents hf (.merchants, m₁) (by simp [parents, hm])
      rw [hnone] at this
      cases this
    · exact .inl ⟨r₁, hr₁, Iff.rfl⟩
  | edited r' hr hstatus _ _ hset hsusp => exact h.rewrite hsusp hr hset (by rw [hstatus])
  | replaced _ hr _ _ _ hset hsusp => exact h.rewrite hsusp hr hset Iff.rfl
  | proven _ r' _ hr hwas hstatus _ _ hset hsusp =>
    refine h.rewrite hsusp hr hset ?_
    rcases hwas with ⟨hpending, -⟩ | ⟨hactive, -⟩
    · rw [hstatus, (unproven_pending hpending).1]
      decide
    · rw [hstatus, hactive]
  | suspended _ hnew hm ho _ _ _ hset hsets => exact h.suspended hnew hm ho hset hsets
  | reinstated s' _ hf hm ho hm' hclosed _ hset hsets => exact h.reinstated hs ⟨_, hf, hm, ho⟩ hm' hclosed hset hsets

/-! ## While a merchant is suspended -/

/-- The merchant whose credentials the transaction asks for. -/
def Op.guarded : Op → Option Nat
  | .createAPIKey m | .revokeAPIKey m | .authenticatedWalletChallenge m | .verifyAuthenticatedWallet m
  | .adminWalletChallenge m | .verifyAdminWallet m | .verifyAdminRecipientChange m | .setStatsConsent m
  | .setPublicProfileConsent m => some m
  | _ => none

/-- A write with the merchant's credentials, or the admission of a payment to it. -/
def Guarded {env : Env} (e : Commit (service env)) (m : Nat) : Prop :=
  Op.guarded e.op = some m ∨
    ∃ id row, e.op = .createSettlementIntent id ∧ ⟨.payments, id, row⟩ ∈ e.work.puts ∧ row.merchantID = some m

theorem Op.guarded_of_mayRead {op : Op} (h : op.mayRead = true) : op.guarded = none := by
  cases op with
  | _ => first | rfl | cases h

theorem Change.active_of_guarded (h : Change env D p c db w op) {m : Nat} (hop : op.guarded = some m) :
    Active db m := by
  cases h with
  | nothing hread => rw [Op.guarded_of_mayRead hread] at hop; cases hop
  | enqueued hreg => rcases hreg with rfl | rfl <;> cases hop
  | challenged _ _ _ _ hwho =>
    rcases hwho with rfl | rfl | ⟨rfl | rfl, ha⟩
    · cases hop
    · cases hop
    · cases hop; exact ha
    · cases hop; exact ha
  | changed _ _ hr ha | authenticated _ _ hr ha | changedByAdmin _ _ hr ha => cases hop; exact ⟨_, hr, ha⟩
  | keyWritten hwho _ ha => rcases hwho with rfl | rfl <;> (cases hop; exact ha)
  | consented hwho _ hr ha => rcases hwho with rfl | rfl <;> (cases hop; exact ⟨_, hr, ha⟩)
  | _ => cases hop

theorem Change.active_of_admitted {id : Nat} (h : Change env D p c db w (.createSettlementIntent id)) {m : Nat}
    {row : Payment}
    (hrow : ⟨.payments, id, row⟩ ∈ w.puts) (hm : row.merchantID = some m) : Active db m := by
  cases h with
  | nothing _ hputs => simp [hputs] at hrow
  | enqueued hreg => rcases hreg with hreg | hreg <;> cases hreg
  | challenged _ _ _ _ hwho => rcases hwho with hwho | hwho | ⟨hwho | hwho, -⟩ <;> cases hwho
  | keyWritten hwho | consented hwho => rcases hwho with hwho | hwho <;> cases hwho
  | admitted hputs _ _ hm' ha =>
    rw [hputs] at hrow
    cases List.mem_singleton.1 hrow
    obtain rfl := Option.some.inj (hm'.symm.trans hm)
    exact ha

theorem Guarded.active {e : Commit (service env)} {m : Nat} (hg : Guarded e m)
    (h : Change env D e.caller e.clock e.before e.work e.op) : Active e.before m := by
  rcases hg with hop | ⟨id, row, hop, hrow, hm⟩
  · exact h.active_of_guarded hop
  · rw [hop] at h
    exact h.active_of_admitted hrow hm

/-- The merchant is suspended. -/
def Suspended (db : Db tables) (m : Nat) : Prop := ∃ r, db.find .merchants m = some r ∧ r.status = .suspended

theorem Change.suspends {m : Nat} (h : Change env D p c db w (.suspend m)) : Suspended (db.puts w.puts) m := by
  cases h with
  | nothing hread => cases hread
  | enqueued hreg => rcases hreg with hreg | hreg <;> cases hreg
  | challenged _ _ _ _ hwho => rcases hwho with hwho | hwho | ⟨hwho | hwho, -⟩ <;> cases hwho
  | keyWritten hwho | consented hwho => rcases hwho with hwho | hwho <;> cases hwho
  | suspended hputs => exact ⟨_, by rw [hputs]; simp; rfl, rfl⟩

/-- Only a reinstatement ends a suspension. -/
theorem Suspended.step {m : Nat} (h : Suspended db m) (hc : MerchantChange env op db db') (hop : op ≠ .reinstate m) :
    Suspended db' m := by
  obtain ⟨r, hr, hst⟩ := h
  -- a row written is another merchant's, or the merchant's and still suspended
  have set : ∀ {m₁ : Nat} {r' : Merchant}, db.Sets .merchants m₁ r' db' → (m₁ = m → r'.status = .suspended) →
      Suspended db' m := by
    intro m₁ r' hset hsame
    by_cases he : m = m₁
    · subst he
      exact ⟨r', hset.at, hsame rfl⟩
    · exact ⟨r, by rw [hset, if_neg he, hr], hst⟩
  have same : ∀ {r₁ : Merchant}, db.find .merchants m = some r₁ → r₁.status = .suspended := fun h₁ =>
    Option.some.inj (hr.symm.trans h₁) ▸ hst
  cases hc with
  | same hm | challenged _ _ hm | spent _ _ _ _ hm => exact ⟨r, (hm m).trans hr, hst⟩
  | registered hnone _ hset =>
    refine set hset fun he => ?_
    rw [he, hr] at hnone
    cases hnone
  | edited r' hr₁ hstatus _ _ hset => exact set hset fun he => hstatus.trans (same (he ▸ hr₁))
  | replaced _ hr₁ _ _ _ hset =>
    refine set hset fun he => ?_
    have hs₁ := same (he ▸ hr₁)
    exact hs₁
  | proven _ r' _ hr₁ hwas _ _ _ hset =>
    refine set hset fun he => ?_
    have hs₁ := same (he ▸ hr₁)
    rcases hwas with ⟨hpending, -⟩ | ⟨hactive, -⟩
    · rw [(unproven_pending hpending).1] at hs₁; cases hs₁
    · rw [hactive] at hs₁; cases hs₁
  | suspended _ _ _ _ _ _ _ hset => exact set hset fun _ => rfl
  | reinstated _ hre _ _ _ _ _ _ hset => exact set hset fun he => absurd (he ▸ hre) hop

theorem suspensions_empty : Suspensions empty := fun hr => absurd hr (by simp [Db.find, empty])

theorem suspensions_reached {s : World (service env)} {chs : List (Choice (service env))}
    (h : (World.init (service env) empty).run chs = some s) : Suspensions s.db :=
  (committed h).history.inv (fun _ db => Suspensions db) suspensions_empty fun _ _ hs _ hc hi => hi.step hs hc.merchant

/-- A merchant is suspended exactly while one suspension of it is open; and between the commit of a suspension and that
of the next reinstatement, nothing is committed that was asked for with the merchant's credentials or admits a payment
to it. -/
theorem suspension_stops_writes (env : Env) {s : World (service env)} {chs : List (Choice (service env))}
    (h : (World.init (service env) empty).run chs = some s) :
    (∀ m r, s.db.find .merchants m = some r → (r.status = .suspended ↔ ∃! sid, OpenFor s.db m sid)) ∧
      ∀ m l₁ e l₂ e' l₃, s.log = l₁ ++ e :: (l₂ ++ e' :: l₃) → e.op = .suspend m → (∀ x ∈ l₂, x.op ≠ .reinstate m) →
        ¬ Guarded e' m := by
  have hinv := committed h
  constructor
  · intro m r hr
    rw [suspensions_reached h hr]
    exact ⟨fun ⟨sid, hsid⟩ => ⟨sid, hsid, fun i hi => hi.unique hinv.sound hsid⟩, fun ⟨sid, hsid, _⟩ => ⟨sid, hsid⟩⟩
  · intro m l₁ e l₂ e' l₃ hlog hop hbetween hguarded
    rw [← List.cons_append, ← List.append_assoc] at hlog
    obtain ⟨hist, hc', -⟩ := hinv.history.split hlog
    have hc := (hinv.history.mem (hlog ▸ by simp : e ∈ s.log)).1
    -- suspended by the one commit, and still when the other is made
    have hsusp : Suspended e'.before m := by
      refine hist.since (fun db => Suspended db m) rfl ?_ fun x hx _ _ hcx hs => hs.step hcx.merchant (hbetween x hx)
      rw [hop] at hc
      exact hc.suspends
    obtain ⟨r, hr, hst⟩ := hsusp
    obtain ⟨r', hr', hact⟩ := hguarded.active hc'
    obtain rfl := Option.some.inj (hr.symm.trans hr')
    rw [hst] at hact
    cases hact

/-- An active merchant is suspended. -/
def sampleSuspension : List (Choice (service sampleEnv)) :=
  sampleActivation ++ .start 4 (.suspend 0 "abuse" "operator") :: steps 4 {} 4 ++ [.finish 4 .made]

theorem suspension_stops_writes_sample : ∃ s, sampleWorld.run sampleSuspension = some s ∧ s.log.length = 6 ∧
    (∃! sid, OpenFor s.db 0 sid) ∧
    ∀ m l₁ e l₂ e' l₃, s.log = l₁ ++ e :: (l₂ ++ e' :: l₃) → e.op = .suspend m → (∀ x ∈ l₂, x.op ≠ .reinstate m) →
      ¬ Guarded e' m := by
  have hlog : ((sampleWorld.run sampleSuspension).map fun s =>
      (s.log.length, (s.db.find .merchants 0).map Merchant.status)) = some (6, some .suspended) := by decide +kernel
  obtain ⟨s, hs, hfacts⟩ := Option.map_eq_some_iff.1 hlog
  obtain ⟨hlen, hst⟩ := Prod.mk.injEq .. ▸ hfacts
  obtain ⟨r, hr, hst⟩ := Option.map_eq_some_iff.1 hst
  have hall := suspension_stops_writes sampleEnv hs
  exact ⟨s, hs, hlen, (hall.1 0 r hr).1 hst, hall.2⟩

end Eth402.Merchants
