/-
Who receives a merchant's money, over every run of the service: the recipient of an active or suspended merchant is the
address of its latest proof, the challenge of which was consumed once, with a signature by that address; and proofs keep
the cooldown. A pending recipient may be replaced and put back, and a challenge issued before that is good again.
-/
import Eth402.Merchant.Registry

namespace Eth402.Merchants

open Lib Lib.Relational

variable {env : Env} {D : Discipline tables} {p : Nat} {c : Int} {db db' : Db tables} {w : Work tables} {op : Op}

/-! ## Proofs on record -/

/-- The commit adds the row to the history. -/
def Adds {env : Env} (e : Commit (service env)) (hid : Nat) (h : Recipient) : Prop :=
  e.before.find .history hid = none ∧ e.after.find .history hid = some h

/-- The merchant's row in the history that was committed last. -/
def Latest {env : Env} (l : List (Commit (service env))) (m : Nat) (h : Recipient) : Prop :=
  h.merchantID = m ∧ ∃ l₁ e l₂ hid, l = l₁ ++ e :: l₂ ∧ Adds e hid h ∧
    ∀ e' ∈ l₂, ∀ hid' h', Adds e' hid' h' → h'.merchantID ≠ m

variable {l : List (Commit (service env))} {e : Commit (service env)}

theorem Latest.add {hid m : Nat} {h : Recipient} (hadds : Adds e hid h) (hm : h.merchantID = m) :
    Latest (l ++ [e]) m h :=
  ⟨hm, l, e, [], hid, rfl, hadds, fun _ he' => absurd he' List.not_mem_nil⟩

theorem Latest.keep {m : Nat} {h : Recipient}
    (hl : Latest l m h) (hno : ∀ hid' h', Adds e hid' h' → h'.merchantID ≠ m) : Latest (l ++ [e]) m h := by
  obtain ⟨hm, l₁, e₀, l₂, hid, rfl, hadds, hlater⟩ := hl
  refine ⟨hm, l₁, e₀, l₂ ++ [e], hid, by simp, hadds, fun e' he' => ?_⟩
  rcases List.mem_append.1 he' with he' | he'
  · exact hlater e' he'
  · exact List.mem_singleton.1 he' ▸ hno

theorem not_adds_of_same (h : e.before.Same .history e.after) (hid : Nat) (r : Recipient) :
    ¬ Adds e hid r := fun ⟨hn, hs⟩ => by
  rw [h hid, hn] at hs
  cases hs

theorem adds_of_sets {i hid : Nat} {h r : Recipient} (hset : e.before.Sets .history i r e.after)
    (hadds : Adds e hid h) : h = r := by
  rcases hset.cases hadds.2 with ⟨-, he⟩ | ⟨-, hold⟩
  · exact he
  · rw [hadds.1] at hold
    cases hold

/-- What a merchant that is active or suspended owes to a commit: nothing but a proof gives it another recipient. -/
inductive Owes {env : Env} (e : Commit (service env)) (m : Nat) (r' : Merchant) : Prop
  | before {r : Merchant} : e.before.find .merchants m = some r → r.status.established = true →
      r'.recipientAddress = r.recipientAddress → (r.emailVerifiedAt.isSome → r'.emailVerifiedAt.isSome) →
      (∀ hid h, Adds e hid h → h.merchantID ≠ m) → Owes e m r'
  | proof {id hid : Nat} {ch : WalletChallenge} {proof : Proof} {h : Recipient} {r : Merchant} (now : Int) :
      Proves env e.before m id ch proof → e.after.find .challenges id = some (ch.consumed now proof) →
      e.before.find .merchants m = some r → unproven r = true ∨ r.status = .active →
      r'.emailVerifiedAt = r.emailVerifiedAt → r'.recipientAddress = lower ch.address → Adds e hid h →
      Records m id ch now h → Owes e m r'

theorem established_active {s : Status} (h : s = .active) : s.established = true := by rw [h]; rfl

theorem MerchantChange.owes (hc : MerchantChange env e.op e.before e.after)
    (hsusp : Suspensions e.before) {m : Nat} {r' : Merchant} (hr' : e.after.find .merchants m = some r')
    (hest : r'.status.established = true) : Owes e m r' := by
  -- the row is the one of before
  have kept : (∀ hid h, Adds e hid h → h.merchantID ≠ m) → e.before.find .merchants m = some r' → Owes e m r' :=
    fun hno hr => .before hr hest rfl (fun he => he) hno
  have unrecorded : e.before.Same .history e.after → ∀ hid h, Adds e hid h →
      h.merchantID ≠ m := fun hh _ _ ha => absurd ha (not_adds_of_same hh _ _)
  cases hc with
  | same hm _ _ hh | challenged _ _ hm _ _ hh | spent _ _ _ _ hm _ _ hh =>
    exact kept (unrecorded hh) ((hm m).symm.trans hr')
  | registered _ hpending hset _ _ hh =>
    have hno := unrecorded hh
    rcases hset.cases hr' with ⟨rfl, rfl⟩ | ⟨-, hr⟩
    · rw [hpending] at hest
      cases hest
    · exact kept hno hr
  | edited _ hr hstatus haddress hemail hset _ _ hh =>
    have hno := unrecorded hh
    rcases hset.cases hr' with ⟨rfl, rfl⟩ | ⟨-, hr⟩
    · exact .before hr (hstatus ▸ hest) haddress hemail hno
    · exact kept hno hr
  | replaced _ hr hpending _ _ hset _ _ hh =>
    have hno := unrecorded hh
    rcases hset.cases hr' with ⟨rfl, rfl⟩ | ⟨-, hr⟩
    · -- a pending merchant is neither
      have hest : Status.established _ = true := hest
      rw [(unproven_pending hpending).1] at hest
      cases hest
    · exact kept hno hr
  | proven now r₁ hp hr hwas _ haddress hemail hset _ hch hnew hrec hhist =>
    rcases hset.cases hr' with ⟨rfl, rfl⟩ | ⟨hne, hr⟩
    · exact .proof now hp hch.at hr (hwas.imp And.left And.left) hemail haddress ⟨hnew, hhist.at⟩ hrec
    · refine kept (fun hid h ha => ?_) hr
      rw [adds_of_sets hhist ha, hrec.merchantID]
      exact hne.symm
  | suspended _ _ _ _ _ hr hwas hset _ _ hh =>
    have hno := unrecorded hh
    rcases hset.cases hr' with ⟨rfl, rfl⟩ | ⟨-, hr⟩
    · exact .before hr hwas rfl (fun he => he) hno
    · exact kept hno hr
  | reinstated _ _ hf hm ho _ _ hr hset _ _ hh =>
    have hno := unrecorded hh
    rcases hset.cases hr' with ⟨rfl, rfl⟩ | ⟨-, hr⟩
    · -- with an open suspension, it was suspended
      have hwas := (hsusp hr).2 ⟨_, _, hf, hm, ho⟩
      exact .before hr (by rw [hwas]; rfl) rfl (fun he => he) hno
    · exact kept hno hr

/-- What holds of recipients between commits, after the commits `l`. -/
structure Recipients (env : Env) (l : List (Commit (service env))) (db : Db tables) : Prop where
  suspensions : Suspensions db
  email : ∀ {m r}, db.find .merchants m = some r → r.status.established = true → r.emailVerifiedAt.isSome
  proven : ∀ {m r}, db.find .merchants m = some r → r.status.established = true → ∃ h, Latest l m h ∧
    r.recipientAddress = h.newAddress ∧ ∃ ch proof, Spent env db m h.walletChallengeID ch proof ∧
      lower ch.address = h.newAddress
  consumed : ∀ {id ch}, db.find .challenges id = some ch → ch.consumedAt.isSome →
    ∃ r, db.find .merchants ch.merchantID = some r ∧ r.status.established = true
  recorded : ∀ {hid h}, db.find .history hid = some h →
    ∃ r, db.find .merchants h.merchantID = some r ∧ r.status.established = true

theorem established_moves {m : Nat} (hm : db.Moves db')
    (h : ∃ r, db.find .merchants m = some r ∧ r.status.established = true) :
    ∃ r, db'.find .merchants m = some r ∧ r.status.established = true := by
  obtain ⟨r, hr, hest⟩ := h
  obtain ⟨r', hr', hl⟩ := hm _ _ _ hr
  exact ⟨r', hr', hl.2.2 hest⟩

/-- A challenge is consumed, or a proof recorded, for a merchant that is established from then on. -/
theorem MerchantChange.consumed_or (hc : MerchantChange env e.op e.before e.after) :
    (∀ id ch, e.after.find .challenges id = some ch → ch.consumedAt.isSome →
      (∃ ch₀, e.before.find .challenges id = some ch₀ ∧ ch₀.consumedAt.isSome ∧ ch₀.merchantID = ch.merchantID) ∨
        ∃ r, e.after.find .merchants ch.merchantID = some r ∧ r.status.established = true) ∧
    ∀ hid h, e.after.find .history hid = some h → e.before.find .history hid = some h ∨
      ∃ r, e.after.find .merchants h.merchantID = some r ∧ r.status.established = true := by
  have old : e.before.Same .challenges e.after → ∀ id ch, e.after.find .challenges id = some ch → ch.consumedAt.isSome →
      (∃ ch₀, e.before.find .challenges id = some ch₀ ∧ ch₀.consumedAt.isSome ∧ ch₀.merchantID = ch.merchantID) ∨
        ∃ r, e.after.find .merchants ch.merchantID = some r ∧ r.status.established = true :=
    fun hsame id ch hr hu => .inl ⟨ch, (hsame id).symm.trans hr, hu, rfl⟩
  have oldh : e.before.Same .history e.after → ∀ hid h, e.after.find .history hid = some h →
      e.before.find .history hid = some h ∨
        ∃ r, e.after.find .merchants h.merchantID = some r ∧ r.status.established = true :=
    fun hsame hid h hr => .inl ((hsame hid).symm.trans hr)
  -- a new challenge is not consumed
  have fresh : ∀ {i : Nat} {ch₁ : WalletChallenge}, e.before.Sets .challenges i ch₁ e.after → ch₁.consumedAt = none →
      ∀ id ch, e.after.find .challenges id = some ch → ch.consumedAt.isSome →
      (∃ ch₀, e.before.find .challenges id = some ch₀ ∧ ch₀.consumedAt.isSome ∧ ch₀.merchantID = ch.merchantID) ∨
        ∃ r, e.after.find .merchants ch.merchantID = some r ∧ r.status.established = true := by
    intro i ch₁ hset hn id ch hr hu
    rcases hset.cases hr with ⟨-, rfl⟩ | ⟨-, hr⟩
    · rw [hn] at hu
      cases hu
    · exact .inl ⟨ch, hr, hu, rfl⟩
  cases hc with
  | same _ _ hch hh | registered _ _ _ _ hch hh | edited _ _ _ _ _ _ _ hch hh | suspended _ _ _ _ _ _ _ _ _ hch hh
  | reinstated _ _ _ _ _ _ _ _ _ _ hch hh => exact ⟨old hch, oldh hh⟩
  | challenged _ hn _ _ hset hh | replaced _ _ _ _ hn _ _ hset hh => exact ⟨fresh hset hn, oldh hh⟩
  | spent _ hp hr hactive hm _ hset hh =>
    refine ⟨fun id ch hr' hu => ?_, oldh hh⟩
    rcases hset.cases hr' with ⟨-, rfl⟩ | ⟨-, hr'⟩
    · refine .inr ⟨_, ?_, established_active hactive⟩
      rw [hm]
      exact hp.merchantID ▸ hr
    · exact .inl ⟨ch, hr', hu, rfl⟩
  | proven _ r₁ hp hr _ hactive _ _ hset _ hch _ hrec hhist =>
    refine ⟨fun id ch hr' hu => ?_, fun hid h hr' => ?_⟩
    · rcases hch.cases hr' with ⟨-, rfl⟩ | ⟨-, hr'⟩
      · refine .inr ⟨r₁, ?_, established_active hactive⟩
        exact hp.merchantID ▸ hset.at
      · exact .inl ⟨ch, hr', hu, rfl⟩
    · rcases hhist.cases hr' with ⟨-, rfl⟩ | ⟨-, hr'⟩
      · refine .inr ⟨r₁, ?_, established_active hactive⟩
        rw [hrec.merchantID]
        exact hset.at
      · exact .inl hr'

theorem recipients_empty : Recipients env [] empty where
  suspensions := suspensions_empty
  email h := absurd h (by simp [Db.find, empty])
  proven h := absurd h (by simp [Db.find, empty])
  consumed h := absurd h (by simp [Db.find, empty])
  recorded h := absurd h (by simp [Db.find, empty])

theorem Recipients.step (h : Recipients env l e.before)
    (hs : e.before.Sound) (hm : e.before.Moves e.after) (hc : MerchantChange env e.op e.before e.after) :
    Recipients env (l ++ [e]) e.after where
  suspensions := Suspensions.step h.suspensions hs hc
  email hr hest := by
    cases hc.owes h.suspensions hr hest with
    | before hr₀ hest₀ _ hemail _ => exact hemail (h.email hr₀ hest₀)
    | proof _ _ _ hr₀ hwas hemail _ _ _ =>
      rw [hemail]
      rcases hwas with hpending | hactive
      · exact (unproven_pending hpending).2
      · exact h.email hr₀ (established_active hactive)
  proven hr hest := by
    cases hc.owes h.suspensions hr hest with
    | before hr₀ hest₀ haddress _ hno =>
      obtain ⟨rec, hlatest, hrec, ch, proof, hspent, hch⟩ := h.proven hr₀ hest₀
      exact ⟨rec, hlatest.keep hno, haddress.trans hrec, ch, proof, hspent.moves hm, hch⟩
    | @proof id hid ch proof rec r now hp hch _ _ _ haddress hadds hrec =>
      refine ⟨rec, .add hadds hrec.merchantID, haddress.trans hrec.newAddress.symm, ch.consumed now proof,
        proof, ?_, ?_⟩
      · rw [hrec.walletChallengeID]
        exact hp.spent hch
      · exact hrec.newAddress.symm
  consumed hr hu := by
    rcases hc.consumed_or.1 _ _ hr hu with ⟨ch₀, hr₀, hu₀, hm₀⟩ | hest
    · rw [← hm₀]
      exact established_moves hm (h.consumed hr₀ hu₀)
    · exact hest
  recorded hr := by
    rcases hc.consumed_or.2 _ _ hr with hr₀ | hest
    · exact established_moves hm (h.recorded hr₀)
    · exact hest

theorem recipients_reached {log : List (Commit (service env))} {db : Db tables}
    (h : History (fun e => Change env D e.caller e.clock e.before e.work e.op) empty log db) : Recipients env log db :=
  h.inv (Recipients env) recipients_empty fun _ _ hs hm hc hi => hi.step hs hm hc.merchant

/-! ## Challenges are consumed once -/

/-- The commit consumes the challenge. -/
def Consumes {env : Env} (e : Commit (service env)) (id : Nat) : Prop :=
  ∃ row : WalletChallenge, ⟨.challenges, id, row⟩ ∈ e.work.puts ∧ row.consumedAt.isSome

/-- It finds it unconsumed and leaves it consumed. -/
theorem Change.consumes (h : Change env D p c db w op) {id : Nat} {row : WalletChallenge}
    (hx : ⟨.challenges, id, row⟩ ∈ w.puts) (hrow : row.consumedAt.isSome) :
    (∃ ch, db.find .challenges id = some ch ∧ ch.consumedAt = none) ∧
      ∃ ch, (db.puts w.puts).find .challenges id = some ch ∧ ch.consumedAt.isSome := by
  -- one challenge is written, by its proof
  have one : ∀ {m id₀ : Nat} {ch : WalletChallenge} {proof : Proof} {now : Int}, Proves env db m id₀ ch proof →
      (∀ x ∈ w.puts, x.table = .challenges → x.id = id₀) →
      (db.puts w.puts).find .challenges id₀ = some (ch.consumed now proof) →
      (∃ ch, db.find .challenges id = some ch ∧ ch.consumedAt = none) ∧
        ∃ ch, (db.puts w.puts).find .challenges id = some ch ∧ ch.consumedAt.isSome := by
    intro m id₀ ch proof now hp hall hfind
    obtain rfl : id = id₀ := hall _ hx rfl
    exact ⟨⟨ch, hp.row, hp.consumedAt⟩, _, hfind, rfl⟩
  cases h with
  | activated hputs hp | authenticated hputs hp => exact one hp (by simp [hputs]) (by simp [hputs]; rfl)
  | changed hputs hp _ _ _ _ _ hclear | changedByAdmin hputs hp _ _ _ _ _ hclear =>
    refine one hp ?_ (by simp [hputs, Db.puts_append, hclear.find_table]; rfl)
    rw [hputs]
    exact hclear.forall (fun x hs ht => by rw [hs] at ht; cases ht) (by simp) (by simp)
  | challenged hputs _ _ hc =>
    -- issued unconsumed
    simp only [hputs, List.mem_singleton] at hx
    cases hx
    rw [hc] at hrow
    cases hrow
  | replaced hputs _ _ _ _ hc =>
    simp [hputs] at hx
    obtain ⟨-, rfl⟩ := hx
    rw [hc] at hrow
    cases hrow
  | emailVerified hputs _ _ _ hissued => rcases hissued with rfl | ⟨sid, s, rfl, -⟩ <;> simp [hputs] at hx
  | delivered hputs _ _ _ _ hsent => rcases hsent with ⟨tok, rfl, -⟩ | ⟨rfl, -⟩ <;> simp [hputs] at hx
  | expired hputs =>
    obtain ⟨_, _, hx, -⟩ := hputs _ hx
    cases hx
  | nothing _ hputs | registered hputs | enqueued _ hputs | stamped hputs | sessionRevoked hputs | keyWritten _ hputs
  | consented _ hputs | suspended hputs | reinstated hputs | claimed hputs | released hputs | abandoned hputs
  | paymentRecorded hputs | admitted hputs => simp [hputs] at hx

variable {s : World (service env)} {chs : List (Choice (service env))}

theorem consumes_once (h : (World.init (service env) empty).run chs = some s) :
    s.log.Pairwise fun e e' => ∀ id, Consumes e id → ¬ Consumes e' id := by
  have hist := (committed h).history
  refine hist.pairwise.imp_of_mem fun {e e'} he he' hmoves id ⟨row, hrow, hset⟩ ⟨row', hrow', hset'⟩ => ?_
  obtain ⟨-, ch, hch, hused⟩ := (hist.mem he).1.consumes hrow hset
  obtain ⟨⟨ch', hch', hunused⟩, -⟩ := (hist.mem he').1.consumes hrow' hset'
  obtain ⟨ch'', hch'', hl⟩ := hmoves _ _ _ hch
  obtain rfl := Option.some.inj (hch'.symm.trans hch'')
  have hkept : ch' = ch := hl.2 hused
  rw [← hkept, hunused] at hused
  cases hused

/-! ## The cooldown -/

/-- A new row of the history is a proof, the first of a pending merchant or one made after the cooldown. -/
theorem MerchantChange.adds (hc : MerchantChange env e.op e.before e.after) {hid : Nat}
    {h : Recipient} (hadds : Adds e hid h) : ∃ r, e.before.find .merchants h.merchantID = some r ∧
      (unproven r = true ∧ r.recipientAddress = h.newAddress ∨
        r.status = .active ∧ CooledDown env e.before h.merchantID h.verifiedAt) := by
  cases hc with
  | proven now r₁ hp hr hwas _ _ _ _ _ _ _ hrec hhist =>
    obtain rfl := adds_of_sets hhist hadds
    rw [hrec.merchantID, hrec.newAddress, hrec.verifiedAt]
    exact ⟨_, hr, hwas⟩
  | same _ _ _ hh | registered _ _ _ _ _ hh | edited _ _ _ _ _ _ _ _ hh | challenged _ _ _ _ _ hh
  | replaced _ _ _ _ _ _ _ _ hh | spent _ _ _ _ _ _ _ hh | suspended _ _ _ _ _ _ _ _ _ _ hh
  | reinstated _ _ _ _ _ _ _ _ _ _ _ hh => exact absurd hadds (not_adds_of_same hh _ _)

theorem proofs_cool_down (h : (World.init (service env) empty).run chs = some s) :
    s.log.Pairwise fun e e' => ∀ hid hid' h h', Adds e hid h → Adds e' hid' h' → h.merchantID = h'.merchantID →
      h.verifiedAt + env.cfg.recipientCooldown ≤ h'.verifiedAt := by
  have hist := (committed h).history
  refine hist.pairwise.imp_of_mem fun {e e'} he he' hmoves hid hid' rec rec' hadds hadds' hm => ?_
  -- the earlier row is there when the later one is added
  obtain ⟨rec₀, hrec, hl⟩ := hmoves _ _ _ hadds.2
  obtain rfl : rec₀ = rec := hl
  obtain ⟨r, hr, ⟨hpending, -⟩ | ⟨-, hcool⟩⟩ := (hist.mem he').1.merchant.adds hadds'
  · obtain ⟨l₁, l₂, hlog⟩ := List.append_of_mem he'
    obtain ⟨r', hr', hest⟩ := (recipients_reached (hist.split hlog).1).recorded hrec
    obtain rfl := Option.some.inj (hr.symm.trans (hm ▸ hr'))
    rw [(unproven_pending hpending).1] at hest
    cases hest
  · exact hcool _ _ hrec hm

/-! ## Replaced recipients -/

/-- The commit issues a challenge to the merchant. -/
def issues {env : Env} (e : Commit (service env)) (m id : Nat) : Bool :=
  (e.before.find .challenges id).isNone && (e.after.find .challenges id).any fun ch => ch.merchantID = m

/-- The commit replaces the pending recipient by another. -/
def replaces {env : Env} (e : Commit (service env)) (m : Nat) (old new : String) : Bool :=
  ((e.before.find .merchants m).any fun r => r.status = .pending && r.recipientAddress = old)
    && ((e.after.find .merchants m).any fun r => r.status = .pending && r.recipientAddress = new) && old ≠ new

/-- The commit activates the merchant, on record as `hid`. -/
def activates {env : Env} (e : Commit (service env)) (m id hid : Nat) (address : String) : Bool :=
  ((e.before.find .merchants m).any fun r => r.status = .pending)
    && ((e.after.find .merchants m).any fun r => r.status = .active)
    && (e.before.find .history hid).isNone
    && (e.after.find .history hid).any fun h => h.merchantID = m && h.walletChallengeID = id && h.newAddress = address

/-- The merchant does not wait for a proof of the address. -/
def NotWaiting (m : Nat) (address : String) (db : Db tables) : Prop :=
  ∃ r, db.find .merchants m = some r ∧ (r.status = .pending → r.recipientAddress ≠ address)

theorem NotWaiting.step {m : Nat} {address : String} (h : NotWaiting m address e.before)
    (hc : MerchantChange env e.op e.before e.after) (hno : ∀ a, replaces e m a address = false) :
    NotWaiting m address e.after := by
  obtain ⟨r, hr, hne⟩ := h
  have set : ∀ {m₁ : Nat} {r₁ r' : Merchant}, e.before.find .merchants m₁ = some r₁ →
    e.before.Sets .merchants m₁ r' e.after →
      (m₁ = m → r₁ = r → e.after.find .merchants m = some r' → r'.status = .pending → r'.recipientAddress ≠ address) →
      NotWaiting m address e.after := by
    intro m₁ r₁ r' hr₁ hset hsame
    by_cases he : m = m₁
    · subst he
      exact ⟨r', hset.at, hsame rfl (Option.some.inj (hr₁.symm.trans hr)) hset.at⟩
    · exact ⟨r, by rw [hset, if_neg he, hr], hne⟩
  cases hc with
  | same hm | challenged _ _ hm | spent _ _ _ _ hm => exact ⟨r, (hm m).trans hr, hne⟩
  | @registered m₁ r₁ hnone _ hset =>
    refine ⟨r, ?_, hne⟩
    rw [hset, if_neg, hr]
    rintro rfl
    rw [hr] at hnone
    cases hnone
  | edited r' hr₁ hstatus haddress _ hset =>
    refine set hr₁ hset fun _ he _ hp => ?_
    rw [haddress, he]
    exact hne (he ▸ hstatus ▸ hp)
  | replaced a hr₁ hpending _ _ hset =>
    refine set hr₁ hset fun _ he hafter _ heq => ?_
    rw [he] at hafter hpending
    have hpending := (unproven_pending hpending).1
    have hyes : replaces e m r.recipientAddress address = true := by
      simpa [replaces, hr, hafter, hpending] using ⟨heq, hne hpending⟩
    rw [hno] at hyes
    cases hyes
  | proven _ r' _ hr₁ _ hactive _ _ hset =>
    refine set hr₁ hset fun _ _ _ hp => ?_
    rw [hactive] at hp
    cases hp
  | suspended _ _ _ _ _ hr₁ _ hset | reinstated _ _ _ _ _ _ _ hr₁ hset => exact set hr₁ hset fun _ _ _ hp => by cases hp

theorem split_of_getElem? {α : Type} {l : List α} {a b : α} {j k : Nat} (hjk : j < k) (ha : l[j]? = some a)
    (hb : l[k]? = some b) : ∃ l₁ l₂ l₃, l = l₁ ++ a :: (l₂ ++ b :: l₃) ∧
      ∀ x ∈ l₂, ∃ n, j < n ∧ n < k ∧ l[n]? = some x := by
  obtain ⟨hj, rfl⟩ := List.getElem?_eq_some_iff.1 ha
  obtain ⟨hk, rfl⟩ := List.getElem?_eq_some_iff.1 hb
  refine ⟨l.take j, (l.take k).drop (j + 1), l.drop (k + 1), ?_, fun x hx => ?_⟩
  · conv_lhs => rw [← List.take_append_drop k l, List.drop_eq_getElem_cons hk]
    have hj' : j < (l.take k).length := by simp; omega
    conv_lhs => rw [← List.take_append_drop j (l.take k), List.drop_eq_getElem_cons hj']
    simp [List.take_take, Nat.min_eq_left hjk.le]
  · obtain ⟨i, hi, rfl⟩ := List.mem_iff_getElem.1 hx
    simp only [List.length_drop, List.length_take] at hi
    exact ⟨j + 1 + i, by omega, by omega, by simp⟩

theorem replaced_back
    (h : (World.init (service env) empty).run chs = some s) {j k m id hid : Nat} {e₂ e₃ : Commit (service env)}
    {old new : String} (hjk : j < k) (he₂ : s.log[j]? = some e₂) (he₃ : s.log[k]? = some e₃)
    (hreplaced : replaces e₂ m old new = true) (hactivated : activates e₃ m id hid old = true) :
    ∃ (n : Nat) (x : Commit (service env)) (a : String), j < n ∧ n < k ∧ s.log[n]? = some x ∧
      replaces x m a old = true := by
  obtain ⟨l₁, l₂, l₃, hlog, hplace⟩ := split_of_getElem? hjk he₂ he₃
  by_contra hnone
  have hist := (committed h).history
  rw [← List.cons_append, ← List.append_assoc] at hlog
  obtain ⟨hist, hc, -⟩ := hist.split hlog
  -- from the replacement on the merchant does not wait for a proof of the old address
  have hwaits : NotWaiting m old e₃.before := by
    refine hist.since (NotWaiting m old) rfl ?_ fun x hx _ _ hcx hi => hi.step hcx.merchant fun a => ?_
    · simp only [replaces, Bool.and_eq_true, Option.any_eq_true, decide_eq_true_eq] at hreplaced
      obtain ⟨⟨-, r, hr, -, hnew⟩, hne⟩ := hreplaced
      exact ⟨r, hr, fun _ => hnew ▸ hne.symm⟩
    · obtain ⟨n, hjn, hnk, hx⟩ := hplace x hx
      exact Bool.eq_false_iff.2 fun hyes => hnone ⟨n, x, a, hjn, hnk, hx, hyes⟩
  -- and the activation is of a merchant that does
  simp only [activates, Bool.and_eq_true, Option.any_eq_true, decide_eq_true_eq,
    Option.isNone_iff_eq_none] at hactivated
  obtain ⟨⟨⟨⟨r, hr, hpending⟩, -⟩, hfree⟩, rec, hrec, ⟨hm, -⟩, hnew⟩ := hactivated
  obtain ⟨r', hr', hne⟩ := hwaits
  obtain rfl := Option.some.inj (hr.symm.trans hr')
  obtain ⟨r'', hr'', hwas⟩ := hc.merchant.adds ⟨hfree, hrec⟩
  obtain rfl := Option.some.inj (hr.symm.trans (hm ▸ hr''))
  rcases hwas with ⟨-, haddress⟩ | ⟨hactive, -⟩
  · exact hne hpending (haddress.trans hnew)
  · rw [hactive] at hpending
    cases hpending

/-! ## Recipients over whole runs -/

/-- An active or suspended merchant has a verified email, and its recipient is the address of its last proof, whose
challenge was consumed with a signature by that address; no challenge is consumed twice; a challenge issued before the
pending recipient was replaced activates the merchant for the replaced address only if that was made the pending
recipient again; and the proofs of a merchant are the cooldown apart. -/
theorem recipients_are_proven (env : Env) {s : World (service env)} {chs : List (Choice (service env))}
    (h : (World.init (service env) empty).run chs = some s) :
    (∀ m r, s.db.find .merchants m = some r → r.status = .active ∨ r.status = .suspended →
      r.emailVerifiedAt.isSome ∧ ∃ rec, Latest s.log m rec ∧ r.recipientAddress = rec.newAddress ∧
        ∃ ch proof, Spent env s.db m rec.walletChallengeID ch proof ∧ ch.address = rec.newAddress) ∧
    (s.log.Pairwise fun e e' => ∀ id, Consumes e id → ¬ Consumes e' id) ∧
    (∀ i j k m id hid old new e₁ e₂ e₃, i < j → j < k → s.log[i]? = some e₁ → s.log[j]? = some e₂ →
    s.log[k]? = some e₃ →
      issues e₁ m id = true → replaces e₂ m old new = true → activates e₃ m id hid old = true →
      ∃ (n : Nat) (x : Commit (service env)) (a : String), j < n ∧ n < k ∧ s.log[n]? = some x ∧
        replaces x m a old = true) ∧
    s.log.Pairwise fun e e' => ∀ hid hid' h h', Adds e hid h → Adds e' hid' h' → h.merchantID = h'.merchantID →
      h.verifiedAt + env.cfg.recipientCooldown ≤ h'.verifiedAt := by
  have hinv := committed h
  have hrecipients := recipients_reached hinv.history
  refine ⟨fun m r hr hstatus => ?_, consumes_once h, ?_, proofs_cool_down h⟩
  · have hest : r.status.established = true := by rcases hstatus with hs | hs <;> rw [hs] <;> rfl
    obtain ⟨rec, hlatest, haddress, ch, proof, hspent, hch⟩ := hrecipients.proven hr hest
    -- challenges are for addresses in lower case
    have hlower : lower ch.address = ch.address := by
      have hcheck := hinv.sound.checked hspent.row
      simp only [check, Bool.and_eq_true, decide_eq_true_eq] at hcheck
      exact hcheck.1.1
    exact ⟨hrecipients.email hr hest, rec, hlatest, haddress, ch, proof, hspent, hlower.symm.trans hch⟩
  · exact fun i j k m id hid old new e₁ e₂ e₃ _ hjk _ he₂ he₃ _ hre hact => replaced_back h hjk he₂ he₃ hre hact

theorem recipients_are_proven_sample : ∃ s, sampleWorld.run sampleActivation = some s ∧
    (s.db.find .merchants 0).map Merchant.status = some .active ∧
    ∀ m r, s.db.find .merchants m = some r → r.status = .active ∨ r.status = .suspended →
      r.emailVerifiedAt.isSome ∧ ∃ rec, Latest s.log m rec ∧ r.recipientAddress = rec.newAddress ∧
        ∃ ch proof, Spent sampleEnv s.db m rec.walletChallengeID ch proof ∧ ch.address = rec.newAddress := by
  have hrow : ((sampleWorld.run sampleActivation).map fun s => (s.db.find .merchants 0).map Merchant.status)
      = some (some .active) := by decide +kernel
  obtain ⟨s, hs, hst⟩ := Option.map_eq_some_iff.1 hrow
  exact ⟨s, hs, hst, (recipients_are_proven sampleEnv hs).1⟩

def otherAddress : String := "0x2222222222222222222222222222222222222222"

def sampleSession : String := adminSessionPrefix ++ "s"

/-- With a session of its email, the merchant asks for a challenge, replaces its recipient, puts it back and answers the
first challenge. -/
def replacedTwice : List (Choice (service sampleEnv)) :=
  sampleRegistration
    ++ .start 1 (.verifyEmail sampleToken true) :: steps 1 { time := 10, text := "s" } 8 ++ [.finish 1 .made]
    ++ .start 2 (.adminWalletChallenge sampleSession "") :: steps 2 { time := 20 } 3 ++ [.finish 2 .made]
    ++ steps 2 {} 2 ++ [.finish 2 .made] ++ steps 2 { time := 20, text := "n" } 5 ++ [.finish 2 .made]
    ++ .start 3 (.adminWalletChallenge sampleSession otherAddress) :: steps 3 { time := 20 } 3 ++ [.finish 3 .made]
    ++ steps 3 { time := 20, text := "o", id := 1 } 7 ++ [.finish 3 .made]
    ++ .start 4 (.adminWalletChallenge sampleSession sampleAddress) :: steps 4 { time := 20 } 3 ++ [.finish 4 .made]
    ++ steps 4 { time := 20, text := "p", id := 2 } 7 ++ [.finish 4 .made]
    ++ .start 5 (.verifyWallet 0 0 (sampleMessage sampleAddress "n" .verifyRecipient) sampleSignature)
      :: steps 5 { time := 30, text := "k" } 9 ++ [.finish 5 .made]

/-- The challenge issued before the recipient was replaced activates the merchant for the replaced address. -/
theorem replacedTwice_activates_old_recipient : ∃ s, sampleWorld.run replacedTwice = some s ∧
    ∃ e₁ e₂ e₃, s.log[4]? = some e₁ ∧ s.log[6]? = some e₂ ∧ s.log[9]? = some e₃ ∧ issues e₁ 0 0 = true ∧
      replaces e₂ 0 sampleAddress otherAddress = true ∧ activates e₃ 0 0 0 sampleAddress = true := by
  have hrun : ((sampleWorld.run replacedTwice).any fun s => (s.log[4]?).any (issues · 0 0) &&
      ((s.log[6]?).any (replaces · 0 sampleAddress otherAddress) && (s.log[9]?).any (activates · 0 0 0 sampleAddress)))
      = true := by decide +kernel
  obtain ⟨s, hs, hlog⟩ := (Option.any_eq_true ..).1 hrun
  obtain ⟨h₁, h₂₃⟩ := (Bool.and_eq_true ..).mp hlog
  obtain ⟨h₂, h₃⟩ := (Bool.and_eq_true ..).mp h₂₃
  obtain ⟨e₁, he₁, h₁⟩ := (Option.any_eq_true ..).1 h₁
  obtain ⟨e₂, he₂, h₂⟩ := (Option.any_eq_true ..).1 h₂
  obtain ⟨e₃, he₃, h₃⟩ := (Option.any_eq_true ..).1 h₃
  exact ⟨s, hs, e₁, e₂, e₃, he₁, he₂, he₃, h₁, h₂, h₃⟩

end Eth402.Merchants
