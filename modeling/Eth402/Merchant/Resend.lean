/-
How often mails go out: at most one live mail for a merchant, and the resend interval after a delivery. The look that
decides about another mail is made with the merchant's row held, and a delivery does not wait for that row: one that is
recorded after the look, for a token that had expired by then, is missed. Where that does not happen the interval holds.
-/
import Eth402.Merchant.Outbox

namespace Eth402.Merchants

open Lib Lib.Relational

variable {env : Env} {D : Discipline tables} {p : Nat} {c k now : Int} {db db' db₀ : Db tables} {op : Op}

/-! ## Looking for mails -/

/-- The row is open and its token has not expired. -/
def Live (c : Int) (db : Db tables) (m o : Nat) : Prop :=
  ∃ out tok, db.find .outbox o = some out ∧ out.merchantID = m ∧ out.isOpen = true ∧
    db.find .tokens out.tokenID = some tok ∧ c < tok.expiresAt

theorem undelivered_of_open {o : Nat} {out : Delivery} (ho : db.find .outbox o = some out) (hopen : out.isOpen = true) :
    undelivered db out.tokenID = true := by
  have hmem : ⟨o, out⟩ ∈ (db.rows .outbox).entries.filter fun x => decide (x.2.tokenID = out.tokenID) :=
    List.mem_filter.2 ⟨AList.mem_lookup_iff.1 ho, by simp⟩
  exact Bool.or_eq_true_iff.2 (.inr (List.any_eq_true.2 ⟨_, hmem, hopen⟩))

theorem exists_closed {t : Nat} (h : undelivered db t = false) :
    ∃ o out, db.find .outbox o = some out ∧ out.tokenID = t ∧ out.isOpen = false := by
  obtain ⟨hne, hall⟩ := Bool.or_eq_false_iff.1 h
  obtain ⟨⟨o, out⟩, hmem⟩ := List.exists_mem_of_ne_nil _ (List.isEmpty_eq_false_iff.1 hne)
  obtain ⟨hin, ht⟩ := List.mem_filter.1 hmem
  exact ⟨o, out, AList.mem_lookup_iff.2 hin, by simpa using ht, by simpa using List.any_eq_false.1 hall _ hmem⟩

/-- What a look that holds nothing back has seen of a token of the merchant. -/
theorem unsuppressed_token {m t : Nat} {since : Int} {tok : Token} (h : suppressed m since now db = false)
    (ht : db.find .tokens t = some tok) (hm : tok.merchantID = m) :
    (∀ sent, tok.sentAt = some sent → sent ≤ since) ∧
      (tok.sentAt = none → now < tok.expiresAt → undelivered db t = false) := by
  have hall := List.any_eq_false.1 h _ (AList.mem_lookup_iff.1 ht)
  refine ⟨fun sent hs => ?_, fun hs hlive => ?_⟩
  · simp only [hm, hs, decide_true, Bool.true_and, decide_eq_true_eq] at hall
    omega
  · simpa [hm, hs, hlive] using hall

/-! ## At most one live mail -/

/-- A look that holds nothing back has seen no live mail, and none has been added since. -/
theorem Quiet.not_live (hD : ∀ a b, D.Later a b → a ≤ b) {m : Nat} (hq : Quiet env D k db m now) (hmails : Mails db)
    (hk : k ≤ c) (o : Nat) : ¬ Live c db m o := by
  rintro ⟨out, tok, ho, hm, hopen, ht, hlive⟩
  obtain ⟨τ, L, db₀, hnow, hrely, hholds, hs, hsup⟩ := hq
  obtain ⟨tok', ht', hsent, hmt⟩ := hmails.token ho
  obtain rfl := Option.some.inj (ht.symm.trans ht')
  -- both rows were there when the look was made
  obtain ⟨out₀, ho₀, hlo⟩ := hrely.child ho (k := (.merchants, m)) (by simp [parents, hm]) hholds
  obtain ⟨tok₀, ht₀, hlt⟩ := hrely.child ht (k := (.merchants, m)) (by simp [parents, hmt, hm]) hholds
  have hopen₀ : out₀.isOpen = true := by
    by_contra hc
    have he : out = out₀ := hlo.2.2 (by simpa using hc)
    exact hc (he ▸ hopen)
  have hunsent : tok₀.sentAt = none := by
    by_contra hne
    have he : tok.sentAt = tok₀.sentAt := hlt.2.2.2.2.2 (Option.isSome_iff_ne_none.2 hne)
    rw [hsent, (isOpen_iff.1 hopen).1] at he
    exact hne he.symm
  have hexp : tok.expiresAt = tok₀.expiresAt := hlt.2.2.1
  have hbefore : now ≤ c := (hD _ _ hnow).trans ((hD _ _ hrely.later).trans hk)
  have hund := (unsuppressed_token hsup ht₀ (hlt.1.symm.trans (hmt.trans hm))).2 hunsent (by omega)
  have hto : out.tokenID = out₀.tokenID := hlo.2.1
  rw [hto, undelivered_of_open ho₀ hopen₀] at hund
  cases hund

/-- A commit adds no live mail, or one to a merchant without any. -/
theorem live_back (hD : ∀ a b, D.Later a b → a ≤ b) (hs : db.Sound) (hmails : Mails db)
    (hc : MailChange env D p k db db' op) (hk : k ≤ c) : (∀ m o, Live c db' m o → Live c db m o) ∨
      ∃ m o, (∀ m' o', Live c db' m' o' → m' = m ∧ o' = o ∨ Live c db m' o') ∧ ∀ o', ¬ Live c db m o' := by
  cases hc with
  | same ht ho =>
    refine .inl fun m o ⟨out, tok, h₁, h₂, h₃, h₄, h₅⟩ => ⟨out, tok, (ho o).symm.trans h₁, h₂, h₃, ?_, h₅⟩
    exact (ht _).symm.trans h₄
  | @enqueued op m t o tok out _ hmail ht ho hst hso hquiet =>
    refine .inr ⟨m, o, fun m' o' ⟨out', tok', h₁, h₂, h₃, h₄, h₅⟩ => ?_, fun o' hlive => ?_⟩
    · rcases hso.cases h₁ with ⟨rfl, rfl⟩ | ⟨-, h₁⟩
      · exact .inl ⟨h₂.symm.trans hmail.outMerchant, rfl⟩
      · refine .inr ⟨out', tok', h₁, h₂, h₃, ?_, h₅⟩
        rcases hst.cases h₄ with ⟨he, -⟩ | ⟨-, h₄⟩
        · obtain ⟨tok₀, ht₀, -⟩ := hmails.token h₁
          rw [he, ht] at ht₀
          cases ht₀
        · exact h₄
    · rcases hquiet with hnone | hquiet
      · obtain ⟨out', tok', h₁, h₂, -⟩ := hlive
        have := hs.parents h₁ (.merchants, m) (by simp [parents, h₂])
        rw [hnone] at this
        cases this
      · exact hquiet.not_live hD hmails hk o' hlive
  | @verified t tok now htok _ hst ho =>
    refine .inl fun m o ⟨out, tok', h₁, h₂, h₃, h₄, h₅⟩ => ?_
    have h₁ := (ho o).symm.trans h₁
    rcases hst.cases h₄ with ⟨he, rfl⟩ | ⟨-, h₄⟩
    · exact ⟨out, tok, h₁, h₂, h₃, he ▸ htok, h₅⟩
    · exact ⟨out, tok', h₁, h₂, h₃, h₄, h₅⟩
  | worked ht hrows =>
    refine .inl fun m o ⟨out, tok, h₁, h₂, h₃, h₄, h₅⟩ => ?_
    rw [ht] at h₄
    rcases hrows o with he | ⟨r, r', hr, hopen, hchange, hr'⟩
    · exact ⟨out, tok, he.symm.trans h₁, h₂, h₃, h₄, h₅⟩
    · obtain rfl := Option.some.inj (h₁.symm.trans hr')
      obtain ⟨htoken, hmerchant, -⟩ := hchange.keeps (hmails.ciphertext hr)
      exact ⟨r, tok, hr, hmerchant.symm.trans h₂, hopen, htoken ▸ h₄, h₅⟩
  | @delivered id r tok token sentAt hr hopen _ _ hso htok hsent =>
    refine .inl fun m o ⟨out, tok', h₁, h₂, h₃, h₄, h₅⟩ => ?_
    rcases hso.cases h₁ with ⟨-, rfl⟩ | ⟨-, h₁⟩
    · simp [Delivery.isOpen] at h₃
    · rcases hsent with ⟨-, hst⟩ | ⟨-, hst⟩
      · rcases hst.cases h₄ with ⟨he, rfl⟩ | ⟨-, h₄⟩
        · exact ⟨out, tok, h₁, h₂, h₃, he ▸ htok, h₅⟩
        · exact ⟨out, tok', h₁, h₂, h₃, h₄, h₅⟩
      · exact ⟨out, tok', h₁, h₂, h₃, (hst _).symm.trans h₄, h₅⟩

theorem one_live_step (hD : ∀ a b, D.Later a b → a ≤ b) (hs : db.Sound) (hmails : Mails db)
    (hc : MailChange env D p k db db' op) (hk : k ≤ c)
    (h : ∀ m o o', Live c db m o → Live c db m o' → o = o') :
    ∀ m o o', Live c db' m o → Live c db' m o' → o = o' := by
  intro m o o' ho ho'
  rcases live_back hD hs hmails hc hk with hback | ⟨m₁, o₁, hback, hnone⟩
  · exact h m o o' (hback m o ho) (hback m o' ho')
  · rcases hback m o ho with ⟨rfl, rfl⟩ | ho
    · rcases hback m o' ho' with ⟨-, rfl⟩ | ho'
      · rfl
      · exact absurd ho' (hnone o')
    · rcases hback m o' ho' with ⟨rfl, -⟩ | ho'
      · exact absurd ho (hnone o)
      · exact h m o o' ho ho'

/-! ## The resend interval -/

/-- The clock does not go back. -/
def steady : Discipline tables where
  Later a b := a ≤ b
  Spares _ _ _ _ := True
  later_refl := Int.le_refl
  later_trans := Int.le_trans
  spares_refl _ _ _ := trivial
  spares_trans _ _ _ := trivial

/-- Beyond that, a token of a merchant whose row is held is marked sent before it expires, together with its open row.
-/
def spaced : Discipline tables where
  Later a b := a ≤ b
  Spares c key db db' := db.Moves db' ∧ ∀ t tok, db'.find .tokens t = some tok → key = (.merchants, tok.merchantID) →
    tok.sentAt.isSome → (∃ tok₀, db.find .tokens t = some tok₀ ∧ tok₀.sentAt.isSome) ∨
      c < tok.expiresAt ∧ ∀ o out, db.find .outbox o = some out → out.tokenID = t → out.isOpen = true
  later_refl := Int.le_refl
  later_trans := Int.le_trans
  spares_refl _ _ db := ⟨.refl db, fun t tok ht _ hs => .inl ⟨tok, ht, hs⟩⟩
  spares_trans {c c' key db db₁ db₂} := by
    rintro ⟨hm, h⟩ hc ⟨hm', h'⟩
    refine ⟨hm.trans hm', fun t tok ht hkey hs => ?_⟩
    rcases h' t tok ht hkey hs with ⟨tok₁, ht₁, hs₁⟩ | ⟨hlive, hopen⟩
    · -- sent in between: the token has kept its merchant and its expiry
      obtain ⟨tok', ht', hl⟩ := hm' _ _ _ ht₁
      obtain rfl := Option.some.inj (ht.symm.trans ht')
      rcases h t tok₁ ht₁ (by rw [hkey, show tok.merchantID = tok₁.merchantID from hl.1]) hs₁ with h₀ | ⟨hlive, hopen⟩
      · exact .inl h₀
      · exact .inr ⟨by rw [show tok.expiresAt = tok₁.expiresAt from hl.2.2.1]; exact hlive, hopen⟩
    · -- sent last: a row that was closed before would still be
      refine .inr ⟨by omega, fun o out ho hto => ?_⟩
      obtain ⟨out₁, ho₁, hl⟩ := hm _ _ _ ho
      have hopen₁ : out₁.isOpen = true := hopen o out₁ ho₁ (hl.2.1.trans hto)
      by_contra hclosed
      have he : out₁ = out := hl.2.2 (by simpa using hclosed)
      exact hclosed (he ▸ hopen₁)

/-- Every earlier delivery to the merchant was recorded the resend interval before the commit, if the commit enqueues a
mail for a merchant that was there. -/
def Spaced {env : Env} (e : Commit (service env)) : Prop :=
  ∀ t tok, e.before.find .tokens t = none → e.after.find .tokens t = some tok →
    (e.before.find .merchants tok.merchantID).isSome →
    ∀ t' tok' sent, e.before.find .tokens t' = some tok' → tok'.merchantID = tok.merchantID → tok'.sentAt = some sent →
      sent + env.cfg.resend ≤ e.clock

/-- If nothing was missed after the look, all deliveries are old enough. -/
theorem Quiet.spaced {m t : Nat} {tok : Token} {sent : Int} (hq : Quiet env spaced c db m now)
    (ht : db.find .tokens t = some tok) (hm : tok.merchantID = m) (hsent : tok.sentAt = some sent) :
    sent + env.cfg.resend ≤ c := by
  obtain ⟨τ, L, db₀, hnow, hrely, hholds, hs, hsup⟩ := hq
  have hnow : now ≤ τ := hnow
  have hlater : τ ≤ c := hrely.later
  obtain ⟨tok₀, ht₀, hl⟩ := hrely.child ht (k := (.merchants, m)) (by simp [parents, hm]) hholds
  have hseen := unsuppressed_token hsup ht₀ (hl.1.symm.trans hm)
  cases hsent₀ : tok₀.sentAt with
  | some sent₀ =>
    have hkept : tok.sentAt = tok₀.sentAt := hl.2.2.2.2.2 (by rw [hsent₀]; rfl)
    obtain rfl : sent = sent₀ := Option.some.inj (hsent.symm.trans (hkept.trans hsent₀))
    have := hseen.1 sent hsent₀
    omega
  | none =>
    -- marked sent after the look, so before its expiry: the look has seen a closed row for it, which stays
    rcases (hrely.spares hholds).2 t tok ht (by rw [hm]) (by rw [hsent]; rfl) with ⟨tok₁, ht₁, hs₁⟩ | ⟨hlive, hopen⟩
    · obtain rfl := Option.some.inj (ht₀.symm.trans ht₁)
      rw [hsent₀] at hs₁
      cases hs₁
    · have hexp : tok.expiresAt = tok₀.expiresAt := hl.2.2.1
      obtain ⟨o, out, ho, hto, hclosed⟩ := exists_closed (hseen.2 hsent₀ (by omega))
      rw [hopen o out ho hto] at hclosed
      cases hclosed

theorem MailChange.spaced {e : Commit (service env)}
    (h : MailChange env spaced e.caller e.clock e.before e.after e.op) :
    Spaced e := by
  intro t tok hnew htok hthere t' tok' sent ht' hm hsent
  have old : ∀ {tok₀ : Token}, e.before.find .tokens t = some tok₀ → False := fun h₀ => by
    rw [hnew] at h₀
    cases h₀
  obtain ⟨q, op, c, db, w⟩ := e
  cases h with
  | same ht _ | worked ht _ => exact (old ((ht t).symm.trans htok)).elim
  | verified _ ht₀ _ hst _ =>
    rcases hst.cases htok with ⟨rfl, -⟩ | ⟨-, h₀⟩
    · exact (old ht₀).elim
    · exact (old h₀).elim
  | delivered _ _ _ _ _ _ ht₀ hsent =>
    rcases hsent with ⟨-, hst⟩ | ⟨-, hst⟩
    · rcases hst.cases htok with ⟨rfl, -⟩ | ⟨-, h₀⟩
      · exact (old ht₀).elim
      · exact (old h₀).elim
    · exact (old ((hst t).symm.trans htok)).elim
  | enqueued _ hmail _ _ hst _ hquiet =>
    rcases hst.cases htok with ⟨rfl, rfl⟩ | ⟨-, h₀⟩
    · rcases hquiet with hnone | hquiet
      · rw [hmail.merchantID] at hthere
        rw [show db.find .merchants _ = none from hnone] at hthere
        cases hthere
      · exact hquiet.spaced ht' (hm.trans hmail.merchantID) hsent
    · exact (old h₀).elim

/-! ## Every run -/

/-- The caller has a transaction open that holds the merchant's row. -/
def holding {env : Env} (m : Nat) : Caller (service env) → Bool
  | .busy tx => tx.work.locks.rows.contains ((.merchants, m), .update)
  | .idle _ => false

/-- The clock does not go back; and a token is marked sent before it expires, or while no other open transaction holds
its merchant's row. -/
def Timely {env : Env} (s : World (service env)) (ch : Choice (service env)) (s' : World (service env)) : Prop :=
  s.clock ≤ s'.clock ∧ ∀ x ∈ (s'.db.rows .tokens).entries, x.2.sentAt.isSome →
    (s.db.find .tokens x.1).any (fun tok => tok.sentAt.isNone) →
    s.clock < x.2.expiresAt ∨ ∀ y ∈ s.callers.entries, y.1 ≠ ch.caller → holding x.2.merchantID y.2 = false

instance {s s' : World (service env)} {ch : Choice (service env)} : Decidable (Timely s ch s') :=
  inferInstanceAs (Decidable (_ ∧ _))

/-- A token is marked sent together with its open row. -/
theorem MailChange.sent (hc : MailChange env D p c db db' op) (hs : db.Sound) {t : Nat} {tok : Token}
    (ht : db'.find .tokens t = some tok) (hsent : tok.sentAt.isSome) :
    (∃ tok₀, db.find .tokens t = some tok₀ ∧ tok₀.sentAt.isSome) ∨
      (∃ tok₀, db.find .tokens t = some tok₀ ∧ tok₀.sentAt = none) ∧
        ∀ o out, db.find .outbox o = some out → out.tokenID = t → out.isOpen = true := by
  cases hc with
  | same hst _ | worked hst _ => exact .inl ⟨tok, (hst t).symm.trans ht, hsent⟩
  | enqueued _ hmail _ _ hst _ _ =>
    rcases hst.cases ht with ⟨rfl, rfl⟩ | ⟨-, ht⟩
    · rw [hmail.sentAt] at hsent
      cases hsent
    · exact .inl ⟨tok, ht, hsent⟩
  | verified _ ht₀ _ hst _ =>
    rcases hst.cases ht with ⟨rfl, rfl⟩ | ⟨-, ht⟩
    · exact .inl ⟨_, ht₀, hsent⟩
    · exact .inl ⟨tok, ht, hsent⟩
  | @delivered id r _ _ _ hr hopen _ _ _ ht₀ hst =>
    rcases hst with ⟨hnone, hst⟩ | ⟨-, hst⟩
    · rcases hst.cases ht with ⟨rfl, rfl⟩ | ⟨-, ht⟩
      · refine .inr ⟨⟨_, ht₀, hnone⟩, fun o out ho hto => ?_⟩
        -- one row for one token
        obtain rfl := hs.unique ho hr (s := .tokenID r.tokenID) (by simp [slots, hto]) (by simp [slots])
        obtain rfl := Option.some.inj (hr.symm.trans ho)
        exact hopen
      · exact .inl ⟨tok, ht, hsent⟩
    · exact .inl ⟨tok, (hst t).symm.trans ht, hsent⟩

theorem fair_of_timely {Y : Commit (service env) → Prop} {s s' : World (service env)} {ch : Choice (service env)}
    (h : Inv spaced (spec env spaced) Y empty s) (hs : s.step ch = some s') (ht : Timely s ch s') :
    Fair spaced s ch s' := by
  refine ⟨ht.1, fun {q tx k} hq hl hk => ?_, fun _ _ => trivial, fun _ => trivial⟩
  rcases step_commits hs with ⟨hdb, -⟩ | ⟨p, tx', r, told, hp, hl', hr, -, hdb, -⟩
  · rw [hdb]
    exact spaced.spares_refl ..
  · have hmail := (h.post hl' hr).mail
    rw [hdb]
    refine ⟨(h.effect hl').moves, fun t tok htok hkey hsent => ?_⟩
    rcases hmail.sent h.sound htok hsent with h₀ | ⟨⟨tok₀, ht₀, hnone⟩, hopen⟩
    · exact .inl h₀
    · rw [← hdb] at htok
      rcases ht.2 ⟨t, tok⟩ (AList.mem_lookup_iff.1 htok) hsent (by rw [ht₀]; simp [hnone]) with hlive | hnobody
      · exact .inr ⟨hlive, hopen⟩
      · -- the transaction that counts on it holds the row
        have := hnobody ⟨q, .busy tx⟩ (AList.mem_lookup_iff.1 hl) hq
        rw [hkey] at hk
        simp [holding, hk] at this

/-- Under a clock that does not go back, a merchant has at most one live mail at any time; and if besides no token is
marked sent after its expiry while another transaction holds its merchant's row, mails to a merchant keep the resend
interval. -/
theorem mails_keep_resend_interval (env : Env) {s : World (service env)} {chs : List (Choice (service env))}
    (hrun : (World.init (service env) empty).run chs = some s)
    (hclock : Along (fun s _ s' => s.clock ≤ s'.clock) (World.init (service env) empty) chs) :
    (∀ m o o', Live s.clock s.db m o → Live s.clock s.db m o' → o = o') ∧
      (Along Timely (World.init (service env) empty) chs → ∀ e ∈ s.log, Spaced e) := by
  constructor
  · have hinv : Inv steady (spec env steady) (fun e => Change env steady e.caller e.clock e.before e.work e.op)
      empty s :=
      Inv.run (fun _ e => safe_code e) (fun _ _ hc => ⟨hc, fun _ _ _ => trivial, fun _ _ => trivial, fun _ => trivial⟩)
        (fun _ _ _ _ hp => hp) (.init empty_sound) hclock hrun
    -- by the commits, for every time from the last one on
    refine (hinv.history.inv (fun l db => Mails db ∧ ∀ c, (∀ e ∈ l, e.clock ≤ c) →
      ∀ m o o', Live c db m o → Live c db m o' → o = o') ?_ ?_).2 s.clock hinv.clocks
    · refine ⟨mails_empty, ?_⟩
      rintro c - m o o' ⟨out, _, ho, -⟩
      exact absurd ho (by simp [Db.find, empty])
    · rintro l e hsound - hc ⟨hmails, hone⟩
      refine ⟨hmails.step hsound hc.mail, fun c hl => ?_⟩
      exact one_live_step (fun _ _ h => h) hsound hmails hc.mail (hl e (by simp))
        (hone c fun e' he' => hl e' (List.mem_append_left _ he'))
  · intro htimely e he
    have hinv : Inv spaced (spec env spaced) (fun e => Change env spaced e.caller e.clock e.before e.work e.op)
      empty s :=
      Inv.run (fun _ e => safe_code e) fair_of_timely (fun _ _ _ _ hp => hp) (.init empty_sound) htimely hrun
    exact (hinv.history.mem he).1.mail.spaced

/-- The mail of the registration is delivered at 20 and another asked for at 200. -/
def sampleResend : List (Choice (service sampleEnv)) :=
  sampleRegistration ++ .start 1 .deliverNext :: steps 1 { time := 10 } 3 ++ [.finish 1 .made] ++ steps 1 {} 5
    ++ [.finish 1 .made] ++ steps 1 { time := 20, bit := true } 5 ++ [.finish 1 .made]
    ++ .start 2 (.adminLink "a@b.org") :: steps 2 { time := 200, text := "zyxwvutsrqponmlkjihgfedcba", id := 1 } 9
    ++ [.finish 2 .made]

theorem mails_keep_resend_interval_sample : ∃ s, sampleWorld.run sampleResend = some s ∧ s.log.length = 5 ∧
    ∀ e ∈ s.log, Spaced e := by
  have hrun : ((sampleWorld.run sampleResend).map fun s => s.log.length) = some 5 ∧
      Along (fun s _ s' => s.clock ≤ s'.clock) sampleWorld sampleResend ∧
      Along Timely sampleWorld sampleResend := by decide +kernel
  obtain ⟨hlog, hclock, htimely⟩ := hrun
  obtain ⟨s, hs, hlen⟩ := Option.map_eq_some_iff.1 hlog
  exact ⟨s, hs, hlen, (mails_keep_resend_interval sampleEnv hs hclock).2 htimely⟩

/-- The mail of the registration, whose token expires at 100, has gone out at 99. At 101, before that is recorded,
another is asked for and the look at the tokens finds nothing in its way; then the delivery is recorded, and then the
mail enqueued. -/
def lateDelivery : List (Choice (service sampleEnv)) :=
  sampleRegistration ++ .start 1 .deliverNext :: steps 1 { time := 90 } 3 ++ [.finish 1 .made] ++ steps 1 {} 5
    ++ [.finish 1 .made] ++ steps 1 { time := 99, bit := true } 3
    ++ .start 2 (.adminLink "a@b.org") :: steps 2 { time := 101, text := "zyxwvutsrqponmlkjihgfedcba", id := 1 } 6
    ++ steps 1 {} 2 ++ [.finish 1 .made]
    ++ steps 2 { text := "zyxwvutsrqponmlkjihgfedcba", id := 1 } 3 ++ [.finish 2 .made]

theorem lateDelivery_breaks_resend_interval : Along (fun s _ s' => s.clock ≤ s'.clock) sampleWorld lateDelivery ∧
    ∃ s, sampleWorld.run lateDelivery = some s ∧ ∃ e ∈ s.log, ¬ Spaced e := by
  have hrun : ((sampleWorld.run lateDelivery).bind fun s => s.log.getLast?.map fun e =>
      ((e.before.find .tokens 1).isNone && (e.before.find .merchants 0).isSome && decide (e.clock = 101),
        (e.after.find .tokens 1).map Token.merchantID, (e.before.find .tokens 0).map fun t => (t.merchantID, t.sentAt)))
      = some (true, some 0, some (0, some 99)) ∧
      Along (fun s _ s' => s.clock ≤ s'.clock) sampleWorld lateDelivery := by decide +kernel
  obtain ⟨s, hs, hlast⟩ := Option.bind_eq_some_iff.1 hrun.1
  obtain ⟨e, he, hfacts⟩ := Option.map_eq_some_iff.1 hlast
  simp only [Prod.mk.injEq, Bool.and_eq_true, decide_eq_true_eq, Option.isNone_iff_eq_none,
    Option.map_eq_some_iff] at hfacts
  obtain ⟨⟨⟨hnew, hthere⟩, hclock⟩, ⟨tok, htok, hm⟩, tok', htok', hm', hsent⟩ := hfacts
  refine ⟨hrun.2, s, hs, e, List.mem_of_getLast? he, fun hspaced => ?_⟩
  have hlate := hspaced 1 tok hnew htok (hm ▸ hthere) 0 tok' 99 htok' (hm'.trans hm.symm) hsent
  rw [hclock] at hlate
  exact absurd hlate (by decide)

end Eth402.Merchants
