/-
The outbox and the one-time tokens, over every run of the service: rows of the outbox are changed by whoever holds their
claim, by a claim of a row nobody holds or by the expiry of one; what was delivered or abandoned stays; and a token is
marked sent together with its row.
-/
import Eth402.Merchant.Runs

namespace Eth402.Merchants

open Lib Lib.Relational

variable {env : Env} {D : Discipline tables} {p : Nat} {c : Int} {db db' : Db tables} {w : Work tables} {op : Op}

/-! ## What commits do to the mails -/

/-- An open row is claimed, released or given up; where its claim had to be over, it was at a time the worker read. -/
inductive RowChange (env : Env) (D : Discipline tables) (p : Nat) (r : Delivery) : Op → Delivery → Prop
  | claimed {now : Int} {token : Mint} : r.free now = true → D.Read p now → token.owner = p →
      RowChange env D p r .claimEmail { r with
        claimedUntil := some (now + env.cfg.emailDeliveryLease), claimToken := some token, attempts := r.attempts + 1 }
  | released {token : Mint} {next : Int} : r.claimToken = some token → token.owner = p →
      RowChange env D p r .releaseEmail { r with claimedUntil := none, claimToken := none, nextAttemptAt := next }
  | abandoned {token : Mint} {now : Int} : r.claimToken = some token → token.owner = p →
      RowChange env D p r .abandonEmail { closeDelivery r with abandonedAt := some now }
  | expired {now : Int} : r.free now = true → D.Read p now →
      RowChange env D p r .expireEmail { closeDelivery r with abandonedAt := some now }

/-- Nothing held back a mail to the merchant at `now`, in a database since which its row was held. -/
structure Quiet (env : Env) (D : Discipline tables) (c : Int) (db : Db tables) (m : Nat) (now : Int) : Prop where
  unsuppressed : ∃ τ L db₀, D.Later now τ ∧ Rely D L τ db₀ c db ∧ Holds L m ∧ db₀.Sound ∧
    suppressed m (now - env.cfg.resend) now db₀ = false

/-- What a commit does to the tokens and the outbox. -/
inductive MailChange (env : Env) (D : Discipline tables) (p : Nat) (c : Int) (db db' : Db tables) : Op → Prop
  | same {op : Op} : db.Same .tokens db' → db.Same .outbox db' → MailChange env D p c db db' op
  | enqueued {op : Op} {m t o : Nat} {tok : Token} {out : Delivery} : op = .register ∨ op = .requestAdminLink →
      NewMail m t tok out → db.find .tokens t = none → db.find .outbox o = none → db.Sets .tokens t tok db' →
      db.Sets .outbox o out db' → db.find .merchants m = none ∨ Quiet env D c db m tok.createdAt →
      MailChange env D p c db db' op
  | verified {t : Nat} {tok : Token} (now : Int) : db.find .tokens t = some tok → tok.consumedAt = none →
      db.Sets .tokens t { tok with consumedAt := some now } db' → db.Same .outbox db' →
      MailChange env D p c db db' .verifyEmail
  | worked {op : Op} : db.Same .tokens db' → (∀ id, db'.find .outbox id = db.find .outbox id ∨
      ∃ r r', db.find .outbox id = some r ∧ r.isOpen = true ∧ RowChange env D p r op r' ∧
        db'.find .outbox id = some r') →
      MailChange env D p c db db' op
  | delivered {id : Nat} {r : Delivery} {tok : Token} {token : Mint} (sentAt : Int) : db.find .outbox id = some r →
      r.isOpen = true → r.claimToken = some token → token.owner = p →
      db.Sets .outbox id { closeDelivery r with deliveredAt := some sentAt } db' →
        db.find .tokens r.tokenID = some tok →
      tok.sentAt = none ∧ db.Sets .tokens r.tokenID { tok with sentAt := some sentAt } db' ∨
        tok.sentAt.isSome ∧ db.Same .tokens db' →
      MailChange env D p c db db' .recordDelivery

theorem worked_one {id : Nat} {r r' : Delivery} (hr : db.find .outbox id = some r) (ho : r.isOpen = true)
    (hchange : RowChange env D p r op r') : MailChange env D p c db (db.puts [⟨.outbox, id, r'⟩]) op := by
  refine .worked (Db.same_puts db (by simp)) fun i => ?_
  by_cases hi : i = id
  · subst hi
    exact .inr ⟨r, r', hr, ho, hchange, by simp⟩
  · exact .inl (by simp [hi])

theorem Change.mail (h : Change env D p c db w op) : MailChange env D p c db (db.puts w.puts) op := by
  have other : (∀ x ∈ w.puts, x.table ≠ .tokens ∧ x.table ≠ .outbox) → MailChange env D p c db (db.puts w.puts) op :=
    fun hw => .same (Db.same_puts db fun x hx => (hw x hx).1) (Db.same_puts db fun x hx => (hw x hx).2)
  cases h with
  | registered hputs hm ht ho _ _ hmail =>
    rw [hputs]
    refine .enqueued (.inl rfl) hmail ht ho (fun i => ?_) (fun i => ?_) (.inl hm) <;> simp [Db.find_put]
  | enqueued hop hputs _ ht ho hmail h₁ h₂ h₃ _ h₅ h₆ h₇ =>
    rw [hputs]
    subst h₇
    refine .enqueued hop hmail ht ho (fun i => ?_) (fun i => ?_) (.inr ⟨_, _, _, h₁, h₂, h₃, h₅, h₆⟩)
      <;> simp [Db.find_put]
  | @emailVerified t tok r now issued hputs ht hc hm hissued =>
    refine .verified now ht hc (fun i => ?_) fun i => ?_
    all_goals rcases hissued with rfl | ⟨sid, s, rfl, -⟩ <;> simp [hputs, Db.find_put]
  | expired hputs hread =>
    refine .worked (Db.same_puts db fun x hx => ?_) fun i => ?_
    · obtain ⟨id, r, rfl, -⟩ := hputs x hx
      simp
    · rcases Db.find_puts_cases (S := tables) .outbox i w.puts db with hs | ⟨r', hr', hmem⟩
      · exact .inl hs
      · obtain ⟨id, r, he, hr, ho, hf⟩ := hputs _ hmem
        cases he
        exact .inr ⟨r, _, hr, ho, .expired hf hread, hr'⟩
  | claimed hputs hr ho hf hread ht => rw [hputs]; exact worked_one hr ho (.claimed hf hread ht)
  | released hputs hr ho hc ht => rw [hputs]; exact worked_one hr ho (.released hc ht)
  | abandoned hputs hr ho hc ht => rw [hputs]; exact worked_one hr ho (.abandoned hc ht)
  | @delivered id r token sentAt sent hputs hr ho hc ht hsent =>
    rcases hsent with ⟨tok, rfl, htok, hnone⟩ | ⟨rfl, tok, htok, hsome⟩
    all_goals rw [hputs]
    · refine .delivered sentAt hr ho hc ht (fun i => ?_) htok (.inl ⟨hnone, fun i => ?_⟩) <;> simp [Db.find_put]
    · refine .delivered sentAt hr ho hc ht (fun i => ?_) htok (.inr ⟨hsome, fun i => ?_⟩) <;> simp [Db.find_put]
  | changed hputs _ _ _ _ _ _ hclear | changedByAdmin hputs _ _ _ _ _ _ hclear =>
    rw [hputs] at other ⊢
    exact other (hclear.forall (fun x hx => by simp [hx]) (by simp) (by simp))
  | nothing _ hputs | challenged hputs | replaced hputs | activated hputs | authenticated hputs | stamped hputs
  | sessionRevoked hputs | keyWritten _ hputs | consented _ hputs | suspended hputs | reinstated hputs
  | paymentRecorded hputs | admitted hputs => exact other (by simp [hputs])

/-! ## The invariant -/

/-- What holds of the outbox and the tokens between commits. -/
structure Mails (db : Db tables) : Prop where
  ciphertext : ∀ {o out}, db.find .outbox o = some out → (out.ciphertext = none ↔ out.isOpen = false)
  token : ∀ {o out}, db.find .outbox o = some out → ∃ tok, db.find .tokens out.tokenID = some tok ∧
    tok.sentAt = out.deliveredAt ∧ tok.merchantID = out.merchantID
  row : ∀ {t tok}, db.find .tokens t = some tok → ∃ o out, db.find .outbox o = some out ∧ out.tokenID = t

theorem mails_empty : Mails empty where
  ciphertext h := absurd h (by simp [Db.find, empty])
  token h := absurd h (by simp [Db.find, empty])
  row h := absurd h (by simp [Db.find, empty])

theorem isOpen_iff {r : Delivery} : r.isOpen = true ↔ r.deliveredAt = none ∧ r.abandonedAt = none := by
  simp [Delivery.isOpen]

/-- Whatever is done to a row, it stays with its token and its ciphertext goes when it is closed. -/
theorem RowChange.keeps {r r' : Delivery} (h : RowChange env D p r op r')
    (hc : r.ciphertext = none ↔ r.isOpen = false) : r'.tokenID = r.tokenID ∧ r'.merchantID = r.merchantID ∧
      r'.deliveredAt = r.deliveredAt ∧ (r'.ciphertext = none ↔ r'.isOpen = false) := by
  cases h with
  | claimed | released => exact ⟨rfl, rfl, rfl, hc⟩
  | abandoned | expired => exact ⟨rfl, rfl, rfl, by simp [closeDelivery, Delivery.isOpen]⟩

/-- The tokens change in no column the outbox depends on. -/
theorem Mails.of_tokens (h : Mails db) (ho : db.Same .outbox db')
    (ht : ∀ t tok, db.find .tokens t = some tok → ∃ tok', db'.find .tokens t = some tok' ∧ tok'.sentAt = tok.sentAt ∧
      tok'.merchantID = tok.merchantID)
    (ht' : ∀ t tok', db'.find .tokens t = some tok' → ∃ tok, db.find .tokens t = some tok) : Mails db' where
  ciphertext hr := h.ciphertext ((ho _).symm.trans hr)
  token hr := by
    obtain ⟨tok, htok, hsent, hm⟩ := h.token ((ho _).symm.trans hr)
    obtain ⟨tok', htok', hsent', hm'⟩ := ht _ tok htok
    exact ⟨tok', htok', hsent'.trans hsent, hm'.trans hm⟩
  row htok := by
    obtain ⟨tok, htok⟩ := ht' _ _ htok
    obtain ⟨o, out, hout, he⟩ := h.row htok
    exact ⟨o, out, (ho o).trans hout, he⟩

theorem Mails.enqueued (h : Mails db) {m t o : Nat} {tok : Token} {out : Delivery}
    (hmail : NewMail m t tok out) (ht : db.find .tokens t = none) (ho : db.find .outbox o = none)
    (hst : db.Sets .tokens t tok db') (hso : db.Sets .outbox o out db') : Mails db' where
  ciphertext {o' out'} hr := by
    rcases hso.cases hr with ⟨-, rfl⟩ | ⟨-, hr⟩
    · have hc := hmail.ciphertext
      simp only [hmail.isOpen, Bool.true_eq_false, iff_false]
      intro hn
      rw [hn] at hc
      cases hc
    · exact h.ciphertext hr
  token {o' out'} hr := by
    rcases hso.cases hr with ⟨-, rfl⟩ | ⟨-, hr⟩
    · refine ⟨tok, hmail.outToken ▸ hst.at, ?_, hmail.merchantID.trans hmail.outMerchant.symm⟩
      rw [hmail.sentAt, (isOpen_iff.1 hmail.isOpen).1]
    · obtain ⟨tok', htok', hsent, hm⟩ := h.token hr
      have hne : out'.tokenID ≠ t := fun he => by
        rw [he, ht] at htok'
        cases htok'
      exact ⟨tok', by rw [hst, if_neg hne, htok'], hsent, hm⟩
  row {t' tok'} hr := by
    rcases hst.cases hr with ⟨rfl, -⟩ | ⟨-, hr⟩
    · exact ⟨o, out, hso.at, hmail.outToken⟩
    · obtain ⟨o', out', hout, he⟩ := h.row hr
      have hne : o' ≠ o := fun he' => by
        rw [he', ho] at hout
        cases hout
      exact ⟨o', out', by rw [hso, if_neg hne, hout], he⟩

theorem Mails.worked (h : Mails db) (ht : db.Same .tokens db')
    (hrows : ∀ id, db'.find .outbox id = db.find .outbox id ∨ ∃ r r', db.find .outbox id = some r ∧ r.isOpen = true ∧
      RowChange env D p r op r' ∧ db'.find .outbox id = some r') : Mails db' := by
  -- every row comes from one with the same token, merchant and delivery
  have back : ∀ {o out}, db'.find .outbox o = some out → (out.ciphertext = none ↔ out.isOpen = false) ∧
      ∃ out₀, db.find .outbox o = some out₀ ∧ out.tokenID = out₀.tokenID ∧ out.merchantID = out₀.merchantID ∧
        out.deliveredAt = out₀.deliveredAt := by
    intro o out hr
    rcases hrows o with hsame | ⟨r, r', hr₀, ho, hc, hr'⟩
    · rw [hsame] at hr
      exact ⟨h.ciphertext hr, out, hr, rfl, rfl, rfl⟩
    · obtain rfl := Option.some.inj (hr.symm.trans hr')
      obtain ⟨h₁, h₂, h₃, h₄⟩ := hc.keeps (h.ciphertext hr₀)
      exact ⟨h₄, r, hr₀, h₁, h₂, h₃⟩
  refine ⟨fun hr => (back hr).1, fun {o out} hr => ?_, fun {t tok} hr => ?_⟩
  · obtain ⟨-, out₀, hr₀, h₁, h₂, h₃⟩ := back hr
    obtain ⟨tok, htok, hsent, hm⟩ := h.token hr₀
    exact ⟨tok, by rw [ht, h₁, htok], hsent.trans h₃.symm, hm.trans h₂.symm⟩
  · rw [ht] at hr
    obtain ⟨o, out, hout, he⟩ := h.row hr
    rcases hrows o with hsame | ⟨r, r', hr₀, ho, hc, hr'⟩
    · exact ⟨o, out, hsame.trans hout, he⟩
    · obtain rfl := Option.some.inj (hout.symm.trans hr₀)
      exact ⟨o, r', hr', (hc.keeps (h.ciphertext hr₀)).1.trans he⟩

/-- The token of the row was not sent, so it is marked sent with it. -/
theorem Mails.delivered (h : Mails db) (hs : db.Sound) {id : Nat} {r : Delivery} {tok : Token} {sentAt : Int}
    (hr : db.find .outbox id = some r) (ho : r.isOpen = true)
    (hso : db.Sets .outbox id { closeDelivery r with deliveredAt := some sentAt } db')
    (hst : db.Sets .tokens r.tokenID { tok with sentAt := some sentAt } db')
    (htok : db.find .tokens r.tokenID = some tok) :
    Mails db' where
  ciphertext {o out} hr' := by
    rcases hso.cases hr' with ⟨-, rfl⟩ | ⟨-, hr'⟩
    · simp [closeDelivery, Delivery.isOpen]
    · exact h.ciphertext hr'
  token {o out} hr' := by
    rcases hso.cases hr' with ⟨-, rfl⟩ | ⟨hne, hr'⟩
    · obtain ⟨tok', htok', -, hm⟩ := h.token hr
      obtain rfl := Option.some.inj (htok.symm.trans htok')
      exact ⟨_, hst.at, rfl, hm⟩
    · obtain ⟨tok', htok', hsent, hm⟩ := h.token hr'
      -- one row for one token
      have hne' : out.tokenID ≠ r.tokenID := fun he =>
        hne (hs.unique hr' hr (s := .tokenID r.tokenID) (by simp [slots, he]) (by simp [slots]))
      exact ⟨tok', by rw [hst, if_neg hne', htok'], hsent, hm⟩
  row {t tok'} hr' := by
    have hold : ∃ tok₀, db.find .tokens t = some tok₀ := by
      rcases hst.cases hr' with ⟨rfl, -⟩ | ⟨-, hr'⟩
      · exact ⟨tok, htok⟩
      · exact ⟨tok', hr'⟩
    obtain ⟨tok₀, hr₀⟩ := hold
    obtain ⟨o, out, hout, he⟩ := h.row hr₀
    by_cases ho' : o = id
    · subst ho'
      obtain rfl := Option.some.inj (hout.symm.trans hr)
      exact ⟨o, _, hso.at, he⟩
    · exact ⟨o, out, by rw [hso, if_neg ho', hout], he⟩

theorem Mails.step (h : Mails db) (hs : db.Sound) (hc : MailChange env D p c db db' op) : Mails db' := by
  cases hc with
  | same ht ho =>
    exact h.of_tokens ho (fun t tok hr => ⟨tok, (ht t).trans hr, rfl, rfl⟩) fun t tok' hr =>
      ⟨tok', (ht t).symm.trans hr⟩
  | enqueued _ hmail ht ho hst hso _ => exact h.enqueued hmail ht ho hst hso
  | @verified t tok now htok _ hst ho =>
    refine h.of_tokens ho (fun t' tok' hr => ?_) fun t' tok' hr => ?_
    · by_cases he : t' = t
      · subst he
        obtain rfl := Option.some.inj (htok.symm.trans hr)
        exact ⟨_, hst.at, rfl, rfl⟩
      · exact ⟨tok', by rw [hst, if_neg he, hr], rfl, rfl⟩
    · rcases hst.cases hr with ⟨rfl, -⟩ | ⟨-, hr⟩
      · exact ⟨tok, htok⟩
      · exact ⟨tok', hr⟩
  | worked ht hrows => exact h.worked ht hrows
  | @delivered id r tok token sentAt hr ho _ _ hso htok hsent =>
    rcases hsent with ⟨-, hst⟩ | ⟨hsome, -⟩
    · exact h.delivered hs hr ho hso hst htok
    · -- a token marked sent has a row that is closed
      obtain ⟨tok', htok', he, -⟩ := h.token hr
      obtain rfl := Option.some.inj (htok.symm.trans htok')
      rw [he, (isOpen_iff.1 ho).1] at hsome
      cases hsome

/-! ## Every run -/

variable {s : World (service env)} {chs : List (Choice (service env))}

theorem mails_reached (h : (World.init (service env) empty).run chs = some s) : Mails s.db :=
  (committed h).history.inv (fun _ db => Mails db) mails_empty fun _ _ hs _ hc hm => hm.step hs hc.mail

/-- Who may have changed a row: the worker that holds its claim; or its claim is new, or it is given up, and nobody held
one that had not lapsed at a time of which `read` tells. -/
def ChangedBy (env : Env) (read : Int → Prop) (e : Commit (service env)) (r r' : Delivery) : Prop :=
  (∃ token, r.claimToken = some token ∧ token.owner = e.caller) ∨
    (e.op = .expireEmail ∧ ∃ now, read now ∧ r.free now = true ∧
    r' = { closeDelivery r with abandonedAt := some now }) ∨
    (e.op = .claimEmail ∧ ∃ now token, read now ∧ r.free now = true ∧ token.owner = e.caller ∧ r' = { r with
      claimedUntil := some (now + env.cfg.emailDeliveryLease), claimToken := some token, attempts := r.attempts + 1 })

/-- Before the commit that follows `earlier` in the log, its caller read the clock at `now`. -/
def ReadBefore (chs : List (Choice (service env))) (earlier : List (Commit (service env))) (e : Commit (service env))
    (now : Int) : Prop :=
  ∃ before after s, chs = before ++ after ∧ (World.init (service env) empty).run before = some s ∧
    s.log = earlier ++ [e] ∧ Reads (.init (service env) empty) before e.caller now

variable {e : Commit (service env)}

theorem changedBy_of_change (h : MailChange env D e.caller e.clock e.before e.after e.op) {id : Nat}
    {r r' : Delivery} (hr : e.before.find .outbox id = some r) (hr' : e.after.find .outbox id = some r')
    (hne : r' ≠ r) :
    ChangedBy env (D.Read e.caller) e r r' := by
  obtain ⟨q, op, c, db, w⟩ := e
  cases h with
  | same _ ho | verified _ _ _ _ ho => exact absurd (Option.some.inj (hr'.symm.trans ((ho id).trans hr))) hne
  | enqueued _ _ _ ho _ hso _ =>
    rcases hso.cases hr' with ⟨rfl, -⟩ | ⟨-, hr₀⟩
    · exact absurd (ho.symm.trans hr) (by simp)
    · exact absurd (Option.some.inj (hr₀.symm.trans hr)) hne
  | worked _ hrows =>
    rcases hrows id with ho | ⟨r₀, r₁, hr₀, _, hc, hr₁⟩
    · exact absurd (Option.some.inj (hr'.symm.trans (ho.trans hr))) hne
    · obtain rfl := Option.some.inj (hr.symm.trans hr₀)
      obtain rfl := Option.some.inj (hr'.symm.trans hr₁)
      cases hc with
      | claimed hf hread ht => exact .inr (.inr ⟨rfl, _, _, hread, hf, ht, rfl⟩)
      | released hc ht | abandoned hc ht => exact .inl ⟨_, hc, ht⟩
      | expired hf hread => exact .inr (.inl ⟨rfl, _, hread, hf, rfl⟩)
  | delivered _ hr₀ _ hc ht hso _ _ =>
    rcases hso.cases hr' with ⟨rfl, -⟩ | ⟨-, hr₁⟩
    · obtain rfl := Option.some.inj (hr.symm.trans hr₀)
      exact .inl ⟨_, hc, ht⟩
    · exact absurd (Option.some.inj (hr₁.symm.trans hr)) hne

theorem ChangedBy.imp {read read' : Int → Prop} (himp : ∀ now, read now → read' now)
    {r r' : Delivery} (h : ChangedBy env read e r r') : ChangedBy env read' e r r' := by
  rcases h with h | ⟨hop, now, hread, hrest⟩ | ⟨hop, now, token, hread, hrest⟩
  · exact .inl h
  · exact .inr (.inl ⟨hop, now, himp now hread, hrest⟩)
  · exact .inr (.inr ⟨hop, now, token, himp now hread, hrest⟩)

/-- The times a commit goes by were read in the run that ends with it. -/
theorem changedBy_read
    (h : (World.init (service env) empty).run chs = some s) {earlier later : List (Commit (service env))}
    (hlog : s.log = earlier ++ e :: later) {id : Nat} {r r' : Delivery}
    (hr : e.before.find .outbox id = some r) (hr' : e.after.find .outbox id = some r') (hne : r' ≠ r) :
    ChangedBy env (ReadBefore chs earlier e) e r r' := by
  obtain ⟨before, ch, after, s₁, hsplit, hrun, hlast⟩ := World.run_log h rfl hlog
  have hmem : e ∈ s₁.log := by simp [hlast]
  have hchange := ((committed_tracing hrun).history.mem hmem).1.mail
  refine (changedBy_of_change hchange hr hr' hne).imp fun now hread => ?_
  exact ⟨before ++ [ch], after, s₁, by simp [hsplit], hrun, hlast, hread⟩

/-- The commit is a verification that consumes the token. -/
def Verifies {env : Env} (e : Commit (service env)) (t : Nat) : Prop :=
  e.op = .verifyEmail ∧ ∃ row, ⟨.tokens, t, row⟩ ∈ e.work.puts

/-- A verification finds its token unconsumed and leaves it consumed. -/
theorem Change.verifies (h : Change env D p c db w .verifyEmail) {t : Nat} {row : Token}
    (ht : ⟨.tokens, t, row⟩ ∈ w.puts) : (∃ tok, db.find .tokens t = some tok ∧ tok.consumedAt = none) ∧
      ∃ tok, (db.puts w.puts).find .tokens t = some tok ∧ tok.consumedAt.isSome := by
  cases h with
  | nothing hop => cases hop
  | enqueued hop | keyWritten hop | consented hop => rcases hop with hop | hop <;> cases hop
  | challenged _ _ _ _ hop => rcases hop with hop | hop | ⟨hop | hop, -⟩ <;> cases hop
  | @emailVerified t' tok r now issued hputs htok hc _ hissued =>
    have hsets : db.Sets .tokens t' { tok with consumedAt := some now } (db.puts w.puts) := fun i => by
      rcases hissued with rfl | ⟨sid, s, rfl, -⟩ <;> simp [hputs, Db.find_put]
    have he : t = t' := by
      rw [hputs] at ht
      rcases hissued with rfl | ⟨sid, s, rfl, -⟩ <;> simp_all
    exact he ▸ ⟨⟨tok, htok, hc⟩, _, hsets.at, rfl⟩

theorem verifies_once (h : (World.init (service env) empty).run chs = some s) :
    s.log.Pairwise fun e e' => ∀ t, Verifies e t → ¬ Verifies e' t := by
  have hist := (committed h).history
  refine hist.pairwise.imp_of_mem fun {e e'} he he' hmoves t hv hv' => ?_
  obtain ⟨hop, row, hrow⟩ := hv
  obtain ⟨hop', row', hrow'⟩ := hv'
  have hc := (hist.mem he).1
  have hc' := (hist.mem he').1
  rw [hop] at hc
  rw [hop'] at hc'
  obtain ⟨-, tok, htok, hused⟩ := hc.verifies hrow
  obtain ⟨⟨tok', htok', hunused⟩, -⟩ := hc'.verifies hrow'
  -- what was consumed stays consumed
  obtain ⟨tok'', htok'', hl⟩ := hmoves _ _ _ htok
  obtain rfl := Option.some.inj (htok'.symm.trans htok'')
  have hkept : tok'.consumedAt = tok.consumedAt := hl.2.2.2.2.1 hused
  rw [← hkept, hunused] at hused
  cases hused

/-- After a claim only its holder changes the row, unless the claim had lapsed at a time that the caller read from the
clock before its commit and the row is given up or claimed again; a row delivered or abandoned is one of them, for good
and without its ciphertext; a token is sent exactly when its row is delivered; and no two verifications consume one
token. -/
theorem outbox_claims_are_fenced (env : Env) {s : World (service env)} {chs : List (Choice (service env))}
    (h : (World.init (service env) empty).run chs = some s) :
    (∀ earlier e later, s.log = earlier ++ e :: later → ∀ id r r', e.before.find .outbox id = some r →
      e.after.find .outbox id = some r' → r' ≠ r → ChangedBy env (ReadBefore chs earlier e) e r r') ∧
    (∀ id r, s.db.find .outbox id = some r → ¬ (r.deliveredAt.isSome ∧ r.abandonedAt.isSome) ∧
      (r.ciphertext = none ↔ r.deliveredAt.isSome ∨ r.abandonedAt.isSome)) ∧
    (∀ e ∈ s.log, ∀ id r, e.after.find .outbox id = some r → r.deliveredAt.isSome ∨ r.abandonedAt.isSome →
      s.db.find .outbox id = some r) ∧
    (∀ t tok, s.db.find .tokens t = some tok → ∃ id r, s.db.find .outbox id = some r ∧ r.tokenID = t) ∧
    (∀ id r, s.db.find .outbox id = some r → ∃ tok, s.db.find .tokens r.tokenID = some tok ∧
      tok.sentAt = r.deliveredAt) ∧
    s.log.Pairwise fun e e' => ∀ t, Verifies e t → ¬ Verifies e' t := by
  have hist := (committed h).history
  have hmails := mails_reached h
  have closed : ∀ {r : Delivery}, r.isOpen = false ↔ r.deliveredAt.isSome ∨ r.abandonedAt.isSome := by
    intro r
    cases hd : r.deliveredAt <;> cases ha : r.abandonedAt <;> simp [Delivery.isOpen, hd, ha]
  refine ⟨fun earlier e later hlog id r r' => changedBy_read h hlog, fun id r hr => ⟨?_, ?_⟩,
    fun e he id r hr hclosed => ?_, fun t tok htok => hmails.row htok, fun id r hr => ?_, verifies_once h⟩
  · have hcheck := (committed h).sound.checked hr
    rintro ⟨hd, ha⟩
    obtain ⟨d, hd⟩ := Option.isSome_iff_exists.1 hd
    obtain ⟨a, ha⟩ := Option.isSome_iff_exists.1 ha
    simp [check, hd, ha] at hcheck
  · exact (hmails.ciphertext hr).trans closed
  · obtain ⟨r', hr', hl⟩ := (hist.mem he).2.2.2 _ _ _ hr
    have hsame : r' = r := hl.2.2 (closed.2 hclosed)
    exact hsame ▸ hr'
  · obtain ⟨tok, htok, hsent, -⟩ := hmails.token hr
    exact ⟨tok, htok, hsent⟩

/-- A mail is registered and claimed at 10 by a worker that sends for longer than its claim of 30; another worker claims
the row at 50 and records the delivery at 55, after which the first one wants to record its own. -/
def sampleTakeover : List (Choice (service sampleEnv)) :=
  sampleRegistration ++ .start 1 .deliverNext :: steps 1 { time := 10 } 3 ++ [.finish 1 .made] ++ steps 1 {} 5
    ++ [.finish 1 .made] ++ .start 2 .deliverNext :: steps 2 { time := 50 } 3 ++ [.finish 2 .made] ++ steps 2 {} 5
    ++ [.finish 2 .made] ++ steps 2 { time := 55, bit := true } 5 ++ [.finish 2 .made]
    ++ steps 1 { time := 60, bit := true } 4 ++ [.finish 1 .made]

/-- Who holds the claim of the row. -/
def claimHolder (db : Db tables) : Option Nat := (db.find .outbox 0).bind fun r => r.claimToken.map Mint.owner

theorem claimHolder_some {db : Db tables} {p : Nat} (h : claimHolder db = some p) :
    ∃ r token, db.find .outbox 0 = some r ∧ r.claimToken = some token ∧ token.owner = p := by
  obtain ⟨r, hr, hclaim⟩ := Option.bind_eq_some_iff.1 h
  obtain ⟨token, htoken, howner⟩ := Option.map_eq_some_iff.1 hclaim
  exact ⟨r, token, hr, htoken, howner⟩

/-- The fifth commit takes the row over from the first worker, whose claim had lapsed at the time the second one read;
the first worker leaves the row as the second one delivered it. -/
theorem outbox_claims_are_fenced_takeover : ∃ s e r r', sampleWorld.run sampleTakeover = some s ∧ s.log[4]? = some e ∧
    (∃ token, r.claimToken = some token ∧ token.owner = 1) ∧ (∃ token, r'.claimToken = some token ∧ token.owner = 2) ∧
    ChangedBy sampleEnv (ReadBefore sampleTakeover (s.log.take 4) e) e r r' ∧
    (s.db.find .outbox 0).bind Delivery.deliveredAt = some 55 := by
  have hfacts : ((sampleWorld.run sampleTakeover).bind fun s => s.log[4]?.map fun e =>
      (claimHolder e.before, claimHolder e.after, (s.db.find .outbox 0).bind Delivery.deliveredAt)) =
      some (some 1, some 2, some 55) := by decide +kernel
  obtain ⟨s, hs, hcommit⟩ := Option.bind_eq_some_iff.1 hfacts
  obtain ⟨e, he, hholders⟩ := Option.map_eq_some_iff.1 hcommit
  obtain ⟨hbefore, hrest⟩ := Prod.mk.inj hholders
  obtain ⟨hafter, hdelivered⟩ := Prod.mk.inj hrest
  obtain ⟨r, token, hr, htoken, howner⟩ := claimHolder_some hbefore
  obtain ⟨r', token', hr', htoken', howner'⟩ := claimHolder_some hafter
  have hne : r' ≠ r := by
    rintro rfl
    obtain rfl := Option.some.inj (htoken.symm.trans htoken')
    rw [howner] at howner'
    cases howner'
  have hlog : s.log = s.log.take 4 ++ e :: s.log.drop 5 := by
    obtain ⟨hlt, hget⟩ := List.getElem?_eq_some_iff.1 he
    rw [← hget, ← List.drop_eq_getElem_cons hlt, List.take_append_drop]
  exact ⟨s, e, r, r', hs, he, ⟨token, htoken, howner⟩, ⟨token', htoken', howner'⟩,
    (outbox_claims_are_fenced sampleEnv hs).1 _ e _ hlog 0 r r' hr hr' hne, hdelivered⟩

end Eth402.Merchants
