/-
What the transactions of the merchant service commit. `Change` has one case for each kind of commit, with the rows it
writes and what the database it commits to is known to hold; every transaction is proved to commit nothing else
(`Change` of its name). What was locked is known of that very database; what was only read, of an earlier one.
-/
import Eth402.Merchant.Requests

namespace Eth402.Merchants

open Lib Lib.Relational Lib.Relational.Sql

/-! ## The commits -/

def Active (db : Db tables) (m : Nat) : Prop := ∃ r, db.find .merchants m = some r ∧ r.status = .active

/-- The merchant's row is held for update. -/
def Holds (L : Locks tables) (m : Nat) : Prop := ((Table.merchants, m), Mode.update) ∈ L.rows

section Holds

variable {w : Work tables} {L : Locks tables} {m : Nat}

theorem Holds.lock (h : Holds w.locks m) (k : Table × Nat) : Holds (w.lock k).locks m := List.mem_cons_of_mem _ h

theorem Holds.update (h : Holds w.locks m) (t : Table) (id : Nat) (r : Row t) : Holds (w.update t id r).locks m :=
  List.mem_cons_of_mem _ h

theorem Holds.insert (h : Holds w.locks m) (t : Table) (id : Nat) (r : Row t) : Holds (w.insert t id r).locks m :=
  List.mem_append_right _ h

theorem Holds.writes (h : Holds L m) : L.Writes (Table.merchants, m) := ⟨.update, by decide, h⟩

theorem holds_lock (w : Work tables) (m : Nat) : Holds (w.lock (Table.merchants, m)).locks m := List.mem_cons_self ..

end Holds

/-- A token nobody has used and the open outbox row that is to deliver it. -/
structure NewMail (m t : Nat) (tok : Token) (out : Delivery) : Prop where
  merchantID : tok.merchantID = m
  sentAt : tok.sentAt = none
  consumedAt : tok.consumedAt = none
  outMerchant : out.merchantID = m
  outToken : out.tokenID = t
  isOpen : out.isOpen = true
  ciphertext : out.ciphertext.isSome

/-- The sessions' wallet proofs are taken back, those of `ids` still to come. A session whose proof is not taken back
had none when it was looked at, with the merchant's row already held. -/
structure Clearing (D : Discipline tables) (c : Int) (db : Db tables) (m : Nat) (ids : List Nat)
    (nulls : List (Put tables)) : Prop where
  rows : ∀ x ∈ nulls, ∃ sid s, x = ⟨.sessions, sid, { s with walletVerifiedAt := none }⟩ ∧
    db.find .sessions sid = some s ∧ s.merchantID = m
  all : ∀ sid s, db.find .sessions sid = some s → s.merchantID = m → s.walletVerifiedAt.isSome → sid ∈ ids ∨
    (∃ r, ⟨.sessions, sid, r⟩ ∈ nulls) ∨
      ∃ L τ db₀, Rely D L τ db₀ c db ∧ Holds L m ∧ ∀ s₀, db₀.find .sessions sid = some s₀ → s₀.walletVerifiedAt = none

/-- The challenge was not consumed and is, with a signature by its address. -/
structure Proves (env : Env) (db : Db tables) (m id : Nat) (ch : WalletChallenge) (proof : Proof) : Prop where
  row : db.find .challenges id = some ch
  merchantID : ch.merchantID = m
  consumedAt : ch.consumedAt = none
  signed : Signed env.lib.toWallets proof.message proof.signature ch.address

def WalletChallenge.consumed (ch : WalletChallenge) (now : Int) (proof : Proof) : WalletChallenge :=
  { ch with consumedAt := some now, proof := some proof }

/-- The challenge has been consumed, with a signature by its address. -/
structure Spent (env : Env) (db : Db tables) (m id : Nat) (ch : WalletChallenge) (proof : Proof) : Prop where
  row : db.find .challenges id = some ch
  merchantID : ch.merchantID = m
  consumedAt : ch.consumedAt.isSome
  spentOn : ch.proof = some proof
  signed : Signed env.lib.toWallets proof.message proof.signature ch.address

/-- It stays so: a consumed challenge does not change. -/
theorem Spent.moves {env : Env} {db db' : Db tables} {m id : Nat} {ch : WalletChallenge} {proof : Proof}
    (h : Spent env db m id ch proof) (hm : db.Moves db') : Spent env db' m id ch proof := by
  obtain ⟨ch', hr, hl⟩ := hm _ _ _ h.row
  have he : ch' = ch := hl.2 h.consumedAt
  exact ⟨he ▸ hr, h.merchantID, h.consumedAt, h.spentOn, h.signed⟩

theorem Proves.spent {env : Env} {db db' : Db tables} {m id : Nat} {ch : WalletChallenge} {proof : Proof} {now : Int}
    (h : Proves env db m id ch proof) (hr : db'.find .challenges id = some (ch.consumed now proof)) :
    Spent env db' m id (ch.consumed now proof) proof :=
  ⟨hr, h.merchantID, rfl, rfl, h.signed⟩

/-- The history row of a proof. -/
structure Records (m id : Nat) (ch : WalletChallenge) (now : Int) (h : Recipient) : Prop where
  merchantID : h.merchantID = m
  newAddress : h.newAddress = lower ch.address
  verifiedAt : h.verifiedAt = now
  walletChallengeID : h.walletChallengeID = id

def Merchant.withRecipient (r : Merchant) (address : String) (now : Int) : Merchant :=
  { r with recipientAddress := address, walletVerifiedAt := some now }

/-- All earlier proofs of the merchant are the cooldown ago. -/
def CooledDown (env : Env) (db : Db tables) (m : Nat) (now : Int) : Prop :=
  ∀ id h, db.find .history id = some h → h.merchantID = m → h.verifiedAt + env.cfg.recipientCooldown ≤ now

/-- The operations that may commit without writing. -/
def Op.mayRead : Op → Bool
  | .authenticate | .readMerchant | .listAPIKeys _ | .claimEmail | .releaseEmail | .abandonEmail | .revokeAdminSession
  | .createSettlementIntent _ => true
  | _ => false

/-- What caller `p` commits to `db` at clock `c`, having done `w`. -/
inductive Change (env : Env) (D : Discipline tables) (p : Nat) (c : Int) (db : Db tables) (w : Work tables) : Op → Prop
  | nothing {op} : op.mayRead = true → w.puts = [] → Change env D p c db w op
  | registered {m t o : Nat} {r : Merchant} {tok : Token} {out : Delivery} :
      w.puts = [⟨.merchants, m, r⟩, ⟨.tokens, t, tok⟩, ⟨.outbox, o, out⟩] →
      db.find .merchants m = none → db.find .tokens t = none → db.find .outbox o = none →
      r.status = .pending → r.walletVerifiedAt = none → NewMail m t tok out → Change env D p c db w .register
  | enqueued {op} {m t o : Nat} {tok : Token} {out : Delivery} {now τ : Int} {L : Locks tables} {db₀ : Db tables} :
      op = .register ∨ op = .requestAdminLink → w.puts = [⟨.tokens, t, tok⟩, ⟨.outbox, o, out⟩] →
      (db.find .merchants m).isSome → db.find .tokens t = none → db.find .outbox o = none → NewMail m t tok out →
      D.Later now τ → Rely D L τ db₀ c db → Holds L m → L.Within w.locks → db₀.Sound →
      suppressed m (now - env.cfg.resend) now db₀ = false → tok.createdAt = now → Change env D p c db w op
  | emailVerified {t : Nat} {tok : Token} {r : Merchant} {now : Int} {issued : List (Put tables)} :
      w.puts = ⟨.tokens, t, { tok with consumedAt := some now }⟩ ::
        ⟨.merchants, tok.merchantID, { r with emailVerifiedAt := r.emailVerifiedAt <|> some now }⟩ :: issued →
      db.find .tokens t = some tok → tok.consumedAt = none → db.find .merchants tok.merchantID = some r →
      (issued = [] ∨ ∃ sid s, issued = [⟨.sessions, sid, s⟩] ∧ db.find .sessions sid = none ∧
        s.walletVerifiedAt = none) →
      Change env D p c db w .verifyEmail
  | challenged {op} {m id : Nat} {ch : WalletChallenge} : w.puts = [⟨.challenges, id, ch⟩] →
      db.find .challenges id = none → ch.merchantID = m → ch.consumedAt = none →
      op = .walletChallenge ∨ op = .pendingRecipientChallenge m ∨
        (op = .authenticatedWalletChallenge m ∨ op = .adminWalletChallenge m) ∧ Active db m →
      Change env D p c db w op
  | replaced {m id : Nat} {ch : WalletChallenge} {r : Merchant} {address : String} :
      w.puts = [⟨.merchants, m, { r with recipientAddress := address }⟩, ⟨.challenges, id, ch⟩] →
      db.find .merchants m = some r → unproven r = true → db.find .challenges id = none → ch.merchantID = m →
      ch.consumedAt = none → Change env D p c db w (.pendingRecipientChallenge m)
  | activated {m id hid kid : Nat} {ch : WalletChallenge} {r : Merchant} {h : Recipient} {key : APIKey} {proof : Proof}
      {now : Int} :
      w.puts = [⟨.challenges, id, ch.consumed now proof⟩,
        ⟨.merchants, m, { r with walletVerifiedAt := some now, status := .active }⟩, ⟨.history, hid, h⟩,
        ⟨.apiKeys, kid, key⟩] →
      Proves env db m id ch proof → db.find .merchants m = some r → unproven r = true →
      r.recipientAddress = lower ch.address → db.find .history hid = none → Records m id ch now h →
      Change env D p c db w (.verifyWallet m)
  | changed {m id hid : Nat} {ch : WalletChallenge} {r : Merchant} {h : Recipient} {proof : Proof} {now : Int}
      {nulls : List (Put tables)} :
      w.puts = [⟨.challenges, id, ch.consumed now proof⟩, ⟨.merchants, m, r.withRecipient (lower ch.address) now⟩] ++
        nulls ++ [⟨.history, hid, h⟩] →
      Proves env db m id ch proof → db.find .merchants m = some r → r.status = .active → db.find .history hid = none →
      Records m id ch now h → CooledDown env db m now → Clearing D c db m [] nulls → Holds w.locks m →
      Change env D p c db w (.verifyAuthenticatedWallet m)
  | authenticated {m id sid : Nat} {ch : WalletChallenge} {r : Merchant} {s : Session} {proof : Proof} {now : Int}
      {token : String} :
      w.puts = [⟨.challenges, id, ch.consumed now proof⟩, ⟨.sessions, sid, { s with walletVerifiedAt := some now }⟩] →
      Proves env db m id ch proof → db.find .merchants m = some r → r.status = .active →
      lower r.recipientAddress = lower ch.address → proof.session = some token → db.find .sessions sid = some s →
      s.merchantID = m → s.tokenHash = env.lib.hash token → Holds w.locks m →
        Change env D p c db w (.verifyAdminWallet m)
  | changedByAdmin {m id hid sid : Nat} {ch : WalletChallenge} {r : Merchant} {h : Recipient} {s : Session}
    {proof : Proof}
      {now : Int} {nulls : List (Put tables)} {token : String} :
      w.puts = [⟨.challenges, id, ch.consumed now proof⟩, ⟨.merchants, m, r.withRecipient (lower ch.address) now⟩,
        ⟨.history, hid, h⟩] ++ nulls ++ [⟨.sessions, sid, { s with walletVerifiedAt := some now }⟩] →
      Proves env db m id ch proof → db.find .merchants m = some r → r.status = .active → db.find .history hid = none →
      Records m id ch now h → CooledDown env db m now → Clearing D c db m [] nulls → proof.session = some token →
      (∃ s₀, db.find .sessions sid = some s₀) → s.merchantID = m → s.tokenHash = env.lib.hash token → Holds w.locks m →
      Change env D p c db w (.verifyAdminRecipientChange m)
  | stamped {m id sid : Nat} {token : String} {ch : WalletChallenge} {proof : Proof} {s : Session} {now : Int} :
      w.puts = [⟨.sessions, sid, { s with walletVerifiedAt := some now }⟩] → db.find .sessions sid = some s →
      s.merchantID = m → s.tokenHash = env.lib.hash token → Spent env db m id ch proof → proof.session = some token →
      Change env D p c db w (.markAdminSessionWalletVerified m token id)
  | sessionRevoked {sid : Nat} {s : Session} {now : Int} :
    w.puts = [⟨.sessions, sid, { s with revokedAt := some now }⟩] →
      db.find .sessions sid = some s → Change env D p c db w .revokeAdminSession
  | keyWritten {op} {m kid : Nat} {key : APIKey} : op = .createAPIKey m ∨ op = .revokeAPIKey m →
      w.puts = [⟨.apiKeys, kid, key⟩] → Active db m → Change env D p c db w op
  | consented {op} {m : Nat} {r r' : Merchant} : op = .setStatsConsent m ∨ op = .setPublicProfileConsent m →
      w.puts = [⟨.merchants, m, r'⟩] → db.find .merchants m = some r → r.status = .active →
      r' = { r with statsOptedInAt := r'.statsOptedInAt, publicProfileOptedInAt := r'.publicProfileOptedInAt } →
      Change env D p c db w op
  | suspended {m sid : Nat} {s : Suspension} {r : Merchant} :
      w.puts = [⟨.suspensions, sid, s⟩, ⟨.merchants, m, { r with status := .suspended }⟩] →
      db.find .suspensions sid = none → s.merchantID = m → s.reinstatedAt = none →
      (∀ i s', db.find .suspensions i = some s' → s'.merchantID = m → s'.reinstatedAt.isSome) →
      db.find .merchants m = some r → r.status.established = true → Change env D p c db w (.suspend m)
  | reinstated {m sid : Nat} {s : Suspension} {r : Merchant} {operator : String} {now : Int} :
      w.puts = [⟨.suspensions, sid, { s with reinstatedAt := some now, reinstatedBy := some operator }⟩,
        ⟨.merchants, m, { r with status := .active }⟩] →
      db.find .suspensions sid = some s → s.merchantID = m → s.reinstatedAt = none → db.find .merchants m = some r →
      Change env D p c db w (.reinstate m)
  | expired {now : Int} : (∀ x ∈ w.puts, ∃ id r, x = ⟨.outbox, id, { closeDelivery r with abandonedAt := some now }⟩ ∧
      db.find .outbox id = some r ∧ r.isOpen = true ∧ r.free now = true) → D.Read p now →
      Change env D p c db w .expireEmail
  | claimed {id : Nat} {r : Delivery} {now : Int} {token : Mint} :
      w.puts = [⟨.outbox, id, { r with
        claimedUntil := some (now + env.cfg.emailDeliveryLease), claimToken := some token, attempts :=
          r.attempts + 1 }⟩] →
      db.find .outbox id = some r → r.isOpen = true → r.free now = true → D.Read p now → token.owner = p →
      Change env D p c db w .claimEmail
  | released {id : Nat} {r : Delivery} {token : Mint} {next : Int} :
      w.puts = [⟨.outbox, id, { r with claimedUntil := none, claimToken := none, nextAttemptAt := next }⟩] →
      db.find .outbox id = some r → r.isOpen = true → r.claimToken = some token → token.owner = p →
      Change env D p c db w .releaseEmail
  | abandoned {id : Nat} {r : Delivery} {token : Mint} {now : Int} :
      w.puts = [⟨.outbox, id, { closeDelivery r with abandonedAt := some now }⟩] →
      db.find .outbox id = some r → r.isOpen = true → r.claimToken = some token → token.owner = p →
      Change env D p c db w .abandonEmail
  | delivered {id : Nat} {r : Delivery} {token : Mint} {sentAt : Int} {sent : List (Put tables)} :
      w.puts = ⟨.outbox, id, { closeDelivery r with deliveredAt := some sentAt }⟩ :: sent →
      db.find .outbox id = some r → r.isOpen = true → r.claimToken = some token → token.owner = p →
      ((∃ tok, sent = [⟨.tokens, r.tokenID, { tok with sentAt := some sentAt }⟩] ∧
          db.find .tokens r.tokenID = some tok ∧ tok.sentAt = none) ∨
        sent = [] ∧ ∃ tok, db.find .tokens r.tokenID = some tok ∧ tok.sentAt.isSome) →
      Change env D p c db w .recordDelivery
  | paymentRecorded {id : Nat} {r : Payment} : w.puts = [⟨.payments, id, r⟩] → Change env D p c db w .recordPayment
  | admitted {m id : Nat} {r r' : Payment} : w.puts = [⟨.payments, id, r'⟩] → db.find .payments id = some r →
      r.merchantID = some m → r'.merchantID = some m → Active db m → Change env D p c db w (.createSettlementIntent id)

/-- What the recorded points stand for. -/
def noteHolds (env : Env) : Point → Int → Db tables → Prop
  | .walletAuthenticated m token, _, db => ∃ r sid s, db.find .merchants m = some r ∧ r.status = .active ∧
      db.find .sessions sid = some s ∧ s.merchantID = m ∧ s.tokenHash = env.lib.hash token ∧ s.walletVerifiedAt.isSome

def spec (env : Env) (D : Discipline tables) : Spec (service env) where
  note := noteHolds env
  post p op c db w := Change env D p c db w op

/-! ## Statements -/

/-- A rollback replies with an error, or hides that nothing was done. -/
def Refusal (r : Reply) : Prop := r = .done ∨ ∃ e, r = .err e

theorem refusal_done : Refusal .done := .inl rfl

theorem refusal_err (e : Err) : Refusal (.err e) := .inr ⟨e, rfl⟩

variable {token : String} {item : Item}

section Rules

variable {env : Env} {D : Discipline tables} {N : Point → Int → Db tables → Prop} {p : Nat} {c : Int} {db : Db tables}
  {τ : Int} {w : Work tables} {β : Type} {Q : β → Int → Work tables → Prop}

/-- The body commits the changes of the operation and nothing else. -/
abbrev Does (env : Env) (D : Discipline tables) (N : Point → Int → Db tables → Prop) (p : Nat) (c : Int)
    (db : Db tables)
    (τ : Int) (body : Body Reply) (op : Op) : Prop :=
  Ok D N p c db τ {} body Refusal fun _ _ w => Change env D p c db w op

theorem ok_fail {e : Err} : Ok D N p c db τ w (fail e : Body β) Refusal Q := refusal_err e

theorem ok_require {b : Bool} {e : Err} {f : Unit → Body β}
    (h : b = true → Ok D N p c db τ w (f ()) Refusal Q) : Ok D N p c db τ w (require b e >>= f) Refusal Q :=
  ok_guard (fun _ => refusal_err e) h

theorem ok_require_last {b : Bool} {e : Err} {Q : Unit → Int → Work tables → Prop} (h : b = true → Q () τ w) :
    Ok D N p c db τ w (require b e) Refusal Q := by
  cases b with
  | true => exact h rfl
  | false => exact refusal_err e

theorem ok_insertRow {t : Table} {r : Row t} {f : Nat → Body β}
    (h : ∀ id, (db.puts w.puts).find t id = none → (∀ k ∈ parents t r, ((db.puts w.puts).find k.1 k.2).isSome) →
      Ok D N p c db τ (w.insert t id r) (f id) Refusal Q) : Ok D N p c db τ w (insertRow t r >>= f) Refusal Q :=
  ok_bind (ok_insert (S := tables) (fun id hid _ hp _ => h id hid hp) fun _ _ _ _ _ => ok_fail)

theorem ok_lockWhere {t : Table} {cond : Row t → Bool} {f : Option (Nat × Row t) → Body β}
    (hsome : ∀ τ' id r, D.Later τ τ' → (db.puts w.puts).find t id = some r → cond r = true →
      Ok D N p c db τ' (w.lock (t, id)) (f (some (id, r))) Refusal Q)
    (hnone : ∀ τ', Ok D N p c db τ' w (f none) Refusal Q) :
    Ok D N p c db τ w (lockWhere t cond >>= f) Refusal Q :=
  ok_bind (ok_query fun _ _ _ h₁ _ => ok_lockFirst _ (fun τ' id r h₂ => hsome τ' id r (D.later_trans h₁ h₂))
    fun τ' _ => hnone τ')

theorem ok_updateOne {t : Table} {e : Edit tables t} {f : Option (Nat × Row t) → Body β}
    (hsome : ∀ τ' id r, (db.puts w.puts).find t id = some r → e.cond r = true → check t (e.change r) = true →
      Ok D N p c db τ' (w.update t id (e.change r)) (f (some (id, e.change r))) Refusal Q)
    (hnone : ∀ τ', Ok D N p c db τ' w (f none) Refusal Q) :
    Ok D N p c db τ w (updateOne t e >>= f) Refusal Q :=
  ok_bind (ok_query fun _ _ _ _ _ => ok_updateFirst _ hsome hnone)

/-! ### Mails -/

theorem ok_enqueueEmail {m : Nat} {tokenHash rawToken : String} {kind : MailKind} {now : Int} {f : Unit → Body β}
    (h : ∀ t o tok out w', w'.puts = w.puts ++ [⟨.tokens, t, tok⟩, ⟨.outbox, o, out⟩] → w.locks.Within w'.locks →
      (db.puts w.puts).find .tokens t = none → (db.puts w.puts).find .outbox o = none → NewMail m t tok out →
      tok.createdAt = now → Ok D N p c db τ w' (f ()) Refusal Q) :
    Ok D N p c db τ w (enqueueEmail env m tokenHash rawToken kind now >>= f) Refusal Q := by
  refine ok_bind (ok_insertRow fun t ht _ => ok_draw fun nonce => ok_insertRow fun o ho _ => ?_)
  refine ok_pure (h t o _ _ _ (List.append_assoc ..) ?_ ht ?_ ⟨rfl, rfl, rfl, rfl, rfl, rfl, rfl⟩ rfl)
  · exact (Locks.within_inserted ..).trans (Locks.within_inserted ..)
  · simpa [Work.insert] using ho

theorem ok_enqueueAgain {email rawToken : String} {kind : MailKind} {now : Int} {op : Op}
    (hop : op = .register ∨ op = .requestAdminLink) (hτ : D.Later now τ) :
    Does env D N p c db τ (enqueueAgain env email rawToken kind now) op := by
  refine ok_lockWhere (fun τ₁ m r h₁ hr _ => ?_) fun _ => refusal_done
  refine ok_query fun τ₂ db₀ hs h₂ hrely => ?_
  show Ok D N p c db τ₂ _ (if suppressed m (now - env.cfg.resend) now db₀ then _ else _) Refusal _
  cases hsup : suppressed m (now - env.cfg.resend) now db₀ with
  | true => exact refusal_done
  | false =>
    refine ok_enqueueEmail fun t o tok out w' hputs hwithin ht ho hmail hcreated => ?_
    exact .enqueued hop hputs (by simpa using congrArg Option.isSome hr) ht ho hmail
      (D.later_trans hτ (D.later_trans h₁ h₂)) hrely (holds_lock ..) hwithin hs hsup hcreated

theorem ok_register {email recipient rawToken : String} {now : Int} (hτ : D.Later now τ) :
    Does env D N p c db τ (register env email recipient rawToken now) .register := by
  refine ok_insert (S := tables) (fun m hm _ _ _ => ?_) fun _ _ _ _ _ => ok_enqueueAgain (.inl rfl) hτ
  refine ok_enqueueEmail fun t o tok out w' hputs _ ht ho hmail _ => ?_
  refine .registered hputs hm ?_ ?_ rfl rfl hmail
  · simpa [Work.insert] using ht
  · simpa [Work.insert] using ho

theorem ok_verifyEmail {session : Option (String × Int)} {now : Int} :
    Does env D N p c db τ (verifyEmail env token session now) .verifyEmail := by
  refine ok_updateOne (fun _ t tok ht hc _ => ?_) fun _ => ok_fail
  have hunused : tok.consumedAt = none := by simp_all [consumeToken]
  refine ok_update (fun r hr _ _ => ?_) fun τ' db₀ hs _ hrely hno => ?_
  · -- the token's update leaves the merchant's row to be found in the database itself
    have hr' : db.find .merchants tok.merchantID = some r := hr
    cases session with
    | none => exact .emailVerified rfl ht hunused hr' (.inl rfl)
    | some s =>
      refine ok_insertRow fun sid hsid _ => ?_
      exact ok_pure (.emailVerified rfl ht hunused hr' (.inr ⟨sid, _, rfl, hsid, rfl⟩))
  · -- the foreign key of the token, whose row is held, has its merchant there
    have ht₀ : db₀.find .tokens t = some tok := (hrely.same (Locks.writes_row _ _ (by decide))).symm.trans ht
    obtain ⟨r, hr⟩ := Option.isSome_iff_exists.1 (hs.parents ht₀ (.merchants, tok.merchantID) (List.mem_cons_self ..))
    exact absurd (hno rfl r hr) (by simp [markEmailVerified])

/-! ### Delivery -/

theorem ok_expireEmail {now : Int} (hread : D.Read p now) : Does env D N p c db τ (expireEmail now) .expireEmail := by
  refine ok_query fun _ _ _ _ _ => ok_bind (ok_mono (ok_updateUpTo (fun w : Work tables => ∀ x ∈ w.puts, ∃ id r,
    x = ⟨.outbox, id, { closeDelivery r with abandonedAt := some now }⟩ ∧ db.find .outbox id = some r ∧
      r.isOpen = true ∧ r.free now = true) ?_ 100 _ ?_) (fun _ h => h) fun _ _ _ h => ok_pure (.expired h hread))
  · intro id w r hw hr hc _ x hx
    obtain ⟨ho, hf⟩ := Bool.and_eq_true_iff.1 hc
    rcases List.mem_append.1 hx with hx | hx
    · exact hw x hx
    · rw [List.mem_singleton.1 hx]
      refine ⟨id, r, rfl, ?_, ho, hf⟩
      rcases Db.find_puts_cases (S := tables) .outbox id w.puts db with hs | ⟨r', hr', hmem⟩
      · exact hs ▸ hr
      · -- a row given up before is not open
        obtain ⟨id', r₀, he, -⟩ := hw _ hmem
        cases he
        obtain rfl := Option.some.inj (hr.symm.trans hr')
        simp [Delivery.isOpen] at ho
  · intro x hx
    cases hx

/-- What a worker knows of the row it has claimed. -/
def Claims (p : Nat) (item : Item) (db : Db tables) : Prop :=
  item.claimToken.owner = p ∧ ∃ r, db.find .outbox item.id = some r ∧ r.tokenID = item.tokenID

theorem Claims.moves {db' : Db tables} (h : Claims p item db) (hm : db.Moves db') : Claims p item db' := by
  obtain ⟨ho, r, hr, ht⟩ := h
  obtain ⟨r', hr', hl⟩ := hm _ _ _ hr
  exact ⟨ho, r', hr', hl.2.1.trans ht⟩

theorem ok_claimEmail {now : Int} (hread : D.Read p now) :
    Ok D N p c db τ {} (claimEmail env now) Refusal fun r _ w =>
      Change env D p c db w .claimEmail ∧ ∀ item, r = .claimed (some item) → Claims p item (db.puts w.puts) := by
  refine ok_query fun _ _ _ _ _ => ok_mint fun token ht => ok_bind (ok_updateFirst _ ?_ ?_)
  · intro τ' id r hr hc _
    obtain ⟨hopen, hfree⟩ := Bool.and_eq_true_iff.1 hc
    refine ok_query fun _ db₀ _ _ _ => ok_pure ⟨.claimed rfl hr (Bool.and_eq_true_iff.1 hopen).1 hfree hread ht, ?_⟩
    intro item he
    cases he
    exact ⟨ht, _, Db.find_put_self .., rfl⟩
  · intro _
    exact ok_pure ⟨.nothing rfl rfl, fun _ he => by cases he⟩

theorem claimedBy_iff {r : Delivery} {token : Mint} :
    r.claimedBy token = true ↔ r.claimToken = some token ∧ r.isOpen = true := by
  simp [Delivery.claimedBy]

theorem ok_releaseEmail {finishedAt : Int} (h : Claims p item db) :
    Does env D N p c db τ (releaseEmail item finishedAt) .releaseEmail := by
  refine ok_update (fun r hr hc _ => ok_pure ?_) fun _ _ _ _ _ _ => ok_pure (.nothing rfl rfl)
  obtain ⟨ht, ho⟩ := claimedBy_iff.1 hc
  exact .released rfl hr ho ht h.1

theorem ok_abandonCorruptEmail {now : Int} (h : Claims p item db) :
    Does env D N p c db τ (abandonCorruptEmail item now) .abandonEmail := by
  refine ok_update (fun r hr hc _ => ok_pure ?_) fun _ _ _ _ _ _ => ok_pure (.nothing rfl rfl)
  obtain ⟨ht, ho⟩ := claimedBy_iff.1 hc
  exact .abandoned rfl hr ho ht h.1

theorem ok_recordDelivery {deliveredAt : Int} (h : Claims p item db) :
    Does env D N p c db τ (recordDelivery item deliveredAt) .recordDelivery := by
  obtain ⟨howner, r₀, hr₀, htoken⟩ := h
  refine ok_update (fun r hr hc _ => ?_) fun _ _ _ _ _ _ => refusal_done
  obtain ⟨ht, ho⟩ := claimedBy_iff.1 hc
  obtain rfl : r₀ = r := Option.some.inj (hr₀.symm.trans hr)
  rw [← htoken]
  refine ok_update (fun tok htok hunsent _ => ok_pure ?_) fun τ' db₀ hs _ hrely hno => ok_pure ?_
  · exact .delivered rfl hr ho ht howner (.inl ⟨tok, rfl, htok, Option.isNone_iff_eq_none.1 hunsent⟩)
  · -- the token is there by the row's foreign key, so it was sent before
    have hr' : db₀.find .outbox item.id = some r₀ := (hrely.same (Locks.writes_row _ _ (by decide))).symm.trans hr
    obtain ⟨tok₀, htok₀⟩ := Option.isSome_iff_exists.1 (hs.parents hr' (.tokens, r₀.tokenID) (by simp [parents]))
    have hsent : tok₀.sentAt.isSome := by simpa [markSent] using hno rfl tok₀ htok₀
    obtain ⟨tok, htok, hl⟩ := hrely.moves _ _ _ htok₀
    have hkept : tok.sentAt = tok₀.sentAt := hl.2.2.2.2.2 hsent
    exact .delivered rfl hr ho ht howner (.inr ⟨rfl, tok, htok, hkept ▸ hsent⟩)

/-! ### Credentials -/

theorem ok_lockMerchant {m : Nat} {cond : Merchant → Bool} {f : Option Merchant → Body β} (hw : w.puts = [])
    (hsome : ∀ r, db.find .merchants m = some r → cond r = true → Holds (w.lock (.merchants, m)).locks m →
      Ok D N p c db τ (w.lock (.merchants, m)) (f (some r)) Refusal Q)
    (hnone : ∀ τ', Ok D N p c db τ' w (f none) Refusal Q) :
    Ok D N p c db τ w (lockRow .merchants m cond >>= f) Refusal Q :=
  ok_lock (fun r hr hc => hsome r (by rw [hw] at hr; exact hr) hc (holds_lock w m))
    fun τ' _ _ _ _ _ => hnone τ'

theorem ok_lockAuthenticatedAPIKey {m : Nat} {value : String} {f : Unit → Body β} (hw : w.puts = [])
    (h : ∀ τ' w', w'.puts = [] → w.locks.Within w'.locks → Active db m → Holds w'.locks m →
      Ok D N p c db τ' w' (f ()) Refusal Q) :
    Ok D N p c db τ w (lockAuthenticatedAPIKey env m value >>= f) Refusal Q := by
  refine ok_bind (ok_require fun _ => ok_lockMerchant hw (fun r hr _ hholds => ?_) fun _ => ok_fail)
  refine ok_require fun hactive => ok_lockWhere (fun τ' kid key _ _ _ => ?_) fun _ => ok_fail
  refine ok_require_last fun _ => ?_
  refine h τ' _ hw ?_ ⟨r, hr, by simpa using hactive⟩ (hholds.lock _)
  exact (Locks.within_row ..).trans (Locks.within_row ..)

theorem ok_lockWalletAuthenticatedAdmin {m : Nat} {f : Unit → Body β} (hw : w.puts = [])
    (h : ∀ τ' w', w'.puts = [] → Active db m → Holds w'.locks m →
      Ok D (noteHolds env) p c db τ' w' (f ()) Refusal Q) :
    Ok D (noteHolds env) p c db τ w (lockWalletAuthenticatedAdmin env m token >>= f) Refusal Q := by
  refine ok_bind (ok_require fun _ => ok_lockMerchant hw (fun r hr _ hholds => ?_) fun _ => ok_fail)
  refine ok_lockWhere (fun τ' sid s _ hs hlive => ?_) fun _ => ok_fail
  refine ok_now fun now _ _ => ok_require fun _ => ok_require fun hok => ?_
  obtain ⟨hactive, hstamp⟩ := Bool.and_eq_true_iff.1 hok
  have hs' : db.find .sessions sid = some s := by rw [show (w.lock _).puts = [] from hw] at hs; exact hs
  have hsession : s.merchantID = m ∧ s.tokenHash = env.lib.hash token := by simp_all [liveSession]
  have hset : s.walletVerifiedAt.isSome := by
    unfold elevated at hstamp
    split at hstamp
    · simp_all
    · cases hstamp
  have hstatus : r.status = .active := by simpa using hactive
  refine ok_note (f := pure) ⟨r, sid, s, hr, hstatus, hs', hsession.1, hsession.2, hset⟩ ?_
  exact h _ _ hw ⟨r, hr, hstatus⟩ (hholds.lock _)

theorem ok_authenticateAdmin {now : Int} :
    Ok D N p c db τ {} (authenticateAdmin env token now) Refusal fun _ _ w =>
      Change env D p c db w .authenticate ∧ hasPrefix adminSessionPrefix token = true := by
  refine ok_require fun hp => ok_query fun _ _ _ _ _ => ?_
  have hprefix := (Bool.and_eq_true_iff.1 hp).1
  dsimp only
  split
  · exact ok_fail
  · exact ok_pure ⟨.nothing rfl rfl, hprefix⟩

theorem ok_authenticate {value : String} :
    Ok D N p c db τ {} (authenticate env value) Refusal fun _ _ w =>
      Change env D p c db w .authenticate ∧ hasPrefix keyPrefix value = true := by
  refine ok_require fun hp => ok_query fun _ _ _ _ _ => ?_
  have hprefix := (Bool.and_eq_true_iff.1 hp).1
  dsimp only
  split
  · exact ok_fail
  · exact ok_require fun _ => ok_require fun _ => ok_pure ⟨.nothing rfl rfl, hprefix⟩

/-! ### Challenges -/

theorem ok_challengeFor {m : Nat} {address : String} {action : Action} {now : Int} {f : Challenge → Body β}
    (h : ∀ ch, Ok D N p c db τ w (f ch) Refusal Q) :
    Ok D N p c db τ w (challengeFor env m address action now >>= f) Refusal Q := by
  refine ok_bind (ok_draw fun nonce => ?_)
  split
  · exact ok_pure (h _)
  · exact ok_fail

theorem ok_persistWalletChallenge {m : Nat} {ch : Challenge} {op : Op}
    (h : ∀ id (r : WalletChallenge), (db.puts w.puts).find .challenges id = none → r.merchantID = m →
    r.consumedAt = none →
      Change env D p c db (w.insert .challenges id r) op) :
    Ok D N p c db τ w (persistWalletChallenge env m ch) Refusal fun _ _ w => Change env D p c db w op :=
  ok_now fun _ _ _ => ok_insertRow fun id hid _ => ok_pure (h id _ hid rfl rfl)

theorem ok_readMerchant {m : Nat} : Does env D N p c db τ (readMerchant m) .readMerchant := by
  refine ok_query fun _ _ _ _ _ => ?_
  dsimp only
  split
  · exact ok_fail
  · exact ok_pure (.nothing rfl rfl)

theorem ok_walletChallenge {m : Nat} {merchant : Merchant} {address : String} {action : Action} {now : Int} :
    Does env D N p c db τ (walletChallenge env m merchant address action now) .walletChallenge := by
  refine ok_require fun _ => ok_require fun _ => ok_challengeFor fun ch => ?_
  exact ok_persistWalletChallenge fun id r hid hm hc => .challenged rfl hid hm hc (.inl rfl)

theorem ok_pendingRecipientChallenge {m : Nat} {normalized : String} {now : Int} :
    Does env D N p c db τ (pendingRecipientChallenge env m normalized now) (.pendingRecipientChallenge m) := by
  refine ok_lockMerchant rfl (fun r hr _ _ => ?_) fun _ => ok_fail
  refine ok_require fun hpending => ok_challengeFor fun ch => ?_
  split
  · exact ok_persistWalletChallenge fun id r hid hm hc => .challenged rfl hid hm hc (.inr (.inl rfl))
  · refine ok_update (fun r' hr' _ _ => ?_) fun _ _ _ _ _ _ => ok_fail
    obtain rfl : r = r' := Option.some.inj (hr.symm.trans hr')
    refine ok_persistWalletChallenge fun id ch hid hm hc => .replaced rfl hr hpending ?_ hm hc
    simpa [Work.update, Work.lock] using hid

theorem ok_authenticatedWalletChallenge {m : Nat} {apiKey address : String} :
    Does env D N p c db τ (authenticatedWalletChallenge env m apiKey address) (.authenticatedWalletChallenge m) := by
  refine ok_lockAuthenticatedAPIKey rfl fun τ' w hw _ hactive _ => ok_query fun _ _ _ _ _ => ?_
  dsimp only
  split
  · exact ok_fail
  · refine ok_require fun _ => ok_require fun _ => ok_now fun _ _ _ => ok_challengeFor fun ch => ?_
    refine ok_persistWalletChallenge fun id r hid hm hc =>
      .challenged (congrArg (· ++ _) hw) ?_ hm hc (.inr (.inr ⟨.inl rfl, hactive⟩))
    rw [hw] at hid
    exact hid

theorem ok_adminWalletChallenge {m : Nat} {sessionToken address : String} :
    Does env D (noteHolds env) p c db τ (adminWalletChallenge env m sessionToken address)
      (.adminWalletChallenge m) := by
  refine ok_lockWalletAuthenticatedAdmin rfl fun τ' w hw hactive _ => ok_query fun _ _ _ _ _ => ?_
  dsimp only
  split
  · exact ok_fail
  · refine ok_require fun _ => ok_now fun _ _ _ => ok_challengeFor fun ch => ?_
    refine ok_persistWalletChallenge fun id r hid hm hc =>
      .challenged (congrArg (· ++ _) hw) ?_ hm hc (.inr (.inr ⟨.inr rfl, hactive⟩))
    rw [hw] at hid
    exact hid

/-! ### Proofs of a wallet -/

theorem ok_consumeChallenge {id : Nat} {now : Int} {proof : Proof} {ch : WalletChallenge} {f : Unit → Body β}
    (hr : (db.puts w.puts).find .challenges id = some ch)
    (h : ch.consumedAt = none → Ok D N p c db τ (w.update .challenges id (ch.consumed now proof)) (f ()) Refusal Q) :
    Ok D N p c db τ w (consumeChallenge id now proof >>= f) Refusal Q := by
  refine ok_bind (ok_update (fun r hr' hc _ => ?_) fun _ _ _ _ _ _ => ok_fail)
  obtain rfl : ch = r := Option.some.inj (hr.symm.trans hr')
  exact ok_pure (h (Option.isNone_iff_eq_none.1 hc))

/-- The look at the history is made with the merchant's row held, so no row has been added to it since. -/
theorem ok_cooledDown {m : Nat} {now : Int} {f : Unit → Body β} (hw : w.puts = []) (hm : Holds w.locks m)
    (h : ∀ τ', CooledDown env db m now → Ok D N p c db τ' w (f ()) Refusal Q) :
    Ok D N p c db τ w (cooledDown env m now >>= f) Refusal Q := by
  refine ok_bind (ok_query fun τ' db₀ _ _ hrely => ?_)
  rw [hw, Db.puts_nil]
  split
  · exact ok_fail
  · rename_i last hlast
    refine ok_require_last fun hcool => h τ' fun id r hr hrm => ?_
    obtain ⟨r₀, hr₀, hl⟩ := hrely.child hr (k := (.merchants, m)) (by simp [parents, hrm]) hm
    obtain rfl : r = r₀ := hl
    have hmem : r.verifiedAt ∈ ((db₀.rows .history).entries.filter fun h => decide (h.2.merchantID = m)).map
        fun h => h.2.verifiedAt :=
      List.mem_map.2 ⟨⟨id, r⟩, List.mem_filter.2 ⟨AList.mem_lookup_iff.1 hr₀, by simpa using hrm⟩, rfl⟩
    have hle : r.verifiedAt ≤ last := (List.max?_eq_some_iff.1 hlast).2 _ hmem
    have hcool : env.cfg.recipientCooldown ≤ now - last := by simpa using hcool
    omega

theorem mem_select {t : Table} {cond : Row t → Bool} {id : Nat} {r : Row t} (hr : db.find t id = some r)
    (hc : cond r = true) : id ∈ select t cond db :=
  List.mem_map.2 ⟨⟨id, r⟩, List.mem_filter.2 ⟨AList.mem_lookup_iff.1 hr, hc⟩, rfl⟩

section Clearing

variable {m sid : Nat} {ids : List Nat} {nulls : List (Put tables)}

/-- A session is seen as it is in the database, or cleared. -/
theorem Clearing.find (h : Clearing D c db m ids nulls) {ws : List (Put tables)} (hw : ∀ x ∈ ws, x.table ≠ .sessions)
    (db' : Db tables) (sid : Nat) : (db'.puts (ws ++ nulls)).find .sessions sid = db'.find .sessions sid ∨
      ∃ s, db.find .sessions sid = some s ∧ s.merchantID = m ∧ (∃ r, ⟨.sessions, sid, r⟩ ∈ nulls) ∧
        (db'.puts (ws ++ nulls)).find .sessions sid = some { s with walletVerifiedAt := none } := by
  rcases Db.find_puts_cases (S := tables) .sessions sid (ws ++ nulls) db' with hs | ⟨r, hr, hmem⟩
  · exact .inl hs
  · rcases List.mem_append.1 hmem with hmem | hmem
    · exact absurd rfl (hw _ hmem)
    · obtain ⟨sid', s, he, hs, hm⟩ := h.rows _ hmem
      cases he
      exact .inr ⟨s, hs, hm, ⟨_, hmem⟩, hr⟩

theorem Clearing.forall (h : Clearing D c db m ids nulls) {P : Put tables → Prop} {ws ws' : List (Put tables)}
    (hs : ∀ x, x.table = .sessions → P x) (hw : ∀ x ∈ ws, P x) (hw' : ∀ x ∈ ws', P x) :
    ∀ x ∈ ws ++ nulls ++ ws', P x := by
  intro x hx
  rcases List.mem_append.1 hx with hx | hx
  · rcases List.mem_append.1 hx with hx | hx
    · exact hw x hx
    · obtain ⟨sid, s, rfl, -⟩ := h.rows x hx
      exact hs _ rfl
  · exact hw' x hx

theorem Clearing.find_table (h : Clearing D c db m ids nulls) (db' : Db tables) {t : Table} (ht : t ≠ .sessions)
    (id : Nat) :
    (db'.puts nulls).find t id = db'.find t id := by
  refine Db.find_puts_table fun x hx => ?_
  obtain ⟨sid, s, rfl, -⟩ := h.rows x hx
  exact ht.symm

theorem Clearing.cleared (h : Clearing D c db m (sid :: ids) nulls) {s : Session} (hs : db.find .sessions sid = some s)
    (hm : s.merchantID = m) :
    Clearing D c db m ids (nulls ++ [⟨.sessions, sid, { s with walletVerifiedAt := none }⟩]) where
  rows x hx := by
    rcases List.mem_append.1 hx with hx | hx
    · exact h.rows x hx
    · exact ⟨sid, s, List.mem_singleton.1 hx, hs, hm⟩
  all sid' s' hs' hm' hset := by
    rcases h.all sid' s' hs' hm' hset with hid | ⟨r, hr⟩ | hrest
    · rcases List.mem_cons.1 hid with rfl | hid
      · exact .inr (.inl ⟨_, List.mem_concat_self⟩)
      · exact .inl hid
    · exact .inr (.inl ⟨r, List.mem_append_left _ hr⟩)
    · exact .inr (.inr hrest)

/-- A session of the merchant that had nothing to take back. -/
theorem unset_of_cond {L : Locks tables} {τ' : Int} {db₀ : Db tables} {s : Session} (hrely : Rely D L τ' db₀ c db)
    (hs : db.find .sessions sid = some s) (hm : s.merchantID = m)
    (hno : ∀ s₀, db₀.find .sessions sid = some s₀ → (clearWallet m).cond s₀ = false) :
    ∀ s₀, db₀.find .sessions sid = some s₀ → s₀.walletVerifiedAt = none := by
  intro s₀ hs₀
  obtain ⟨s', hs', hl⟩ := hrely.moves _ _ _ hs₀
  obtain rfl : s = s' := Option.some.inj (hs.symm.trans hs')
  have hm₀ : s₀.merchantID = m := hl.1.symm.trans hm
  simpa [clearWallet, hm₀] using hno s₀ hs₀

/-- A session is passed over: cleared before, or with nothing to take back. -/
theorem Clearing.passed (h : Clearing D c db m (sid :: ids) nulls) {L : Locks tables} {τ' : Int} {db₀ : Db tables}
    (hrely : Rely D L τ' db₀ c db) (hholds : Holds L m)
    (hno : (∃ r, ⟨.sessions, sid, r⟩ ∈ nulls) ∨
      ∀ s₀, db₀.find .sessions sid = some s₀ → (clearWallet m).cond s₀ = false) : Clearing D c db m ids nulls where
  rows := h.rows
  all sid' s hs hm hset := by
    rcases h.all sid' s hs hm hset with hid | hrest
    · rcases List.mem_cons.1 hid with rfl | hid
      · exact .inr (hno.imp_right fun hno => ⟨L, τ', db₀, hrely, hholds, unset_of_cond hrely hs hm hno⟩)
      · exact .inl hid
    · exact .inr hrest

/-- The look at the sessions and each update are made with the merchant's row held. -/
theorem ok_clearWallet {f : Unit → Body β} (hw : ∀ x ∈ w.puts, x.table ≠ .sessions) (hm : Holds w.locks m)
    (h : ∀ τ' w' nulls, w'.puts = w.puts ++ nulls → w.locks.Within w'.locks → Clearing D c db m [] nulls →
      (∀ sid s, (db.puts w'.puts).find .sessions sid = some s → ∃ s₀, db.find .sessions sid = some s₀) →
      Ok D N p c db τ' w' (f ()) Refusal Q) :
    Ok D N p c db τ w (updateWhere .sessions (clearWallet m) >>= f) Refusal Q := by
  refine ok_bind (ok_query fun τ₁ db₁ _ _ hrely => ok_mono (ok_updateEach (fun ids w' => ∃ nulls,
    w'.puts = w.puts ++ nulls ∧ w.locks.Within w'.locks ∧ Clearing D c db m ids nulls) ?_ ?_ _ ?_) (fun _ h => h) ?_)
  · rintro sid ids w' r ⟨nulls, hputs, hwithin, hclear⟩ hr hc _
    have hcond : r.merchantID = m ∧ r.walletVerifiedAt.isSome := by simpa [clearWallet] using hc
    rw [hputs] at hr
    rcases hclear.find hw db sid with hs | ⟨s, -, -, -, hs⟩
    · refine ⟨_, ?_, hwithin.trans (Locks.within_row ..), hclear.cleared (hs ▸ hr) hcond.1⟩
      show w'.puts ++ _ = _
      rw [hputs, List.append_assoc]
      rfl
    · -- a session cleared before does not meet the condition again
      obtain rfl := Option.some.inj (hr.symm.trans hs)
      exact absurd hcond.2 (by simp)
  · rintro sid ids τ' w' db₀ ⟨nulls, hputs, hwithin, hclear⟩ _ hrely' hno
    rw [hputs] at hno
    refine ⟨nulls, hputs, hwithin, hclear.passed hrely' (hwithin.1 hm) ?_⟩
    rcases hclear.find hw db₀ sid with hs | ⟨s, -, -, hmem, -⟩
    · exact .inr (hs ▸ hno)
    · exact .inl hmem
  · refine ⟨[], (List.append_nil _).symm, .refl _, ⟨fun x hx => absurd hx List.not_mem_nil, fun sid s hs hsm _ => ?_⟩⟩
    by_cases hid : sid ∈ select .sessions (clearWallet m).cond (db₁.puts w.puts)
    · exact .inl hid
    · refine .inr (.inr ⟨_, _, _, hrely, hm, unset_of_cond hrely hs hsm fun s₀ hs₀ => ?_⟩)
      by_contra hc
      exact hid (mem_select ((Db.find_puts_table hw).trans hs₀) (by simpa using hc))
  · rintro _ τ' w' ⟨nulls, hputs, hwithin, hclear⟩
    refine h τ' w' nulls hputs hwithin hclear fun sid s hs => ?_
    rw [hputs] at hs
    rcases hclear.find hw db sid with he | ⟨s₀, hs₀, -⟩
    · exact ⟨s, he ▸ hs⟩
    · exact ⟨s₀, hs₀⟩

end Clearing

section Wallet

variable {m id : Nat} {ch : WalletChallenge} {r : Merchant} {proof : Proof} {now : Int}

theorem ok_activate {generated : String} (hw : w.puts = []) (hr : db.find .merchants m = some r)
    (hch : db.find .challenges id = some ch) (hm : ch.merchantID = m)
    (hsigned : Signed env.lib.toWallets proof.message proof.signature ch.address) :
    Ok D N p c db τ w (activate env m id ch r proof now generated) Refusal fun _ _ w =>
      Change env D p c db w (.verifyWallet m) ∧ ∃ ch', Spent env (db.puts w.puts) m id ch' proof := by
  obtain ⟨L, ws, ns⟩ := w
  obtain rfl : ws = [] := hw
  refine ok_require fun _ => ok_consumeChallenge hch fun hfresh => ?_
  have hp : Proves env db m id ch proof := ⟨hch, hm, hfresh, hsigned⟩
  refine ok_update (fun r' hr' hc _ => ?_) fun _ _ _ _ _ _ => ok_fail
  obtain rfl : r = r' := Option.some.inj (hr.symm.trans hr')
  have hcond : unproven r = true ∧ r.recipientAddress = lower ch.address := by
    simp only [activateMerchant, Bool.and_eq_true, decide_eq_true_eq] at hc
    simp [unproven, hc]
  refine ok_insertRow fun hid hhid _ => ok_insertRow fun kid _ _ => ok_pure ⟨?_, ch.consumed now proof, hp.spent ?_⟩
  · exact .activated rfl hp hr hcond.1 hcond.2 hhid ⟨rfl, rfl, rfl, rfl⟩
  · simp [Work.update, Work.insert]

theorem ok_changeRecipient (hw : w.puts = []) (hr : db.find .merchants m = some r)
    (hch : db.find .challenges id = some ch) (hm : ch.merchantID = m)
    (hsigned : Signed env.lib.toWallets proof.message proof.signature ch.address) (hholds : Holds w.locks m) :
    Ok D N p c db τ w (changeRecipient env m id ch r proof now) Refusal fun _ _ w =>
      Change env D p c db w (.verifyAuthenticatedWallet m) := by
  refine ok_require fun hactive => ok_require fun _ => ok_cooledDown hw hholds fun τ' hcool => ?_
  obtain ⟨L, ws, ns⟩ := w
  obtain rfl : ws = [] := hw
  refine ok_consumeChallenge hch fun hfresh => ?_
  refine ok_update_held rfl (hholds.update ..).writes hr rfl fun _ => ?_
  refine ok_clearWallet (by simp [Work.update]) ((hholds.update ..).update ..) ?_
  intro τ' w' nulls hputs hwithin hclear _
  refine ok_insertRow fun hid hhid _ => ok_pure ?_
  have hfree : db.find .history hid = none := by
    rw [hputs, Db.puts_append, hclear.find_table _ (by decide)] at hhid
    simpa [Work.update] using hhid
  exact .changed (congrArg (· ++ _) hputs) ⟨hch, hm, hfresh, hsigned⟩ hr (by simp_all) hfree ⟨rfl, rfl, rfl, rfl⟩ hcool
    hclear (Holds.insert (hwithin.1 ((hholds.update ..).update ..)) ..)

theorem ok_withKey {apiKey : String} {b : Bool} {f : Unit → Body β} (hw : w.puts = []) (hholds : Holds w.locks m)
    (h : ∀ τ' w', w'.puts = [] → Holds w'.locks m → Ok D N p c db τ' w' (f ()) Refusal Q) :
    Ok D N p c db τ w (if apiKey ≠ "" then require b .forbidden >>= fun _ => lockAuthenticatedAPIKey env m apiKey >>= f
      else f ()) Refusal Q := by
  split
  · exact ok_require fun _ => ok_lockAuthenticatedAPIKey hw fun τ' w' hw' _ _ hholds' => h τ' w' hw' hholds'
  · exact h τ w hw hholds

/-- Which challenge `verifyWallet` takes decides what it is. -/
theorem ok_verifyWallet {apiKey message signature generated : String} {expected : Action} {session : Option String}
    {op : Op}
    (hop : expected = .verifyRecipient ∧ op = .verifyWallet m ∨
      expected = .changeRecipient ∧ op = .verifyAuthenticatedWallet m) :
    Ok D N p c db τ {} (verifyWallet env m apiKey id message signature expected session generated) Refusal fun _ _ w =>
      Change env D p c db w op ∧ (op = .verifyWallet m →
        ∃ ch, Spent env (db.puts w.puts) m id ch ⟨message, signature, session⟩) := by
  refine ok_lock (fun ch hch hm => ?_) fun _ _ _ _ _ _ => ok_fail
  refine ok_require fun _ => ok_require fun haction => ?_
  refine ok_lockMerchant rfl (fun r hr _ hholds => ?_) fun _ => ok_fail
  refine ok_withKey rfl hholds fun τ' w hw hholds => ?_
  refine ok_now fun now _ _ => ok_require fun _ => ok_require fun hverified => ?_
  have hm : ch.merchantID = m := by simpa using hm
  have haction : ch.action = expected := by simp_all
  have hsigned := verifyMessage_signed _ hverified
  rcases hop with ⟨rfl, rfl⟩ | ⟨rfl, rfl⟩
  · rw [if_pos haction]
    exact ok_mono (ok_activate hw hr hch hm hsigned) (fun _ h => h) fun _ _ _ h => ⟨h.1, fun _ => h.2⟩
  · rw [if_neg (by rw [haction]; decide)]
    exact ok_mono (ok_changeRecipient hw hr hch hm hsigned hholds) (fun _ h => h) fun _ _ _ h =>
      ⟨h, fun he => by cases he⟩

theorem stampWallet_live {hash : String} {s : Session} (h : (stampWallet m hash now).cond s = true) :
    s.merchantID = m ∧ s.tokenHash = hash := by
  simp only [stampWallet, liveSession, Bool.and_eq_true, decide_eq_true_eq] at h
  exact h.1.1

theorem ok_verifyAdminWallet {message signature : String} :
    Does env D N p c db τ (verifyAdminWallet env m token id message signature) (.verifyAdminWallet m) := by
  refine ok_lock (fun ch hch hm => ?_) fun _ _ _ _ _ _ => ok_fail
  refine ok_lockMerchant rfl (fun r hr _ hholds => ?_) fun _ => ok_fail
  refine ok_require fun hactive => ok_now fun now _ _ => ok_require fun _ => ok_require fun hverified => ?_
  have hm : ch.merchantID = m := by simpa using hm
  have hactive : r.status = .active ∧ lower r.recipientAddress = lower ch.address := by
    simpa [equalFold] using hactive
  refine ok_consumeChallenge hch fun hfresh => ?_
  refine ok_updateOne (fun τ' sid s hs hc _ => ok_pure ?_) fun _ => ok_fail
  have hlive := stampWallet_live hc
  exact .authenticated rfl ⟨hch, hm, hfresh, verifyMessage_signed _ hverified⟩ hr hactive.1 hactive.2 rfl hs
    hlive.1 hlive.2
    ((hholds.update ..).update ..)

theorem ok_verifyAdminRecipientChange {message signature : String} :
    Does env D N p c db τ (verifyAdminRecipientChange env m token id message signature)
      (.verifyAdminRecipientChange m) := by
  refine ok_lock (fun ch hch hm => ?_) fun _ _ _ _ _ _ => ok_fail
  refine ok_lockMerchant rfl (fun r hr _ hholds => ?_) fun _ => ok_fail
  refine ok_lockWhere (fun τ' _ _ _ _ _ => ?_) fun _ => ok_fail
  refine ok_now fun now _ _ => ok_require fun _ => ok_require fun _ => ok_require fun hverified => ?_
  refine ok_require fun hactive => ok_require fun _ => ?_
  refine ok_cooledDown rfl (List.mem_cons_of_mem _ hholds) fun _ hcool => ?_
  have hm : ch.merchantID = m := by simpa using hm
  have hactive : r.status = .active := by simp_all
  refine ok_consumeChallenge hch fun hfresh => ?_
  refine ok_update_held rfl ((hholds.lock _).update ..).writes hr rfl fun _ => ?_
  refine ok_insertRow fun hid hhid _ => ?_
  refine ok_clearWallet (by simp [Work.update, Work.insert, Work.lock])
    ((((hholds.lock _).update ..).update ..).insert ..) ?_
  intro τ' w' nulls hputs hwithin hclear hthere
  refine ok_updateOne (fun τ' sid s hs hc _ => ok_pure ?_) fun _ => ok_fail
  have hlive := stampWallet_live hc
  have hfree : db.find .history hid = none := by simpa [Work.update, Work.lock] using hhid
  exact .changedByAdmin (congrArg (· ++ _) hputs) ⟨hch, hm, hfresh, verifyMessage_signed _ hverified⟩ hr hactive hfree
    ⟨rfl, rfl, rfl, rfl⟩ hcool hclear rfl (hthere sid s hs) hlive.1 hlive.2
    (Holds.update (hwithin.1 ((((hholds.lock _).update ..).update ..).insert ..)) ..)

theorem ok_markAdminSessionWalletVerified (h : Spent env db m id ch proof) (hsession : proof.session = some token) :
    Does env D N p c db τ (markAdminSessionWalletVerified env m token now)
      (.markAdminSessionWalletVerified m token id) := by
  refine ok_updateOne (fun τ' sid s hs hc _ => ok_pure ?_) fun _ => ok_fail
  have hlive := stampWallet_live hc
  exact .stamped rfl hs hlive.1 hlive.2 h hsession

theorem ok_revokeAdminSession : Does env D N p c db τ (revokeAdminSession env token now) .revokeAdminSession :=
  ok_updateOne (fun _ _ _ hs _ _ => ok_pure (.sessionRevoked rfl hs)) fun _ => ok_pure (.nothing rfl rfl)

end Wallet

/-! ### Keys, consents, suspension and settlement -/

section Protected

variable {m : Nat} {sessionToken apiKey : String}

theorem ok_lockCredential {f : Unit → Body β} (hcred : sessionToken ≠ "" ∨ apiKey ≠ "")
    (h : ∀ τ' w', w'.puts = [] → Active db m → Ok D (noteHolds env) p c db τ' w' (f ()) Refusal Q) :
    Ok D (noteHolds env) p c db τ {} (lockCredential env m sessionToken apiKey >>= f) Refusal Q := by
  unfold lockCredential
  split
  · exact ok_lockWalletAuthenticatedAdmin rfl fun τ' w' hw ha _ => h τ' w' hw ha
  · rename_i hs
    rw [if_pos (hcred.resolve_left hs)]
    exact ok_lockAuthenticatedAPIKey rfl fun τ' w' hw _ ha _ => h τ' w' hw ha

theorem ok_createAPIKey {name generated : String} (hcred : sessionToken ≠ "" ∨ apiKey ≠ "") :
    Does env D (noteHolds env) p c db τ (createAPIKey env m sessionToken apiKey name generated) (.createAPIKey m) := by
  refine ok_lockCredential hcred fun τ' w hw hactive => ok_insertRow fun kid _ _ => ok_pure ?_
  exact .keyWritten (.inl rfl) (congrArg (· ++ _) hw) hactive

theorem ok_listProtectedAPIKeys (hcred : sessionToken ≠ "" ∨ apiKey ≠ "") :
    Does env D (noteHolds env) p c db τ (listProtectedAPIKeys env m sessionToken apiKey) (.listAPIKeys m) :=
  ok_lockCredential hcred fun _ _ hw _ => ok_query fun _ _ _ _ _ => ok_pure (.nothing rfl hw)

theorem ok_revokeAPIKey {keyID : Nat} (hcred : sessionToken ≠ "" ∨ apiKey ≠ "") :
    Does env D (noteHolds env) p c db τ (revokeAPIKey env m sessionToken apiKey keyID) (.revokeAPIKey m) := by
  refine ok_lockCredential hcred fun τ' w hw hactive => ok_now fun now _ _ => ?_
  refine ok_update (fun key _ _ _ => ok_pure ?_) fun _ _ _ _ _ _ => ok_fail
  exact .keyWritten (.inr rfl) (congrArg (· ++ _) hw) hactive

theorem ok_withSession {f : Unit → Body β}
    (h : ∀ τ' w', w'.puts = [] → Ok D (noteHolds env) p c db τ' w' (f ()) Refusal Q) :
    Ok D (noteHolds env) p c db τ {}
      (if sessionToken ≠ "" then lockWalletAuthenticatedAdmin env m sessionToken >>= f else f ()) Refusal Q := by
  split
  · exact ok_lockWalletAuthenticatedAdmin rfl fun τ' w' hw _ _ => h τ' w' hw
  · exact h τ {} rfl

/-- Both consents: the update writes nothing but an opt-in. -/
theorem ok_setConsent {column : Merchant → Option Int} {write : Option Int → Edit tables .merchants} {enabled : Bool}
    {now : Int} {op : Op} (hop : op = .setStatsConsent m ∨ op = .setPublicProfileConsent m)
    (hcond : ∀ v r, (write v).cond r = true)
    (hwrite : ∀ v r, (write v).change r = { r with
      statsOptedInAt := ((write v).change r).statsOptedInAt
      publicProfileOptedInAt := ((write v).change r).publicProfileOptedInAt }) :
    Does env D (noteHolds env) p c db τ (setConsent env column write m sessionToken enabled now) op := by
  unfold setConsent
  refine ok_withSession fun τ' w hw => ?_
  refine ok_lockMerchant hw (fun r hr _ hholds => ok_require fun hactive => ?_) fun _ => ok_fail
  have hr' : (db.puts (w.lock (Table.merchants, m)).puts).find .merchants m = some r := by
    rw [show (w.lock _).puts = [] from hw]
    exact hr
  refine ok_update_held rfl hholds.writes hr' (hcond _ r) fun _ => ok_pure ?_
  exact .consented hop (congrArg (· ++ _) hw) hr (by simpa using hactive) (hwrite _ r)

theorem ok_setStatsConsent {enabled : Bool} {now : Int} :
    Does env D (noteHolds env) p c db τ (setStatsConsent env m sessionToken enabled now) (.setStatsConsent m) :=
  ok_setConsent (.inl rfl) (fun _ _ => rfl) fun _ _ => rfl

theorem ok_setPublicProfileConsent {enabled : Bool} {now : Int} :
    Does env D (noteHolds env) p c db τ (setPublicProfileConsent env m sessionToken enabled now)
      (.setPublicProfileConsent m) :=
  ok_setConsent (.inr rfl) (fun _ _ => rfl) fun _ _ => rfl

theorem ok_reinstate {operator : String} : Does env D N p c db τ (reinstate m operator) (.reinstate m) := by
  refine ok_now fun now _ _ => ok_updateOne (fun _ sid s hs hc _ => ?_) fun _ => ok_fail
  have hcond : s.merchantID = m ∧ s.reinstatedAt = none := by simpa [reinstateSuspension] using hc
  refine ok_update (fun r hr _ _ => ok_pure ?_) fun τ' db₀ hsound _ hrely hno => ?_
  · exact .reinstated rfl hs hcond.1 hcond.2 hr
  · -- the suspension, whose row is held, refers to the merchant
    have hs₀ : db₀.find .suspensions sid = some s := (hrely.same (Locks.writes_row _ _ (by decide))).symm.trans hs
    obtain ⟨r, hr⟩ := Option.isSome_iff_exists.1 (hsound.parents hs₀ (.merchants, m) (by simp [parents, hcond.1]))
    exact absurd (hno rfl r hr) (by simp [setStatus])

theorem ok_suspend {reason operator : String} : Does env D N p c db τ (suspend m reason operator) (.suspend m) := by
  refine ok_query fun τ' db₀ _ _ hrely => ?_
  dsimp only
  split
  · exact ok_fail
  · rename_i r₀ hr₀
    refine ok_require fun hactive => ok_insert (S := tables) (fun sid hsid _ hparents hslots => ?_) fun _ _ _ _ _ =>
      ok_fail
    -- the merchant was active when it was looked at, so it is active or suspended now
    obtain ⟨r, hr, hl⟩ := hrely.moves _ _ _ hr₀
    have hest : r.status.established = true := hl.2.2 (by simp_all [Status.established])
    refine ok_update (fun r' hr' _ _ => ok_pure ?_) fun _ db₁ _ _ hrely' hno => ?_
    · obtain rfl : r = r' := Option.some.inj (hr.symm.trans hr')
      refine .suspended rfl hsid rfl rfl (fun i s hs hsm => ?_) hr hest
      by_contra hopen
      exact hslots i s hs (.openSuspension m) (by simp_all [slots]) (by simp [slots])
    · -- the insert has locked the merchant's key
      obtain ⟨r₁, hr₁, -⟩ := hrely'.there (m := .keyShare) (by simp [Work.insert, Locks.inserted, parents]) hr
      exact absurd (hno rfl r₁ hr₁) (by simp [setStatus])

theorem ok_recordPayment {merchant : Option Nat} {state : Settlement.State} :
    Does env D N p c db τ (recordPayment merchant state) .recordPayment :=
  ok_insertRow fun _ _ _ => ok_pure (.paymentRecorded rfl)

theorem ok_createSettlementIntent {paymentID : Nat} :
    Does env D N p c db τ (createSettlementIntent paymentID) (.createSettlementIntent paymentID) := by
  have refused : ∀ {w : Work tables}, w.puts = [] → Change env D p c db w (.createSettlementIntent paymentID) :=
    fun hw => .nothing rfl hw
  refine ok_lock (fun r hr _ => ?_) fun _ _ _ _ _ _ => ok_pure (refused rfl)
  dsimp only
  split
  · split
    · exact ok_pure (refused rfl)
    · rename_i m hm
      refine ok_lockMerchant rfl (fun merchant hmerchant hactive _ => ?_) fun _ => ok_pure (refused rfl)
      refine ok_flip fun admitted => ?_
      cases admitted with
      | false => exact ok_pure (refused rfl)
      | true =>
        refine ok_now fun now _ _ => ok_update (fun r' hr' _ _ => ok_pure ?_) fun _ _ _ _ _ _ => ok_fail
        obtain rfl : r = r' := Option.some.inj (hr.symm.trans hr')
        exact .admitted rfl hr hm hm ⟨merchant, hmerchant, by simpa using hactive⟩
  · exact ok_pure (refused rfl)

end Protected

end Rules

end Eth402.Merchants
