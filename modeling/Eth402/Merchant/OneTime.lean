/-
Credentials that work once, over every run of the merchant service: a mailed token is redeemed by one commit, a wallet
challenge is answered by one, and every session of the panel was issued by a commit that redeemed a token.
-/
import Eth402.Merchant.Runs

namespace Eth402.Merchants

open Lib Lib.Relational

variable {env : Env} {D : Discipline tables} {p : Nat} {c : Int} {db : Db tables} {w : Work tables} {op : Op}

/-- The commit consumes the token. -/
def Redeems (e : Commit (service env)) (t : Nat) : Prop :=
  (∃ tok, e.before.find .tokens t = some tok ∧ tok.consumedAt = none) ∧
    ∃ tok, e.after.find .tokens t = some tok ∧ tok.consumedAt.isSome

/-- The commit consumes the challenge of the merchant, with a signature by the address it was issued for. -/
def Answers (e : Commit (service env)) (m id : Nat) : Prop :=
  ∃ ch proof now, Proves env e.before m id ch proof ∧ e.after.find .challenges id = some (ch.consumed now proof)

/-- The commit issues the session. -/
def Issues (e : Commit (service env)) (sid : Nat) : Prop :=
  e.before.find .sessions sid = none ∧ (e.after.find .sessions sid).isSome

/-- The operations that take a wallet's signature, and for whom. -/
def Op.proves : Op → Option Nat
  | .verifyWallet m | .verifyAuthenticatedWallet m | .verifyAdminWallet m | .verifyAdminRecipientChange m => some m
  | _ => none

/-! ## Single commits -/

theorem Change.redeems (h : Change env D p c db w .verifyEmail) : ∃ t tok tok', db.find .tokens t = some tok ∧
    tok.consumedAt = none ∧ (db.puts w.puts).find .tokens t = some tok' ∧ tok'.consumedAt.isSome := by
  cases h with
  | nothing hread => cases hread
  | enqueued hop | keyWritten hop | consented hop => rcases hop with h | h <;> cases h
  | challenged _ _ _ _ hop => rcases hop with h | h | ⟨h | h, -⟩ <;> cases h
  | @emailVerified t tok r now issued hputs ht hnone _ hissued =>
    refine ⟨t, tok, { tok with consumedAt := some now }, ht, hnone, ?_, rfl⟩
    rcases hissued with rfl | ⟨sid, s, rfl, -⟩ <;> simp [hputs]

theorem Op.proves_of_mayRead (h : op.mayRead = true) : op.proves = none := by
  cases op <;> first | rfl | cases h

theorem Change.answers {m : Nat} (h : Change env D p c db w op) (hop : op.proves = some m) : ∃ id ch proof now,
    Proves env db m id ch proof ∧ (db.puts w.puts).find .challenges id = some (ch.consumed now proof) := by
  cases h with
  | @activated m id _ _ ch _ _ _ proof now hputs hp | @authenticated m id _ ch _ _ proof now _ hputs hp =>
    cases hop
    exact ⟨id, ch, proof, now, hp, by simp [hputs]⟩
  | @changed m id _ ch _ _ proof now nulls hputs hp _ _ _ _ _ hclear
  | @changedByAdmin m id _ _ ch _ _ _ proof now nulls _ hputs hp _ _ _ _ _ hclear =>
    cases hop
    exact ⟨id, ch, proof, now, hp, by simp [hputs, Db.puts_append, hclear.find_table]⟩
  | nothing hread =>
    rw [Op.proves_of_mayRead hread] at hop
    cases hop
  | enqueued h | keyWritten h | consented h => rcases h with rfl | rfl <;> cases hop
  | challenged _ _ _ _ h => rcases h with rfl | rfl | ⟨rfl | rfl, -⟩ <;> cases hop
  | _ => cases hop

/-- Only the redemption of a token adds a session. -/
theorem Change.issues {sid : Nat} {s : Session} (h : Change env D p c db w op) (hs : ⟨.sessions, sid, s⟩ ∈ w.puts) :
    (db.find .sessions sid).isSome ∨ op = .verifyEmail := by
  have exists_of : ∀ {i : Nat} {r : Session}, db.find .sessions i = some r → sid = i →
      (db.find .sessions sid).isSome ∨ op = .verifyEmail := fun hr hi => .inl (by rw [hi, hr]; rfl)
  have clear : ∀ {m : Nat} {nulls : List (Put tables)}, Clearing D c db m [] nulls → ⟨.sessions, sid, s⟩ ∈ nulls →
      (db.find .sessions sid).isSome ∨ op = .verifyEmail := fun hclear hmem => by
    obtain ⟨i, r, hx, hr, -⟩ := hclear.rows _ hmem
    cases hx
    exact exists_of hr rfl
  cases h with
  | emailVerified => exact .inr rfl
  | @authenticated m id i ch r s' proof now token hputs _ _ _ _ _ hr =>
    exact exists_of hr (by simp [hputs] at hs; exact hs.1)
  | stamped hputs hr | sessionRevoked hputs hr => exact exists_of hr (by simp [hputs] at hs; exact hs.1)
  | changed hputs _ _ _ _ _ _ hclear => exact clear hclear (by simpa [hputs] using hs)
  | changedByAdmin hputs _ _ _ _ _ _ hclear _ hr =>
    obtain ⟨s₀, hr⟩ := hr
    rcases (by simpa [hputs] using hs : _ ∨ _) with hs | hs
    · exact clear hclear hs
    · exact exists_of hr hs.1
  | expired hputs =>
    obtain ⟨i, r, hx, -⟩ := hputs _ hs
    cases hx
  | delivered hputs _ _ _ _ hsent => rcases hsent with ⟨tok, rfl, -⟩ | ⟨rfl, -⟩ <;> simp [hputs] at hs
  | nothing _ hputs | enqueued _ hputs | keyWritten _ hputs | consented _ hputs => simp [hputs] at hs
  | registered hputs | challenged hputs | replaced hputs | activated hputs | suspended hputs | reinstated hputs
  | claimed hputs | released hputs | abandoned hputs | paymentRecorded hputs | admitted hputs => simp [hputs] at hs

/-! ## Whole runs -/

/-- What is consumed stays so: a later commit does not consume it again. -/
theorem Redeems.once {e e' : Commit (service env)} {t : Nat} (hm : e.after.Moves e'.before) (h : Redeems e t) :
    ¬ Redeems e' t := by
  obtain ⟨-, tok, ht, hused⟩ := h
  rintro ⟨⟨tok', ht', hnone⟩, -⟩
  obtain ⟨x, hx, -, -, -, -, hkept, -⟩ := hm _ _ _ ht
  obtain rfl := Option.some.inj (hx.symm.trans ht')
  rw [hkept hused] at hnone
  rw [hnone] at hused
  cases hused

theorem Answers.once {e e' : Commit (service env)} {m m' id : Nat} (hm : e.after.Moves e'.before) (h : Answers e m id) :
    ¬ Answers e' m' id := by
  obtain ⟨ch, proof, now, -, hr⟩ := h
  rintro ⟨ch', proof', now', hp, -⟩
  obtain ⟨x, hx, -, hsame⟩ := hm _ _ _ hr
  obtain rfl := Option.some.inj (hx.symm.trans hp.row)
  have hnone := hp.consumedAt
  rw [hsame rfl] at hnone
  cases hnone

/-- Every session was issued by a commit that redeemed a token. -/
theorem sessions_issued {s : World (service env)} {chs : List (Choice (service env))}
    (h : (World.init (service env) empty).run chs = some s) :
    ∀ sid, (s.db.find .sessions sid).isSome → ∃ e ∈ s.log, e.op = .verifyEmail ∧ Issues e sid := by
  refine (committed h).history.inv (fun log db => ∀ sid, (db.find .sessions sid).isSome →
    ∃ e ∈ log, Commit.op e = .verifyEmail ∧ Issues e sid) (fun _ hs => by simp [Db.find, empty] at hs) ?_
  intro l e _ _ hc ih sid hs
  cases hb : e.before.find .sessions sid with
  | some r =>
    obtain ⟨x, hx, hrest⟩ := ih sid (by rw [hb]; rfl)
    exact ⟨x, List.mem_append_left _ hx, hrest⟩
  | none =>
    refine ⟨e, List.mem_concat_self, ?_, hb, hs⟩
    rcases Db.find_puts_cases (S := tables) Table.sessions sid e.work.puts e.before with hsame | ⟨r, -, hput⟩
    · rw [Commit.after, hsame, hb] at hs
      cases hs
    · refine (hc.issues hput).resolve_left ?_
      rw [hb]
      exact Bool.false_ne_true

/-- In every run: a verification of an email redeems a token, a proof of a wallet answers a challenge of its merchant,
no two commits redeem the same token or answer the same challenge, and every session was issued by the redemption of a
token. -/
theorem credentials_work_once (env : Env) {s : World (service env)} {chs : List (Choice (service env))}
    (h : (World.init (service env) empty).run chs = some s) :
    (∀ e ∈ s.log, (e.op = .verifyEmail → ∃ t, Redeems e t) ∧ ∀ m, Op.proves e.op = some m → ∃ id, Answers e m id) ∧
      s.log.Pairwise (fun e e' => (∀ t, Redeems e t → ¬ Redeems e' t) ∧ ∀ m m' id, Answers e m id →
        ¬ Answers e' m' id) ∧
      ∀ sid, (s.db.find .sessions sid).isSome → ∃ e ∈ s.log, e.op = .verifyEmail ∧ Issues e sid := by
  have hist := (committed h).history
  refine ⟨fun e he => ⟨fun hop => ?_, fun m hop => ?_⟩, ?_, sessions_issued h⟩
  · have hc := (hist.mem he).1
    rw [hop] at hc
    obtain ⟨t, tok, tok', ht, hnone, ht', hused⟩ := hc.redeems
    exact ⟨t, ⟨tok, ht, hnone⟩, tok', ht', hused⟩
  · obtain ⟨id, ch, proof, now, hp, hr⟩ := (hist.mem he).1.answers hop
    exact ⟨id, ch, proof, now, hp, hr⟩
  · exact hist.pairwise.imp fun hm => ⟨fun _ h => h.once hm, fun _ _ _ h => h.once hm⟩

/-- The sample merchant redeems its token and answers its challenge. -/
theorem credentials_work_once_sample : ∃ s, sampleWorld.run sampleActivation = some s ∧
    (s.log.map (·.op)).filter (fun op => op = .verifyEmail ∨ op = .verifyWallet 0) = [.verifyEmail, .verifyWallet 0] ∧
    ∀ e ∈ s.log, (e.op = .verifyEmail → ∃ t, Redeems e t) ∧ ∀ m, Op.proves e.op = some m → ∃ id, Answers e m id := by
  have hlog : ((sampleWorld.run sampleActivation).map fun s =>
      (s.log.map (·.op)).filter fun op => op = .verifyEmail ∨ op = .verifyWallet 0) =
        some [.verifyEmail, .verifyWallet 0] := by
    decide +kernel
  obtain ⟨s, hs, hops⟩ := Option.map_eq_some_iff.1 hlog
  exact ⟨s, hs, hops, (credentials_work_once sampleEnv hs).1⟩

end Eth402.Merchants
