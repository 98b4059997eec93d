/-
Claim sessions over whole runs: a process that was given a lease on a payment acts on it until it releases it or the
lease lapses. A worker has an identity of its own and takes one tick after the other; the requests all claim under one
identity, so the store cannot tell their sessions apart. As long as nobody releases a payment whose lease under its
identity is another session's, at most one session is live on a payment, and none loses its lease to another's call.
-/
import Eth402.Lib.Lease
import Eth402.Store.Leases
import Eth402.System.Invariant

namespace Eth402.System

open Lib Store Settlement Verification

variable {lib : Libraries} {cfg : Settlement.Config} {e : Entry} {s : Shared} {log : List (Nat × Ev)} {pid n p : Nat}
  {past : List Ev} {ev : Ev} {u : Time}

/-! ## What a process holds -/

/-- One of the leases is on the payment until `u`. -/
def Gives (leases : List Lease) (p : Nat) (u : Time) : Prop :=
  ∃ lease ∈ leases, lease.paymentId = p ∧ lease.expiresAt = u

/-- The answer gave the process a lease on the payment until `u`. -/
def Grants (p : Nat) (u : Time) : Ev → Prop
  | ⟨.store (.claimPayment q _ _ _), .ok lease⟩ => q = p ∧ lease.expiresAt = u
  | ⟨.store (.claimPayments _), .ok leases⟩ => Gives leases p u
  | ⟨.store (.renewLease q _ _ _), .ok upto⟩ => q = p ∧ upto = u
  | _ => False

/-- Until when a process holds the payment after one more call. -/
def heldAfter (p : Nat) (held : Option Time) : Ev → Option Time
  | ⟨.store (.claimPayment q _ _ _), .ok lease⟩ => if q = p then some lease.expiresAt else held
  | ⟨.store (.claimPayments _), .ok leases⟩ =>
    match leases.find? fun lease => lease.paymentId = p with
    | some lease => some lease.expiresAt
    | none => held
  | ⟨.store (.renewLease q _ _ _), .ok upto⟩ => if q = p then some upto else held
  -- whatever the answer, the process is done with the payment
  | ⟨.store (.releaseLease q _), _⟩ => if q = p then none else held
  | _ => held

def heldUntil (p : Nat) (past : List Ev) : Option Time := past.foldl (heldAfter p) none

/-- The last time the process read the clock. -/
def lastReading (past : List Ev) : Option Time :=
  (past.filterMap fun
    | ⟨.now, t⟩ => some t
    | _ => none).getLast?

/-- The leases of the store and what the processes hold of them. -/
def sessions (s : Shared) (log : List (Nat × Ev)) : Leases Nat Nat (Option String) where
  clock := s.clock
  lease p := (s.db.tables.lease p).map fun l => (some l.1, l.2)
  held pid p := heldUntil p (own pid log)

theorem heldAfter_some {held : Option Time} (h : heldAfter p held ev = some u) : held = some u ∨ Grants p u ev := by
  unfold heldAfter at h
  split at h
  · split at h
    · exact .inr ⟨‹_›, Option.some.inj h⟩
    · exact .inl h
  · split at h
    · rename_i lease hfind
      exact .inr ⟨lease, List.mem_of_find?_eq_some hfind, by simpa using List.find?_some hfind, Option.some.inj h⟩
    · exact .inl h
  · split at h
    · exact .inr ⟨‹_›, Option.some.inj h⟩
    · exact .inl h
  · split at h
    · cases h
    · exact .inl h
  · exact .inl h

theorem heldUntil_snoc (p : Nat) (past : List Ev) (ev : Ev) :
    heldUntil p (past ++ [ev]) = heldAfter p (heldUntil p past) ev := List.foldl_append

/-- What is held after a call was held before it, or the caller was just given it. -/
theorem held_snoc (h : heldUntil p (own n (log ++ [(pid, ev)])) = some u) :
    heldUntil p (own n log) = some u ∨ n = pid ∧ Grants p u ev := by
  by_cases hn : pid = n
  · subst hn
    rw [own_snoc_self, heldUntil_snoc] at h
    exact (heldAfter_some h).imp_right fun hg => ⟨rfl, hg⟩
  · rw [own_snoc_ne hn] at h
    exact .inl h

theorem Claimed.snoc (h : Claimed (past ++ [ev]) p) : Claimed past p ∨ ∃ u, Grants p u ev := by
  rcases h with ⟨w, d, now, lease, hmem⟩ | ⟨request, leases, lease, hmem, hl, hp⟩
  · rcases List.mem_append.1 hmem with hmem | hmem
    · exact .inl (.inl ⟨w, d, now, lease, hmem⟩)
    · rw [← List.mem_singleton.1 hmem]
      exact .inr ⟨Lease.expiresAt lease, rfl, rfl⟩
  · rcases List.mem_append.1 hmem with hmem | hmem
    · exact .inl (.inr ⟨request, leases, lease, hmem, hl, hp⟩)
    · rw [← List.mem_singleton.1 hmem]
      exact .inr ⟨_, lease, hl, hp, rfl⟩

theorem lastReading_now {now : Time} (h : past.getLast? = some ⟨.now, now⟩) : lastReading past = some now := by
  obtain ⟨init, rfl⟩ := List.getLast?_eq_some_iff.1 h
  unfold lastReading
  rw [List.filterMap_append]
  exact List.getLast?_concat

/-- A call reads the clock, or leaves the last reading. -/
theorem lastReading_snoc (past : List Ev) (ev : Ev) :
    lastReading (past ++ [ev]) = lastReading past ∨
      ∃ t : Time, ev = ⟨.now, t⟩ ∧ lastReading (past ++ [ev]) = some t := by
  obtain ⟨q, r⟩ := ev
  cases q with
  | now => exact .inr ⟨r, rfl, lastReading_now List.getLast?_concat⟩
  | _ =>
    refine .inl ?_
    unfold lastReading
    rw [List.filterMap_append]
    exact congrArg List.getLast? (List.append_nil _)

/-! ## The identities of a run -/

def holderOf (c : Lib.Config (facilitator lib cfg)) (n : Nat) : Option String :=
  match c.entryOf n with
  | some e => Entry.holder e
  | none => none

def workerOf (c : Lib.Config (facilitator lib cfg)) (n : Nat) : Option String :=
  match c.entryOf n with
  | some e => Entry.worker e
  | none => none

/-- The call takes no lease away that is another session's. -/
def Fenced (s : Shared) (log : List (Nat × Ev)) (pid : Nat) (env : StepEnv) : Call → Prop
  -- the session's own lease is left, or the payment has none under the identity that is
  | .store (.releaseLease p w) =>
    (sessions s log).Live pid p ∨ ∀ l ∈ s.db.tables.lease p, l.1 = w → l.2 ≤ s.clock
  | .store (.applyRetention request) => ∀ p ∈ s.db.tables.payments, p.claimedUntil.any (s.clock < ·) = true →
    (runStore env (.applyRetention request) s.db).2.tables.lease p.id = p.lease
  | _ => True

/-- The clock never goes back; a worker's identity is its own, and its ticks follow one another; calls are fenced. -/
def Orderly (c : Lib.Config (facilitator lib cfg)) : Choice (facilitator lib cfg) → Prop
  | .outside (Move.tick t) => c.shared.clock ≤ t
  | .start e => ∀ w ∈ Entry.worker e, w ≠ "http" ∧ ∀ n < c.procs.length, workerOf c n = some w → ¬ c.Running n
  | .run pid env => NextCall (Fenced c.shared c.log pid env) c.procs[pid]?
  | _ => True

instance Fenced.decidable (s : Shared) (log : List (Nat × Ev)) (pid : Nat) (env : StepEnv) (q : Call) :
    Decidable (Fenced s log pid env q) := by
  induction q using Call.casesOn with
  | store op =>
    induction op using Op.casesOn with
    | releaseLease p w =>
      exact inferInstanceAs (Decidable ((sessions s log).Live pid p ∨
        ∀ l ∈ s.db.tables.lease p, l.1 = w → l.2 ≤ s.clock))
    | applyRetention request =>
      exact inferInstanceAs (Decidable (∀ p ∈ s.db.tables.payments, p.claimedUntil.any (s.clock < ·) = true →
        (runStore env (.applyRetention request) s.db).2.tables.lease p.id = p.lease))
    | _ => exact .isTrue trivial
  | _ => exact .isTrue trivial

instance Orderly.decidable (c : Lib.Config (facilitator lib cfg)) :
    (ch : Choice (facilitator lib cfg)) → Decidable (Orderly c ch)
  | .outside (Move.tick t) => inferInstanceAs (Decidable (c.shared.clock ≤ t))
  | .start e => inferInstanceAs (Decidable (∀ w ∈ Entry.worker e, w ≠ "http" ∧
      ∀ n < c.procs.length, workerOf c n = some w → ¬ c.Running n))
  | .run pid env => @NextCall.decidable _ _ _ _ (Fenced.decidable c.shared c.log pid env) c.procs[pid]?
  | .outside (Move.setMerchants _) | .crash _ => .isTrue trivial

/-! ## One call -/

/-- What one call of the process does to the leases: it leaves those that are still held, or it grants some payments
on which no other session is live, for the configured time from its last reading of the clock. -/
inductive LeaseEffect (cfg : Settlement.Config) (s : Shared) (log : List (Nat × Ev)) (pid : Nat)
    (holder : Option String) (ev : Ev) (t' : Tables) : Prop
  | keeps
      (hlease : ∀ n p u, heldUntil p (own n (log ++ [(pid, ev)])) = some u → s.clock < u →
        t'.lease p = s.db.tables.lease p)
      (hgrants : ∀ p u, ¬ Grants p u ev)
  | grants (K : Nat → Prop) (w : String) (r : Time) (hw : holder = some w) (hread : lastReading (own pid log) = some r)
      (hgranted : Granted K w (r + cfg.leaseDuration) s.db.tables t')
      (hlone : ∀ p, K p → ∀ n, (sessions s log).Live n p → n = pid)
      (hfirst : ∀ p, K p → Claimed (own pid log) p ∨ ∀ n, ¬ (sessions s log).Live n p)
      (hgrants : ∀ p u, Grants p u ev → K p ∧ u = r + cfg.leaseDuration)

/-- What the processes hold and read is in order. -/
structure Settled (cfg : Settlement.Config) (name : Nat → Option String) (s : Shared) (log : List (Nat × Ev)) :
    Prop where
  readings : ∀ n t, lastReading (own n log) = some t → t ≤ s.clock
  fresh : ∀ n p u, heldUntil p (own n log) = some u → ∃ r, lastReading (own n log) = some r ∧ u ≤ r + cfg.leaseDuration
  sound : Sound name (sessions s log)

variable {name : Nat → Option String}

theorem lease_sessions {w : String} {p : Nat} (h : s.db.tables.lease p = some (w, u)) :
    (sessions s log).lease p = some (some w, u) := by
  change (s.db.tables.lease p).map _ = _
  rw [h]
  rfl

/-- A payment that could be claimed at the last reading has no live session. -/
theorem Settled.not_live (h : Settled cfg name s log) {now : Time} (hread : lastReading (own pid log) = some now)
    (hlapsed : ∀ w u, s.db.tables.lease p = some (w, u) → u ≤ now) (n : Nat) : ¬ (sessions s log).Live n p := by
  refine h.sound.not_live (fun w u hl => ?_) n
  obtain ⟨l, hlease, heq⟩ := Option.map_eq_some_iff.1 hl
  obtain ⟨-, rfl⟩ := Prod.mk.inj heq
  exact le_trans (hlapsed l.1 l.2 hlease) (h.readings pid now hread)

theorem LeaseEffect.same {holder : Option String} {t' : Tables} (h : SameLeases s.db.tables t')
    (hgrants : ∀ p u, ¬ Grants p u ev) : LeaseEffect cfg s log pid holder ev t' :=
  .keeps (fun _ p _ _ _ => h p) hgrants

theorem effect_claimPayment (hx : Settled cfg name s log) {w : String} {d : Int} {now : Time}
    (hj : Allowed lib cfg e (own pid log) (.store (.claimPayment p w d now))) (env : StepEnv) :
    LeaseEffect cfg s log pid e.holder ⟨.store (.claimPayment p w d now),
      (runStore env (.claimPayment p w d now) s.db).1⟩
      (runStore env (.claimPayment p w d now) s.db).2.tables := by
  obtain ⟨hw, rfl, hnow⟩ := hj
  have hread := lastReading_now hnow
  rcases runStore_commit env (.claimPayment p w cfg.leaseDuration now) s.db rfl with
    ⟨hdb, err, he⟩ | ⟨lease, hok, hans⟩
  · rw [hdb, he]
    exact .same (.of_eq rfl) fun _ _ h => h
  · obtain ⟨hlapsed, hgranted, hexp⟩ := claimPayment_lease hok
    have hnone := hx.not_live hread hlapsed
    refine .grants (· = p) w now hw hread hgranted ?_ ?_ fun q u hg => ?_
    · rintro q rfl n hlive
      exact absurd hlive (hnone n)
    · rintro q rfl
      exact .inr hnone
    · rcases hans with ha | ⟨err, ha⟩ <;> rw [ha] at hg
      · exact ⟨hg.1.symm, hg.2.symm.trans hexp⟩
      · exact hg.elim

theorem effect_claimPayments (hx : Settled cfg name s log) {request : ClaimRequest}
    (hj : Allowed lib cfg e (own pid log) (.store (.claimPayments request))) (env : StepEnv) :
    LeaseEffect cfg s log pid e.holder ⟨.store (.claimPayments request), (runStore env (.claimPayments request) s.db).1⟩
      (runStore env (.claimPayments request) s.db).2.tables := by
  obtain ⟨hw, hd, hnow⟩ := hj
  have hread := lastReading_now hnow
  rcases runStore_commit env (.claimPayments request) s.db rfl with
    ⟨hdb, err, he⟩ | ⟨leases, hok, hans⟩
  · rw [hdb, he]
    exact .same (.of_eq rfl) fun _ _ h => h
  · obtain ⟨hlapsed, hgranted, hexp⟩ := claimPayments_lease hok
    rw [hd] at hgranted hexp
    have hnone := fun q hq => hx.not_live hread (hlapsed q hq)
    refine .grants _ request.worker request.now (Entry.holder_of_worker hw) hread hgranted ?_ ?_ ?_
    · intro q hq n hlive
      exact absurd hlive (hnone q hq n)
    · intro q hq
      exact .inr (hnone q hq)
    · intro q u hg
      rcases hans with ha | ⟨err, ha⟩ <;> rw [ha] at hg
      · obtain ⟨lease, hl, rfl, rfl⟩ := hg
        exact ⟨List.mem_map.2 ⟨lease, hl, rfl⟩, hexp lease hl⟩
      · exact hg.elim

/-- A renewal extends the lease of the session that makes it, if every live session under its identity is it. -/
theorem effect_renewLease (hx : Settled cfg name s log) {w : String} {d : Int} {now : Time}
    (hj : Allowed lib cfg e (own pid log) (.store (.renewLease p w now d)))
    (hself : ∀ w, e.worker = some w → Claimed (own pid log) p → ∀ n, (sessions s log).Live n p → name n = some w →
      n = pid) (env : StepEnv) :
    LeaseEffect cfg s log pid e.holder ⟨.store (.renewLease p w now d), (runStore env (.renewLease p w now d) s.db).1⟩
      (runStore env (.renewLease p w now d) s.db).2.tables := by
  obtain ⟨hw, rfl, hclaimed, hnow⟩ := hj
  have hread := lastReading_now hnow
  rcases runStore_commit env (.renewLease p w now cfg.leaseDuration) s.db rfl with
    ⟨hdb, err, he⟩ | ⟨upto, hok, hans⟩
  · rw [hdb, he]
    exact .same (.of_eq rfl) fun _ _ h => h
  · obtain ⟨rfl, ⟨v, hlease, -⟩, hgranted⟩ := renewLease_lease hok
    refine .grants (· = p) w now (Entry.holder_of_worker hw) hread hgranted ?_ ?_ ?_
    · rintro q rfl n hlive
      have hname := (hx.sound.name_of_live hlive (lease_sessions hlease)).1
      exact hself w hw hclaimed n hlive hname.symm
    · rintro q rfl
      exact .inl hclaimed
    · intro q u hg
      rcases hans with ha | ⟨err, ha⟩ <;> rw [ha] at hg
      · exact ⟨hg.1.symm, hg.2.symm⟩
      · exact hg.elim

/-- A release ends the session that makes it and no other. -/
theorem effect_releaseLease (hx : Settled cfg name s log) {w : String} {env : StepEnv}
    (hf : Fenced s log pid env (.store (.releaseLease p w))) {holder : Option String} :
    LeaseEffect cfg s log pid holder ⟨.store (.releaseLease p w), (runStore env (.releaseLease p w) s.db).1⟩
      (runStore env (.releaseLease p w) s.db).2.tables := by
  refine .keeps (fun n q u hu hlt => ?_) fun _ _ hg => ?_
  · rcases runStore_commit env (.releaseLease p w) s.db rfl with ⟨hdb, -⟩ | ⟨a, hok, -⟩
    · rw [hdb]
    obtain ⟨hname, hother⟩ := releaseLease_lease hok
    by_cases hq : q = p
    swap
    · exact hother q hq
    subst hq
    exfalso
    -- the releasing session is over, so a live one is another, and the table says whose lease it is
    have hn : n ≠ pid := by
      rintro rfl
      rw [own_snoc_self, heldUntil_snoc] at hu
      simp [heldAfter] at hu
    rw [own_snoc_ne hn.symm] at hu
    have hlive : (sessions s log).Live n q := ⟨u, hu, hlt⟩
    rcases hf with hown | hlapsed
    · exact hn (hx.sound.alone n pid q hlive hown)
    · obtain ⟨v, hv, hle⟩ := hx.sound.backed n q u hu hlt
      obtain ⟨l, hl, heq⟩ := Option.map_eq_some_iff.1 hv
      obtain ⟨-, rfl⟩ := Prod.mk.inj heq
      have := hlapsed l hl (hname l.1 l.2 hl)
      change s.clock < u at hlt
      unfold Time at *
      omega
  · cases hans : (runStore env (.releaseLease p w) s.db).1 <;> rw [hans] at hg <;> exact hg

theorem effect_applyRetention (hx : Settled cfg name s log) {request : RetentionRequest} {env : StepEnv}
    (hf : Fenced s log pid env (.store (.applyRetention request))) {holder : Option String} :
    LeaseEffect cfg s log pid holder ⟨.store (.applyRetention request), (runStore env (.applyRetention request) s.db).1⟩
      (runStore env (.applyRetention request) s.db).2.tables := by
  have hgrants : ∀ p u, ¬ Grants p u ⟨.store (.applyRetention request),
    (runStore env (.applyRetention request) s.db).1⟩ :=
    fun _ _ hg => hg
  refine .keeps (fun n q u hu hlt => ?_) hgrants
  rcases held_snoc hu with hu | ⟨-, hg⟩
  · obtain ⟨v, hv, hle⟩ := hx.sound.backed n q u hu hlt
    obtain ⟨l, hl, heq⟩ := Option.map_eq_some_iff.1 hv
    obtain ⟨-, rfl⟩ := Prod.mk.inj heq
    obtain ⟨r, hr, hlr⟩ := Option.bind_eq_some_iff.1 hl
    have hid : r.id = q := by simpa using List.find?_some hr
    have hmem := List.mem_of_find?_eq_some hr
    subst hid
    rw [lease_of_mem hmem]
    refine hf r hmem ?_
    unfold Payment.lease at hlr
    obtain ⟨w, -, hlr⟩ := Option.bind_eq_some_iff.1 hlr
    obtain ⟨v, huntil, rfl⟩ := Option.map_eq_some_iff.1 hlr
    rw [huntil]
    exact decide_eq_true (lt_of_lt_of_le hlt hle)
  · exact (hgrants _ _ hg).elim

theorem lease_effect (hx : Settled cfg name s log) {q : Call} (hj : Allowed lib cfg e (own pid log) q)
    (hself : ∀ w p, e.worker = some w → Claimed (own pid log) p → ∀ n, (sessions s log).Live n p → name n = some w →
      n = pid) {env : StepEnv} (hf : Fenced s log pid env q) :
    LeaseEffect cfg s log pid e.holder ⟨q, (perform s env q).1⟩ (perform s env q).2.db.tables := by
  cases q with
  | store op =>
    change LeaseEffect cfg s log pid e.holder ⟨.store op, (runStore env op s.db).1⟩ (runStore env op s.db).2.tables
    cases op with
    | claimPayment => exact effect_claimPayment hx hj env
    | claimPayments => exact effect_claimPayments hx hj env
    | renewLease p => exact effect_renewLease hx hj (fun w => hself w p) env
    | releaseLease => exact effect_releaseLease hx hf
    | applyRetention => exact effect_applyRetention hx hf
    | _ =>
      refine .same ?_ fun _ _ hg => hg
      rcases runStore_db env _ s.db with h | h
      · rw [h]
        exact .of_eq rfl
      · rw [h]
        exact run_sameLeases _ rfl fun _ h => by cases h
  | _ => exact .same (.of_eq rfl) fun _ _ hg => hg

theorem perform_clock (s : Shared) (env : StepEnv) (q : Call) : (perform s env q).2.clock = s.clock := by
  cases q <;> rfl

/-- A reading is never later than the clock, and a process reads later and later times. -/
theorem Settled.reads (hx : Settled cfg name s log) (pid : Nat) (env : StepEnv) (q : Call) {n : Nat} {r : Time}
    (hr : lastReading (own n log) = some r) :
    ∃ t, lastReading (own n (log ++ [(pid, ⟨q, (perform s env q).1⟩)])) = some t ∧ r ≤ t ∧ t ≤ s.clock := by
  have hold := hx.readings n r hr
  by_cases hn : pid = n
  · subst hn
    rw [own_snoc_self]
    rcases lastReading_snoc (own pid log) ⟨q, (perform s env q).1⟩ with h | ⟨t, hev, ht⟩
    · exact ⟨r, h.trans hr, le_refl _, hold⟩
    · obtain ⟨rfl, hans⟩ := Event.mk.inj hev
      cases eq_of_heq hans
      exact ⟨_, ht, hold, le_refl _⟩
  · rw [own_snoc_ne hn]
    exact ⟨r, hr, le_refl _, hold⟩

theorem Settled.readings_call (hx : Settled cfg name s log) (env : StepEnv) (q : Call) {n : Nat} {t : Time}
    (ht : lastReading (own n (log ++ [(pid, ⟨q, (perform s env q).1⟩)])) = some t) : t ≤ s.clock := by
  by_cases hn : pid = n
  · subst hn
    rw [own_snoc_self] at ht
    rcases lastReading_snoc (own pid log) ⟨q, (perform s env q).1⟩ with h | ⟨t', hev, ht'⟩
    · exact hx.readings pid t (h.symm.trans ht)
    · obtain ⟨rfl, hans⟩ := Event.mk.inj hev
      cases eq_of_heq hans
      cases ht'.symm.trans ht
      exact le_refl _
  · rw [own_snoc_ne hn] at ht
    exact hx.readings n t ht

/-- A call with such an effect leaves things in order. -/
theorem Settled.call (hx : Settled cfg name s log) {q : Call} {env : StepEnv}
    (heff : LeaseEffect cfg s log pid (name pid) ⟨q, (perform s env q).1⟩ (perform s env q).2.db.tables) :
    Settled cfg name (perform s env q).2 (log ++ [(pid, ⟨q, (perform s env q).1⟩)]) := by
  have hclock := perform_clock s env q
  have hreads : ∀ (n : Nat) (u r : Time), lastReading (own n log) = some r → u ≤ r + cfg.leaseDuration →
      ∃ t, lastReading (own n (log ++ [(pid, ⟨q, (perform s env q).1⟩)])) = some t ∧ u ≤ t + cfg.leaseDuration := by
    intro n u r hr hu
    obtain ⟨t, ht, hle, -⟩ := hx.reads pid env q hr
    refine ⟨t, ht, ?_⟩
    unfold Time at *
    omega
  cases heff with
  | keeps hlease hgrants =>
    refine ⟨fun n t ht => ?_, fun n p u hu => ?_, hx.sound.keep fun n p u hu hlt => ?_⟩
    · rw [hclock]
      exact hx.readings_call env q ht
    · rcases held_snoc hu with hu | ⟨-, hg⟩
      · obtain ⟨r, hr, hle⟩ := hx.fresh n p u hu
        exact hreads n u r hr hle
      · exact absurd hg (hgrants p u)
    · have hlt : s.clock < u := hclock ▸ hlt
      rcases held_snoc hu with hold | ⟨-, hg⟩
      · refine ⟨hold, hlt, ?_, rfl⟩
        exact congrArg (Option.map _) (hlease n p u hu hlt)
      · exact absurd hg (hgrants p u)
  | grants K w r hw hread hgranted hlone hfirst hgrants =>
    refine ⟨fun n t ht => ?_, fun n p u hu => ?_, hx.sound.grant (s := pid) K (r + cfg.leaseDuration) hclock hlone ?_
      ?_ ?_ ?_⟩
    · rw [hclock]
      exact hx.readings_call env q ht
    · rcases held_snoc hu with hu | ⟨rfl, hg⟩
      · obtain ⟨r, hr, hle⟩ := hx.fresh n p u hu
        exact hreads n u r hr hle
      · exact hreads n u r hread (hgrants p u hg).2.le
    · intro p _ u hu _
      obtain ⟨r', hr', hle⟩ := hx.fresh pid p u hu
      cases hread.symm.trans hr'
      exact hle
    · intro p hp
      change ((perform s env q).2.db.tables.lease p).map _ = _
      rw [hgranted.lease p hp, hw]
      rfl
    · intro p hp
      exact congrArg (Option.map _) (hgranted.other p hp)
    · intro n p u hu
      rcases held_snoc hu with hold | ⟨rfl, hg⟩
      · exact .inl hold
      · exact .inr ⟨rfl, hgrants p u hg⟩

/-- Only the identities of the processes that hold something matter. -/
theorem Settled.rename {name' : Nat → Option String} (hx : Settled cfg name s log)
    (h : ∀ n p u, heldUntil p (own n log) = some u → name' n = name n) : Settled cfg name' s log :=
  ⟨hx.readings, hx.fresh, hx.sound.keep fun n p u hu hlt => ⟨hu, hlt, rfl, h n p u hu⟩⟩

theorem Settled.outside (hx : Settled cfg name s log) {m : Move} (h : ∀ t, m = .tick t → s.clock ≤ t) :
    Settled cfg name (outside s m) log := by
  cases m with
  | tick t =>
    have ht := h t rfl
    refine ⟨fun n r hr => le_trans (hx.readings n r hr) ht, hx.fresh, hx.sound.keep fun n p u hu hlt => ?_⟩
    exact ⟨hu, lt_of_le_of_lt ht hlt, rfl, rfl⟩
  | setMerchants merchants =>
    refine ⟨hx.readings, hx.fresh, hx.sound.keep fun n p u hu hlt => ⟨hu, hlt, ?_, rfl⟩⟩
    exact congrArg (Option.map _) (SameLeases.of_eq (outside_lives s (.setMerchants merchants)).1 p)

/-- No call takes a lease from another session that is live. -/
theorem LeaseEffect.others {holder : Option String} {t' : Tables} (h : LeaseEffect cfg s log pid holder ev t')
    (hn : n ≠ pid) (hlive : (sessions s log).Live n p) : t'.lease p = s.db.tables.lease p := by
  cases h with
  | keeps hlease _ =>
    obtain ⟨u, hu, hlt⟩ := hlive
    refine hlease n p u ?_ hlt
    rw [own_snoc_ne hn.symm]
    exact hu
  | grants K _ _ _ _ hgranted hlone _ _ =>
    by_cases hp : K p
    · exact absurd (hlone p hp n hlive) hn
    · exact hgranted.other p hp

/-- What a process claims with a call it had claimed before, or nobody is live on it. -/
theorem LeaseEffect.claims {holder : Option String} {t' : Tables} (h : LeaseEffect cfg s log pid holder ev t')
    (hc : Claimed (own pid log ++ [ev]) p) : Claimed (own pid log) p ∨ ∀ n, ¬ (sessions s log).Live n p := by
  rcases hc.snoc with hold | ⟨u, hg⟩
  · exact .inl hold
  · cases h with
    | keeps _ hgrants => exact absurd hg (hgrants p u)
    | grants K _ _ _ _ _ _ hfirst hgrants => exact hfirst p (hgrants p u hg).1

/-! ## Whole runs -/

/-- Sessions exclude each other, and a worker's earlier ticks are over when it claims anew. -/
structure Exclusive (c : Lib.Config (facilitator lib cfg)) : Prop where
  settled : Settled cfg (holderOf c) c.shared c.log
  workers : ∀ n w, workerOf c n = some w → w ≠ "http"
  succession : ∀ m n w, m < n → workerOf c m = some w → workerOf c n = some w →
    ¬ c.Running m ∧ ∀ p, Claimed (own n c.log) p → ¬ (sessions c.shared c.log).Live m p

section Runs

variable {c : Lib.Config (facilitator lib cfg)} {ch : Choice (facilitator lib cfg)}

theorem identity_step (hn : n < c.procs.length) (ch : Choice (facilitator lib cfg)) :
    holderOf (c.step ch) n = holderOf c n ∧ workerOf (c.step ch) n = workerOf c n := by
  unfold holderOf workerOf
  rw [entryOf_step hn]
  exact ⟨rfl, rfl⟩

/-- A worker after a step was one before it, or was just started. -/
theorem worker_step {w : String} (h : workerOf (c.step ch) n = some w) :
    (n < c.procs.length ∧ workerOf c n = some w) ∨
      n = c.procs.length ∧ ∃ e : Entry, ch = .start e ∧ e.worker = some w := by
  cases he : (c.step ch).entryOf n with
  | none => unfold workerOf at h; rw [he] at h; cases h
  | some e =>
    rcases entryOf_step_cases he with hlt | ⟨rfl, hch⟩
    · exact .inl ⟨hlt, (identity_step hlt ch).2.symm.trans h⟩
    · unfold workerOf at h
      rw [he] at h
      exact .inr ⟨rfl, e, hch, h⟩

theorem workerOf_of_holderOf {w : String} (h : holderOf c n = some w) (hw : w ≠ "http") : workerOf c n = some w := by
  unfold holderOf at h
  unfold workerOf
  cases he : c.entryOf n with
  | none => rw [he] at h; cases h
  | some e =>
    rw [he] at h
    cases e with
    | settle => exact absurd (Option.some.inj h).symm hw
    | _ => exact h

/-- A live session under a worker's identity, on a payment the worker has claimed, is the worker's own. -/
theorem Exclusive.self (hx : Exclusive c) (hrun : c.Running pid) {w : String} (hw : workerOf c pid = some w)
    (hc : Claimed (own pid c.log) p) (hlive : (sessions c.shared c.log).Live n p) (hn : holderOf c n = some w) :
    n = pid := by
  have hw' := workerOf_of_holderOf hn (hx.workers pid w hw)
  rcases Nat.lt_trichotomy n pid with hlt | rfl | hgt
  · exact absurd hlive ((hx.succession n pid w hlt hw' hw).2 p hc)
  · rfl
  · exact absurd hrun (hx.succession pid n w hgt hw hw').1

theorem Exclusive.effect (hx : Exclusive c) (hk : Kept (M := facilitator lib cfg) (Allowed lib cfg) (Returns lib cfg) c)
    {q : Call} {k : Resp q → P Out} (hq : c.procs[pid]? = some ⟨e, some (.call q k)⟩) {env : StepEnv}
    (hf : Fenced c.shared c.log pid env q) :
    LeaseEffect cfg c.shared c.log pid (holderOf c pid) ⟨q, (perform c.shared env q).1⟩
      (perform c.shared env q).2.db.tables := by
  have hentry : c.entryOf pid = some e := by unfold Config.entryOf; rw [hq]; rfl
  have hholder : holderOf c pid = e.holder := by unfold holderOf; rw [hentry]
  have hworker : workerOf c pid = e.worker := by unfold workerOf; rw [hentry]
  rw [hholder]
  refine lease_effect hx.settled (hk.wp pid e _ hq).1 ?_ hf
  intro w p hw hc n hlive hn
  exact hx.self ⟨e, q, k, hq⟩ (hworker.trans hw) hc hlive hn

/-- Whatever is live after a step was live before it, but for what the step itself gave the process that made it. -/
theorem live_step (hch : Orderly c ch) (hn : ¬ c.Running n)
    (hlive : (sessions (c.step ch).shared (c.step ch).log).Live n p) :
    (sessions c.shared c.log).Live n p := by
  obtain ⟨u, hu, hlt⟩ := hlive
  rcases step_cases c ch with ⟨pid, env, e, q, k, rfl, hq, hs⟩ | ⟨hl, hsh | ⟨m, rfl, hsh⟩⟩
  · have hne : pid ≠ n := by
      rintro rfl
      exact hn ⟨e, q, k, hq⟩
    rw [hs] at hu hlt
    refine ⟨u, ?_, ?_⟩
    · exact (congrArg (heldUntil p) (own_snoc_ne hne _ _)).symm.trans hu
    · exact lt_of_eq_of_lt (perform_clock c.shared env q).symm hlt
  · rw [hl, hsh] at hu hlt
    exact ⟨u, hu, hlt⟩
  · rw [hl, hsh] at hu hlt
    refine ⟨u, hu, ?_⟩
    cases m with
    | tick t => exact lt_of_le_of_lt hch hlt
    | setMerchants => exact hlt

/-- The call of an orderly step is fenced. -/
theorem Orderly.fenced {env : StepEnv} (hch : Orderly c (.run pid env)) {q : Call} {k : Resp q → P Out}
    (hq : c.procs[pid]? = some ⟨e, some (.call q k)⟩) : Fenced c.shared c.log pid env q := by
  change NextCall (Fenced c.shared c.log pid env) c.procs[pid]? at hch
  rw [hq] at hch
  exact hch

theorem Exclusive.settled_step (hx : Exclusive c)
    (hk : Kept (M := facilitator lib cfg) (Allowed lib cfg) (Returns lib cfg) c) (hch : Orderly c ch) :
    Settled cfg (holderOf (c.step ch)) (c.step ch).shared (c.step ch).log := by
  -- only processes of before the step hold anything after it
  have hlt : ∀ n p u, heldUntil p (own n (c.step ch).log) = some u → n < c.procs.length := by
    intro n p u hu
    by_contra hn
    refine absurd hu ?_
    rw [own_fresh (n := n) fun x hx' => ?_]
    · exact fun h => by cases h
    · refine Nat.lt_of_lt_of_le ?_ (Nat.le_of_not_lt hn)
      rcases step_cases c ch with ⟨pid, env, e, q, k, rfl, hq, hs⟩ | ⟨hl, -⟩
      · rw [hs] at hx'
        rcases List.mem_append.1 hx' with hx' | hx'
        · exact hk.pids x hx'
        · rw [List.mem_singleton.1 hx']
          exact (List.getElem?_eq_some_iff.1 hq).1
      · rw [hl] at hx'
        exact hk.pids x hx'
  have hbefore : Settled cfg (holderOf c) (c.step ch).shared (c.step ch).log := by
    rcases step_cases c ch with ⟨pid, env, e, q, k, rfl, hq, hs⟩ | ⟨hl, hsh | ⟨m, rfl, hsh⟩⟩
    · rw [hs]
      exact hx.settled.call (hx.effect hk hq (hch.fenced hq))
    · rw [hl, hsh]
      exact hx.settled
    · rw [hl, hsh]
      refine hx.settled.outside ?_
      rintro t rfl
      exact hch
  exact hbefore.rename fun n p u hu => (identity_step (hlt n p u hu) ch).1

/-- Sessions stay exclusive along every orderly step. -/
theorem Exclusive.step (hx : Exclusive c) (hk : Kept (M := facilitator lib cfg) (Allowed lib cfg) (Returns lib cfg) c)
    (hch : Orderly c ch) : Exclusive (c.step ch) := by
  refine ⟨hx.settled_step hk hch, fun n w hw => ?_, fun m n w hmn hm hn => ?_⟩
  · rcases worker_step hw with ⟨hlt, hold⟩ | ⟨-, e, rfl, he⟩
    · exact hx.workers n w hold
    · exact (hch w he).1
  · have hmlt : m < c.procs.length := by
      rcases worker_step hn with ⟨hlt, -⟩ | ⟨rfl, -⟩
      · exact lt_trans hmn hlt
      · exact hmn
    have hmold : workerOf c m = some w := (identity_step hmlt ch).2.symm.trans hm
    rcases worker_step hn with ⟨hnlt, hnold⟩ | ⟨rfl, e, rfl, he⟩
    · obtain ⟨hstop, hover⟩ := hx.succession m n w hmn hmold hnold
      refine ⟨stopped_step hmlt hstop ch, fun p hc hlive => ?_⟩
      have hbefore := live_step hch hstop hlive
      -- the later tick claimed the payment before, or nobody was live on it when it did
      rcases step_cases c ch with ⟨pid, env, e, q, k, rfl, hq, hs⟩ | ⟨hl, -⟩
      · rw [hs] at hc
        by_cases hne : pid = n
        · subst hne
          change Claimed (own pid (c.log ++ [(pid, _)])) p at hc
          rw [own_snoc_self] at hc
          rcases (hx.effect hk hq (hch.fenced hq)).claims hc with hold | hnone
          · exact hover p hold hbefore
          · exact hnone m hbefore
        · change Claimed (own n (c.log ++ [(pid, _)])) p at hc
          rw [own_snoc_ne hne] at hc
          exact hover p hc hbefore
      · rw [hl] at hc
        exact hover p hc hbefore
    · have hstop := (hch w he).2 m hmlt hmold
      refine ⟨stopped_step hmlt hstop _, fun p hc => ?_⟩
      have hnone : own c.procs.length c.log = [] := own_fresh hk.pids
      change Claimed (own c.procs.length c.log) p at hc
      rw [hnone] at hc
      rcases hc with ⟨_, _, _, _, hc⟩ | ⟨_, _, _, hc, -⟩ <;> cases hc

end Runs

theorem exclusive_reach (run : Run lib cfg) (h : Along Orderly (start lib cfg) run) :
    Exclusive (reach lib cfg run) := by
  induction run using List.reverseRecOn with
  | nil =>
    refine ⟨⟨?_, ?_, ?_, ?_⟩, ?_, ?_⟩
    · intro n t ht; cases ht
    · intro n p u hu; cases hu
    · intro n p u hu; cases hu
    · rintro m n p ⟨u, hu, -⟩; cases hu
    · intro n w hw; cases hw
    · intro m n w _ hm; cases hm
  | append_singleton run ch ih =>
    obtain ⟨hrun, hch, -⟩ := along_append.1 h
    rw [reach_append]
    exact (ih hrun).step (kept_reach run) hch

/-- In every orderly run at most one session is live on a payment, and no call of one process (be it a claim, a renewal
or a release) changes the lease of a session that is live in another. -/
theorem sessions_exclusive (run : Run lib cfg) (h : Along Orderly (start lib cfg) run) :
    (∀ p m n, (sessions (reach lib cfg run).shared (reach lib cfg run).log).Live m p →
        (sessions (reach lib cfg run).shared (reach lib cfg run).log).Live n p → m = n) ∧
      ∀ (before after : Run lib cfg) ch, run = before ++ ch :: after → ∀ pid q, Makes (reach lib cfg before) ch pid q →
        ∀ p n, n ≠ pid → (sessions (reach lib cfg before).shared (reach lib cfg before).log).Live n p →
          (reach lib cfg (before ++ [ch])).shared.db.tables.lease p =
            (reach lib cfg before).shared.db.tables.lease p := by
  refine ⟨fun p m n => (exclusive_reach run h).settled.sound.alone m n p, ?_⟩
  rintro before after ch rfl pid q ⟨env, e, k, rfl, hq⟩ p n hn hlive
  obtain ⟨hbefore, hch, -⟩ := along_append.1 h
  have heff := (exclusive_reach before hbefore).effect (kept_reach before) hq (hch.fenced hq)
  rw [reach_append]
  change ((reach lib cfg before).step (.run pid env)).shared.db.tables.lease p = _
  rw [step_run hq]
  exact heff.others hn hlive

/-- A confirmation worker stalls with its lease; once that has lapsed a recovery worker takes the payment over. -/
def sampleTaken : Run sampleLib sampleConfig :=
  sampleBroadcast ++ [enter (.confirmationTick "slow")] ++ calls 6 3 (calm 12) ++
    [tick 100, enter (.recoveryTick "fast")] ++ calls 4 4 (late 12)

/-- The session of the recovery worker is live, and no other is. -/
theorem sessions_exclusive_sample :
    (sessions (reach sampleLib sampleConfig sampleTaken).shared
        (reach sampleLib sampleConfig sampleTaken).log).Live 4 10 ∧
      ∀ n, (sessions (reach sampleLib sampleConfig sampleTaken).shared
        (reach sampleLib sampleConfig sampleTaken).log).Live n 10 → n = 4 := by
  suffices h : _ ∧ Along Orderly (start sampleLib sampleConfig) sampleTaken from
    ⟨h.1, fun n hn => (sessions_exclusive sampleTaken h.2).1 10 n 4 hn h.1⟩
  decide +kernel

/-- The calm once the first lease has lapsed. -/
def overrun (id : Nat) : Script := { calm id with db := ⟨31, id, fun n => n, fun _ => false⟩ }

/-- A request claims payment `10` until 30 and stalls. At 31 a second request for the payment claims it, until 41; the
first one wakes up and sends the transaction. -/
def sampleOverrun : Run sampleLib sampleConfig :=
  sampleVerified ++ [enter (.settle (sampleRequest 'a') 0)] ++ calls 4 2 (calm 11) ++
    [tick 31, enter (.settle (sampleRequest 'a') 0)] ++ calls 4 3 (overrun 12) ++ calls 8 2 (overrun 12)

/-- It gives back the payment. -/
def sampleReleases : Choice (facilitator sampleLib sampleConfig) := .run 2 (overrun 12).env

/-- The call releases the payment. -/
def releases (p : Nat) : Call → Bool
  | .store (.releaseLease q _) => q = p
  | _ => false

/-- A worker claims the payment next. -/
def sampleStolen : Run sampleLib sampleConfig :=
  sampleOverrun ++ [sampleReleases] ++ [enter (.confirmationTick "worker")] ++ calls 2 4 (overrun 13)

/-- The release of the first request ends the live lease of the second one, and then two sessions are live at once. -/
theorem release_ends_live_session :
    (reach sampleLib sampleConfig sampleOverrun).Running 2 ∧
      NextCall (fun q => releases 10 q = true) (reach sampleLib sampleConfig sampleOverrun).procs[2]? ∧
      (sessions (reach sampleLib sampleConfig sampleOverrun).shared
        (reach sampleLib sampleConfig sampleOverrun).log).Live 3 10 ∧
      (reach sampleLib sampleConfig sampleOverrun).shared.db.tables.lease 10 = some ("http", 41) ∧
      (reach sampleLib sampleConfig (sampleOverrun ++ [sampleReleases])).shared.db.tables.lease 10 = none ∧
      (sessions (reach sampleLib sampleConfig sampleStolen).shared
        (reach sampleLib sampleConfig sampleStolen).log).Live 3 10 ∧
      (sessions (reach sampleLib sampleConfig sampleStolen).shared
        (reach sampleLib sampleConfig sampleStolen).log).Live 4 10 := by
  decide +kernel

end Eth402.System
