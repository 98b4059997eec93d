/-
Several deployments over one database, one after another or at the same time: every process runs under a configuration
of its own, with the signer that configuration names. A process signs whatever row it is given with its own key, so what
is sent for a row is signed by the row's signer exactly when that is the sender's own, but for the fillers: those are
listed by signer, and what is sent again of them is what their signer's process recorded.
-/
import Eth402.Store.Bytes
import Eth402.System.Fillers

namespace Eth402.System

open Lib Store Settlement Verification

/-! ## The machine -/

/-- The facilitator's processes, each under a configuration of its own. -/
def fleet (lib : Libraries) : Machine Call Resp where
  State := Shared
  Env := StepEnv
  Move := Move
  Entry := Settlement.Config × Entry
  Out := Out
  perform := perform
  outside := outside
  code x := code lib x.1 x.2

abbrev FleetRun (lib : Libraries) := List (Choice (fleet lib))

/-- The configuration a run of the fleet reaches from the empty database. -/
def fleetReach (lib : Libraries) (run : FleetRun lib) : Lib.Config (fleet lib) :=
  (Lib.Config.init (M := fleet lib) (⟨DB.empty, 0⟩ : Shared)).exec run

variable {lib : Libraries} {run : FleetRun lib} {pid : Nat} {signerOf : Bytes → String}

theorem fleet_disciplined (x : (fleet lib).Entry) :
    Prog.wp (Allowed lib x.1 x.2) [] ((fleet lib).code x) (Returns lib x.1 x.2) := code_disciplined x.2

theorem kept_fleet (run : FleetRun lib) : Kept (M := fleet lib) (fun x => Allowed lib x.1 x.2)
    (fun x => Returns lib x.1 x.2) (fleetReach lib run) := (Kept.init _).exec fleet_disciplined run

theorem fleetReach_snoc (run : FleetRun lib) (ch : Choice (fleet lib)) :
    fleetReach lib (run ++ [ch]) = (fleetReach lib run).step ch := exec_snoc _ run ch

/-- The invariant of the facilitator does not mind whose configuration a call is made under. -/
theorem fleet_inv (run : FleetRun lib) : Inv lib (fleetReach lib run).shared (fleetReach lib run).log := by
  induction run using List.reverseRecOn with
  | nil => exact inv_empty 0
  | append_singleton run ch ih =>
    rw [fleetReach_snoc]
    refine (kept_fleet run).step_inv (I := Inv lib) ch ?_ ?_ ih
    · intro pid env q x k _ _ hj _
      exact ih.call hj env
    · intro m _
      exact ih.outside m

/-! ## Keys -/

/-- An answer of the signer is signed with the key of the configured address. -/
def SignedUnder (signerOf : Bytes → String) (cfg : Settlement.Config) : Ev → Prop
  | ⟨.signTransaction _ _, .ok signed⟩ => signerOf signed.raw = cfg.signerAddress
  | _ => True

/-- Every process's signer signs with the key of the address the process is configured with. -/
def Keyed (signerOf : Bytes → String) (c : Lib.Config (fleet lib)) : Prop :=
  ∀ y ∈ c.log, ∀ x ∈ c.entryOf y.1, SignedUnder signerOf (Prod.fst x) y.2

theorem Keyed.before {c : Lib.Config (fleet lib)} {ch : Choice (fleet lib)} (h : Keyed signerOf (c.step ch)) :
    Keyed signerOf c := by
  intro y hy x hx
  refine h y ((log_step c ch).subset hy) x ?_
  rw [entryOf_step (lt_of_entryOf hx)]
  exact hx

theorem Keyed.signed {c : Lib.Config (fleet lib)} (h : Keyed signerOf c) {x : (fleet lib).Entry}
    (hx : c.entryOf pid = some x) {raw : Bytes} (hs : SignedHere (own pid c.log) raw) :
    signerOf raw = x.1.signerAddress := by
  obtain ⟨tx, a, signed, hev, rfl⟩ := hs
  exact h _ (mem_own.1 hev) x hx

/-! ## Where recorded bytes were signed -/

/-- The recorded bytes of a row, and those a filler was listed with, are of the row's signer. -/
structure Genuine (signerOf : Bytes → String) (s : Shared) (log : List (Nat × Ev)) : Prop where
  bytes : ∀ r ∈ s.db.tables.transactions, ∀ raw, r.rawTransaction = some raw → signerOf raw = r.signerAddress
  listed : ∀ y ∈ log, ∀ tracked : List TrackedTransaction, y.2 = ⟨.store .listGapFillers, .ok tracked⟩ → ∀ t ∈ tracked,
    Stands s.db (.signer t.paymentId t.transactionId (signerOf t.rawTransaction))

theorem Stands.signerAddress {db : DB} {p t : Nat} {a : String} (h : Stands db (.signer p t a)) {r : Transaction}
    (hr : r ∈ db.tables.transactions) (hid : r.id = t) : r.signerAddress = a := by
  obtain ⟨x, hx, hxid, rfl⟩ := h
  obtain ⟨r', hr', -, rfl⟩ := mem_rowsOf.1 hx
  rw [eq_of_key db.wf.transactionIds hr hr' (hid.trans hxid.symm)]
  rfl

/-- A gap is listed for the process's own signer. -/
theorem ListedGap.signer {cfg : Settlement.Config} {e : Entry} {s : Shared} {log : List (Nat × Ev)} (hi : Inv lib s log)
    (hd : Disciplined (Allowed lib cfg e) (own pid log)) {work : Work} (h : ListedGap cfg (own pid log) work) :
    Stands s.db (.signer work.paymentId work.transactionId cfg.signerAddress) := by
  obtain ⟨c, signer, works, -, hev, hw⟩ := h
  obtain ⟨l₁, l₂, hl⟩ := List.append_of_mem hev
  have hown : signer = cfg.signerAddress := hd l₁ _ l₂ hl
  rw [← hown]
  exact hi.stands hev (.gapSigner signer _ works work hw)

theorem ListedStuck.signer {cfg : Settlement.Config} {s : Shared} {log : List (Nat × Ev)} (hi : Inv lib s log)
    {work : Work} (h : ListedStuck cfg (own pid log) work) :
    Stands s.db (.signer work.paymentId work.transactionId cfg.signerAddress) := by
  obtain ⟨works, hev, hw⟩ := h
  exact hi.stands hev (.stuckSigner _ _ works work hw)

/-- Bytes are recorded for rows of the recorder's signer, and it signed them. -/
theorem signer_of_records {cfg : Settlement.Config} {e : Entry} {s : Shared} {log : List (Nat × Ev)}
    (hi : Inv lib s log)
    (hd : Disciplined (Allowed lib cfg e) (own pid log))
    (hkeys : ∀ raw, SignedHere (own pid log) raw → signerOf raw = cfg.signerAddress) {op : Op}
    (hj : Allowed lib cfg e (own pid log) (.store op)) {r : Transaction} (hr : r ∈ s.db.tables.transactions)
    {raw : Bytes}
    (hop : op.Records r.id raw) : signerOf raw = r.signerAddress := by
  cases op with
  | markGapFillerPrepared u rawHash txHash b n m f =>
    obtain ⟨rfl, rfl⟩ := hop
    obtain ⟨hs, -, -, work, hgap, hid⟩ := hj
    rw [hkeys _ hs, (hgap.signer hi hd).signerAddress hr hid.symm]
  | markGapFillerReplaced p u replacement b =>
    obtain ⟨rfl, rfl⟩ := hop
    obtain ⟨-, -, hs, work, hstuck, -, hid⟩ := hj
    rw [hkeys _ hs, (hstuck.signer hi).signerAddress hr hid.symm]
  | _ => exact hop.elim

theorem Genuine.call {cfg : Settlement.Config} {e : Entry} {s : Shared} {log : List (Nat × Ev)}
    (h : Genuine signerOf s log)
    (hi : Inv lib s log) (hd : Disciplined (Allowed lib cfg e) (own pid log))
    (hkeys : ∀ raw, SignedHere (own pid log) raw → signerOf raw = cfg.signerAddress) {q : Call}
    (hj : Allowed lib cfg e (own pid log) q) (env : StepEnv) :
    Genuine signerOf (perform s env q).2 (log ++ [(pid, ⟨q, (perform s env q).1⟩)]) where
  bytes r' hr' raw hraw := by
    cases q with
    | store op =>
      change r' ∈ (runStore env op s.db).2.tables.transactions at hr'
      rcases runStore_db env op s.db with hdb | hdb
      · rw [hdb] at hr'
        exact h.bytes r' hr' raw hraw
      · rw [hdb] at hr'
        obtain ⟨r, hr, hsame, hb | hop⟩ := run_bytes op hr' hraw
        · rw [← hsame]
          exact h.bytes r hr raw hb
        · rw [← hsame]
          exact signer_of_records hi hd hkeys hj hr hop
    | _ => exact h.bytes r' hr' raw hraw
  listed y hy tracked hev t ht := by
    rcases List.mem_append.1 hy with hy | hy
    · exact (h.listed y hy tracked hev t ht).move hi.shape (hi.moves hj env) (perform_payments s env q)
    · rw [List.mem_singleton.1 hy] at hev
      obtain ⟨rfl, hlist⟩ := perform_ok hev
      obtain ⟨hdb, hall⟩ := listGapFillers_ok (run_ok hlist)
      obtain ⟨r, hr, hp, hid, hraw, -⟩ := hall t ht
      rw [hdb]
      exact ⟨r.row, mem_rowsOf.2 ⟨r, hr, hp, rfl⟩, hid, (h.bytes r hr _ hraw).symm⟩

theorem fleet_genuine (run : FleetRun lib) (hkeys : Keyed signerOf (fleetReach lib run)) :
    Genuine signerOf (fleetReach lib run).shared (fleetReach lib run).log := by
  induction run using List.reverseRecOn with
  | nil => exact ⟨fun r hr => (by cases hr), fun y hy => (by cases hy)⟩
  | append_singleton run ch ih =>
    rw [fleetReach_snoc] at hkeys ⊢
    have hbefore := ih hkeys.before
    have hi := fleet_inv run
    refine (kept_fleet run).step_inv (I := Genuine signerOf) ch ?_ ?_ hbefore
    · intro pid env q x k _ hp hj hd
      have hx : (fleetReach lib run).entryOf pid = some x := by
        unfold Lib.Config.entryOf
        rw [hp]
        rfl
      exact hbefore.call hi hd (fun raw => hkeys.before.signed hx) hj env
    · intro m _
      obtain ⟨hpay, htx, -⟩ := outside_lives (fleetReach lib run).shared m
      refine ⟨fun r hr => hbefore.bytes r (htx ▸ hr), fun y hy tracked hev t ht => ?_⟩
      exact (hbefore.listed y hy tracked hev t ht).move hi.shape (moves_of_eq (lifeOf_congr hpay htx)) (.of_eq hpay)

/-! ## What is sent -/

/-- The sends of a run: who made them, on behalf of which row, and the text. -/
def sendsOf (log : List (Nat × Ev)) : List (Nat × Sending × String) :=
  log.filterMap fun y =>
    match y.2.call with
    | .sendRawTransaction s text => some (y.1, s, text)
    | _ => none

theorem mem_sendsOf {log : List (Nat × Ev)} {s : Sending} {text : String} (h : (pid, s, text) ∈ sendsOf log) :
    ∃ a, (pid, (⟨.sendRawTransaction s text, a⟩ : Ev)) ∈ log := by
  obtain ⟨⟨n, q, a⟩, hy, hsome⟩ := List.mem_filterMap.1 h
  cases q with
  | sendRawTransaction s' text' =>
    cases hsome
    exact ⟨a, hy⟩
  | _ => cases hsome

/-- What a process did was allowed after what it had done before. -/
theorem allowed_of_mem {cfg : Settlement.Config} {e : Entry} {past : List Ev}
    (hd : Disciplined (Allowed lib cfg e) past)
    {ev : Ev} (hev : ev ∈ past) : ∃ past', past' <+: past ∧ Allowed lib cfg e past' ev.call := by
  obtain ⟨l₁, l₂, rfl⟩ := List.append_of_mem hev
  exact ⟨l₁, List.prefix_append .., hd l₁ ev l₂ rfl⟩

section Sent

variable {cfg : Settlement.Config} {e : Entry} {s : Shared} {log : List (Nat × Ev)} {past : List Ev} {sending : Sending}
  {raw : Bytes} {work : Work} {p : Nat}

theorem stands_loaded (hi : Inv lib s log) (h : Loaded (own pid log) p work) :
    Stands s.db (.row work.paymentId work.transactionId) := hi.stands h (.loaded p work)

theorem row_of_send (hi : Inv lib s log) (hd : Disciplined (Allowed lib cfg e) (own pid log))
    (hpast : past <+: own pid log)
    (hsite : sending.site ∉ fillerSites) (hm : MaySend lib cfg past sending raw) :
    ∃ p, Stands s.db (.row p sending.transactionId) := by
  obtain ⟨site, payment, t⟩ := sending
  cases site with
  | broadcastClaimed =>
    obtain ⟨⟨p, work, hl, -, rfl⟩, -⟩ := hm
    exact ⟨_, stands_loaded hi (hl.mono hpast)⟩
  | resolveAmbiguous =>
    rcases hm with ⟨p, work, hl, -, rfl, -⟩ | ⟨r, a, hev, -⟩
    · exact ⟨_, stands_loaded hi (hl.mono hpast)⟩
    · obtain ⟨past', hp, -, q, work, hh, -, -, rfl⟩ := allowed_of_mem hd (hpast.subset hev)
      exact ⟨_, stands_loaded hi (hh.loaded.mono hp)⟩
  | replaceStuck =>
    obtain ⟨r, a, hev, -⟩ := hm
    obtain ⟨past', hp, -, q, work, hl, -, rfl⟩ := allowed_of_mem hd (hpast.subset hev)
    exact ⟨_, stands_loaded hi (hl.mono hp)⟩
  | fillNonceGap | bumpStuckGapFiller | observeGapFiller => simp [fillerSites] at hsite

/-- A filler that is sent is on a nonce of the signer of its bytes. -/
theorem signer_of_filler (hi : Inv lib s log) (hd : Disciplined (Allowed lib cfg e) (own pid log))
    (hg : Genuine signerOf s log) (hkeys : ∀ raw, SignedHere (own pid log) raw → signerOf raw = cfg.signerAddress)
    (hpast : past <+: own pid log) (hsite : sending.site ∈ fillerSites) (hm : MaySend lib cfg past sending raw)
    (hs : sending.site ≠ .observeGapFiller → SignedHere past raw) :
    ∃ p, Stands s.db (.signer p sending.transactionId (signerOf raw)) := by
  obtain ⟨site, payment, t⟩ := sending
  cases site with
  | fillNonceGap =>
    obtain ⟨⟨work, hgap, -, rfl⟩, -⟩ := hm
    rw [hkeys raw ((hs fun h => by cases h).mono hpast)]
    exact ⟨_, (hgap.mono hpast).signer hi hd⟩
  | bumpStuckGapFiller =>
    obtain ⟨r, hev, -⟩ := hm
    obtain ⟨past', hp, -, -, -, work, hstuck, -, rfl⟩ := allowed_of_mem hd (hpast.subset hev)
    rw [hkeys raw ((hs fun h => by cases h).mono hpast)]
    exact ⟨_, (hstuck.mono hp).signer hi⟩
  | observeGapFiller =>
    obtain ⟨t, ⟨tracked, hev, ht⟩, -, rfl, rfl⟩ := hm
    exact ⟨_, hg.listed _ (mem_own.1 (hpast.subset hev)) tracked rfl t ht⟩
  | broadcastClaimed | resolveAmbiguous | replaceStuck => simp [fillerSites] at hsite

end Sent

/-- What is sent on behalf of a row is signed by the row's signer exactly if it is a filler, or the row's signer is the
one the sender is configured with. -/
theorem sent_by_row_signer (signerOf : Bytes → String) (run : FleetRun lib)
    (hkeys : Keyed signerOf (fleetReach lib run))
    {pid : Nat} {x : (fleet lib).Entry} (hx : (fleetReach lib run).entryOf pid = some x) {sending : Sending}
    {text : String}
    (hsend : (pid, sending, text) ∈ sendsOf (fleetReach lib run).log) :
    ∃ raw, text = "0x" ++ hexEncode raw ∧ ∃ r ∈ (Shared.db (fleetReach lib run).shared).tables.transactions,
      r.id = sending.transactionId ∧
        (signerOf raw = r.signerAddress ↔ sending.site ∈ fillerSites ∨ r.signerAddress = x.1.signerAddress) := by
  have hi := fleet_inv run
  have hsigned : ∀ raw, SignedHere (own pid (fleetReach lib run).log) raw → signerOf raw = x.1.signerAddress :=
    fun raw => hkeys.signed hx
  obtain ⟨proc, hproc, rfl⟩ := Option.map_eq_some_iff.1 hx
  have hd := (kept_fleet run).past pid proc hproc
  obtain ⟨a, hev⟩ := mem_sendsOf hsend
  obtain ⟨past, hpast, raw, rfl, hm, hs⟩ := allowed_of_mem hd (mem_own.2 hev)
  refine ⟨raw, rfl, ?_⟩
  by_cases hsite : sending.site ∈ fillerSites
  · obtain ⟨p, row, hrow, hid, hsigner⟩ := signer_of_filler hi hd (fleet_genuine run hkeys) hsigned hpast hsite hm hs
    obtain ⟨r, hr, -, rfl⟩ := mem_rowsOf.1 hrow
    exact ⟨r, hr, hid, iff_of_true hsigner.symm (.inl hsite)⟩
  · obtain ⟨p, row, hrow, hid⟩ := row_of_send hi hd hpast hsite hm
    obtain ⟨r, hr, -, rfl⟩ := mem_rowsOf.1 hrow
    have hother : sending.site ≠ .observeGapFiller := fun h => hsite (by rw [h]; decide)
    refine ⟨r, hr, hid, ?_⟩
    rw [hsigned raw ((hs hother).mono hpast)]
    constructor
    · intro h
      exact .inr h.symm
    · rintro (h | h)
      · exact absurd h hsite
      · exact h.symm

/-! ## Two deployments -/

instance (cfg : Settlement.Config) (ev : Ev) : Decidable (SignedUnder signerOf cfg ev) := by
  unfold SignedUnder
  split <;> infer_instance

instance (c : Lib.Config (fleet lib)) : Decidable (Keyed signerOf c) := by
  unfold Keyed
  infer_instance

/-- A run of one deployment as a run of the fleet. -/
def deployed {cfg : Settlement.Config} (run : Run lib cfg) : FleetRun lib :=
  run.map fun
    | .start e => .start (M := fleet lib) (cfg, e)
    | .run pid env => .run pid env
    | .crash pid => .crash pid
    | .outside m => .outside m

def sampleSuccessor := hexText 40 '4'

/-- The deployment after a change of the signing key. -/
def rotatedConfig : Settlement.Config := { sampleConfig with signerAddress := sampleSuccessor }

/-- A request is admitted and its process stops; the next deployment's broadcast worker, with another key, goes on. -/
def sampleRotated : FleetRun sampleLib :=
  deployed (sampleVerified ++ [enter (.settle (sampleRequest 'a') 0)] ++ calls 2 2 (calm 11) ++ [.crash 2]) ++
    [.start (rotatedConfig, .broadcastTick "next")] ++ List.replicate 12 (.run 3 (calm 12).env)

theorem sent_by_row_signer_sample :
    (2, ⟨.broadcastClaimed, 10, 11⟩, "0x0307") ∈ sendsOf (fleetReach sampleLib (deployed sampleBroadcast)).log ∧
      ∃ raw, "0x0307" = "0x" ++ hexEncode raw ∧
        ∃ r ∈ (Shared.db (fleetReach sampleLib (deployed sampleBroadcast)).shared).tables.transactions, r.id = 11 ∧
          (sampleSigner = r.signerAddress ↔ Site.broadcastClaimed ∈ fillerSites ∨ r.signerAddress = sampleSigner) := by
  have hx : (fleetReach sampleLib (deployed sampleBroadcast)).entryOf 2 =
      some (sampleConfig, .settle (sampleRequest 'a') 0) := entryOf_init_exec ..
  suffices h : _ ∧ Keyed (fun _ => sampleSigner) (fleetReach sampleLib (deployed sampleBroadcast)) from
    ⟨h.1, sent_by_row_signer (fun _ => sampleSigner) (deployed sampleBroadcast) h.2 hx h.1⟩
  decide +kernel

/-- The row is on a nonce of the old signer, and what is sent for it is signed by the new one. -/
theorem rotated_key_signs_old_row : Keyed (fun _ => sampleSuccessor) (fleetReach sampleLib sampleRotated) ∧
    (3, ⟨.broadcastClaimed, 10, 11⟩, "0x" ++ hexEncode [3, 7]) ∈ sendsOf (fleetReach sampleLib sampleRotated).log ∧
    ∃ r ∈ (Shared.db (fleetReach sampleLib sampleRotated).shared).tables.transactions,
      r.id = 11 ∧ sampleSuccessor ≠ r.signerAddress := by
  decide +kernel

end Eth402.System
