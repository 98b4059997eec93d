/-
The watch over gap fillers against a chain that may reorganise. A row of a retired payment is recorded as mined on the
receipt its process read just before, and until then every signature that was sent for the nonce is listed. Nothing in
`observeGapFiller` asks whether the block is still canonical or how deep it is, so the record is about the final chain
when the receipts are.
-/
import Eth402.System.Escalation

namespace Eth402.System

open Lib Store Settlement Verification

variable {lib : Libraries} {cfg : Settlement.Config}

/-! ## The chain -/

/-- A chain as it moves under a run: after each number of calls the block that is canonical at each height and the head,
and which transactions a block includes. -/
structure Chain where
  canonical : Nat → Nat → Option String
  head : Nat → Nat
  includes : String → String → Prop

/-- The receipt's block is canonical after `n` calls and deep enough. -/
structure Chain.Deep (chain : Chain) (cfg : Settlement.Config) (n : Nat) (receipt : Receipt) : Prop where
  canonical : chain.canonical n receipt.blockNumber = some receipt.blockHash
  depth : cfg.confirmations ≤ depthAt (chain.head n) receipt.blockNumber

/-- What is deep enough stays: a reorganisation is shorter than the required confirmations. -/
def Chain.Final (chain : Chain) (cfg : Settlement.Config) : Prop :=
  ∀ n receipt, chain.Deep cfg n receipt → ∀ m, n ≤ m → chain.canonical m receipt.blockNumber = some receipt.blockHash

/-- A receipt is one of a transaction its block includes. -/
def Chain.Serves (chain : Chain) (log : List (Nat × Ev)) : Prop :=
  ∀ pid h receipt, (pid, (⟨.transactionReceipt h, .ok (some receipt)⟩ : Ev)) ∈ log → chain.includes receipt.blockHash h

/-! ## Receipts of fillers -/

/-- After the calls `past` process `pid`, which has `x` on its watch list, read the receipt of `x`. -/
structure FillerReceipt (log past : List (Nat × Ev)) (pid : Nat) (x : TrackedTransaction) (receipt : Receipt) :
    Prop where
  read : ∃ rest, log = past ++ (pid, ⟨.transactionReceipt x.txHash, .ok (some receipt)⟩) :: rest
  listed : ListedFiller (own pid past) x

/-- A receipt of the row `id` of payment `p` was read. -/
def Receipted (log : List (Nat × Ev)) (p id : Nat) : Prop :=
  ∃ past pid x receipt, FillerReceipt log past pid x receipt ∧ x.paymentId = p ∧ x.transactionId = id

/-- Every receipt of a listed filler is of a canonical block that is deep enough when it is read. -/
def ReceiptsDeep (chain : Chain) (cfg : Settlement.Config) (log : List (Nat × Ev)) : Prop :=
  ∀ past pid x receipt, FillerReceipt log past pid x receipt → chain.Deep cfg past.length receipt

theorem Receipted.mono {log log' : List (Nat × Ev)} (hp : log <+: log') {p id : Nat} (h : Receipted log p id) :
    Receipted log' p id := by
  obtain ⟨past, pid, x, receipt, ⟨⟨rest, rfl⟩, hl⟩, hrow⟩ := h
  obtain ⟨more, rfl⟩ := hp
  exact ⟨past, pid, x, receipt, ⟨⟨rest ++ more, by simp⟩, hl⟩, hrow⟩

/-- A process that ends the watch of a row has read a receipt of it. -/
theorem receipted_of_last {log : List (Nat × Ev)} {pid : Nat} {x : TrackedTransaction} {receipt : Receipt}
    (hl : ListedFiller (own pid log) x)
    (hlast : (own pid log).getLast? = some ⟨.transactionReceipt x.txHash, .ok (some receipt)⟩) :
    Receipted log x.paymentId x.transactionId := by
  obtain ⟨past, rest, rfl, hown⟩ := own_getLast hlast
  refine ⟨past, pid, x, receipt, ⟨⟨rest, rfl⟩, ?_⟩, rfl, rfl⟩
  -- the list was read before the receipt
  obtain ⟨tracked, hev, hx⟩ := hl
  rw [hown] at hev
  rcases List.mem_append.1 hev with hev | hev
  · exact ⟨tracked, hev, hx⟩
  · exact absurd (congrArg Event.call (List.mem_singleton.1 hev)) (by simp)

/-- Every row of a retired payment that is recorded as mined has a receipt behind it. -/
def MinedReceipted (s : Shared) (log : List (Nat × Ev)) : Prop :=
  ∀ p, Retired (lifeOf s.db.tables p) → ∀ r ∈ rowsOf s.db.tables p, r.status ∈ minedStatuses → Receipted log p r.id

/-- A row that a call records as mined is the one it ends the watch of, and there is a receipt of it. -/
theorem receipted_of_retires {s : Shared} {log : List (Nat × Ev)} {pid : Nat} {env : StepEnv} {e : Entry} {op : Op}
    (hi : Inv lib s log) (hop : op.retiresFiller = true) (hj : Allowed lib cfg e (own pid log) (.store op))
    {r : Transaction}
    (hr : r ∈ (op.run env.db s.db).2.tables.transactions) (hst : r.status ∈ minedStatuses) :
    r ∈ s.db.tables.transactions ∨ ∃ p, (∃ r₀ ∈ rowsOf s.db.tables p, r₀.id = r.id) ∧ Receipted log p r.id := by
  have hfound : ∀ {x : TrackedTransaction} {receipt : Receipt}, ListedFiller (own pid log) x → r.id = x.transactionId →
      (own pid log).getLast? = some ⟨.transactionReceipt x.txHash, .ok (some receipt)⟩ →
      ∃ p, (∃ r₀ ∈ rowsOf s.db.tables p, r₀.id = r.id) ∧ Receipted log p r.id := by
    intro x receipt hl hid hlast
    obtain ⟨tracked, hev, hx⟩ := id hl
    rw [hid]
    exact ⟨x.paymentId, hi.stands hev (.filler tracked x hx), receipted_of_last hl hlast⟩
  cases op with
  | markGapFillerResolved t g c =>
    obtain ⟨x, receipt, hl, rfl, hlast⟩ := hj
    change r ∈ ((markGapFillerResolved env.db x.transactionId g c).run s.db).2.tables.transactions at hr
    unfold Txn.run at hr
    split at hr
    · rename_i hok
      rcases markGapFillerResolved_mined hok hr hst with hid | hold
      · exact .inr (hfound hl hid hlast)
      · exact .inl hold
    · exact .inl hr
  | markGapFillerSucceeded p t n h g c a =>
    obtain ⟨x, receipt, hl, rfl, rfl, hlast⟩ := hj
    change r ∈
      ((markGapFillerSucceeded env.db x.paymentId x.transactionId n h g c a).run s.db).2.tables.transactions at hr
    unfold Txn.run at hr
    split at hr
    · rename_i hok
      rcases markGapFillerSucceeded_mined hok hr hst with hid | hold
      · exact .inr (hfound hl hid hlast)
      · exact .inl hold
    · exact .inl hr
  | _ => cases hop

theorem reach_minedReceipted (run : Run lib cfg) :
    MinedReceipted (reach lib cfg run).shared (reach lib cfg run).log := by
  refine (run_inv (P := fun _ _ _ _ _ => True) (X := MinedReceipted) ?_ ?_ ?_ run ?_).2
  · rintro p - r hr
    cases hr
  · intro s log pid env q e hi hmined hj _ p hret r hr hst
    have later : ∀ {id : Nat}, Receipted log p id → Receipted (log ++ [(pid, ⟨q, (perform s env q).1⟩)]) p id :=
      fun h => h.mono (List.prefix_append ..)
    obtain ⟨k, hk, m⟩ := hi.moves hj env p
    by_cases hcon : k = .consumed
    · subst hcon
      have hold := m.retired_of_consumed
      cases q with
      | store op =>
        have hop := Kinds.of_consumed hk
        obtain ⟨x, hx, rfl, rfl⟩ := mem_rowsOf.1 hr
        change x ∈ (runStore env op s.db).2.tables.transactions at hx
        have hcases : x ∈ s.db.tables.transactions ∨
            ∃ p, (∃ r₀ ∈ rowsOf s.db.tables p, r₀.id = x.id) ∧ Receipted log p x.id := by
          rcases runStore_db env op s.db with hdb | hdb
          · rw [hdb] at hx
            exact .inl hx
          · rw [hdb] at hx
            exact receipted_of_retires hi hop hj hx hst
        rcases hcases with hx | ⟨p', hp', hrec⟩
        · exact later (hmined _ hold _ (mem_rowsOf.2 ⟨x, hx, rfl, rfl⟩) hst)
        · -- the row stays with its payment
          have hrow : Stands s.db (.row p' x.id) := hp'
          obtain ⟨r', hr', hid⟩ := hrow.move hi.shape (hi.moves hj env) (perform_payments s env _)
          obtain ⟨rfl, -⟩ := rowsOf_id _ hr' hr hid
          exact later hrec
      | _ => cases hk
    · obtain ⟨hold, r₀, hr₀, hid, hst₀⟩ := m.mined_of (hi.shape p) hcon hret hr hst
      rw [← hid]
      exact later (hmined p hold r₀ hr₀ hst₀)
  · intro s log m hi hmined p
    obtain ⟨hpay, htx, -⟩ := outside_lives s m
    have hlife := lifeOf_congr hpay htx p
    intro hret r hr
    rw [hlife] at hret
    have hr' : r ∈ (lifeOf (outside s m).db.tables p).rows := hr
    rw [hlife] at hr'
    exact hmined p hret r hr'
  · exact along_of_forall (fun _ _ _ _ _ _ _ _ _ => trivial) _ _

/-! ## Signatures of fillers -/

/-- The places that send for a nonce gap. -/
def fillerSites : List Site := [.fillNonceGap, .bumpStuckGapFiller, .observeGapFiller]

/-- `ListGapFillers` returns the transaction `txHash` of payment `p`. -/
def FillerListed (db : DB) (p : Nat) (txHash : String) : Prop :=
  ∀ env, ∃ tracked, ((listGapFillers env).run db).1 = .ok tracked ∧ ∃ t ∈ tracked, t.paymentId = p ∧ t.txHash = txHash

/-- A watched signature of a retired payment is listed: the watch reads every filler's hash. -/
theorem listed_of_onWatch {db : DB} (hshape : ∀ q, Shape (rawHashOf lib) (lifeOf db.tables q)) {p : Nat} {h : String}
    (hret : Retired (lifeOf db.tables p)) (hw : OnWatch h (rowsOf db.tables p)) : FillerListed db p ("0x" ++ h) := by
  intro env
  have hscan : ∀ r ∈ (env.arrange (·.id) (db.tables.transactions.filter fun r =>
      r.status ∈ [.broadcast, .replaced] ∧ (db.tables.ownerState r).any (· ∈ [.expired, .failed]) ∧
        r.rawTransactionHash.isSome ∧ r.rawTransaction.isSome)), ∃ y, (do
          let h ← scanText r.txHash
          pure (⟨r.paymentId, r.id, h, some r.status, r.rawTransaction.getD []⟩ : TrackedTransaction)) = .ok y := by
    intro r hr
    rw [DbEnv.mem_arrange] at hr
    obtain ⟨hr, hpick⟩ := List.mem_filter.1 hr
    obtain ⟨hst, -, -, hraw⟩ := of_decide_eq_true hpick
    have hmem : r.row ∈ rowsOf db.tables r.paymentId := mem_rowsOf.2 ⟨r, hr, rfl, rfl⟩
    have hret := (hshape r.paymentId).of_raw hmem (Option.isSome_iff_ne_none.1 hraw)
    obtain ⟨h', -, htx, -⟩ := ((hshape r.paymentId).retired hret r.row hmem).2.recorded (by
      intro hd
      rw [show r.status = .dropped from hd] at hst
      simp at hst)
    exact ⟨_, by rw [show r.txHash = some ("0x" ++ h') from htx]; rfl⟩
  obtain ⟨x, hx, hh, hst, hraw⟩ := hw
  obtain ⟨h', hh', htx, -⟩ := ((hshape p).retired hret x hx).2.recorded (by
    intro hd
    rw [hd] at hst
    simp at hst)
  rw [hh] at hh'
  cases hh'
  -- a payment with a watched filler is not under review yet
  have hstate : (lifeOf db.tables p).state = some .expired ∨ (lifeOf db.tables p).state = some .failed := by
    rcases hret with hs | hs | ⟨hs, hno⟩
    · exact .inl hs
    · exact .inr hs
    · exfalso
      have hrev := hshape p
      generalize hlife : lifeOf db.tables p = l at hs hno hrev
      obtain ⟨state, rows⟩ := l
      obtain rfl : state = some .manualReview := hs
      have hrows : rows = rowsOf db.tables p := (congrArg Life.rows hlife).symm
      have := ((hrev.retired_review hno).2 x (hrows ▸ hx)).1
      revert this hst
      cases x.status <;> decide
  obtain ⟨r, hr, rfl, rfl⟩ := mem_rowsOf.1 hx
  obtain ⟨tracked, hall, hmem⟩ := mapM_total hscan
  have hlisted : r ∈ env.arrange (·.id) (db.tables.transactions.filter fun r =>
      r.status ∈ [.broadcast, .replaced] ∧ (db.tables.ownerState r).any (· ∈ [.expired, .failed]) ∧
        r.rawTransactionHash.isSome ∧ r.rawTransaction.isSome) := by
    rw [DbEnv.mem_arrange, List.mem_filter]
    refine ⟨hr, decide_eq_true ⟨hst, ?_, Option.isSome_iff_exists.2 ⟨h, hh⟩, hraw⟩⟩
    rcases hstate with hs | hs
    · rw [show db.tables.ownerState r = some .expired from hs]
      rfl
    · rw [show db.tables.ownerState r = some .failed from hs]
      rfl
  obtain ⟨y, hy, hyr⟩ := hmem r hlisted
  rw [show r.txHash = some ("0x" ++ h) from htx] at hyr
  cases hyr
  exact ⟨tracked, congrArg Prod.fst (Txn.run_query hall), _, hy, rfl, rfl⟩

/-- A signature that is watched at some point of the run is pending however it goes on. -/
theorem pending_later {run : Run lib cfg} {p : Nat} {h : String}
    (hw : OnWatch h (rowsOf (reach lib cfg run).shared.db.tables p)) (more : Run lib cfg) :
    Retired (lifeOf (reach lib cfg (run ++ more)).shared.db.tables p) ∧
      Pending h (lifeOf (reach lib cfg (run ++ more)).shared.db.tables p) := by
  have hstart : Retired (lifeOf (reach lib cfg run).shared.db.tables p) ∧
      Pending h (lifeOf (reach lib cfg run).shared.db.tables p) := by
    obtain ⟨r, hr, -, -, hraw⟩ := id hw
    exact ⟨((reach_inv run).shape p).of_raw hr (Option.isSome_iff_ne_none.1 hraw), .inr hw⟩
  exact lives_later (L := fun l => Retired l ∧ Pending h l)
    (fun k l l' m _ hshape h => ⟨h.1.move m hshape, h.2.move m hshape h.1⟩) hstart more

theorem pending_of_sent {run : Run lib cfg} {past rest : List (Nat × Ev)} {pid : Nat} {sending : Sending}
    {text : String}
    {answer : Resp (.sendRawTransaction sending text)}
    (hl : (reach lib cfg run).log = past ++ (pid, ⟨.sendRawTransaction sending text, answer⟩) :: rest)
    (hsite : sending.site ∈ fillerSites) :
    ∃ raw, text = "0x" ++ hexEncode raw ∧
      Retired (lifeOf (reach lib cfg run).shared.db.tables sending.paymentId) ∧
      Pending (rawHashOf lib raw) (lifeOf (reach lib cfg run).shared.db.tables sending.paymentId) := by
  obtain ⟨before, env, after, e, rfl, rfl, hj, -⟩ := called_at hl
  obtain ⟨raw, htext, hmay, -⟩ := hj
  refine ⟨raw, htext, ?_⟩
  have hi := reach_inv before
  unfold MaySend at hmay
  split at hmay
  · rename_i hs; rw [hs] at hsite; simp [fillerSites] at hsite
  · rename_i hs; rw [hs] at hsite; simp [fillerSites] at hsite
  · rename_i hs; rw [hs] at hsite; simp [fillerSites] at hsite
  · -- the prepared row is the one listed, so it is one of the payment sent for
    obtain ⟨⟨work, ⟨c, signer, works, -, hlist, hw⟩, hwp, hwt⟩, txHash, n, m, f, hev⟩ := hmay
    obtain ⟨l₁, l₂, hl'⟩ := List.append_of_mem (mem_own.1 hev)
    obtain ⟨first, env', rest', -, rfl, -, -, hrun, -⟩ := stored_at hl'
    obtain ⟨p, hrow, hwatch⟩ := markGapFillerPrepared_onWatch (run_ok hrun)
    have hrow₁ : Stands (reach lib cfg first).shared.db (.row p sending.transactionId) := hrow
    obtain ⟨x, hx, hxid⟩ := hrow₁.later (.run pid env' :: rest')
    obtain ⟨y, hy, hyid⟩ := hi.stands hlist (.gap signer _ works work hw)
    obtain ⟨hp, -⟩ := rowsOf_id _ hx hy (hxid.trans (hwt.symm.trans hyid.symm))
    rw [← hwp, ← hp]
    have hpend := pending_later hwatch (rest' ++ .run pid env :: after)
    simpa using hpend
  · obtain ⟨r, hev, hraw⟩ := hmay
    obtain ⟨l₁, l₂, hl'⟩ := List.append_of_mem (mem_own.1 hev)
    obtain ⟨first, env', rest', -, rfl, -, -, hrun, -⟩ := stored_at hl'
    have hwatch := markGapFillerReplaced_onWatch (run_ok hrun)
    rw [hraw] at hwatch
    have hpend := pending_later hwatch (rest' ++ .run pid env :: after)
    simpa using hpend
  · obtain ⟨t, ⟨tracked, hev, ht⟩, htp, -, rfl⟩ := hmay
    obtain ⟨l₁, l₂, hl'⟩ := List.append_of_mem (mem_own.1 hev)
    obtain ⟨first, env', rest', -, rfl, -, -, hrun, -⟩ := stored_at hl'
    obtain ⟨r, hr⟩ := listGapFillers_row (run_ok hrun) ht
    have hmem : r.row ∈ rowsOf (reach lib cfg first).shared.db.tables t.paymentId :=
      mem_rowsOf.2 ⟨r, hr.mem, hr.paymentId, rfl⟩
    have hshape := (reach_inv first).shape t.paymentId
    have hbytes : r.row.raw = some t.rawTransaction := hr.raw
    have hret := hshape.of_raw hmem (by rw [hbytes]; simp)
    obtain ⟨h, hh, -, hhash⟩ := (hshape.retired hret r.row hmem).2.recorded (by
      intro hd
      have hst := hr.status
      rw [show r.status = .dropped from hd] at hst
      simp at hst)
    have hwatch : OnWatch (rawHashOf lib t.rawTransaction)
      (rowsOf (reach lib cfg first).shared.db.tables t.paymentId) :=
      ⟨r.row, hmem, by rw [hh, hhash _ hbytes], hr.status, by rw [hbytes]; rfl⟩
    rw [htp] at hwatch
    have hpend := pending_later hwatch (.run pid env' :: rest' ++ .run pid env :: after)
    simpa using hpend

/-! ## What the record says about the chain -/

/-- The row `id` of payment `p` was recorded as mined on a receipt whose block was deep enough, includes the transaction
and is canonical ever after. -/
def ConsumedOnChain (chain : Chain) (cfg : Settlement.Config) (log : List (Nat × Ev)) (p id : Nat) : Prop :=
  ∃ past pid x receipt, FillerReceipt log past pid x receipt ∧ x.paymentId = p ∧ x.transactionId = id ∧
    chain.Deep cfg past.length receipt ∧ chain.includes receipt.blockHash x.txHash ∧
    ∀ m, past.length ≤ m → chain.canonical m receipt.blockNumber = some receipt.blockHash

/-- What the record of the fillers promises: a row is recorded as mined for a nonce that is consumed on the final chain,
and until one is, every signature that was sent is listed. -/
structure FillersKept (chain : Chain) (lib : Libraries) (cfg : Settlement.Config) (s : Shared) (log : List (Nat × Ev)) :
    Prop where
  mined : ∀ p, Retired (lifeOf s.db.tables p) → ∀ r ∈ rowsOf s.db.tables p, r.status ∈ minedStatuses →
    ConsumedOnChain chain cfg log p r.id
  sent : ∀ pid sending text answer, (pid, (⟨.sendRawTransaction sending text, answer⟩ : Ev)) ∈ log →
    sending.site ∈ fillerSites → ∃ raw, text = "0x" ++ hexEncode raw ∧
      (Main minedStatuses (rowsOf s.db.tables sending.paymentId) ∨
        FillerListed s.db sending.paymentId ("0x" ++ rawHashOf lib raw))

/-- In every run in which the receipts of listed fillers are of canonical blocks deep enough when they are read. -/
theorem fillers_kept (chain : Chain) (hfinal : chain.Final cfg) (run : Run lib cfg)
    (hserves : chain.Serves (reach lib cfg run).log) (hdeep : ReceiptsDeep chain cfg (reach lib cfg run).log) :
    FillersKept chain lib cfg (reach lib cfg run).shared (reach lib cfg run).log := by
  constructor
  · intro p hret r hr hst
    obtain ⟨past, pid, x, receipt, hread, hp, hid⟩ := reach_minedReceipted run p hret r hr hst
    have hd := hdeep past pid x receipt hread
    refine ⟨past, pid, x, receipt, hread, hp, hid, hd, ?_, hfinal _ _ hd⟩
    obtain ⟨rest, hlog⟩ := hread.read
    apply hserves pid x.txHash receipt
    rw [hlog]
    simp
  · intro pid sending text answer hmem hsite
    obtain ⟨past, rest, hl⟩ := List.append_of_mem hmem
    obtain ⟨raw, htext, hret, hmined | hwatch⟩ := pending_of_sent hl hsite
    · exact ⟨raw, htext, .inl hmined⟩
    · exact ⟨raw, htext, .inr (listed_of_onWatch (reach_inv run).shape hret hwatch)⟩

/-! ### A filler in a deep block, and in the newest one -/

/-- Every receipt of the log is of the block `hash` at height `n`. -/
def receiptsAt (n : Nat) (hash : String) (log : List (Nat × Ev)) : Bool :=
  log.all fun x => match x.2 with
    | ⟨.transactionReceipt _, .ok (some receipt)⟩ => receipt.blockNumber = n ∧ receipt.blockHash = hash
    | _ => true

theorem FillerReceipt.at_height {log past : List (Nat × Ev)} {pid n : Nat} {hash : String} {x : TrackedTransaction}
    {receipt : Receipt} (h : FillerReceipt log past pid x receipt) (hat : receiptsAt n hash log = true) :
    receipt.blockNumber = n ∧ receipt.blockHash = hash := by
  obtain ⟨rest, hlog⟩ := h.read
  have hmem : (pid, (⟨.transactionReceipt x.txHash, .ok (some receipt)⟩ : Ev)) ∈ log := by
    rw [hlog]
    simp
  exact of_decide_eq_true (List.all_eq_true.1 hat _ hmem)

/-- The chain has ten blocks, and the newest is replaced after `n` calls. -/
def forkingChain (n : Nat) : Chain where
  canonical m height := if height = 10 ∧ n < m then some "0xf04c" else some "0xb10c"
  head _ := 10
  includes _ _ := True

theorem forkingChain_final (n : Nat) : (forkingChain n).Final sampleConfig := by
  rintro m receipt ⟨hcanonical, hdepth⟩ m' -
  have hne : receipt.blockNumber ≠ 10 := by
    intro hten
    rw [hten] at hdepth
    exact absurd hdepth (show ¬ sampleConfig.confirmations ≤ depthAt 10 10 by decide)
  simp only [forkingChain, hne, false_and, if_false] at hcanonical ⊢
  exact hcanonical

/-- Recovery fills the gap of payment `10` and finds the filler reverted, in the block at height `n`. -/
def sampleReverted (n : Nat) : Run sampleLib sampleConfig :=
  sampleFilled ++ calls 7 5 ((late 15).mined "0x0307" n 0)

/-- What such a run comes to, by carrying it out. -/
structure RevertedAt (n : Nat) : Prop where
  receipts : receiptsAt n "0xb10c" (reach sampleLib sampleConfig (sampleReverted n)).log = true
  retired : Retired (lifeOf (reach sampleLib sampleConfig (sampleReverted n)).shared.db.tables 10)
  reverted : ∃ r ∈ rowsOf (reach sampleLib sampleConfig (sampleReverted n)).shared.db.tables 10, r.status = .reverted

theorem retired_of_failed {t : Tables} {p : Nat} (h : stateOf p t = some .failed) :
    Retired (lifeOf t p) := .inr (.inl h)

theorem sampleReverted_run : RevertedAt 5 ∧ RevertedAt 10 := by
  have hrun : ∀ n ∈ [5, 10], (receiptsAt n "0xb10c" (reach sampleLib sampleConfig (sampleReverted n)).log &&
      (decide (stateOf 10 (reach sampleLib sampleConfig (sampleReverted n)).shared.db.tables = some .failed) &&
        (rowsOf (reach sampleLib sampleConfig (sampleReverted n)).shared.db.tables 10).any fun r =>
          r.status = .reverted)) =
        true := by
    decide +kernel
  have hat : ∀ n ∈ [5, 10], RevertedAt n := by
    intro n hn
    obtain ⟨hreceipts, hrest⟩ := Bool.and_eq_true_iff.1 (hrun n hn)
    obtain ⟨hstate, hrow⟩ := Bool.and_eq_true_iff.1 hrest
    obtain ⟨r, hr, hst⟩ := List.any_eq_true.1 hrow
    exact ⟨hreceipts, retired_of_failed (of_decide_eq_true hstate), r, hr, of_decide_eq_true hst⟩
  exact ⟨hat 5 (by simp), hat 10 (by simp)⟩

theorem forkingChain_serves (n : Nat) (log : List (Nat × Ev)) : (forkingChain n).Serves log := fun _ _ _ _ => trivial

/-- A filler that reverted six blocks deep, on a chain whose newest block is not final. -/
theorem fillers_kept_sample :
    (∃ r ∈ rowsOf (reach sampleLib sampleConfig (sampleReverted 5)).shared.db.tables 10, r.status = .reverted) ∧
      FillersKept (forkingChain 0) sampleLib sampleConfig (reach sampleLib sampleConfig (sampleReverted 5)).shared
        (reach sampleLib sampleConfig (sampleReverted 5)).log := by
  have hrun := sampleReverted_run.1
  refine ⟨hrun.reverted, fillers_kept (forkingChain 0) (forkingChain_final 0) _ (forkingChain_serves 0 _) ?_⟩
  intro past pid x receipt h
  obtain ⟨hn, hhash⟩ := h.at_height hrun.receipts
  constructor
  · rw [hn, hhash]
    rfl
  · rw [hn]
    exact show sampleConfig.confirmations ≤ depthAt 10 5 by decide

/-- A filler that reverted in the newest block is recorded as mined, and then the block is replaced. -/
theorem shallow_filler_retired :
    (forkingChain (reach sampleLib sampleConfig (sampleReverted 10)).log.length).Final sampleConfig ∧
      (forkingChain (reach sampleLib sampleConfig (sampleReverted 10)).log.length).Serves
        (reach sampleLib sampleConfig (sampleReverted 10)).log ∧
      ¬ FillersKept (forkingChain (reach sampleLib sampleConfig (sampleReverted 10)).log.length) sampleLib sampleConfig
        (reach sampleLib sampleConfig (sampleReverted 10)).shared
          (reach sampleLib sampleConfig (sampleReverted 10)).log := by
  have hrun := sampleReverted_run.2
  refine ⟨forkingChain_final _, forkingChain_serves _ _, fun hkept => ?_⟩
  obtain ⟨r, hr, hst⟩ := hrun.reverted
  obtain ⟨past, pid, x, receipt, hread, -, -, hdeep, -⟩ :=
    hkept.mined 10 hrun.retired r hr (by rw [hst]; simp [minedStatuses])
  obtain ⟨hn, -⟩ := hread.at_height hrun.receipts
  have hdepth := hdeep.depth
  rw [hn] at hdepth
  exact absurd hdepth (show ¬ sampleConfig.confirmations ≤ depthAt 10 10 by decide)

end Eth402.System
