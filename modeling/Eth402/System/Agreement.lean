/-
What each provider vouches for. The service reads the chain through the client of `Ethereum/Rpc`, so an outcome it
records as final, and a revert it retires an intent on, are things that every configured provider returned itself. Of
the other providers nothing is assumed: what they do may change with every step of a run (`World`).
-/
import Eth402.Ethereum.Rpc
import Eth402.System.Finality

namespace Eth402.System

open Lib Store Settlement Verification Ethereum

variable {lib : Libraries} {cfg : Settlement.Config} {w : Wire} {c : Client}

/-! ## Reads through the client -/

/-- What the providers do at each step of a run. -/
abbrev World (c : Client) := Nat → Providers c

/-- The chain of the environment is the client over these providers: a read succeeds when the client's does and with its
value, and a simulation is reported reverted when the client's call is. -/
structure Speaks (w : Wire) (c : Client) (providers : Providers c) (env : StepEnv) : Prop where
  receipt : ∀ h, Except.toOption (env.answer (.transactionReceipt h)) = (c.transactionReceipt w providers h).toOption
  block : ∀ number, Except.toOption (env.answer (.blockByNumber number)) =
    (c.blockByNumber w providers number).toOption.map ChainBlock.block
  head : Except.toOption (env.answer .blockNumber) = (c.blockNumber w providers).toOption
  simulate : ∀ source data, carries .simulationReverted (env.answer (.simulate source data)) = true ↔
    ∃ message, c.call w providers source mainnetUSDC data = .error (.reverted message)

/-- Every step of the run reads the chain through the client. -/
def Served (w : Wire) (world : World c) (run : Run lib cfg) : Prop :=
  ∀ before pid env rest, run = before ++ .run pid env :: rest → Speaks w c (world before.length) env

/-! ## What a provider returned -/

/-- Before step `n` the provider `i` returned the receipt of the transaction, a canonical block of its height with the
hash of its block, and a head that makes it deep enough. -/
structure Vouched (w : Wire) (confirmations : Nat) (world : World c) (i : Fin c.providerURLs.length) (n : Nat)
    (txHash : String) (receipt : Receipt) : Prop where
  read : ∃ k < n, ∃ requested raw, normalizeHash "requested transaction hash" txHash = .ok requested ∧
    Returned w (world k) i (receiptRequest requested) raw ∧ decodeReceipt w requested raw = .ok (some receipt)
  canonical : ∃ k < n, ∃ raw block, Returned w (world k) i (blockRequest (some receipt.blockNumber)) raw ∧
    decodeBlock w (some receipt.blockNumber) (blockTag (some receipt.blockNumber)) raw = .ok block ∧
    block.hash = receipt.blockHash
  head : ∃ k < n, ∃ raw head, Returned w (world k) i blockNumberRequest raw ∧ decodeHexUintResult w raw = .ok head ∧
    receipt.blockNumber + confirmations ≤ head + 1

/-- Before step `n` the provider `i` returned a revert of the call. -/
def RevertVouched (w : Wire) (world : World c) (i : Fin c.providerURLs.length) (n : Nat) (source : String)
    (data : Bytes) :
    Prop :=
  ∃ k < n, ∃ e, ReturnedError w (world k) i (callRequest source mainnetUSDC data) e ∧ e.reverted w = true

/-- The outcome that process `pid` is about to record for the row `t` rests on what the provider `i` returned: for the
hash the process loaded for the row or, in the waiting request, was given for it. -/
def OutcomeVouched (w : Wire) (world : World c) (i : Fin c.providerURLs.length) (before : Run lib cfg) (pid p t : Nat)
    (actor : String) (receipt : Receipt) : Prop :=
  ∃ txHash, Vouched w cfg.confirmations world i before.length txHash receipt ∧
    ((actor = waitActor ∧ Given (own pid (reach lib cfg before).log) p t txHash) ∨
      LoadedHash (own pid (reach lib cfg before).log) p t txHash)

/-- What the provider `i` has returned when process `pid` makes a call that ends a payment. -/
def CallVouched (w : Wire) (world : World c) (i : Fin c.providerURLs.length) (before : Run lib cfg) (pid : Nat) :
    Call → Prop
  | .store (.markTxConfirmed p t number hash gasUsed gasPrice actor) =>
    ∃ receipt, OutcomeVouched w world i before pid p t actor receipt ∧ receipt.status = 1 ∧
      receipt.blockNumber = number ∧ receipt.blockHash = hash ∧ receipt.gasUsed = gasUsed ∧
      receipt.effectiveGasPrice = gasPrice
  | .store (.markTxReverted p t gasUsed gasPrice actor) =>
    ∃ receipt, OutcomeVouched w world i before pid p t actor receipt ∧ receipt.status = 0 ∧
      receipt.gasUsed = gasUsed ∧ receipt.effectiveGasPrice = gasPrice
  | .store (.markIntentUnsettleable p t _) =>
    ∃ p' work calldata, Loaded (own pid (reach lib cfg before).log) p' work ∧ work.paymentId = p ∧
      work.transactionId = t ∧ Settlement.transferWithAuthorizationData lib work.authorization = .ok calldata ∧
      RevertVouched w world i before.length work.signerAddress calldata
  | _ => True

/-! ## From the log to the providers -/

section Reads

variable {world : World c} {run : Run lib cfg} {pid : Nat}

/-- What a process was answered by the chain came from the environment of an earlier step. -/
theorem answered_at (hserved : Served w world run) {ev : Ev} (hev : ev ∈ own pid (reach lib cfg run).log)
    (hchain : ∀ s env, (perform s env ev.call).1 = env.answer ev.call) :
    ∃ k < run.length, ∃ env, Speaks w c (world k) env ∧ env.answer ev.call = ev.answer := by
  obtain ⟨l₁, l₂, hlog⟩ := List.append_of_mem (mem_own.1 hev)
  obtain ⟨before, env, rest, e, hrun, -, -, hans, -⟩ := called_at hlog
  refine ⟨before.length, ?_, env, hserved before pid env rest hrun, (hchain _ _).symm.trans hans⟩
  rw [hrun]
  simp

/-- Each of the three reads behind a final outcome was answered by every provider. -/
theorem Vouched.of_seenFinal (hserved : Served w world run) {txHash : String} {receipt : Receipt}
    (h : SeenFinal cfg (own pid (reach lib cfg run).log) txHash receipt) (i : Fin c.providerURLs.length) :
    receipt.status ≤ 1 ∧ Vouched w cfg.confirmations world i run.length txHash receipt := by
  obtain ⟨hread, ⟨block, hblock, hcanon⟩, current, hhead, hdepth⟩ := h
  obtain ⟨k₁, hk₁, env₁, hspeak₁, hans₁⟩ := answered_at hserved hread fun _ _ => rfl
  obtain ⟨k₂, hk₂, env₂, hspeak₂, hans₂⟩ := answered_at hserved hblock fun _ _ => rfl
  obtain ⟨k₃, hk₃, env₃, hspeak₃, hans₃⟩ := answered_at hserved hhead fun _ _ => rfl
  have hreceipt := hspeak₁.receipt txHash
  rw [hans₁] at hreceipt
  obtain ⟨requested, raw, hnorm, hret, hdec⟩ := transactionReceipt_returned (toOption_ok.1 hreceipt.symm) i
  obtain ⟨hstatus, hlower⟩ := decodeReceipt_some hdec
  refine ⟨hstatus, ⟨k₁, hk₁, requested, raw, hnorm, hret, hdec⟩, ⟨k₂, hk₂, ?_⟩, k₃, hk₃, ?_⟩
  · have hb := hspeak₂.block (some receipt.blockNumber)
    rw [hans₂] at hb
    obtain ⟨b, hread, rfl⟩ := Option.map_eq_some_iff.1 hb.symm
    obtain ⟨raw, hret, hdec⟩ := blockByNumber_returned (toOption_ok.1 hread) i
    -- both hashes are in lower case, so that they fold together only when they are equal
    have hfold : lower b.hash = lower receipt.blockHash := of_decide_eq_true hcanon
    rw [decodeBlock_lower hdec, hlower] at hfold
    exact ⟨raw, b, hret, hdec, hfold⟩
  · have hh := hspeak₃.head
    rw [hans₃] at hh
    obtain ⟨raw, head, hret, hdec, hle⟩ := blockNumber_returned (toOption_ok.1 hh.symm) i
    have hdeep := deep_of_depthAt hdepth
    exact ⟨raw, head, hret, hdec, by omega⟩

theorem outcomeVouched_of_mayFinalize (hserved : Served w world run) {p t : Nat} {actor : String} {receipt : Receipt}
    (h : MayFinalize cfg (own pid (reach lib cfg run).log) p t actor receipt) (i : Fin c.providerURLs.length) :
    receipt.status ≤ 1 ∧ OutcomeVouched w world i run pid p t actor receipt := by
  obtain ⟨txHash, hseen, hwho⟩ := h
  obtain ⟨hstatus, hv⟩ := Vouched.of_seenFinal hserved hseen i
  exact ⟨hstatus, txHash, hv, hwho⟩

theorem RevertVouched.of_simulated (hserved : Served w world run) {source : String} {data : Bytes} {err : Err}
    (hev : (⟨.simulate source data, .error err⟩ : Ev) ∈ own pid (reach lib cfg run).log)
    (hrev : err.is .simulationReverted = true) (i : Fin c.providerURLs.length) :
    RevertVouched w world i run.length source data := by
  obtain ⟨k, hk, env, hspeak, hans⟩ := answered_at hserved hev fun _ _ => rfl
  have hcarries : carries .simulationReverted (env.answer (.simulate source data)) = true := by
    rw [hans]
    exact hrev
  obtain ⟨message, hcall⟩ := (hspeak.simulate source data).1 hcarries
  exact ⟨k, hk, call_returned hcall i⟩

/-- An allowed call that ends a payment is vouched for by every provider. -/
theorem callVouched_of_allowed (hserved : Served w world run) {e : Entry} {q : Call}
    (hj : Allowed lib cfg e (own pid (reach lib cfg run).log) q) (i : Fin c.providerURLs.length) :
    CallVouched w world i run pid q := by
  unfold CallVouched
  split
  · obtain ⟨receipt, hmay, rfl, rfl, rfl, rfl, hstatus⟩ := hj
    obtain ⟨hle, hv⟩ := outcomeVouched_of_mayFinalize hserved hmay i
    exact ⟨receipt, hv, by omega, rfl, rfl, rfl, rfl⟩
  · obtain ⟨receipt, hmay, rfl, rfl, hstatus⟩ := hj
    exact ⟨receipt, (outcomeVouched_of_mayFinalize hserved hmay i).2, hstatus, rfl, rfl⟩
  · obtain ⟨p', work, calldata, err, hload, hp, ht, hdata, hrev, hlast⟩ := hj
    exact ⟨p', work, calldata, hload, hp, ht, hdata,
      .of_simulated hserved (List.mem_of_getLast? hlast) hrev i⟩
  · trivial

end Reads

theorem Served.before {world : World c} {before rest : Run lib cfg} (h : Served w world (before ++ rest)) :
    Served w world before := by
  rintro before' pid env rest' rfl
  exact h before' pid env (rest' ++ rest) (by simp)

theorem mem_providerURLs {url : String} (htwo : c.fallback ≠ "" ∧ c.fallback ≠ c.url)
    (hurl : url = c.url ∨ url = c.fallback) : url ∈ c.providerURLs := by
  unfold Client.providerURLs
  rw [if_pos htwo]
  simpa using hurl

/-- With two providers, of which nothing is assumed: whenever a process records a payment as confirmed or reverted, or
retires an intent as unsettleable, each one of them returned the receipt with that status and block, the canonical block
of its height with that hash, and a head deep enough; and a revert of exactly the call of the intent. -/
theorem outcomes_vouched (lib : Libraries) (cfg : Settlement.Config) (w : Wire) (c : Client)
    (htwo : c.fallback ≠ "" ∧ c.fallback ≠ c.url) (honest : String) (hhonest : honest = c.url ∨ honest = c.fallback)
    (world : World c) (run : Run lib cfg) (hserved : Served w world run) :
    ∃ i, c.providerURLs.get i = honest ∧
      ∀ (before rest : Run lib cfg) ch, run = before ++ ch :: rest → ∀ pid q, Makes (reach lib cfg before) ch pid q →
        CallVouched w world i before pid q := by
  obtain ⟨i, hi⟩ := List.get_of_mem (mem_providerURLs htwo hhonest)
  refine ⟨i, hi, ?_⟩
  rintro before rest ch rfl pid q ⟨env, e, k, -, hproc⟩
  have hj := ((kept_reach before).wp pid e _ hproc).1
  exact callVouched_of_allowed hserved.before hj i

/-! ## An environment that reads through the client -/

/-- The environment with its chain replaced by the client over these providers. -/
def StepEnv.through (env : StepEnv) (w : Wire) (c : Client) (providers : Providers c) : StepEnv where
  db := env.db
  fault := env.fault
  answer
    | .transactionReceipt h => (c.transactionReceipt w providers h).mapError fun _ => .text "no receipt"
    | .blockByNumber number => ((c.blockByNumber w providers number).map ChainBlock.block).mapError fun _ =>
      .text "no block"
    | .blockNumber => (c.blockNumber w providers).mapError fun _ => .text "no head"
    | .simulate source data => (c.call w providers source mainnetUSDC data).mapError fun
      | .reverted _ => .sentinel .simulationReverted
      | .unavailable _ => .text "no simulation"
    | q => env.answer q
  foreign q s h := by
    cases q with
    | transactionReceipt t =>
      change carries s ((c.transactionReceipt w providers t).mapError _) = true at h
      cases hr : c.transactionReceipt w providers t <;> rw [hr] at h <;> cases h
    | blockByNumber number =>
      change carries s (((c.blockByNumber w providers number).map ChainBlock.block).mapError _) = true at h
      cases hr : c.blockByNumber w providers number <;> rw [hr] at h <;> cases h
    | blockNumber =>
      change carries s ((c.blockNumber w providers).mapError _) = true at h
      cases hr : c.blockNumber w providers <;> rw [hr] at h <;> cases h
    | simulate source data =>
      change carries s ((c.call w providers source mainnetUSDC data).mapError _) = true at h
      cases hr : c.call w providers source mainnetUSDC data with
      | ok u =>
        rw [hr] at h
        cases h
      | error e =>
        rw [hr] at h
        cases e with
        | reverted message => exact (of_decide_eq_true h).symm
        | unavailable e => cases h
    | _ => exact env.foreign _ s h

theorem toOption_mapError {ε ε' α : Type} (f : ε → ε') (r : Except ε α) : (r.mapError f).toOption = r.toOption := by
  cases r <;> rfl

theorem StepEnv.through_speaks (env : StepEnv) (providers : Providers c) :
    Speaks w c providers (env.through w c providers) where
  receipt h := toOption_mapError _ (c.transactionReceipt w providers h)
  block number := by
    refine (toOption_mapError _ ((c.blockByNumber w providers number).map ChainBlock.block)).trans ?_
    cases c.blockByNumber w providers number <;> rfl
  head := toOption_mapError _ (c.blockNumber w providers)
  simulate source data := by
    change carries .simulationReverted ((c.call w providers source mainnetUSDC data).mapError _) = true ↔ _
    cases hr : c.call w providers source mainnetUSDC data with
    | ok u => simp [Except.mapError, carries]
    | error e =>
      cases e with
      | reverted message | unavailable e => simp [Except.mapError, carries, Err.is]

/-- The same providers at every step. -/
theorem served_of_forall {providers : Providers c} {run : Run lib cfg}
    (h : ∀ ch ∈ run, ∀ pid env, ch = .run pid env → Speaks w c providers env) : Served w (fun _ => providers) run := by
  rintro before pid env rest rfl
  exact h _ (by simp) pid env rfl

/-! ## A run with two providers -/

def sampleClient : Client := ⟨"primary", "fallback", 1⟩

/-- A wire on which every text is its own encoding; all receipts are in the block at height 5. -/
def sampleWire : Wire where
  toLower := lower
  text raw := some raw
  number raw := if raw = "1" then some 1 else none
  response body := .ok ⟨"1", body, if body = "revert" then some ⟨3, "execution reverted"⟩ else none⟩
  receipt raw := .ok ⟨raw, "0x1", "0x5", hexText 64 'b', "0x1", "0x1"⟩
  block raw := .ok ⟨hexText 64 'b', raw, "0x3"⟩

def sampleBody (request : RpcRequest) : Raw :=
  match request.params with
  | .text s :: _ => s
  | [] => "0xa"
  | _ => "0x"

/-- The fallback times out once on every request, and is heard of first. -/
def sampleProviders : Providers sampleClient := fun request =>
  ⟨fun i k => if i.val = 1 ∧ k = 0 then ⟨1, .transport .timedOut, false⟩ else ⟨1, .answered 200 (sampleBody request),
    false⟩,
    [⟨1, by decide⟩, ⟨0, by decide⟩], by decide, none⟩

/-- A signer whose transactions are as long as their hash. -/
def StepEnv.padded (env : StepEnv) : StepEnv where
  db := env.db
  fault := env.fault
  answer
    | .signTransaction tx _ => .ok ⟨List.replicate 30 0 ++ (scriptedSignature tx).raw, List.replicate 32 0⟩
    | q => env.answer q
  foreign q s h := by
    cases q with
    | signTransaction tx authorization => cases h
    | _ => exact env.foreign _ s h

def servedChoice (pid id : Nat) : SampleChoice :=
  .run pid ((calm id).env.padded.through sampleWire sampleClient sampleProviders)

def served (n pid id : Nat) : SampleRun := List.replicate n (servedChoice pid id)

/-- A payment is verified, settled and broadcast, and a confirmation worker has read all it needs. -/
def sampleAgreed : SampleRun :=
  [.outside (Move.setMerchants [⟨1, sampleMerchant, .active, 0⟩]), tick 20, enter (.seedSigner sampleSigner 3)] ++
    served 1 0 0 ++ [enter (.verify (sampleRequest 'a'))] ++ served 4 1 10 ++
    [enter (.settle (sampleRequest 'a') 0)] ++ served 13 2 11 ++
    [enter (.confirmationTick "worker")] ++ served 9 3 12

/-- Process `pid` is about to record the payment as confirmed in the block of height `number`. -/
def confirmsNext (run : SampleRun) (pid p t number : Nat) (hash : String) : Bool :=
  match (reach sampleLib sampleConfig run).procs[pid]? with
  | some ⟨_, some (.call (.store (.markTxConfirmed p' t' number' hash' ..)) _)⟩ =>
    p' = p ∧ t' = t ∧ number' = number ∧ hash' = hash
  | _ => false

theorem makes_of_confirmsNext {run : SampleRun} {pid p t number : Nat} {hash : String}
    (h : confirmsNext run pid p t number hash = true) (env : StepEnv) :
    ∃ gasUsed gasPrice actor, Makes (reach sampleLib sampleConfig run) (.run pid env) pid
      (.store (.markTxConfirmed p t number hash gasUsed gasPrice actor)) := by
  unfold confirmsNext at h
  split at h
  · rename_i e p' t' number' hash' gasUsed gasPrice actor k hproc
    obtain ⟨rfl, rfl, rfl, rfl⟩ := of_decide_eq_true h
    exact ⟨gasUsed, gasPrice, actor, env, e, k, rfl, hproc⟩
  · cases h

theorem sampleAgreed_served : Served sampleWire (fun _ => sampleProviders) (sampleAgreed ++ [servedChoice 3 12]) := by
  refine served_of_forall fun ch hch pid env heq => ?_
  subst heq
  simp only [sampleAgreed, served, enter, tick, servedChoice, List.mem_append, List.mem_cons, List.mem_replicate,
    List.not_mem_nil, or_false, reduceCtorEq, false_or] at hch
  rcases hch with ((((⟨-, h⟩ | ⟨-, h⟩) | ⟨-, h⟩) | ⟨-, h⟩) | h)
  all_goals
    cases h
    exact StepEnv.through_speaks _ _

theorem sampleAgreed_next : confirmsNext sampleAgreed 3 10 11 5 (hexText 64 'b') = true := by decide +kernel

/-- The worker confirms the payment on what the fallback returned too. -/
theorem outcomes_vouched_sample : ∃ i, sampleClient.providerURLs.get i = "fallback" ∧ ∃ actor receipt,
    OutcomeVouched sampleWire (fun _ => sampleProviders) i sampleAgreed 3 10 11 actor receipt ∧ receipt.status = 1 ∧
      receipt.blockNumber = 5 ∧ receipt.blockHash = hexText 64 'b' := by
  obtain ⟨i, hi, hall⟩ := outcomes_vouched sampleLib sampleConfig sampleWire sampleClient (by decide) "fallback"
    (by decide)
    (fun _ => sampleProviders) (sampleAgreed ++ [servedChoice 3 12]) sampleAgreed_served
  obtain ⟨gasUsed, gasPrice, actor, hmakes⟩ := makes_of_confirmsNext sampleAgreed_next
    ((calm 12).env.padded.through sampleWire sampleClient sampleProviders)
  obtain ⟨receipt, hv, hstatus, hnumber, hhash, -⟩ := hall sampleAgreed [] (servedChoice 3 12) rfl 3 _ hmakes
  exact ⟨i, hi, actor, receipt, hv, hstatus, hnumber, hhash⟩

end Eth402.System
