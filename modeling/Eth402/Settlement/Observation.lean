/-
The finality rule is written twice, in `Confirmation` (internal/settlement/service.go), which records what it finds, and
in `observeSettlement` (internal/settlement/wait.go), which reports it. On the same answers of the chain they agree, for
every payment whose transaction has a hash.
-/
import Eth402.Settlement.Service

namespace Eth402.Settlement

open Lib Store

variable {cfg : Config} {paymentId : Nat} {actor : String} {work : Work}

/-! ## A program under fixed answers -/

/-- What the program returns when its calls are answered so, and the calls it makes. -/
def record {α : Type} (answer : (c : Call) → Resp c) (program : P α) : List Call → α × List Call :=
  program.run fun made c => (answer c, made ++ [c])

/-- A step that makes the call `c` and returns `a` is followed by the rest on `a`. -/
theorem record_bind {α β : Type} {answer : (c : Call) → Resp c} {p : P α} {c : Call} {a : α}
    (hp : ∀ made, record answer p made = (a, made ++ [c])) (f : α → P β) (made : List Call) :
    record answer (p >>= f) made = record answer (f a) (made ++ [c]) := by
  have hrun := Prog.run_bind (h := fun made c => (answer c, made ++ [c])) f p made
  rw [show p.run (fun made c => (answer c, made ++ [c])) made = (a, made ++ [c]) from hp made] at hrun
  exact hrun

/-- The calls of the store among these. -/
def storeCalls (made : List Call) : List Op :=
  made.filterMap fun
    | .store op => some op
    | _ => none

/-- A final outcome with what its receipt says. -/
def confirms (paymentId : Nat) (work : Work) (actor : String) (receipt : Receipt) : Op :=
  .markTxConfirmed paymentId work.transactionId receipt.blockNumber receipt.blockHash receipt.gasUsed
    receipt.effectiveGasPrice actor

def reverts (paymentId : Nat) (work : Work) (actor : String) (receipt : Receipt) : Op :=
  .markTxReverted paymentId work.transactionId receipt.gasUsed receipt.effectiveGasPrice actor

/-- What `Confirmation` writes for what it saw. -/
inductive Marks (paymentId : Nat) (work : Work) (actor : String) : Except Err Observation → List Op → Prop
  | confirmed (receipt : Receipt) : Marks paymentId work actor (.ok (.confirmed receipt))
    [confirms paymentId work actor receipt]
  | reverted (receipt : Receipt) : Marks paymentId work actor (.ok (.reverted receipt))
    [reverts paymentId work actor receipt]
  | sighted (number : Nat) (hash : String) : Marks paymentId work actor (.ok .pending)
      [.markTxConfirming paymentId work.transactionId number hash actor]
  | reorged : Marks paymentId work actor (.ok .pending) [.markTxReorgedOut paymentId work.transactionId actor]
  | waited : Marks paymentId work actor (.ok .pending) []
  | failed (e : Err) : Marks paymentId work actor (.error e) []

/-- The one program writes what the other reports, wherever they start. -/
def Agree (answer : (c : Call) → Resp c) (paymentId : Nat) (work : Work) (actor : String)
    (program : P (Except Err Unit))
    (observer : P (Except Err Observation)) : Prop :=
  ∀ made seen, ∃ written, storeCalls (record answer program made).2 = storeCalls made ++ written ∧
    Marks paymentId work actor (record answer observer seen).1 written

namespace Agree

variable {answer : (c : Call) → Resp c} {program other : P (Except Err Unit)}
  {observer rival : P (Except Err Observation)}

/-- Both go on from the same answer of the chain. -/
theorem read {α : Type} {p : P α} {c : Call} (hc : storeCalls [c] = [])
    (hp : ∃ a, ∀ made, record answer p made = (a, made ++ [c])) {f : α → P (Except Err Unit)}
    {g : α → P (Except Err Observation)} (h : ∀ a, Agree answer paymentId work actor (f a) (g a)) :
    Agree answer paymentId work actor (p >>= f) (p >>= g) := by
  intro made seen
  obtain ⟨a, ha⟩ := hp
  rw [record_bind ha, record_bind ha]
  obtain ⟨written, hwritten, hmarks⟩ := h a (made ++ [c]) (seen ++ [c])
  refine ⟨written, ?_, hmarks⟩
  unfold storeCalls at hwritten hc ⊢
  rw [hwritten, List.filterMap_append, hc, List.append_nil]

theorem write {op : Op} {o : Except Err Observation} (hmarks : Marks paymentId work actor o [op])
    (hp : ∀ made, (record answer program made).2 = made ++ [.store op]) :
    Agree answer paymentId work actor program (pure o) := by
  intro made seen
  refine ⟨[op], ?_, hmarks⟩
  rw [hp]
  unfold storeCalls
  rw [List.filterMap_append]
  rfl

theorem quiet {r : Except Err Unit} {o : Except Err Observation} (hmarks : Marks paymentId work actor o []) :
    Agree answer paymentId work actor (pure r) (pure o) :=
  fun made _ => ⟨[], (List.append_nil (storeCalls made)).symm, hmarks⟩

theorem branch {c : Prop} [Decidable c] (hpos : c → Agree answer paymentId work actor program observer)
    (hneg : ¬ c → Agree answer paymentId work actor other observer) :
    Agree answer paymentId work actor (if c then program else other) observer := by
  by_cases hc : c
  · rw [if_pos hc]
    exact hpos hc
  · rw [if_neg hc]
    exact hneg hc

theorem branches {c : Prop} [Decidable c] (hpos : c → Agree answer paymentId work actor program observer)
    (hneg : ¬ c → Agree answer paymentId work actor other rival) :
    Agree answer paymentId work actor (if c then program else other) (if c then observer else rival) := by
  by_cases hc : c
  · rw [if_pos hc, if_pos hc]
    exact hpos hc
  · rw [if_neg hc, if_neg hc]
    exact hneg hc

end Agree

/-- Both read the chain in the same order, and `Confirmation` writes what the other one reports. -/
theorem confirmation_marks (answer : (c : Call) → Resp c)
    (hload : answer (.store (.loadSettlementWork paymentId)) = .ok work) (hhash : work.txHash ≠ "") :
    ∃ written, storeCalls (record answer (confirmation cfg paymentId actor) []).2 =
        .loadSettlementWork paymentId :: written ∧
      Marks paymentId work actor (record answer (observeSettlement cfg work.txHash) []).1 written := by
  have hwork : ∀ made, record answer (loadSettlementWork paymentId) made =
      (.ok work, made ++ [.store (.loadSettlementWork paymentId)]) := fun _ => Prod.ext hload rfl
  unfold confirmation observeSettlement
  rw [record_bind hwork]
  simp only [if_neg hhash]
  refine Agree.read rfl ⟨_, fun _ => rfl⟩ (fun found => ?_) [.store (.loadSettlementWork paymentId)] []
  match found with
  | .error e => exact .quiet (.failed e)
  | .ok none => exact .branch (fun _ => .write .reorged fun _ => rfl) fun _ => .quiet .waited
  | .ok (some receipt) =>
    refine .read rfl ⟨_, fun _ => rfl⟩ fun block => ?_
    match block with
    | .error e => exact .quiet (.failed e)
    | .ok canonical =>
      refine .branches (fun _ => .branch (fun _ => .write .reorged fun _ => rfl) fun _ => .quiet .waited) fun _ => ?_
      refine .read rfl ⟨_, fun _ => rfl⟩ fun head => ?_
      match head with
      | .error e => exact .quiet (.failed e)
      | .ok current =>
        refine .branches (fun _ => .write (.sighted _ _) fun _ => rfl) fun _ => .branches (fun _ => ?_) fun _ => ?_
        · exact .write (.reverted receipt) fun _ => rfl
        · exact .write (.confirmed receipt) fun _ => rfl

def isConfirmed : Op → Bool
  | .markTxConfirmed .. => true
  | _ => false

def isReverted : Op → Bool
  | .markTxReverted .. => true
  | _ => false

/-- What `Confirmation` writes is final exactly if what was seen is, with the receipt that was seen; else it is nothing,
a sighting or a reorganisation. -/
structure Recorded (paymentId : Nat) (work : Work) (actor : String) (seen : Except Err Observation)
    (written : List Op) :
    Prop where
  confirmed : ∀ op, isConfirmed op = true →
    (op ∈ written ↔ ∃ receipt, seen = .ok (.confirmed receipt) ∧ op = confirms paymentId work actor receipt)
  reverted : ∀ op, isReverted op = true →
    (op ∈ written ↔ ∃ receipt, seen = .ok (.reverted receipt) ∧ op = reverts paymentId work actor receipt)
  otherwise : (∀ receipt, seen ≠ .ok (.confirmed receipt) ∧ seen ≠ .ok (.reverted receipt)) → written = [] ∨
    (∃ number hash, written = [.markTxConfirming paymentId work.transactionId number hash actor]) ∨
    written = [.markTxReorgedOut paymentId work.transactionId actor]

theorem notMem_of_kind {kind : Op → Bool} {op other : Op} (hop : kind op = true) (hother : kind other = false) :
    op ∉ [other] := by
  intro h
  rw [List.mem_singleton.1 h, hother] at hop
  cases hop

theorem Marks.recorded {seen : Except Err Observation} {written : List Op}
    (h : Marks paymentId work actor seen written) :
    Recorded paymentId work actor seen written := by
  cases h with
  | confirmed receipt =>
    refine ⟨fun op _ => ?_, fun op hop => ?_, fun h => absurd rfl (h receipt).1⟩
    · rw [List.mem_singleton]
      exact ⟨fun h => ⟨receipt, rfl, h⟩, fun ⟨_, hseen, h⟩ => by cases hseen; exact h⟩
    · exact ⟨fun h => absurd h (notMem_of_kind hop rfl), fun ⟨_, hseen, _⟩ => by cases hseen⟩
  | reverted receipt =>
    refine ⟨fun op hop => ?_, fun op _ => ?_, fun h => absurd rfl (h receipt).2⟩
    · exact ⟨fun h => absurd h (notMem_of_kind hop rfl), fun ⟨_, hseen, _⟩ => by cases hseen⟩
    · rw [List.mem_singleton]
      exact ⟨fun h => ⟨receipt, rfl, h⟩, fun ⟨_, hseen, h⟩ => by cases hseen; exact h⟩
  | sighted number hash =>
    refine ⟨fun op hop => ?_, fun op hop => ?_, fun _ => .inr (.inl ⟨number, hash, rfl⟩)⟩
    · exact ⟨fun h => absurd h (notMem_of_kind hop rfl), fun ⟨_, hseen, _⟩ => by cases hseen⟩
    · exact ⟨fun h => absurd h (notMem_of_kind hop rfl), fun ⟨_, hseen, _⟩ => by cases hseen⟩
  | reorged =>
    refine ⟨fun op hop => ?_, fun op hop => ?_, fun _ => .inr (.inr rfl)⟩
    · exact ⟨fun h => absurd h (notMem_of_kind hop rfl), fun ⟨_, hseen, _⟩ => by cases hseen⟩
    · exact ⟨fun h => absurd h (notMem_of_kind hop rfl), fun ⟨_, hseen, _⟩ => by cases hseen⟩
  | waited | failed =>
    refine ⟨fun op _ => ?_, fun op _ => ?_, fun _ => .inl rfl⟩
    · exact ⟨fun h => absurd h List.not_mem_nil, fun ⟨_, hseen, _⟩ => by cases hseen⟩
    · exact ⟨fun h => absurd h List.not_mem_nil, fun ⟨_, hseen, _⟩ => by cases hseen⟩

/-- Whatever the chain answers, for every confirmation depth and every loaded work item with a transaction hash:
`Confirmation` marks the transaction confirmed or reverted exactly if `observeSettlement` on the same answers reports it
confirmed or reverted, with the same receipt, and otherwise records at most a sighting or a reorganisation. -/
theorem confirmation_agrees (cfg : Config) (answer : (c : Call) → Resp c) (paymentId : Nat) (actor : String)
    (work : Work)
    (hload : answer (.store (.loadSettlementWork paymentId)) = .ok work) (hhash : work.txHash ≠ "") :
    ∃ written, storeCalls (record answer (confirmation cfg paymentId actor) []).2 =
        .loadSettlementWork paymentId :: written ∧
      Recorded paymentId work actor (record answer (observeSettlement cfg work.txHash) []).1 written := by
  obtain ⟨written, hcalls, hmarks⟩ := confirmation_marks answer hload hhash
  exact ⟨written, hcalls, hmarks.recorded⟩

/-! ## A mined receipt -/

/-- The chain answers so, and the store loads this work item. -/
def answering (work : Work) (receipt : Except Err (Option Receipt)) (block : Except Err Block) (head : Except Err Nat) :
    (c : Call) → Resp c
  | .store (.loadSettlementWork _) => .ok work
  | .store _ => .error .noRows
  | .transactionReceipt _ => receipt
  | .blockByNumber _ => block
  | .blockNumber => head
  | .now => zeroTime
  | .contextDone => false
  | .transactionByHash _ => .ok false
  | .simulate .. => .ok ()
  | .signTransaction .. => .error .noRows
  | .sendRawTransaction .. => .error .noRows
  | .getCode _ => .ok []
  | .authorizationState _ => .ok false
  | .schemeVerify _ => .valid

/-- The work item of a payment in flight whose transaction has this hash. -/
def inFlight (txHash : String) : Work where
  paymentId := 1
  paymentIdentity := "0xa"
  state := .broadcast
  authorization := ⟨"0x1", "0x2", "1", 0, 1000000, "0xb", "0xc"⟩
  transactionId := 11
  transactionStatus := .broadcast
  nonce := 3
  txHash := txHash
  rawHash := ""
  sighash := ""
  signerAddress := "0xd"
  gasLimit := 1
  maxFeePerGas := none
  maxPriorityFeePerGas := none
  broadcastAttemptedAt := none
  transactionUpdatedAt := 0
  ambiguousAttempts := 0
  dbNow := 0

def mined : Receipt := ⟨3, "0xb10c", 1, 1, 1⟩

def minedAnswers (txHash : String) : (c : Call) → Resp c :=
  answering (inFlight txHash) (.ok (some mined)) (.ok ⟨"0xb10c", "3"⟩) (.ok 4)

def twoDeep : Config where
  signerAddress := "0xd"
  expiryMargin := 10
  merchantQuota := 9
  globalQuota := 9
  quotaWindow := 1000
  leaseDuration := 10
  confirmations := 2
  gasLimit := 1
  maxFeePerGas := "9"
  maxPriorityFeeGas := "1"
  recoveryGrace := 1
  replacementAfter := 1
  responseWait := 1
  confirmations_pos := by decide

/-- A work item without a hash is turned away before the chain is asked, whatever the chain would answer. -/
theorem confirmation_without_hash :
    minedAnswers "" (.store (.loadSettlementWork 1)) = .ok (inFlight "") ∧
      (record (minedAnswers "") (observeSettlement twoDeep (inFlight "").txHash) []).1 = .ok (.confirmed mined) ∧
      storeCalls (record (minedAnswers "") (confirmation twoDeep 1 "worker") []).2 = [.loadSettlementWork 1] :=
  ⟨rfl, rfl, rfl⟩

/-- Two blocks deep, the receipt is final for both. -/
theorem confirmation_agrees_sample :
    (record (minedAnswers "0xe") (observeSettlement twoDeep (inFlight "0xe").txHash) []).1 = .ok (.confirmed mined) ∧
      ∃ written, storeCalls (record (minedAnswers "0xe") (confirmation twoDeep 1 "worker") []).2 =
          .loadSettlementWork 1 :: written ∧
        Recorded 1 (inFlight "0xe") "worker"
          (record (minedAnswers "0xe") (observeSettlement twoDeep (inFlight "0xe").txHash) []).1 written :=
  ⟨rfl, confirmation_agrees twoDeep (minedAnswers "0xe") 1 "worker" (inFlight "0xe") rfl (by decide)⟩

end Eth402.Settlement
