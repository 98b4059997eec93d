/-
The life of one payment, as an abstract machine: its state, its transaction rows reduced to what
settlement is about (who owns which nonce, in which status, under which hash), and the moves that the
settlement code may make on them. `Shape` says which rows a payment has in each state; every move keeps
it. The moves carry what the code knows when it makes them (the hash it records is the hash of the row's
bytes, the payment it advances has been broadcast, ...); the store refines this machine in
`Store/Refine.lean`.

A life takes one of two ways. A payment whose intent was signed goes down the pipeline (`Pipeline`) and
ends confirmed or reverted; one whose intent was retired unsigned (`Retired`) keeps its nonce, which a
filler may consume later.
-/
import Eth402.Lib.Table
import Eth402.Settlement.Types

namespace Eth402.Settlement

open Lib

structure Row where
  id : Nat
  signer : String
  nonce : Nat
  status : TxStatus
  txHash : Option String
  rawHash : Option String
  raw : Option Bytes
  deriving DecidableEq, Repr

/-- A payment's state (`none` before it is recorded) and its rows. -/
structure Life where
  state : Option State
  rows : List Row
  deriving DecidableEq, Repr

def Row.active (r : Row) : Bool := r.status ∈ activeTransactionStatuses

/-- The row `id`, in one of the given statuses. -/
def Row.is (id : Nat) (statuses : List TxStatus) (r : Row) : Bool := r.id = id ∧ r.status ∈ statuses

def Has (id : Nat) (statuses : List TxStatus) (rows : List Row) : Prop := ∃ r ∈ rows, r.is id statuses = true

/-- The row `id` is changed by `f` if it is in one of the given statuses. -/
def advance (id : Nat) (statuses : List TxStatus) (f : Row → Row) (rows : List Row) : List Row :=
  mapIf (Row.is id statuses) f rows

def OneActive (rows : List Row) : Prop :=
  ∀ a ∈ rows, ∀ b ∈ rows, a.active = true → b.active = true → a = b

/-! ## Moves -/

/-- Some moves are told apart, because results are about them or about runs without them: a sighting that
moves the payment but no row, an original taken for landed at its first sighting, a final outcome, the
preparation of a filler, the one move that writes hashes and bytes over a row, and the end of a filler's watch. -/
inductive Kind
  | plain
  | missed
  | landed
  | final
  | prepared
  | consumed
  deriving DecidableEq

/-- The statuses a watched broadcast can be in. -/
def watched : List TxStatus := [.broadcast, .confirming]

/-- States in which a payment waits for its final outcome. -/
def waiting : List State := [.broadcast, .confirming, .replaced]

/-- A row that records the signed bytes of a replacement, on the nonce of another row. -/
structure Replaces (hash : Bytes → String) (rows : List Row) (r : Row) : Prop where
  status : r.status = .broadcast
  hashes : ∃ h, r.rawHash = some h ∧ r.txHash = some ("0x" ++ h) ∧ ∀ b, r.raw = some b → h = hash b
  nonce : ∃ old ∈ rows, r.signer = old.signer ∧ r.nonce = old.nonce

/-- The intent was retired before it was signed. -/
def Retired (l : Life) : Prop :=
  l.state = some .expired ∨ l.state = some .failed ∨
    (l.state = some .manualReview ∧ ∀ r ∈ l.rows, r.status ≠ .ambiguous)

/-- What the settlement code may do to one payment. -/
inductive Move (hash : Bytes → String) : Kind → Life → Life → Prop
  | keep (l : Life) : Move hash .plain l l
  | record (rows : List Row) : Move hash .plain ⟨none, rows⟩ ⟨some .verified, rows⟩
  | lapse (rows : List Row) : Move hash .plain ⟨some .verified, rows⟩ ⟨some .expired, rows⟩
  | commit (rows : List Row) (r : Row) (hs : r.status = .intent)
      (hh : r.txHash = none ∧ r.rawHash = none ∧ r.raw = none) :
      Move hash .plain ⟨some .verified, rows⟩ ⟨some .broadcasting, rows ++ [r]⟩
  | sign (state : Option State) (rows : List Row) (id : Nat) (h : String) (hr : Has id [.intent] rows) :
      Move hash .plain ⟨state, rows⟩
        ⟨state, advance id [.intent] (fun r => { r with status := .broadcasting, rawHash := some h }) rows⟩
  | send (rows : List Row) (id : Nat) (h : String) (hr : Has id [.broadcasting] rows)
      (hh : ∀ r ∈ rows, r.id = id → r.rawHash = some h) :
      Move hash .plain ⟨some .broadcasting, rows⟩
        ⟨some .broadcast, advance id [.broadcasting]
          (fun r => { r with status := .broadcast, txHash := some ("0x" ++ h) }) rows⟩
  | doubt (rows : List Row) (id : Nat) (hr : Has id [.broadcasting] rows) :
      Move hash .plain ⟨some .broadcasting, rows⟩
        ⟨some .manualReview, advance id [.broadcasting] (fun r => { r with status := .ambiguous }) rows⟩
  | retire (rows : List Row) (id : Nat) (target : State) (ht : target = .failed ∨ target = .expired)
      (hr : Has id [.intent] rows) :
      Move hash .plain ⟨some .broadcasting, rows⟩
        ⟨some target, advance id [.intent] (fun r => { r with status := .dropped }) rows⟩
  | sight (state : State) (rows : List Row) (id : Nat) (hs : state = .broadcast ∨ state = .replaced)
      (hr : Has id watched rows) :
      Move hash .plain ⟨some state, rows⟩
        ⟨some .confirming, advance id watched (fun r => { r with status := .confirming }) rows⟩
  | miss (state : State) (rows : List Row) (hs : state = .broadcast ∨ state = .replaced) :
      Move hash .missed ⟨some state, rows⟩ ⟨some .confirming, rows⟩
  | sightAgain (state : State) (rows : List Row) (id : Nat)
      (hs : state = .confirming ∨ state = .confirmed ∨ state = .reverted) :
      Move hash .plain ⟨some state, rows⟩
        ⟨some state, advance id watched (fun r => { r with status := .confirming }) rows⟩
  | confirm (state : State) (rows : List Row) (id : Nat) (hs : state ∈ waiting) (hr : Has id watched rows) :
      Move hash .final ⟨some state, rows⟩
        ⟨some .confirmed, advance id watched (fun r => { r with status := .confirmed }) rows⟩
  | revert (state : State) (rows : List Row) (id : Nat) (hs : state ∈ waiting) (hr : Has id watched rows) :
      Move hash .final ⟨some state, rows⟩
        ⟨some .reverted, advance id watched (fun r => { r with status := .reverted }) rows⟩
  | recover (rows : List Row) (id : Nat) (h : String) (hr : Has id [.ambiguous] rows)
      (hh : ∀ r ∈ rows, r.id = id → r.rawHash = some h) :
      Move hash .plain ⟨some .manualReview, rows⟩
        ⟨some .broadcast, advance id [.ambiguous]
          (fun r => { r with status := .broadcast, txHash := some ("0x" ++ h) }) rows⟩
  | resign (rows : List Row) (id : Nat) (new : Row) (hr : Has id [.ambiguous] rows)
      (hn : Replaces hash rows new) (hraw : new.raw = none) :
      Move hash .plain ⟨some .manualReview, rows⟩
        ⟨some .replaced, advance id [.ambiguous]
          (fun r => { r with status := .replaced, txHash := r.rawHash.map ("0x" ++ ·) }) rows ++ [new]⟩
  | replace (state : State) (rows : List Row) (id : Nat) (new : Row)
      (hs : state = .broadcast ∨ state = .replaced) (hr : Has id [.broadcast] rows)
      (hn : Replaces hash rows new) (hraw : new.raw = none) :
      Move hash .plain ⟨some state, rows⟩
        ⟨some .replaced, advance id [.broadcast] (fun r => { r with status := .replaced }) rows ++ [new]⟩
  | land (state : State) (rows : List Row) (id : Nat) (hs : state = .replaced ∨ state = .broadcast)
      (hr : Has id [.replaced] rows) :
      Move hash .landed ⟨some state, rows⟩
        ⟨some .confirming, advance id [.replaced] (fun r => { r with status := .confirming })
          (mapIf Row.active (fun r => { r with status := .dropped }) rows)⟩
  | landReverted (state : State) (rows : List Row) (id : Nat) (hs : state ∈ waiting)
      (hr : Has id [.replaced] rows) :
      Move hash .final ⟨some state, rows⟩
        ⟨some .reverted, advance id [.replaced] (fun r => { r with status := .reverted })
          (mapIf Row.active (fun r => { r with status := .dropped }) rows)⟩
  | reorg (rows : List Row) (id : Nat) (hr : Has id [.confirming] rows) :
      Move hash .plain ⟨some .confirming, rows⟩
        ⟨some .broadcast, advance id [.confirming] (fun r => { r with status := .broadcast }) rows⟩
  | prepare (l : Life) (id : Nat) (b : Bytes) (hs : Retired l) (hr : Has id [.dropped] l.rows) :
      Move hash .prepared l
        ⟨l.state, advance id [.dropped] (fun r =>
          { r with status := .broadcast, rawHash := some (hash b), txHash := some ("0x" ++ hash b), raw := some b })
          l.rows⟩
  | refill (state : Option State) (rows : List Row) (id : Nat) (new : Row)
      (hr : ∃ r ∈ rows, r.is id [.broadcast] = true ∧ r.raw.isSome) (hn : Replaces hash rows new)
      (hraw : new.raw.isSome) :
      Move hash .plain ⟨state, rows⟩
        ⟨state, mapIf (fun r => r.is id [.broadcast] && r.raw.isSome)
          (fun r => { r with status := .replaced }) rows ++ [new]⟩
  | resolve (l : Life) (id : Nat) (hs : Retired l) (hr : Has id [.broadcast, .replaced] l.rows) :
      Move hash .consumed l
        ⟨l.state, mapIf (fun r => r.id ≠ id ∧ r.status ∈ [.broadcast, .replaced])
          (fun r => { r with status := .dropped })
          (advance id [.broadcast, .replaced] (fun r => { r with status := .reverted }) l.rows)⟩
  | escalate (rows : List Row) (id : Nat) (hr : Has id [.broadcast, .replaced] rows) :
      Move hash .consumed ⟨some .expired, rows⟩
        ⟨some .manualReview, mapIf (fun r => r.id ≠ id ∧ r.status ∈ [.broadcast, .replaced])
          (fun r => { r with status := .dropped })
          (advance id [.broadcast, .replaced] (fun r => { r with status := .confirming }) rows)⟩
  -- the bytes of a filler are kept until it reverted
  | forget (l : Life) (hf : l.state = some .expired ∨ l.state = some .failed → ∀ r ∈ l.rows, r.status = .reverted) :
      Move hash .plain l ⟨l.state, l.rows.map fun r => { r with raw := none }⟩

/-! ## The shape of a life -/

/-- A row of the pipeline that may be on the network: its hash is that of its signed bytes. -/
def Row.Sent (r : Row) : Prop := r.raw = none ∧ ∃ h, r.rawHash = some h ∧ r.txHash = some ("0x" ++ h)

/-- A row of a retired intent: unsigned, or a filler whose bytes are recorded. -/
def Row.Filler (hash : Bytes → String) (r : Row) : Prop :=
  (r.status = .dropped ∧ r.raw = none ∧ r.rawHash = none ∧ r.txHash = none) ∨
    ∃ h, r.rawHash = some h ∧ r.txHash = some ("0x" ++ h) ∧ ∀ b, r.raw = some b → h = hash b

/-- The row of an intent on its way to the network. -/
def Row.Fresh (r : Row) : Prop :=
  r.raw = none ∧ r.txHash = none ∧
    ((r.status = .intent ∧ r.rawHash = none) ∨ (r.status = .broadcasting ∧ r.rawHash ≠ none))

/-- One of the rows has one of the statuses. -/
def Main (statuses : List TxStatus) (rows : List Row) : Prop := ∃ r ∈ rows, r.status ∈ statuses

/-- The rows a payment has in each state. -/
def Shape (hash : Bytes → String) (l : Life) : Prop :=
  match l.state with
  | none | some .received | some .verificationFailed | some .verified => l.rows = []
  | some .broadcasting => Main [.intent, .broadcasting] l.rows ∧ ∀ r ∈ l.rows, r.Fresh
  | some .broadcast | some .replaced =>
    Main [.broadcast] l.rows ∧ ∀ r ∈ l.rows, r.status ∈ [.broadcast, .replaced, .dropped] ∧ r.Sent
  | some .confirming =>
    Main watched l.rows ∧ ∀ r ∈ l.rows, r.status ∈ [.broadcast, .confirming, .replaced, .dropped] ∧ r.Sent
  | some .confirmed => Main [.confirmed] l.rows ∧ ∀ r ∈ l.rows, r.status ∈ [.confirmed, .replaced, .dropped] ∧ r.Sent
  | some .reverted => Main [.reverted] l.rows ∧ ∀ r ∈ l.rows, r.status ∈ [.reverted, .replaced, .dropped] ∧ r.Sent
  | some .manualReview =>
    (Main [.ambiguous] l.rows ∧ ∀ r ∈ l.rows, r.status = .ambiguous ∧ r.raw = none ∧ r.txHash = none ∧
    r.rawHash ≠ none) ∨
      (Main [.confirming] l.rows ∧ ∀ r ∈ l.rows, r.status ∈ [.confirming, .dropped, .reverted] ∧ r.Filler hash)
  | some .expired | some .failed =>
    ∀ r ∈ l.rows, r.status ∈ [.dropped, .broadcast, .replaced, .reverted] ∧ r.Filler hash

/-! ### Rows after an update -/

variable {s : List TxStatus} {r : Row} {rows : List Row} {id : Nat}

theorem Row.is_iff : r.is id s = true ↔ r.id = id ∧ r.status ∈ s := by
  simp [Row.is]

theorem Row.active_iff : r.active = true ↔ r.status ∈ activeTransactionStatuses := by simp [Row.active]

variable {f : Row → Row}

theorem mem_advance {x : Row} :
    x ∈ advance id s f rows ↔
      (∃ r ∈ rows, (r.id = id ∧ r.status ∈ s) ∧ f r = x) ∨ (x ∈ rows ∧ ¬ (x.id = id ∧ x.status ∈ s)) := by
  rw [advance, mem_mapIf]
  simp only [Row.is_iff, ← Bool.not_eq_true]

theorem forall_advance {P : Row → Prop}
    (hit : ∀ r ∈ rows, r.id = id → r.status ∈ s → P (f r)) (other : ∀ r ∈ rows, ¬ (r.id = id ∧ r.status ∈ s) → P r) :
    ∀ x ∈ advance id s f rows, P x := by
  intro x hx
  rcases mem_advance.1 hx with ⟨r, hr, ⟨hid, hst⟩, rfl⟩ | ⟨hx, hno⟩
  · exact hit r hr hid hst
  · exact other x hx hno

theorem forall_snoc {new : Row} {P : Row → Prop} (h : ∀ x ∈ rows, P x) (hn : P new) :
    ∀ x ∈ rows ++ [new], P x := by
  intro x hx
  rcases List.mem_append.1 hx with hx | hx
  · exact h x hx
  · rw [List.mem_singleton.1 hx]; exact hn

theorem forall_mapIf {w : Row → Bool} {P : Row → Prop}
    (hit : ∀ r ∈ rows, w r = true → P (f r)) (other : ∀ r ∈ rows, w r = false → P r) :
    ∀ x ∈ mapIf w f rows, P x := by
  intro x hx
  rcases mem_mapIf.1 hx with ⟨r, hr, hw, rfl⟩ | ⟨hx, hw⟩
  · exact hit r hr hw
  · exact other x hx hw

theorem main_advance {S : List TxStatus} (h : Has id s rows)
    (hf : ∀ r, (f r).status ∈ S) : Main S (advance id s f rows) := by
  obtain ⟨r, hr, his⟩ := h
  exact ⟨f r, mem_advance.2 (.inl ⟨r, hr, Row.is_iff.1 his, rfl⟩), hf r⟩

/-- The selected row is the active one, so no other row is active. -/
theorem OneActive.others (h : OneActive rows)
    (hr : Has id s rows) (hs : ∀ x ∈ s, x ∈ activeTransactionStatuses) :
    ∀ r ∈ rows, ¬ (r.id = id ∧ r.status ∈ s) → r.status ∉ activeTransactionStatuses := by
  obtain ⟨a, ha, his⟩ := hr
  rw [Row.is_iff] at his
  intro r hr hno hact
  have : r = a := h r hr a ha (by simpa [Row.active] using hact) (by simpa [Row.active] using hs _ his.2)
  subst this
  exact hno his

/-! ### Each shape, by name -/

variable {l : Life}

section
variable {hash : Bytes → String}

/-- While a payment waits for its outcome, every row is watched or out of the way. -/
theorem Shape.waiting {state : State} (h : Shape hash ⟨some state, rows⟩) (hs : state ∈ waiting) :
    Main watched rows ∧ ∀ r ∈ rows, r.status ∈ [.broadcast, .confirming, .replaced, .dropped] ∧ r.Sent := by
  simp only [Settlement.waiting, List.mem_cons, List.not_mem_nil, or_false] at hs
  rcases hs with rfl | rfl | rfl
  · obtain ⟨⟨r, hr, hst⟩, hall⟩ := h
    refine ⟨⟨r, hr, by simp at hst; simp [watched, hst]⟩, fun r hr => ⟨?_, (hall r hr).2⟩⟩
    have := (hall r hr).1; simp at this ⊢; tauto
  · exact h
  · obtain ⟨⟨r, hr, hst⟩, hall⟩ := h
    refine ⟨⟨r, hr, by simp at hst; simp [watched, hst]⟩, fun r hr => ⟨?_, (hall r hr).2⟩⟩
    have := (hall r hr).1; simp at this ⊢; tauto

/-- A waiting payment's row that leaves the active set leaves only idle rows behind. -/
theorem Shape.waiting_others {state : State} (h : Shape hash ⟨some state, rows⟩)
    (hs : state ∈ Settlement.waiting) (h1 : OneActive rows) (hr : Has id watched rows) :
    ∀ r ∈ rows, ¬ (r.id = id ∧ r.status ∈ watched) → (r.status = .replaced ∨ r.status = .dropped) ∧ r.Sent := by
  intro r hmem hno
  obtain ⟨-, hall⟩ := h.waiting hs
  have hidle := h1.others hr (by decide) r hmem hno
  refine ⟨?_, (hall r hmem).2⟩
  have hst := (hall r hmem).1
  simp only [List.mem_cons, List.not_mem_nil, or_false] at hst
  rcases hst with h' | h' | h' | h'
  · exact absurd (by rw [h']; decide) hidle
  · exact absurd (by rw [h']; decide) hidle
  · exact .inl h'
  · exact .inr h'

/-- Broadcasting payments have one row, the intent's. -/
theorem Shape.broadcasting_others (h : Shape hash ⟨some .broadcasting, rows⟩) (h1 : OneActive rows)
    (hr : Has id s rows) (hs : ∀ x ∈ s, x ∈ activeTransactionStatuses) :
    ∀ r ∈ rows, r.id = id ∧ r.status ∈ s := by
  intro r hmem
  by_contra hno
  refine h1.others hr hs r hmem hno ?_
  rcases (h.2 r hmem).2.2 with ⟨hst, -⟩ | ⟨hst, -⟩ <;> rw [hst] <;> decide

/-- A payment under review for an ambiguous row has no other row. -/
theorem Shape.review_ambiguous (h : Shape hash ⟨some .manualReview, rows⟩)
    (hr : Has id [.ambiguous] rows) :
    ∀ r ∈ rows, r.status = .ambiguous ∧ r.raw = none ∧ r.txHash = none ∧ r.rawHash ≠ none := by
  rcases h with ⟨-, hall⟩ | ⟨-, hall⟩
  · exact hall
  · obtain ⟨r, hr, his⟩ := hr
    have hst := (Row.is_iff.1 his).2
    have := (hall r hr).1
    simp only [List.mem_singleton] at hst
    simp [hst] at this

theorem Shape.retired (h : Shape hash l) (hs : Retired l) :
    ∀ r ∈ l.rows, r.status ∈ [.dropped, .broadcast, .replaced, .reverted, .confirming] ∧ r.Filler hash := by
  obtain ⟨state, rows⟩ := l
  intro r hr
  rcases hs with rfl | rfl | ⟨rfl, hno⟩
  · have := h r hr; exact ⟨by have := this.1; simp at this ⊢; tauto, this.2⟩
  · have := h r hr; exact ⟨by have := this.1; simp at this ⊢; tauto, this.2⟩
  · rcases h with ⟨⟨a, ha, hst⟩, -⟩ | ⟨-, hall⟩
    · exact absurd (by simpa using hst) (hno a ha)
    · have := hall r hr; exact ⟨by have := this.1; simp at this ⊢; tauto, this.2⟩

theorem Shape.retired_review (h : Shape hash ⟨some .manualReview, rows⟩)
    (hno : ∀ r ∈ rows, r.status ≠ .ambiguous) :
    Main [.confirming] rows ∧ ∀ r ∈ rows, r.status ∈ [.confirming, .dropped, .reverted] ∧ r.Filler hash := by
  rcases h with ⟨⟨a, ha, hst⟩, -⟩ | hall
  · exact absurd (by simpa using hst) (hno a ha)
  · exact hall

/-- The statuses a row of a payment in a given state can have. -/
def statuses : Option State → List TxStatus
  | none | some .received | some .verificationFailed | some .verified => []
  | some .broadcasting => [.intent, .broadcasting]
  | some .broadcast | some .replaced => [.broadcast, .replaced, .dropped]
  | some .confirming => [.broadcast, .confirming, .replaced, .dropped]
  | some .confirmed => [.confirmed, .replaced, .dropped]
  | some .reverted => [.reverted, .replaced, .dropped]
  | some .manualReview => [.ambiguous, .confirming, .dropped, .reverted]
  | some .expired | some .failed => [.dropped, .broadcast, .replaced, .reverted]

theorem Shape.status (h : Shape hash l) (hr : r ∈ l.rows) : r.status ∈ statuses l.state := by
  obtain ⟨state, rows⟩ := l
  match state, h with
  | none, h | some .received, h | some .verificationFailed, h | some .verified, h =>
    simp only [Shape] at h; simp [h] at hr
  | some .broadcasting, h => obtain ⟨-, -, ⟨hs, -⟩ | ⟨hs, -⟩⟩ := h.2 r hr <;> simp [hs, statuses]
  | some .broadcast, h | some .replaced, h | some .confirming, h | some .confirmed, h | some .reverted, h =>
    exact (h.2 r hr).1
  | some .expired, h | some .failed, h => exact (h r hr).1
  | some .manualReview, h =>
    rcases h with ⟨-, hall⟩ | ⟨-, hall⟩
    · simp [(hall r hr).1, statuses]
    · exact List.mem_cons_of_mem _ (hall r hr).1

/-- An unsigned intent in flight belongs to a broadcasting payment. -/
theorem Shape.of_intent (h : Shape hash l) (hr : r ∈ l.rows) (hs : r.status = .intent) :
    l.state = some .broadcasting := by
  have hm := h.status hr
  rw [hs] at hm
  revert hm
  rcases l.state with _ | s
  · decide
  · cases s <;> decide

theorem Shape.of_broadcasting (h : Shape hash l) (hr : r ∈ l.rows) (hs : r.status = .broadcasting) :
    l.state = some .broadcasting := by
  have hm := h.status hr
  rw [hs] at hm
  revert hm
  rcases l.state with _ | s
  · decide
  · cases s <;> decide

theorem Shape.of_ambiguous (h : Shape hash l) (hr : r ∈ l.rows) (hs : r.status = .ambiguous) :
    l.state = some .manualReview := by
  have hm := h.status hr
  rw [hs] at hm
  revert hm
  rcases l.state with _ | s
  · decide
  · cases s <;> decide

theorem Shape.of_has_intent (h : Shape hash l) (hr : Has id [.intent] l.rows) :
    l.state = some .broadcasting := by
  obtain ⟨r, hr, his⟩ := hr
  exact h.of_intent hr (by simpa using (Row.is_iff.1 his).2)

/-- Signed bytes are kept only with the rows of a retired intent. -/
theorem Shape.of_raw (h : Shape hash l) (hr : r ∈ l.rows) (hs : r.raw ≠ none) : Retired l := by
  obtain ⟨state, rows⟩ := l
  match state, h with
  | none, h | some .received, h | some .verificationFailed, h | some .verified, h =>
    simp only [Shape] at h; simp [h] at hr
  | some .broadcasting, h => exact absurd (h.2 r hr).1 hs
  | some .broadcast, h | some .replaced, h | some .confirming, h | some .confirmed, h | some .reverted, h =>
    exact absurd (h.2 r hr).2.1 hs
  | some .expired, _ => exact .inl rfl
  | some .failed, _ => exact .inr (.inl rfl)
  | some .manualReview, h =>
    rcases h with ⟨-, hall⟩ | ⟨-, hall⟩
    · exact absurd (hall r hr).2.1 hs
    · exact .inr (.inr ⟨rfl, fun x hx hst => by have := (hall x hx).1; simp [hst] at this⟩)

/-! ### Every move keeps the shape -/

theorem Filler.of_advance {s : TxStatus} (h : ∃ h, r.rawHash = some h ∧ r.txHash = some ("0x" ++ h) ∧
    ∀ b, r.raw = some b → h = hash b) : Row.Filler hash { r with status := s } := .inr h

/-- A filler on the network has its bytes recorded. -/
theorem Row.Filler.recorded (h : r.Filler hash) (hs : r.status ≠ .dropped) :
    ∃ h, r.rawHash = some h ∧ r.txHash = some ("0x" ++ h) ∧ ∀ b, r.raw = some b → h = hash b := by
  rcases h with ⟨hd, -⟩ | h
  · exact absurd hd hs
  · exact h

theorem has_replaced (h : Has id [.replaced] rows) :
    Has id [.replaced] (mapIf Row.active (fun r => { r with status := .dropped }) rows) := by
  obtain ⟨r, hr, his⟩ := h
  refine ⟨r, mem_mapIf.2 (.inr ⟨hr, ?_⟩), his⟩
  have hst := (Row.is_iff.1 his).2
  simp only [List.mem_singleton] at hst
  simp [Row.active, hst, activeTransactionStatuses]

/-- The rows once the active one is dropped and an original landed in status `s`. -/
theorem landed_rows {state : State} (h : Shape hash ⟨some state, rows⟩) (hs : state ∈ waiting)
    {s : TxStatus} {S : List TxStatus} (hS : s ∈ S) (hSd : .replaced ∈ S ∧ .dropped ∈ S) :
    ∀ x ∈ advance id [.replaced] (fun r => { r with status := s })
        (mapIf Row.active (fun r => { r with status := .dropped }) rows), x.status ∈ S ∧ x.Sent := by
  have hall := (h.waiting hs).2
  have hmid : ∀ x ∈ mapIf Row.active (fun r => { r with status := .dropped }) rows,
      (x.status = .replaced ∨ x.status = .dropped) ∧ x.Sent := by
    refine forall_mapIf (fun r hm _ => ⟨.inr rfl, (hall r hm).2⟩) fun r hm hact => ⟨?_, (hall r hm).2⟩
    have hst := (hall r hm).1
    simp only [Row.active, decide_eq_false_iff_not] at hact
    revert hst hact
    cases r.status <;> decide
  refine forall_advance (fun r hm _ _ => ⟨hS, (hmid r hm).2⟩) fun r hm _ => ⟨?_, (hmid r hm).2⟩
  rcases (hmid r hm).1 with h' | h' <;> rw [h']
  · exact hSd.1
  · exact hSd.2

theorem Shape.sightAgain {state : State} (h : Shape hash ⟨some state, rows⟩)
    (hs : state = .confirming ∨ state = .confirmed ∨ state = .reverted) :
    Shape hash ⟨some state, advance id watched (fun r => { r with status := .confirming }) rows⟩ := by
  have hidle : (∀ r ∈ rows, r.status ∉ watched) →
      advance id watched (fun r => { r with status := .confirming }) rows = rows := fun hno =>
    mapIf_of_false fun r hr => by
      rw [← Bool.not_eq_true, Row.is_iff]; exact fun ⟨_, hst⟩ => hno r hr hst
  rcases hs with rfl | rfl | rfl
  · obtain ⟨⟨a, ha, hst⟩, hall⟩ := h
    refine ⟨?_, forall_advance (fun r hm _ _ => ⟨by simp, (hall r hm).2⟩) fun r hm _ => hall r hm⟩
    by_cases hid : a.id = id
    · exact main_advance ⟨a, ha, Row.is_iff.2 ⟨hid, hst⟩⟩ (by simp [watched])
    · exact ⟨a, mem_advance.2 (.inr ⟨ha, fun hh => hid hh.1⟩), hst⟩
  · rw [hidle fun r hm hst => ?_]
    · exact h
    · have := (h.2 r hm).1; revert this hst; cases r.status <;> decide
  · rw [hidle fun r hm hst => ?_]
    · exact h
    · have := (h.2 r hm).1; revert this hst; cases r.status <;> decide

/-- A dropped row is prepared as a filler only while no other row of the payment is active. -/
theorem Shape.prepare {b : Bytes} (h : Shape hash l) (hs : Retired l) (hr : Has id [.dropped] l.rows)
    (h2 : OneActive (advance id [.dropped] (fun r =>
      { r with status := .broadcast, rawHash := some (hash b), txHash := some ("0x" ++ hash b), raw := some b })
      l.rows)) :
    Shape hash ⟨l.state, advance id [.dropped] (fun r =>
      { r with status := .broadcast, rawHash := some (hash b), txHash := some ("0x" ++ hash b), raw := some b })
      l.rows⟩ := by
  obtain ⟨state, rows⟩ := l
  rcases hs with rfl | rfl | ⟨rfl, hno⟩
  · exact forall_advance (fun r _ _ _ => ⟨by simp, .inr ⟨hash b, rfl, rfl, by simp⟩⟩) fun r hm _ => h r hm
  · exact forall_advance (fun r _ _ _ => ⟨by simp, .inr ⟨hash b, rfl, rfl, by simp⟩⟩) fun r hm _ => h r hm
  · -- the confirming row and the prepared one would both be active
    obtain ⟨⟨c, hc, hcs⟩, -⟩ := h.retired_review hno
    obtain ⟨r, hm, his⟩ := hr
    have his := Row.is_iff.1 his
    simp only [List.mem_singleton] at hcs his
    have := h2 c (mem_advance.2 (.inr ⟨hc, by simp [hcs]⟩)) _ (mem_advance.2 (.inl ⟨r, hm, by simp [his], rfl⟩))
      (by simp [Row.active, hcs, activeTransactionStatuses]) (by simp [Row.active, activeTransactionStatuses])
    rw [this] at hcs
    simp at hcs

theorem Shape.refill {state : Option State} {new : Row} (h : Shape hash ⟨state, rows⟩)
    (hr : ∃ r ∈ rows, r.is id [.broadcast] = true ∧ r.raw.isSome) (hn : Replaces hash rows new) :
    Shape hash ⟨state, mapIf (fun r => r.is id [.broadcast] && r.raw.isSome)
      (fun r => { r with status := .replaced }) rows ++ [new]⟩ := by
  obtain ⟨a, ha, his, hraw⟩ := hr
  have his := (Row.is_iff.1 his).2
  have hret : Retired ⟨state, rows⟩ := h.of_raw ha (by intro hn; simp [hn] at hraw)
  have hnew : new.status ∈ [TxStatus.dropped, .broadcast, .replaced, .reverted] ∧ new.Filler hash :=
    ⟨by simp [hn.status], .inr hn.hashes⟩
  have hold : (∀ r ∈ rows, r.status ∈ [TxStatus.dropped, .broadcast, .replaced, .reverted] ∧ r.Filler hash) →
      ∀ x ∈ mapIf (fun r => r.is id [.broadcast] && r.raw.isSome) (fun r => { r with status := .replaced }) rows,
        x.status ∈ [TxStatus.dropped, .broadcast, .replaced, .reverted] ∧ x.Filler hash := fun hall =>
    forall_mapIf (fun r hm hw => ⟨by simp, Filler.of_advance ((hall r hm).2.recorded (by
        simp only [Bool.and_eq_true, Row.is_iff, List.mem_singleton] at hw; simp [hw.1.2]))⟩)
      fun r hm _ => hall r hm
  rcases hret with rfl | rfl | ⟨rfl, hno⟩
  · exact forall_snoc (hold h) hnew
  · exact forall_snoc (hold h) hnew
  · have := ((h.retired_review hno).2 a ha).1
    simp only [List.mem_singleton] at his
    simp [his] at this

theorem Shape.resolve (h : Shape hash l) (hs : Retired l) (hr : Has id [.broadcast, .replaced] l.rows) :
    Shape hash ⟨l.state, mapIf (fun r => r.id ≠ id ∧ r.status ∈ [.broadcast, .replaced])
      (fun r => { r with status := .dropped })
      (advance id [.broadcast, .replaced] (fun r => { r with status := .reverted }) l.rows)⟩ := by
  obtain ⟨state, rows⟩ := l
  have hall : (∀ r ∈ rows, r.status ∈ [TxStatus.dropped, .broadcast, .replaced, .reverted] ∧ r.Filler hash) →
      ∀ x ∈ mapIf (fun r => r.id ≠ id ∧ r.status ∈ [.broadcast, .replaced]) (fun r => { r with status := .dropped })
          (advance id [.broadcast, .replaced] (fun r => { r with status := .reverted }) rows),
        x.status ∈ [TxStatus.dropped, .broadcast, .replaced, .reverted] ∧ x.Filler hash := by
    intro hall
    have hmid : ∀ x ∈ advance id [.broadcast, .replaced] (fun r => { r with status := .reverted }) rows,
        x.status ∈ [TxStatus.dropped, .broadcast, .replaced, .reverted] ∧ x.Filler hash :=
      forall_advance (fun r hm _ hst => ⟨by simp, Filler.of_advance ((hall r hm).2.recorded (by
        rintro hd; rw [hd] at hst; simp at hst))⟩) fun r hm _ => hall r hm
    refine forall_mapIf (fun r hm hw => ⟨by simp, Filler.of_advance ((hmid r hm).2.recorded ?_)⟩) fun r hm _ =>
      hmid r hm
    rintro hd
    simp [hd] at hw
  rcases hs with rfl | rfl | ⟨rfl, hno⟩
  · exact hall h
  · exact hall h
  · obtain ⟨r, hm, his⟩ := hr
    have his := (Row.is_iff.1 his).2
    have := ((h.retired_review hno).2 r hm).1
    exfalso
    revert his this
    cases r.status <;> decide

theorem Shape.escalate (h : Shape hash ⟨some .expired, rows⟩)
    (hr : Has id [.broadcast, .replaced] rows) :
    Shape hash ⟨some .manualReview, mapIf (fun r => r.id ≠ id ∧ r.status ∈ [.broadcast, .replaced])
      (fun r => { r with status := .dropped })
      (advance id [.broadcast, .replaced] (fun r => { r with status := .confirming }) rows)⟩ := by
  obtain ⟨a, ha, his⟩ := hr
  have hmid : ∀ x ∈ advance id [.broadcast, .replaced] (fun r => { r with status := .confirming }) rows,
      (x.status ∈ [TxStatus.confirming, .dropped, .reverted] ∨ (x.id ≠ id ∧ x.status ∈ [.broadcast, .replaced])) ∧
        x.Filler hash := by
    refine forall_advance (fun r hm _ hst => ⟨.inl (by simp), Filler.of_advance ((h r hm).2.recorded ?_)⟩)
      fun r hm hno => ⟨?_, (h r hm).2⟩
    · rintro hd; rw [hd] at hst; simp at hst
    · have hst := (h r hm).1
      by_cases hb : r.status ∈ [TxStatus.broadcast, .replaced]
      · exact .inr ⟨fun hid => hno ⟨hid, hb⟩, hb⟩
      · refine .inl ?_
        revert hst hb
        cases r.status <;> decide
  refine .inr ⟨⟨{ a with status := .confirming }, mem_mapIf.2 (.inr ⟨?_, by simp⟩), by simp⟩,
    forall_mapIf (fun r hm hw => ⟨by simp, Filler.of_advance ((hmid r hm).2.recorded ?_)⟩) fun r hm hw => ?_⟩
  · exact mem_advance.2 (.inl ⟨a, ha, Row.is_iff.1 his, rfl⟩)
  · rintro hd; simp [hd] at hw
  · refine ⟨(hmid r hm).1.resolve_right fun hb => ?_, (hmid r hm).2⟩
    simp only [decide_eq_false_iff_not] at hw
    exact hw hb

/-- Clearing the signed bytes changes no row of the pipeline, which has none. -/
theorem Shape.forget (h : Shape hash l) : Shape hash ⟨l.state, l.rows.map fun r => { r with raw := none }⟩ := by
  have hmap : ∀ {P : Row → Prop}, (∀ r ∈ l.rows, P { r with raw := none }) →
      ∀ x ∈ l.rows.map (fun r => { r with raw := none }), P x := by
    intro P hP x hx
    obtain ⟨r, hr, rfl⟩ := List.mem_map.1 hx
    exact hP r hr
  by_cases hret : Retired l
  · have hfill : ∀ r : Row, r.Filler hash → Row.Filler hash { r with raw := none } := by
      rintro r (⟨hd, -, hrh, htx⟩ | ⟨h', hrh, htx, -⟩)
      · exact .inl ⟨hd, rfl, hrh, htx⟩
      · exact .inr ⟨h', hrh, htx, by simp⟩
    obtain ⟨state, rows⟩ := l
    rcases hret with rfl | rfl | ⟨rfl, hno⟩
    · exact hmap fun r hr => ⟨(h r hr).1, hfill r (h r hr).2⟩
    · exact hmap fun r hr => ⟨(h r hr).1, hfill r (h r hr).2⟩
    · obtain ⟨⟨c, hc, hcs⟩, hall⟩ := h.retired_review hno
      exact .inr ⟨⟨_, List.mem_map.2 ⟨c, hc, rfl⟩, hcs⟩, hmap fun r hr => ⟨(hall r hr).1, hfill r (hall r hr).2⟩⟩
  · have hid : l.rows.map (fun r => { r with raw := none }) = l.rows := by
      conv => rhs; rw [← List.map_id l.rows]
      refine List.map_congr_left fun r hr => ?_
      have : r.raw = none := by
        by_contra hraw; exact hret (h.of_raw hr hraw)
      cases r; simp only at this; subst this; rfl
    rw [hid]; exact h

theorem Move.shape {k : Kind} {l' : Life} (m : Move hash k l l') (h1 : OneActive l.rows) (h2 : OneActive l'.rows)
    (h : Shape hash l) : Shape hash l' := by
  cases m with
  | keep | record rows => exact h
  | lapse rows =>
    have hnil : rows = [] := h
    subst hnil
    exact fun r hr => by cases hr
  | commit rows r hs hh =>
    have hnil : rows = [] := h
    subst hnil
    refine ⟨⟨r, by simp, by simp [hs]⟩, fun x hx => ?_⟩
    simp only [List.nil_append, List.mem_singleton] at hx
    subst hx
    exact ⟨hh.2.2, hh.1, .inl ⟨hs, hh.2.1⟩⟩
  | sign state rows id h' hr =>
    obtain rfl : state = some .broadcasting := h.of_has_intent hr
    have hall := h.broadcasting_others h1 hr (by decide)
    refine ⟨main_advance hr (by simp), forall_advance (fun r hm _ _ => ?_) ?_⟩
    · exact ⟨(h.2 r hm).1, (h.2 r hm).2.1, .inr ⟨rfl, by simp⟩⟩
    · exact fun r hm hno => absurd (hall r hm) hno
  | send rows id h' hr hh =>
    have hall := h.broadcasting_others h1 hr (by decide)
    refine ⟨main_advance hr (by simp), forall_advance (fun r hm _ _ => ⟨by simp, (h.2 r hm).1, h', ?_, rfl⟩) ?_⟩
    · exact hh r hm (hall r hm).1
    · exact fun r hm hno => absurd (hall r hm) hno
  | doubt rows id hr =>
    have hall := h.broadcasting_others h1 hr (by decide)
    refine .inl ⟨main_advance hr (by simp), forall_advance (fun r hm _ hst => ?_) ?_⟩
    · obtain ⟨hraw, htx, ⟨hst', -⟩ | ⟨-, hrh⟩⟩ := h.2 r hm
      · rw [hst'] at hst; simp at hst
      · exact ⟨rfl, hraw, htx, hrh⟩
    · exact fun r hm hno => absurd (hall r hm) hno
  | retire rows id target ht hr =>
    have hall := h.broadcasting_others h1 hr (by decide)
    have hgoal : ∀ x ∈ advance id [.intent] (fun r => { r with status := .dropped }) rows,
        x.status ∈ [TxStatus.dropped, .broadcast, .replaced, .reverted] ∧ x.Filler hash := by
      refine forall_advance (fun r hm _ hst => ⟨by simp, .inl ⟨rfl, ?_⟩⟩) fun r hm hno => absurd (hall r hm) hno
      obtain ⟨hraw, htx, ⟨-, hrh⟩ | ⟨hst', -⟩⟩ := h.2 r hm
      · exact ⟨hraw, hrh, htx⟩
      · rw [hst'] at hst; simp at hst
    rcases ht with rfl | rfl <;> exact hgoal
  | sight state rows id hs hr =>
    have hw : state ∈ waiting := by rcases hs with rfl | rfl <;> decide
    refine ⟨main_advance hr (by simp [watched]), forall_advance (fun r hm _ _ => ?_) fun r hm _ => ?_⟩
    · exact ⟨by simp, ((h.waiting hw).2 r hm).2⟩
    · exact (h.waiting hw).2 r hm
  | miss state rows hs => exact h.waiting (by rcases hs with rfl | rfl <;> decide)
  | sightAgain state rows id hs => exact h.sightAgain hs
  | confirm state rows id hs hr | revert state rows id hs hr =>
    refine ⟨main_advance hr (by simp), forall_advance (fun r hm _ _ => ?_) fun r hm hno => ?_⟩
    · exact ⟨by simp, ((h.waiting hs).2 r hm).2⟩
    · obtain ⟨hst, hsent⟩ := h.waiting_others hs h1 hr r hm hno
      exact ⟨by simp; tauto, hsent⟩
  | recover rows id h' hr hh =>
    have hall := h.review_ambiguous hr
    have hidle := h1.others hr (by decide)
    refine ⟨main_advance hr (by simp), forall_advance (fun r hm hid _ => ?_) fun r hm hno => ?_⟩
    · exact ⟨by simp, (hall r hm).2.1, h', hh r hm hid, rfl⟩
    · exact absurd (by rw [(hall r hm).1]; decide) (hidle r hm hno)
  | resign rows id new hr hn hraw =>
    have hall := h.review_ambiguous hr
    have hidle := h1.others hr (by decide)
    obtain ⟨hst, ⟨h', hrh, htx, -⟩, -⟩ := hn
    refine ⟨⟨new, by simp, by simp [hst]⟩, forall_snoc (forall_advance (fun r hm _ _ => ?_) fun r hm hno => ?_) ?_⟩
    · obtain ⟨-, hraw', -, hrh'⟩ := hall r hm
      obtain ⟨h₀, hh₀⟩ := Option.ne_none_iff_exists'.1 hrh'
      exact ⟨by simp, hraw', h₀, hh₀, by simp [hh₀]⟩
    · exact absurd (by rw [(hall r hm).1]; decide) (hidle r hm hno)
    · exact ⟨by simp [hst], hraw, h', hrh, htx⟩
  | replace state rows id new hs hr hn hraw =>
    have hall : ∀ r ∈ rows, r.status ∈ [TxStatus.broadcast, .replaced, .dropped] ∧ r.Sent := by
      rcases hs with rfl | rfl <;> exact h.2
    obtain ⟨hst, ⟨h', hrh, htx, -⟩, -⟩ := hn
    refine ⟨⟨new, by simp, by simp [hst]⟩, forall_snoc (forall_advance (fun r hm _ _ => ?_) fun r hm _ => ?_) ?_⟩
    · exact ⟨by simp, (hall r hm).2⟩
    · exact hall r hm
    · exact ⟨by simp [hst], hraw, h', hrh, htx⟩
  | land state rows id hs hr =>
    have hw : state ∈ waiting := by rcases hs with rfl | rfl <;> decide
    exact ⟨main_advance (has_replaced hr) (by simp [watched]), landed_rows h hw (by simp) (by simp)⟩
  | landReverted state rows id hs hr =>
    exact ⟨main_advance (has_replaced hr) (by simp), landed_rows h hs (by simp) (by simp)⟩
  | reorg rows id hr =>
    have hall := (h.waiting (by decide)).2
    have hidle := h1.others hr (by decide)
    refine ⟨main_advance hr (by simp), forall_advance (fun r hm _ _ => ⟨by simp, (hall r hm).2⟩) fun r hm hno => ?_⟩
    have := (hall r hm).1
    refine ⟨?_, (hall r hm).2⟩
    have hno' := hidle r hm hno
    revert hno' this
    cases r.status <;> decide
  | prepare l id b hs hr => exact h.prepare hs hr h2
  | refill state rows id new hr hn => exact h.refill hr hn
  | resolve l id hs hr => exact h.resolve hs hr
  | escalate rows id hr => exact h.escalate hr
  | forget l => exact h.forget

end

end Eth402.Settlement
