/-
What no move of a payment's life takes away: a retired intent stays retired, a signed one stays in the
pipeline, a final outcome is final, and a row keeps its nonce and, in the pipeline, its hashes.
-/
import Eth402.Settlement.Life

namespace Eth402.Settlement

open Lib

variable {hash : Bytes → String} {k : Kind} {l l' : Life}

/-- The payment's transaction reached the network, as far as its record says. -/
def Broadcasted (l : Life) : Prop := ∃ s ∈ [State.broadcast, .confirming, .replaced, .confirmed, .reverted],
    l.state = some s

/-- The payment's intent was signed. -/
def Pipeline (l : Life) : Prop :=
  Broadcasted l ∨ (l.state = some .broadcasting ∧ ∀ r ∈ l.rows, r.status = .broadcasting) ∨
    (l.state = some .manualReview ∧ ∃ r ∈ l.rows, r.status = .ambiguous)

theorem Pipeline.not_retired (h : Pipeline l) : ¬ Retired l := by
  rintro (hs | hs | ⟨hs, hno⟩)
  · rcases h with ⟨s, hmem, hst⟩ | ⟨hst, -⟩ | ⟨hst, -⟩ <;> rw [hs] at hst <;> cases hst
    simp at hmem
  · rcases h with ⟨s, hmem, hst⟩ | ⟨hst, -⟩ | ⟨hst, -⟩ <;> rw [hs] at hst <;> cases hst
    simp at hmem
  · rcases h with ⟨s, hmem, hst⟩ | ⟨hst, -⟩ | ⟨-, r, hr, hr'⟩
    · rw [hs] at hst; cases hst; simp at hmem
    · rw [hs] at hst; cases hst
    · exact hno r hr hr'

theorem retired_of_state {s : State} (h : l.state = some s) (hs : s ∈ [State.expired, .failed]) : Retired l := by
  simp only [List.mem_cons, List.not_mem_nil, or_false] at hs
  rcases hs with rfl | rfl
  · exact .inl h
  · exact .inr (.inl h)

/-- A row about to be sent is the only row, so its payment is in the pipeline. -/
theorem Shape.signed {r : Row} (h : Shape hash l) (h1 : OneActive l.rows) (hr : r ∈ l.rows)
    (hs : r.status = .broadcasting) :
    Pipeline l := by
  have hst := h.of_broadcasting hr hs
  have hall : ∀ x ∈ l.rows, x.Fresh := by
    unfold Shape at h
    rw [hst] at h
    exact h.2
  refine .inr (.inl ⟨hst, fun x hx => ?_⟩)
  have hact : ∀ x ∈ l.rows, x.active = true := fun x hx => by
    obtain ⟨-, -, ⟨hi, -⟩ | ⟨hi, -⟩⟩ := hall x hx <;> simp [Row.active, hi, activeTransactionStatuses]
  rw [h1 x hx r hr (hact x hx) (hact r hr), hs]

theorem Move.not_received (m : Move hash k l l') (h : l.state ≠ some .received) : l'.state ≠ some .received := by
  cases m with
  | keep | sign | sightAgain | prepare | refill | resolve | forget => exact h
  | retire rows id target ht => rcases ht with rfl | rfl <;> simp
  | _ => simp

/-- Every move goes along an edge of the source's table, or stays. -/
theorem Move.edge (m : Move hash k l l') {s : State} (h : l.state = some s) :
    ∃ s', l'.state = some s' ∧ (s' = s ∨ s' ∈ transitions s) := by
  cases m with
  | keep | sign | sightAgain | prepare | refill | resolve | forget => exact ⟨s, h, .inl rfl⟩
  | record => cases h
  | lapse | commit | send | doubt | recover | resign | reorg | escalate => cases h; exact ⟨_, rfl, by decide⟩
  | retire _ _ _ hs | sight _ _ _ hs | replace _ _ _ _ hs | land _ _ _ hs | miss _ _ hs =>
    cases h; rcases hs with rfl | rfl <;> exact ⟨_, rfl, by decide⟩
  | confirm _ _ _ hs | revert _ _ _ hs | landReverted _ _ _ hs =>
    cases h
    simp only [waiting, List.mem_cons, List.not_mem_nil, or_false] at hs
    rcases hs with rfl | rfl | rfl <;> exact ⟨_, rfl, by decide⟩

theorem Move.terminal (m : Move hash k l l') {s : State} (h : l.state = some s) (hs : transitions s = []) :
    l'.state = some s := by
  obtain ⟨s', hst, rfl | hmem⟩ := m.edge h
  · exact hst
  · rw [hs] at hmem; cases hmem

theorem Broadcasted.move (m : Move hash k l l') (h : Broadcasted l) : Broadcasted l' := by
  obtain ⟨s, hmem, hst⟩ := h
  cases m with
  | keep | sign | prepare | refill | resolve | forget | sightAgain => exact ⟨s, hmem, hst⟩
  | record | lapse | commit | send | doubt | retire | recover | resign | escalate => cases hst <;> simp at hmem
  | sight | miss | land => exact ⟨.confirming, by decide, rfl⟩
  | confirm => exact ⟨.confirmed, by decide, rfl⟩
  | revert | landReverted => exact ⟨.reverted, by decide, rfl⟩
  | replace => exact ⟨.replaced, by decide, rfl⟩
  | reorg => exact ⟨.broadcast, by decide, rfl⟩

/-- A payment becomes confirmed or reverted by a final move only. -/
theorem Move.final_of (m : Move hash k l l') {s : State} (hs : s = .confirmed ∨ s = .reverted)
    (hst : l'.state = some s) (hne : l.state ≠ some s) : k = .final := by
  cases m with
  | keep | sign | prepare | refill | resolve | forget | sightAgain => exact absurd hst hne
  | confirm | revert | landReverted => rfl
  | retire _ _ _ ht => rcases ht with rfl | rfl <;> cases hst <;> simp at hs
  | record | lapse | commit | send | doubt | sight | miss | recover | resign | replace | land | reorg | escalate =>
    cases hst
    simp at hs

/-! ## Rows -/

/-- What a move keeps of a row: its owner's nonce, that it was signed, and outside the fillers of a
retired intent its hashes. -/
structure RowKept (l : Life) (r r' : Row) : Prop where
  id : r'.id = r.id
  signer : r'.signer = r.signer
  nonce : r'.nonce = r.nonce
  signed : r.status ≠ .intent → r'.status ≠ .intent
  rawHash : ¬ Retired l → r.rawHash ≠ none → r'.rawHash = r.rawHash
  txHash : ¬ Retired l → r.txHash ≠ none → r'.txHash = r.txHash

theorem RowKept.refl (r : Row) : RowKept l r r :=
  ⟨rfl, rfl, rfl, fun h => h, fun _ _ => rfl, fun _ _ => rfl⟩

/-- A change of status, away from intent. -/
theorem RowKept.status (r : Row) {s : TxStatus} (hs : s ≠ .intent) : RowKept l r { r with status := s } :=
  ⟨rfl, rfl, rfl, fun _ => hs, fun _ _ => rfl, fun _ _ => rfl⟩

theorem RowKept.trans {r₁ r₂ r₃ : Row} (h₁ : RowKept l r₁ r₂) (h₂ : RowKept l r₂ r₃) : RowKept l r₁ r₃ where
  id := h₂.id.trans h₁.id
  signer := h₂.signer.trans h₁.signer
  nonce := h₂.nonce.trans h₁.nonce
  signed h := h₂.signed (h₁.signed h)
  rawHash hret h := (h₂.rawHash hret (by rw [h₁.rawHash hret h]; exact h)).trans (h₁.rawHash hret h)
  txHash hret h := (h₂.txHash hret (by rw [h₁.txHash hret h]; exact h)).trans (h₁.txHash hret h)

theorem rowsKept_mapIf {w : Row → Bool} {f : Row → Row} {rows : List Row}
    (hf : ∀ r ∈ rows, w r = true → RowKept l r (f r)) : LiveOn (RowKept l) rows (mapIf w f rows) := .mapIf .refl hf

theorem rowsKept_advance {id : Nat} {s : List TxStatus} {f : Row → Row} {rows : List Row}
    (hf : ∀ r ∈ rows, r.status ∈ s → RowKept l r (f r)) : LiveOn (RowKept l) rows (advance id s f rows) :=
  rowsKept_mapIf fun r hr hw => hf r hr (Row.is_iff.1 hw).2

/-- Every row survives every move. -/
theorem Move.rowsKept (m : Move hash k l l') (h : Shape hash l) : LiveOn (RowKept l) l.rows l'.rows := by
  cases m with
  | keep | record | lapse | miss => exact .refl .refl _
  | commit rows r => exact (LiveOn.refl .refl rows).snoc r
  | sign state rows id h' hr =>
    refine rowsKept_advance fun r hm hst => ?_
    simp only [List.mem_singleton] at hst
    have hb : state = some .broadcasting := h.of_intent hm hst
    subst hb
    obtain ⟨-, htx, ⟨-, hrh⟩ | ⟨hst', -⟩⟩ := h.2 r hm
    · exact ⟨rfl, rfl, rfl, fun hno => absurd hst hno, fun _ hne => absurd hrh hne, fun _ _ => rfl⟩
    · rw [hst] at hst'; cases hst'
  | send rows id h' hr hh =>
    exact rowsKept_advance fun r hm _ =>
      ⟨rfl, rfl, rfl, fun _ => by simp, fun _ _ => rfl, fun _ hne => absurd (h.2 r hm).2.1 hne⟩
  | recover rows id h' hr hh =>
    exact rowsKept_advance fun r hm _ =>
      ⟨rfl, rfl, rfl, fun _ => by simp, fun _ _ => rfl,
        fun _ hne => absurd (h.review_ambiguous hr r hm).2.2.1 hne⟩
  | resign rows id new hr hn hraw =>
    refine LiveOn.snoc (rowsKept_advance fun r hm _ => ?_) new
    exact ⟨rfl, rfl, rfl, fun _ => by simp, fun _ _ => rfl,
      fun _ hne => absurd (h.review_ambiguous hr r hm).2.2.1 hne⟩
  | doubt | retire | sight | sightAgain | confirm | revert | reorg =>
    exact rowsKept_advance fun r _ _ => .status r (by simp)
  | replace state rows id new => exact (rowsKept_advance fun r _ _ => .status r (by simp)).snoc new
  | land | landReverted =>
    exact .trans .trans (rowsKept_mapIf fun r _ _ => .status r (by simp))
      (rowsKept_advance fun r _ _ => .status r (by simp))
  | prepare l id b hs hr =>
    exact rowsKept_advance fun r _ _ =>
      ⟨rfl, rfl, rfl, fun _ => by simp, fun hret _ => absurd hs hret, fun hret _ => absurd hs hret⟩
  | refill state rows id new => exact (rowsKept_mapIf fun r _ _ => .status r (by simp)).snoc new
  | resolve | escalate =>
    exact .trans .trans (rowsKept_advance fun r _ _ => .status r (by simp))
      (rowsKept_mapIf fun r _ _ => .status r (by simp))
  | forget l =>
    exact fun r hr => ⟨_, List.mem_map.2 ⟨r, hr, rfl⟩, rfl, rfl, rfl, fun h => h, fun _ _ => rfl, fun _ _ => rfl⟩

/-! ## The two ways of a life -/

theorem Retired.not_ambiguous {id : Nat} (h : Retired l) (hs : l.state = some .manualReview) :
    ¬ Has id [.ambiguous] l.rows := by
  rintro ⟨r, hr, his⟩
  rcases h with h | h | ⟨-, hno⟩
  · rw [h] at hs; cases hs
  · rw [h] at hs; cases hs
  · exact hno r hr (by simpa using (Row.is_iff.1 his).2)

theorem Retired.move (m : Move hash k l l') (hshape : Shape hash l) (h : Retired l) : Retired l' := by
  have hkeep : l'.state = l.state → (∀ r' ∈ l'.rows, r'.status = .ambiguous → ∃ r ∈ l.rows, r.status = .ambiguous) →
      Retired l' := by
    intro hst hrows
    rcases h with h | h | ⟨h, hno⟩
    · exact .inl (hst.trans h)
    · exact .inr (.inl (hst.trans h))
    · refine .inr (.inr ⟨hst.trans h, fun r' hr' ha => ?_⟩)
      obtain ⟨r, hr, ha'⟩ := hrows r' hr' ha
      exact hno r hr ha'
  have hstates : l.state = some .expired ∨ l.state = some .failed ∨ l.state = some .manualReview := by
    rcases h with h | h | ⟨h, -⟩ <;> simp [h]
  cases m with
  | keep => exact h
  | record | lapse | commit | send | doubt | retire | reorg => simp at hstates
  | sight _ _ _ hs | replace _ _ _ _ hs | land _ _ _ hs | miss _ _ hs =>
    rcases hs with rfl | rfl <;> simp at hstates
  | sightAgain _ _ _ hs => rcases hs with rfl | rfl | rfl <;> simp at hstates
  | confirm _ _ _ hs | revert _ _ _ hs | landReverted _ _ _ hs =>
    simp only [waiting, List.mem_cons, List.not_mem_nil, or_false] at hs
    rcases hs with rfl | rfl | rfl <;> simp at hstates
  | recover _ _ _ hr | resign _ _ _ hr => exact absurd hr (h.not_ambiguous rfl)
  | sign | prepare =>
    exact hkeep rfl (forall_advance (fun r _ _ _ ha => by cases ha) fun r hr _ ha => ⟨r, hr, ha⟩)
  | refill state rows id new hr hn =>
    refine hkeep rfl (forall_snoc (forall_mapIf (fun r _ _ ha => by cases ha) fun r hr _ ha => ⟨r, hr, ha⟩) ?_)
    intro ha; rw [hn.status] at ha; cases ha
  | resolve l id hs hr =>
    exact hkeep rfl (forall_mapIf (fun r _ _ ha => by cases ha)
      fun r hr _ ha => forall_advance (P := fun r => r.status = .ambiguous → ∃ r ∈ l.rows, r.status = .ambiguous)
        (fun r _ _ _ ha => by cases ha) (fun r hr _ ha => ⟨r, hr, ha⟩) r hr ha)
  | escalate rows id hr =>
    refine .inr (.inr ⟨rfl, forall_mapIf (fun r _ _ => by simp) fun r hr _ => ?_⟩)
    revert r
    refine forall_advance (fun r _ _ _ _ => by simp) fun r hr _ _ ha => ?_
    have := (hshape r hr).1
    simp [ha] at this
  | forget l =>
    refine hkeep rfl fun r' hr' ha => ?_
    obtain ⟨r, hr, rfl⟩ := List.mem_map.1 hr'
    exact ⟨r, hr, ha⟩

/-- A retired payment under review stays there: what would move it on is an ambiguous row. -/
theorem Retired.review (m : Move hash k l l') (h : Retired l) (hs : l.state = some .manualReview) :
    l'.state = some .manualReview := by
  cases m with
  | keep | sign | prepare | refill | resolve | forget | sightAgain => exact hs
  | record | lapse | commit | send | doubt | retire | reorg | escalate => cases hs
  | sight _ _ _ hs' | replace _ _ _ _ hs' | land _ _ _ hs' | miss _ _ hs' =>
    cases hs
    rcases hs' with hs' | hs' <;> cases hs'
  | confirm _ _ _ hs' | revert _ _ _ hs' | landReverted _ _ _ hs' =>
    cases hs
    simp [waiting] at hs'
  | recover _ _ _ hr | resign _ _ _ hr => exact absurd hr (h.not_ambiguous hs)

theorem Pipeline.move (m : Move hash k l l') (hshape : Shape hash l) (h : Pipeline l) : Pipeline l' := by
  have hret := h.not_retired
  rcases h with h | ⟨hst, hall⟩ | ⟨hst, a, ha, has⟩
  · exact .inl (h.move m)
  · have hno : ∀ id s, Has id s l.rows → .broadcasting ∉ s → False := by
      rintro id s ⟨r, hr, his⟩ hs
      exact hs (hall r hr ▸ (Row.is_iff.1 his).2)
    cases m with
    | keep => exact .inr (.inl ⟨hst, hall⟩)
    | record | lapse | commit | recover | resign | reorg | escalate => cases hst
    | sight _ _ _ hs | replace _ _ _ _ hs | land _ _ _ hs | miss _ _ hs =>
      cases hst; rcases hs with hs | hs <;> cases hs
    | sightAgain _ _ _ hs => cases hst; rcases hs with hs | hs | hs <;> cases hs
    | confirm _ _ _ hs | revert _ _ _ hs | landReverted _ _ _ hs => cases hst; simp [waiting] at hs
    | sign _ _ _ _ hr | retire _ _ _ _ hr => exact (hno _ _ hr (by decide)).elim
    | send => exact .inl ⟨.broadcast, by decide, rfl⟩
    | doubt rows id hr =>
      obtain ⟨r, hr, his⟩ := hr
      exact .inr (.inr ⟨rfl, _, mem_advance.2 (.inl ⟨r, hr, Row.is_iff.1 his, rfl⟩), rfl⟩)
    | prepare _ _ _ hs | resolve _ _ hs => exact absurd hs hret
    | refill _ _ _ _ hr =>
      obtain ⟨r, hr, his, -⟩ := hr
      exact (hno _ _ ⟨r, hr, his⟩ (by decide)).elim
    | forget l =>
      refine .inr (.inl ⟨hst, fun r' hr' => ?_⟩)
      obtain ⟨r, hr, rfl⟩ := List.mem_map.1 hr'
      exact hall r hr
  · cases m with
    | keep => exact .inr (.inr ⟨hst, a, ha, has⟩)
    | record | lapse | commit | send | doubt | retire | reorg | escalate => cases hst
    | sight _ _ _ hs | replace _ _ _ _ hs | land _ _ _ hs | miss _ _ hs =>
      cases hst; rcases hs with hs | hs <;> cases hs
    | sightAgain _ _ _ hs => cases hst; rcases hs with hs | hs | hs <;> cases hs
    | confirm _ _ _ hs | revert _ _ _ hs | landReverted _ _ _ hs => cases hst; simp [waiting] at hs
    | sign _ _ _ _ hr => cases hst.symm.trans (hshape.of_has_intent hr)
    | recover => exact .inl ⟨.broadcast, by decide, rfl⟩
    | resign => exact .inl ⟨.replaced, by decide, rfl⟩
    | prepare _ _ _ hs | resolve _ _ hs => exact absurd hs hret
    | refill _ _ _ _ hr =>
      obtain ⟨r, hr, -, hraw⟩ := hr
      exact absurd (hshape.of_raw hr (by intro hn; simp [hn] at hraw)) hret
    | forget l => exact .inr (.inr ⟨hst, _, List.mem_map.2 ⟨a, ha, rfl⟩, has⟩)

/-- A row that appears is on the nonce of an earlier row of the payment, or is its first. -/
theorem Move.origin (m : Move hash k l l') (hshape : Shape hash l) :
    ∀ r' ∈ l'.rows, l.rows = [] ∨ ∃ r ∈ l.rows, r'.signer = r.signer ∧ r'.nonce = r.nonce := by
  have self : ∀ r ∈ l.rows, l.rows = [] ∨ ∃ r₀ ∈ l.rows, r.signer = r₀.signer ∧ r.nonce = r₀.nonce :=
    fun r hr => .inr ⟨r, hr, rfl, rfl⟩
  cases m with
  | keep | record | lapse | miss => exact self
  | commit rows r =>
    have hnil : rows = [] := hshape
    exact fun _ _ => .inl hnil
  | sign | send | doubt | retire | sight | sightAgain | confirm | revert | recover | reorg | prepare =>
    exact forall_advance (fun r hr _ _ => self r hr) fun r hr _ => self r hr
  | resign rows id new hr hn | replace state rows id new hs hr hn =>
    exact forall_snoc (forall_advance (fun r hr _ _ => self r hr) fun r hr _ => self r hr) (.inr hn.nonce)
  | land | landReverted =>
    exact forall_advance (fun r hr _ _ => forall_mapIf (fun r hr _ => self r hr) (fun r hr _ => self r hr) r hr)
      fun r hr _ => forall_mapIf (fun r hr _ => self r hr) (fun r hr _ => self r hr) r hr
  | refill state rows id new hr hn =>
    exact forall_snoc (forall_mapIf (fun r hr _ => self r hr) fun r hr _ => self r hr) (.inr hn.nonce)
  | resolve | escalate =>
    exact forall_mapIf (fun r hr _ => forall_advance (fun r hr _ _ => self r hr) (fun r hr _ => self r hr) r hr)
      fun r hr _ => forall_advance (fun r hr _ _ => self r hr) (fun r hr _ => self r hr) r hr
  | forget l =>
    intro r' hr'
    obtain ⟨r, hr, rfl⟩ := List.mem_map.1 hr'
    exact self r hr

/-- Signed bytes first come to a payment with a prepared filler. -/
theorem Move.raw_of (m : Move hash k l l') (hk : k ≠ .prepared) (h : ∃ r ∈ l'.rows, r.raw ≠ none) :
    ∃ r ∈ l.rows, r.raw ≠ none := by
  have adv : ∀ {rows : List Row} {id : Nat} {S : List TxStatus} {f : Row → Row},
      (∃ x ∈ advance id S f rows, x.raw ≠ none) → (∀ r, (f r).raw = r.raw) → ∃ r ∈ rows, r.raw ≠ none := by
    rintro rows id S f ⟨x, hx, hraw⟩ hf
    rcases mem_advance.1 hx with ⟨r, hr, -, rfl⟩ | ⟨hx, -⟩
    · exact ⟨r, hr, by rwa [hf] at hraw⟩
    · exact ⟨x, hx, hraw⟩
  have upd : ∀ {rows : List Row} {w : Row → Bool} {f : Row → Row}, (∃ x ∈ mapIf w f rows, x.raw ≠ none) →
      (∀ r, (f r).raw = r.raw) → ∃ r ∈ rows, r.raw ≠ none := by
    rintro rows w f ⟨x, hx, hraw⟩ hf
    rcases mem_mapIf.1 hx with ⟨r, hr, -, rfl⟩ | ⟨hx, -⟩
    · exact ⟨r, hr, by rwa [hf] at hraw⟩
    · exact ⟨x, hx, hraw⟩
  have snoc : ∀ {rows : List Row} {new : Row}, new.raw = none → (∃ x ∈ rows ++ [new], x.raw ≠ none) →
      ∃ x ∈ rows, x.raw ≠ none := by
    rintro rows new hnew ⟨x, hx, hraw⟩
    rcases List.mem_append.1 hx with hx | hx
    · exact ⟨x, hx, hraw⟩
    · rw [List.mem_singleton.1 hx] at hraw; exact absurd hnew hraw
  cases m with
  | keep | record | lapse | miss => exact h
  | commit rows r hs hh => exact snoc hh.2.2 h
  | sign | send | doubt | retire | sight | sightAgain | confirm | revert | recover | reorg => exact adv h fun _ => rfl
  | resign rows id new hr hn hraw | replace state rows id new hs hr hn hraw => exact adv (snoc hraw h) fun _ => rfl
  | land | landReverted => exact upd (adv h fun _ => rfl) fun _ => rfl
  | prepare => exact absurd rfl hk
  | refill state rows id new hr hn =>
    obtain ⟨r, hr, -, hraw⟩ := hr
    exact ⟨r, hr, Option.isSome_iff_ne_none.1 hraw⟩
  | resolve | escalate => exact adv (upd h fun _ => rfl) fun _ => rfl
  | forget l =>
    obtain ⟨x, hx, hraw⟩ := h
    obtain ⟨r, -, rfl⟩ := List.mem_map.1 hx
    exact absurd rfl hraw

/-! ## What the two told moves break -/

/-- A payment in state confirming has a row in that status. -/
def Sighted (l : Life) : Prop := l.state = some .confirming → Main [.confirming] l.rows

/-- While the payment waits for its outcome, no row of it is given up. -/
def Undropped (l : Life) : Prop := ∀ s ∈ waiting, l.state = some s → ∀ r ∈ l.rows, r.status ≠ .dropped

/-- Every sighting that marks a row keeps the payment and the row together. -/
theorem Sighted.move (m : Move hash k l l') (hk : k ≠ .missed) (hshape : Shape hash l) (h : Sighted l) :
    Sighted l' := by
  intro hst
  have hret : Retired l → l.state ≠ some .confirming := by
    rintro (hs | hs | ⟨hs, -⟩) <;> simp [hs]
  cases m with
  | keep => exact h hst
  | miss => exact absurd rfl hk
  | record | lapse | commit | send | doubt | confirm | revert | recover | resign | replace | landReverted | reorg
  | escalate => cases hst
  | retire rows id target ht => rcases ht with rfl | rfl <;> cases hst
  | sight state rows id hs hr => exact main_advance hr (by simp)
  | land state rows id hs hr => exact main_advance (has_replaced hr) (by simp)
  | sightAgain state rows id hs =>
    obtain ⟨r, hr, hrs⟩ := h hst
    by_cases hid : r.id = id ∧ r.status ∈ watched
    · exact ⟨_, mem_advance.2 (.inl ⟨r, hr, hid, rfl⟩), by simp⟩
    · exact ⟨r, mem_advance.2 (.inr ⟨hr, hid⟩), hrs⟩
  | sign _ _ _ _ hr => cases hst.symm.trans (hshape.of_has_intent hr)
  | prepare _ _ _ hs | resolve _ _ hs => exact absurd hst (hret hs)
  | refill state rows id new hr hn =>
    obtain ⟨r, hr, -, hraw⟩ := hr
    exact absurd hst (hret (hshape.of_raw hr (by intro hn; simp [hn] at hraw)))
  | forget l =>
    obtain ⟨r, hr, hrs⟩ := h hst
    exact ⟨_, List.mem_map.2 ⟨r, hr, rfl⟩, hrs⟩

/-- Only an original taken for landed at its first sighting makes a waiting payment give up a row. -/
theorem Undropped.move (m : Move hash k l l') (hk : k ≠ .landed) (hshape : Shape hash l) (h : Undropped l) :
    Undropped l' := by
  intro s hs hst
  have hret : Retired l → l.state ≠ some s := by
    rintro (hl | hl | ⟨hl, -⟩) heq <;> rw [hl] at heq <;> cases heq <;> simp [waiting] at hs
  -- the rows of a waiting payment in a status other than dropped, and a changed one
  have hadv : ∀ {rows : List Row} {id : Nat} {S : List TxStatus} {f : Row → Row}, (∀ r ∈ rows, r.status ≠ .dropped) →
      (∀ r, (f r).status ≠ .dropped) → ∀ x ∈ advance id S f rows, x.status ≠ .dropped := fun hall hf =>
    forall_advance (fun r _ _ _ => hf r) fun r hr _ => hall r hr
  cases m with
  | keep => exact h s hs hst
  | record | lapse | commit | doubt | confirm | revert | landReverted | escalate => cases hst; simp [waiting] at hs
  | retire rows id target ht => rcases ht with rfl | rfl <;> cases hst <;> simp [waiting] at hs
  | land => exact absurd rfl hk
  | miss state rows hs' => exact h state (by rcases hs' with rfl | rfl <;> decide) rfl
  | sight state rows id hs' hr =>
    exact hadv (h state (by rcases hs' with rfl | rfl <;> decide) rfl) (by simp)
  | sightAgain state rows id hs' | sign state rows id h' hr => exact hadv (h s hs hst) (by simp)
  | reorg rows id hr => exact hadv (h .confirming (by decide) rfl) (by simp)
  | send rows id h' hr hh =>
    refine hadv (fun r hr => ?_) (by simp)
    obtain ⟨-, -, ⟨hi, -⟩ | ⟨hi, -⟩⟩ := hshape.2 r hr <;> simp [hi]
  | recover rows id h' hr hh =>
    exact hadv (fun r hm => by simp [(hshape.review_ambiguous hr r hm).1]) (by simp)
  | resign rows id new hr hn hraw =>
    refine forall_snoc (hadv (fun r hm => ?_) (by simp)) (by simp [hn.status])
    simp [(hshape.review_ambiguous hr r hm).1]
  | replace state rows id new hs' hr hn hraw =>
    exact forall_snoc (hadv (h state (by rcases hs' with rfl | rfl <;> decide) rfl) (by simp)) (by simp [hn.status])
  | prepare _ _ _ hs' | resolve _ _ hs' => exact absurd hst (hret hs')
  | refill state rows id new hr hn =>
    obtain ⟨r, hr, -, hraw⟩ := hr
    exact absurd hst (hret (hshape.of_raw hr (by intro hn; simp [hn] at hraw)))
  | forget l =>
    intro x hx
    obtain ⟨r, hr, rfl⟩ := List.mem_map.1 hx
    exact h s hs hst r hr

end Eth402.Settlement
