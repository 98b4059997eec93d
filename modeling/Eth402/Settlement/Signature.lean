/-
What a payment's rows keep of the signatures recorded on them. Every move but one leaves the hashes and bytes of a
signed row as they are, up to clearing the bytes; the preparation of a filler writes its own over a dropped row. While
it is only used on rows that were never signed, a payment's unsigned row is its only one, and no signature is watched
once a filler is recorded as mined.
-/
import Eth402.Settlement.Filler

namespace Eth402.Settlement

open Lib

variable {hash : Bytes → String} {k : Kind} {l l' : Life}

/-! ## Signatures -/

/-- The row keeps the signature it has recorded: its hashes, and its bytes until they are cleared. -/
structure SignatureKept (r r' : Row) : Prop where
  id : r'.id = r.id
  rawHash : ∀ h, r.rawHash = some h → r'.rawHash = some h
  txHash : ∀ h, r.rawHash = some h → r'.txHash = r.txHash ∨ (r.txHash = none ∧ r'.txHash = some ("0x" ++ h))
  raw : r.rawHash ≠ none → r'.raw = r.raw ∨ r'.raw = none

theorem SignatureKept.refl (r : Row) : SignatureKept r r := ⟨rfl, fun _ h => h, fun _ _ => .inl rfl, fun _ => .inl rfl⟩

theorem SignatureKept.status (r : Row) (s : TxStatus) : SignatureKept r { r with status := s } :=
  ⟨rfl, fun _ h => h, fun _ _ => .inl rfl, fun _ => .inl rfl⟩

theorem SignatureKept.of_unsigned {r r' : Row} (hid : r'.id = r.id) (h : r.rawHash = none) : SignatureKept r r' :=
  ⟨hid, fun x hx => by simp [h] at hx, fun x hx => by simp [h] at hx, fun hne => absurd h hne⟩

theorem SignatureKept.trans {r₁ r₂ r₃ : Row} (h₁ : SignatureKept r₁ r₂) (h₂ : SignatureKept r₂ r₃) :
    SignatureKept r₁ r₃ where
  id := h₂.id.trans h₁.id
  rawHash h hh := h₂.rawHash h (h₁.rawHash h hh)
  txHash h hh := by
    rcases h₂.txHash h (h₁.rawHash h hh) with h₃ | ⟨hnone, h₃⟩
    · rw [h₃]
      exact h₁.txHash h hh
    · rcases h₁.txHash h hh with hsame | ⟨-, hsome⟩
      · exact .inr ⟨hsame ▸ hnone, h₃⟩
      · rw [hsome] at hnone
        cases hnone
  raw hne := by
    obtain ⟨h, hh⟩ := Option.ne_none_iff_exists'.1 hne
    have hne₂ : r₂.rawHash ≠ none := by simp [h₁.rawHash h hh]
    rcases h₂.raw hne₂ with h₃ | h₃
    · rw [h₃]
      exact h₁.raw hne
    · exact .inr h₃

/-- Every row of `rows` keeps its signature in `rows'`. -/
abbrev SignaturesKept (rows rows' : List Row) : Prop := LiveOn SignatureKept rows rows'

theorem signaturesKept_mapIf {w : Row → Bool} {f : Row → Row} {rows : List Row}
    (hf : ∀ r ∈ rows, w r = true → SignatureKept r (f r)) : SignaturesKept rows (mapIf w f rows) := .mapIf .refl hf

theorem signaturesKept_advance {id : Nat} {s : List TxStatus} {f : Row → Row} {rows : List Row}
    (hf : ∀ r ∈ rows, r.id = id → r.status ∈ s → SignatureKept r (f r)) : SignaturesKept rows (advance id s f rows) :=
  signaturesKept_mapIf fun r hr hw => hf r hr (Row.is_iff.1 hw).1 (Row.is_iff.1 hw).2

/-- The row gets the transaction hash of the signature it has recorded. -/
theorem SignatureKept.sent {r : Row} {s : TxStatus} {x : Option String} (hnone : r.txHash = none)
    (hx : ∀ h, r.rawHash = some h → x = some ("0x" ++ h)) : SignatureKept r { r with status := s, txHash := x } :=
  ⟨rfl, fun _ h => h, fun h hh => .inr ⟨hnone, hx h hh⟩, fun _ => .inl rfl⟩

/-- No move but the preparation of a filler changes a recorded signature. -/
theorem Move.signaturesKept (m : Move hash k l l') (hk : k ≠ .prepared) (hshape : Shape hash l) :
    SignaturesKept l.rows l'.rows := by
  cases m with
  | keep | record | lapse | miss => exact .refl .refl _
  | commit rows r => exact (LiveOn.refl .refl rows).snoc r
  | sign state rows id h' hr =>
    refine signaturesKept_advance fun r hm _ hst => ?_
    simp only [List.mem_singleton] at hst
    have hb : state = some .broadcasting := hshape.of_intent hm hst
    subst hb
    obtain ⟨-, -, ⟨-, hrh⟩ | ⟨hst', -⟩⟩ := hshape.2 r hm
    · exact .of_unsigned rfl hrh
    · rw [hst] at hst'
      cases hst'
  | send rows id h' hr hh =>
    refine signaturesKept_advance fun r hm hid _ => .sent (hshape.2 r hm).2.1 fun h hrh => ?_
    rw [hh r hm hid] at hrh
    cases hrh
    rfl
  | recover rows id h' hr hh =>
    refine signaturesKept_advance fun r hm hid _ => .sent (hshape.review_ambiguous hr r hm).2.2.1 fun h hrh => ?_
    rw [hh r hm hid] at hrh
    cases hrh
    rfl
  | resign rows id new hr hn hraw =>
    refine LiveOn.snoc (signaturesKept_advance fun r hm _ _ => ?_) new
    refine .sent (hshape.review_ambiguous hr r hm).2.2.1 fun h hrh => ?_
    rw [hrh]
    rfl
  | doubt | retire | sight | sightAgain | confirm | revert | reorg =>
    exact signaturesKept_advance fun r _ _ _ => .status r _
  | replace state rows id new => exact (signaturesKept_advance fun r _ _ _ => .status r _).snoc new
  | land | landReverted =>
    exact .trans .trans (signaturesKept_mapIf fun r _ _ => .status r _)
      (signaturesKept_advance fun r _ _ _ => .status r _)
  | prepare => exact absurd rfl hk
  | refill state rows id new => exact (signaturesKept_mapIf fun r _ _ => .status r _).snoc new
  | resolve | escalate =>
    exact .trans .trans (signaturesKept_advance fun r _ _ _ => .status r _)
      (signaturesKept_mapIf fun r _ _ => .status r _)
  | forget l =>
    intro r hr
    exact ⟨_, List.mem_map.2 ⟨r, hr, rfl⟩, rfl, fun _ h => h, fun _ _ => .inl rfl, fun _ => .inr rfl⟩

/-! ## The rows of a retired intent -/

/-- An unsigned row of a retired intent is its only one, and none of its signatures is watched once a filler is recorded
as mined. -/
structure Tidy (l : Life) : Prop where
  unsigned : Retired l → ∀ r ∈ l.rows, r.rawHash = none → ∀ r' ∈ l.rows, r' = r
  mined : Retired l → Main minedStatuses l.rows → ∀ r ∈ l.rows, r.status ∉ [.broadcast, .replaced]

/-- A signature on the network leaves no row of the retired intent unsigned. -/
theorem Tidy.signed (h : Tidy l) (hret : Retired l) (hshape : Shape hash l) {a : Row} (ha : a ∈ l.rows)
    (hst : a.status ∈ [.broadcast, .replaced]) : ∀ r ∈ l.rows, r.rawHash ≠ none := by
  intro r hr hnone
  obtain rfl := h.unsigned hret r hr hnone a ha
  obtain ⟨x, hx, -⟩ := (hshape.retired hret a ha).2.recorded (by
    intro hd
    rw [hd] at hst
    simp at hst)
  rw [hnone] at hx
  cases hx

theorem Tidy.of_state {s : State} (hs : s ∉ [State.expired, .failed, .manualReview]) (rows : List Row) :
    Tidy ⟨some s, rows⟩ := by
  have hno : ¬ Retired ⟨some s, rows⟩ := by
    rintro (h | h | ⟨h, -⟩) <;> cases h <;> simp at hs
  exact ⟨fun h => absurd h hno, fun h => absurd h hno⟩

/-- The rows once the watch of the row `id` ended with the status `s`: nothing is watched any more. -/
theorem not_watched_of_ended {id : Nat} {s : TxStatus} (hs : s ∉ [TxStatus.broadcast, .replaced]) (rows : List Row) :
    ∀ x ∈ mapIf (fun r => r.id ≠ id ∧ r.status ∈ [.broadcast, .replaced]) (fun r => { r with status := .dropped })
      (advance id [.broadcast, .replaced] (fun r => { r with status := s }) rows), x.status ∉ [TxStatus.broadcast,
        .replaced] := by
  refine forall_mapIf (fun r _ _ => by simp) fun r hr hw => ?_
  rcases mem_advance.1 hr with ⟨r₀, -, -, rfl⟩ | ⟨-, hno⟩
  · exact hs
  · intro hst
    refine of_decide_eq_false hw ⟨fun hid => hno ⟨hid, hst⟩, hst⟩

/-- Rows that are all signed stay so when only statuses change. -/
theorem signed_of_ended {id : Nat} {s : TxStatus} {rows : List Row} (h : ∀ r ∈ rows, r.rawHash ≠ none) :
    ∀ x ∈ mapIf (fun r => r.id ≠ id ∧ r.status ∈ [.broadcast, .replaced]) (fun r => { r with status := .dropped })
      (advance id [.broadcast, .replaced] (fun r => { r with status := s }) rows), x.rawHash ≠ none := by
  have hmid : ∀ x ∈ advance id [.broadcast, .replaced] (fun r => { r with status := s }) rows, x.rawHash ≠ none :=
    forall_advance (fun r hr _ _ => h r hr) fun r hr _ => h r hr
  exact forall_mapIf (fun r hr _ => hmid r hr) fun r hr _ => hmid r hr

theorem Tidy.of_signed (hs : ∀ r ∈ l.rows, r.rawHash ≠ none)
    (hm : Main minedStatuses l.rows → ∀ r ∈ l.rows, r.status ∉ [.broadcast, .replaced]) : Tidy l :=
  ⟨fun _ r hr hnone => absurd hnone (hs r hr), fun _ => hm⟩

theorem Tidy.move (m : Move hash k l l') (hk : k ≠ .prepared) (h1 : OneActive l.rows) (hshape : Shape hash l)
    (h : Tidy l) :
    Tidy l' := by
  cases m with
  | keep => exact h
  | record | commit | send | sight | miss | confirm | revert | recover | resign | replace | land | landReverted
  | reorg =>
    exact .of_state (by decide) _
  | lapse rows =>
    have hnil : rows = [] := hshape
    subst hnil
    exact .of_signed (fun r hr => by cases hr) fun _ r hr => by cases hr
  | sign state rows id h' hr =>
    obtain rfl : state = some .broadcasting := hshape.of_has_intent hr
    exact .of_state (by decide) _
  | sightAgain state rows id hs =>
    rcases hs with rfl | rfl | rfl <;> exact .of_state (by decide) _
  | doubt rows id hr =>
    obtain ⟨r, hr, his⟩ := hr
    have hno : ¬ Retired ⟨some .manualReview,
        advance id [.broadcasting] (fun r => { r with status := .ambiguous }) rows⟩ := by
      rintro (hs | hs | ⟨-, hs⟩)
      · cases hs
      · cases hs
      · exact hs _ (mem_advance.2 (.inl ⟨r, hr, Row.is_iff.1 his, rfl⟩)) rfl
    exact ⟨fun hs => absurd hs hno, fun hs => absurd hs hno⟩
  | retire rows id target ht hr =>
    -- a broadcasting payment has one row, and it is the intent's
    have hall := hshape.broadcasting_others h1 hr (by decide)
    have hone : ∀ a ∈ rows, ∀ b ∈ rows, a = b := by
      have hact : ∀ a ∈ rows, a.active = true := by
        intro a ha
        rw [Row.active_iff, List.mem_singleton.1 (hall a ha).2]
        decide
      exact fun a ha b hb => h1 a ha b hb (hact a ha) (hact b hb)
    constructor
    · intro _ r hr _ r' hr'
      rcases mem_advance.1 hr with ⟨a, ha, -, rfl⟩ | ⟨ha, hno⟩
      · rcases mem_advance.1 hr' with ⟨b, hb, -, rfl⟩ | ⟨hb, hno⟩
        · rw [hone b hb a ha]
        · exact absurd (hall _ hb) hno
      · exact absurd (hall _ ha) hno
    · rintro - ⟨r, hr, hst⟩
      rcases mem_advance.1 hr with ⟨a, ha, -, rfl⟩ | ⟨ha, hno⟩
      · simp [minedStatuses] at hst
      · exact absurd (hall _ ha) hno
  | prepare => exact absurd rfl hk
  | refill state rows id new hr hn =>
    obtain ⟨a, ha, his, hraw⟩ := hr
    have hret : Retired ⟨state, rows⟩ := hshape.of_raw ha (Option.isSome_iff_ne_none.1 hraw)
    have hst : a.status ∈ [TxStatus.broadcast, .replaced] := by
      have := (Row.is_iff.1 his).2
      revert this
      cases a.status <;> decide
    have hsigned := h.signed hret hshape ha hst
    refine .of_signed (forall_snoc (forall_mapIf (fun r hr _ => hsigned r hr) fun r hr _ => hsigned r hr) ?_) ?_
    · obtain ⟨x, hx, -⟩ := hn.hashes
      simp [hx]
    · -- nothing was recorded as mined while the bumped filler was watched
      rintro ⟨r, hr, hmined⟩
      exfalso
      rcases List.mem_append.1 hr with hr | hr
      · rcases mem_mapIf.1 hr with ⟨b, -, -, rfl⟩ | ⟨hr, -⟩
        · simp [minedStatuses] at hmined
        · exact h.mined hret ⟨r, hr, hmined⟩ a ha hst
      · rw [List.mem_singleton.1 hr, hn.status] at hmined
        simp [minedStatuses] at hmined
  | resolve l id hs hr =>
    obtain ⟨a, ha, his⟩ := hr
    exact .of_signed (signed_of_ended (h.signed hs hshape ha (Row.is_iff.1 his).2))
      fun _ => not_watched_of_ended (by decide) _
  | escalate rows id hr =>
    obtain ⟨a, ha, his⟩ := hr
    exact .of_signed (signed_of_ended (h.signed (.inl rfl) hshape ha (Row.is_iff.1 his).2))
      fun _ => not_watched_of_ended (by decide) _
  | forget l hf =>
    have hret : Retired ⟨l.state, l.rows.map fun r => { r with raw := none }⟩ → Retired l := by
      rintro (hs | hs | ⟨hs, hno⟩)
      · exact .inl hs
      · exact .inr (.inl hs)
      · exact .inr (.inr ⟨hs, fun x hx => hno { x with raw := none } (List.mem_map.2 ⟨x, hx, rfl⟩)⟩)
    constructor
    · intro hs r hr hnone r' hr'
      obtain ⟨a, ha, rfl⟩ := List.mem_map.1 hr
      obtain ⟨b, hb, rfl⟩ := List.mem_map.1 hr'
      rw [h.unsigned (hret hs) a ha hnone b hb]
    · rintro hs ⟨r, hr, hst⟩ r' hr'
      obtain ⟨a, ha, rfl⟩ := List.mem_map.1 hr
      obtain ⟨b, hb, rfl⟩ := List.mem_map.1 hr'
      exact h.mined (hret hs) ⟨a, ha, hst⟩ b hb

/-- A filler prepared on a row that was never signed leaves the rows tidy. -/
theorem Tidy.prepare {id : Nat} {f : Row → Row} (h : Tidy l) (hret : Retired l) (hshape : Shape hash l)
    (hf : ∀ r, (f r).rawHash ≠ none ∧ (f r).status = .broadcast) (hnone : ∀ r ∈ l.rows, r.id = id → r.rawHash = none) :
    Tidy ⟨l.state, advance id [.dropped] f l.rows⟩ := by
  by_cases hhas : ∃ r ∈ l.rows, r.id = id
  · -- the row is the only one
    obtain ⟨r, hr, hid⟩ := hhas
    have hone := h.unsigned hret r hr (hnone r hr hid)
    have hdropped : r.status = .dropped := by
      by_contra hne
      obtain ⟨x, hx, -⟩ := (hshape.retired hret r hr).2.recorded hne
      rw [hnone r hr hid] at hx
      cases hx
    have hall : ∀ x ∈ advance id [.dropped] f l.rows, x = f r := by
      refine forall_advance (fun a ha _ _ => by rw [hone a ha]) fun a ha hno => ?_
      rw [hone a ha] at hno
      exact absurd ⟨hid, by simp [hdropped]⟩ hno
    refine .of_signed (fun x hx => ?_) ?_
    · rw [hall x hx]
      exact (hf r).1
    · rintro ⟨x, hx, hst⟩
      rw [hall x hx, (hf r).2] at hst
      simp [minedStatuses] at hst
  · have hsame : advance id [.dropped] f l.rows = l.rows :=
      mapIf_of_false fun r hr => by
        rw [← Bool.not_eq_true, Row.is_iff]
        exact fun hw => hhas ⟨r, hr, hw.1⟩
    rw [hsame]
    exact h

end Eth402.Settlement
