/-
The rows of a retired intent while its nonce is being filled. A signature that was recorded on a row stays there, with
its bytes, until a filler of the payment is recorded as mined; and a row is recorded as mined by the two moves that end
the watch of a filler, and no other.
-/
import Eth402.Settlement.Stable

namespace Eth402.Settlement

open Lib

variable {hash : Bytes → String} {k : Kind} {l l' : Life} {h : String}

/-- The statuses of a filler that was recorded as mined. -/
def minedStatuses : List TxStatus := [.reverted, .confirming]

/-- The signature with the hash `h` is watched: the network may still mine it. -/
def OnWatch (h : String) (rows : List Row) : Prop :=
  ∃ r ∈ rows, r.rawHash = some h ∧ r.status ∈ [.broadcast, .replaced] ∧ r.raw.isSome

/-- A filler of the payment was recorded as mined, or the signature is watched. -/
def Pending (h : String) (l : Life) : Prop := Main minedStatuses l.rows ∨ OnWatch h l.rows

theorem Retired.states (hs : Retired l) :
    ∀ s ∈ [State.received, .verified, .verificationFailed, .broadcasting, .broadcast,
    .confirming, .replaced, .confirmed, .reverted], l.state ≠ some s := by
  intro s hmem hst
  rcases hs with hs | hs | ⟨hs, -⟩ <;> rw [hs] at hst <;> cases hst <;> simp at hmem

theorem mem_advance_of_status {id : Nat} {s : List TxStatus} {f : Row → Row} {rows : List Row} {r : Row} (hr : r ∈ rows)
    (hs : r.status ∉ s) : r ∈ advance id s f rows := mem_advance.2 (.inr ⟨hr, fun h => hs h.2⟩)

/-- An update of rows in the statuses `s` leaves what is pending in other statuses. -/
theorem Pending.advance {state : Option State} {rows : List Row} {id : Nat} {s : List TxStatus} {f : Row → Row}
    (hp : Pending h ⟨state, rows⟩) (hs : ∀ x ∈ s, x ∉ [TxStatus.reverted, .confirming, .broadcast, .replaced]) :
    Pending h ⟨state, advance id s f rows⟩ := by
  rcases hp with ⟨r, hr, hst⟩ | ⟨r, hr, hh, hst, hraw⟩
  · refine .inl ⟨r, mem_advance_of_status hr fun hin => hs _ hin ?_, hst⟩
    revert hst
    cases r.status <;> decide
  · refine .inr ⟨r, mem_advance_of_status hr fun hin => hs _ hin ?_, hh, hst, hraw⟩
    revert hst
    cases r.status <;> decide

/-- What is pending of a retired intent is pending after every move. -/
theorem Pending.move (m : Move hash k l l') (hshape : Shape hash l) (hs : Retired l) (hp : Pending h l) :
    Pending h l' := by
  have hstates := hs.states
  cases m with
  | keep => exact hp
  | record rows => rcases hs with hs | hs | ⟨hs, -⟩ <;> cases hs
  | lapse | commit | send | doubt | retire | reorg => exact absurd rfl (hstates _ (by decide))
  | sign state rows id h' | prepare l id b => exact hp.advance (by decide)
  | sight state _ _ hs' | miss state _ hs' | replace state _ _ _ hs' | land state _ _ hs' =>
    refine absurd rfl (hstates state ?_)
    rcases hs' with rfl | rfl <;> decide
  | sightAgain state _ _ hs' =>
    refine absurd rfl (hstates state ?_)
    rcases hs' with rfl | rfl | rfl <;> decide
  | confirm state _ _ hs' | revert state _ _ hs' | landReverted state _ _ hs' =>
    refine absurd rfl (hstates state ?_)
    revert hs'
    cases state <;> decide
  | recover _ id _ hr | resign _ id _ hr => exact absurd hr (hs.not_ambiguous rfl)
  | refill state rows id new hr hn =>
    rcases hp with ⟨r, hr, hst⟩ | ⟨r, hr, hh, hst, hraw⟩
    · refine .inl ⟨r, List.mem_append_left _ (mem_mapIf.2 (.inr ⟨hr, ?_⟩)), hst⟩
      rw [Bool.eq_false_iff]
      intro hw
      have hb := (Row.is_iff.1 (Bool.and_eq_true_iff.1 hw).1).2
      revert hst hb
      cases r.status <;> decide
    · by_cases hw : (r.is id [.broadcast] && r.raw.isSome) = true
      · exact .inr ⟨{ r with status := .replaced }, List.mem_append_left _ (mem_mapIf.2 (.inl ⟨r, hr, hw, rfl⟩)), hh,
          by simp, hraw⟩
      · exact .inr ⟨r, List.mem_append_left _ (mem_mapIf.2 (.inr ⟨hr, by simpa using hw⟩)), hh, hst, hraw⟩
  | resolve l id _ hr =>
    obtain ⟨r, hr, his⟩ := hr
    refine .inl ⟨{ r with status := .reverted }, mem_mapIf.2 (.inr ⟨?_, by simp⟩), by simp [minedStatuses]⟩
    exact mem_advance.2 (.inl ⟨r, hr, Row.is_iff.1 his, rfl⟩)
  | escalate rows id hr =>
    obtain ⟨r, hr, his⟩ := hr
    refine .inl ⟨{ r with status := .confirming }, mem_mapIf.2 (.inr ⟨?_, by simp⟩), by simp [minedStatuses]⟩
    exact mem_advance.2 (.inl ⟨r, hr, Row.is_iff.1 his, rfl⟩)
  | forget l hf =>
    rcases hp with ⟨r, hr, hst⟩ | ⟨r, hr, hh, hst, hraw⟩
    · exact .inl ⟨_, List.mem_map.2 ⟨r, hr, rfl⟩, hst⟩
    · -- no bytes are forgotten while a signature is watched
      exfalso
      rcases hs with hs | hs | ⟨hs, hno⟩
      · rw [hf (.inl hs) r hr] at hst
        simp at hst
      · rw [hf (.inr hs) r hr] at hst
        simp at hst
      · obtain ⟨state, rows⟩ := l
        obtain rfl : state = some .manualReview := hs
        have := ((hshape.retired_review hno).2 r hr).1
        revert this hst
        cases r.status <;> decide

/-- The watch of a filler ends for a retired payment only. -/
theorem Move.retired_of_consumed (m : Move hash .consumed l l') : Retired l := by
  cases m with
  | resolve _ _ hs => exact hs
  | escalate => exact .inl rfl

/-- A row of a retired intent that is recorded as mined was so before, unless the move ends the watch of a filler. -/
theorem Move.mined_of (m : Move hash k l l') (hshape : Shape hash l) (hk : k ≠ .consumed) (hs : Retired l') {r' : Row}
    (hr' : r' ∈ l'.rows) (hst : r'.status ∈ minedStatuses) :
    Retired l ∧ ∃ r ∈ l.rows, r.id = r'.id ∧ r.status ∈ minedStatuses := by
  have hstates := hs.states
  have hadv : ∀ {rows : List Row} {id : Nat} {S : List TxStatus} {f : Row → Row}, (∀ r, (f r).status ∉ minedStatuses) →
      r' ∈ advance id S f rows → ∃ r ∈ rows, r.id = r'.id ∧ r.status ∈ minedStatuses := by
    intro rows id S f hf hx
    rcases mem_advance.1 hx with ⟨r, -, -, rfl⟩ | ⟨hx, -⟩
    · exact absurd hst (hf r)
    · exact ⟨r', hx, rfl, hst⟩
  cases m with
  | keep => exact ⟨hs, r', hr', rfl, hst⟩
  | lapse rows =>
    have hnil : rows = [] := hshape
    rw [hnil] at hr'
    cases hr'
  | record | commit | send | sight | miss | confirm | revert | recover | resign | replace | land | landReverted
  | reorg =>
    exact absurd rfl (hstates _ (by decide))
  | sign _ _ _ _ hr => exact absurd (hshape.of_has_intent hr) (hstates _ (by decide))
  | sightAgain state _ _ hs' =>
    refine absurd rfl (hstates state ?_)
    rcases hs' with rfl | rfl | rfl <;> decide
  | doubt rows id hr =>
    obtain ⟨r, hr, his⟩ := hr
    rcases hs with hs | hs | ⟨-, hno⟩
    · cases hs
    · cases hs
    · exact absurd rfl (hno _ (mem_advance.2 (.inl ⟨r, hr, Row.is_iff.1 his, rfl⟩)))
  | retire rows id target ht hr =>
    obtain ⟨r, hr, -, hrs⟩ := hadv (fun r => by simp [minedStatuses]) hr'
    exfalso
    obtain ⟨-, -, ⟨hi, -⟩ | ⟨hi, -⟩⟩ := hshape.2 r hr <;> simp [hi, minedStatuses] at hrs
  | prepare l id b hret => exact ⟨hret, hadv (fun r => by simp [minedStatuses]) hr'⟩
  | refill state rows id new hr hn =>
    obtain ⟨r, hr, -, hraw⟩ := hr
    refine ⟨hshape.of_raw hr (by intro hn; simp [hn] at hraw), ?_⟩
    rcases List.mem_append.1 hr' with hx | hx
    · rcases mem_mapIf.1 hx with ⟨r, -, -, rfl⟩ | ⟨hx, -⟩
      · simp [minedStatuses] at hst
      · exact ⟨r', hx, rfl, hst⟩
    · rw [List.mem_singleton.1 hx, hn.status] at hst
      simp [minedStatuses] at hst
  | resolve | escalate => exact absurd rfl hk
  | forget l =>
    obtain ⟨r, hr, rfl⟩ := List.mem_map.1 hr'
    refine ⟨?_, r, hr, rfl, hst⟩
    rcases hs with hs | hs | ⟨hs, hno⟩
    · exact .inl hs
    · exact .inr (.inl hs)
    · exact .inr (.inr ⟨hs, fun x hx => hno { x with raw := none } (List.mem_map.2 ⟨x, hx, rfl⟩)⟩)

end Eth402.Settlement
