/-
How many rows a payment has in the statuses its state is about, beyond what `Shape` says: a replaced payment has a
replaced row, a final outcome is recorded on one row, and the filler of a retired intent that is on the network has
its bytes stored.
-/
import Eth402.Settlement.Life

namespace Eth402.Settlement

open Lib

/-- All rows in the status are one row. -/
def Alone (s : TxStatus) (rows : List Row) : Prop :=
  ∀ a ∈ rows, ∀ b ∈ rows, a.status = s → b.status = s → a.id = b.id

structure Tally (l : Life) : Prop where
  replaced : l.state = some .replaced → Main [.replaced] l.rows
  confirmed : l.state = some .confirmed → Alone .confirmed l.rows
  reverted : l.state = some .reverted → Alone .reverted l.rows
  stored : l.state = some .expired ∨ l.state = some .failed → ∀ r ∈ l.rows, r.status = .broadcast → r.raw.isSome

variable {hash : Bytes → String} {k : Kind} {l l' : Life} {rows : List Row} {id : Nat}

theorem Tally.other {s : State} (h : s ∉ [.replaced, .confirmed, .reverted, .expired, .failed]) (rows : List Row) :
    Tally ⟨some s, rows⟩ := by
  simp only [List.mem_cons, List.not_mem_nil, or_false, not_or] at h
  obtain ⟨h₁, h₂, h₃, h₄, h₅⟩ := h
  refine ⟨?_, ?_, ?_, ?_⟩
  · rintro ⟨⟩; exact absurd rfl h₁
  · rintro ⟨⟩; exact absurd rfl h₂
  · rintro ⟨⟩; exact absurd rfl h₃
  · rintro (⟨⟨⟩⟩ | ⟨⟨⟩⟩)
    · exact absurd rfl h₄
    · exact absurd rfl h₅

theorem Tally.of_replaced (h : Main [.replaced] rows) : Tally ⟨some .replaced, rows⟩ where
  replaced _ := h
  confirmed h := by cases h
  reverted h := by cases h
  stored h := by rcases h with h | h <;> cases h

theorem Tally.of_confirmed (h : Alone .confirmed rows) : Tally ⟨some .confirmed, rows⟩ where
  replaced h := by cases h
  confirmed _ := h
  reverted h := by cases h
  stored h := by rcases h with h | h <;> cases h

theorem Tally.of_reverted (h : Alone .reverted rows) : Tally ⟨some .reverted, rows⟩ where
  replaced h := by cases h
  confirmed h := by cases h
  reverted _ := h
  stored h := by rcases h with h | h <;> cases h

/-- For a retired intent only the stored bytes count. -/
theorem Tally.of_retired (hs : Retired l) (h : ∀ r ∈ rows, r.status = .broadcast → r.raw.isSome) :
    Tally ⟨l.state, rows⟩ := by
  have hne : ∀ s ∈ [State.replaced, .confirmed, .reverted], l.state ≠ some s := by
    intro s hmem hst
    rcases hs with hs | hs | ⟨hs, -⟩ <;> rw [hs] at hst <;> cases hst <;> simp at hmem
  exact ⟨fun h' => absurd h' (hne _ (by decide)), fun h' => absurd h' (hne _ (by decide)),
    fun h' => absurd h' (hne _ (by decide)), fun _ => h⟩

/-- A retired intent's row on the network has its bytes stored; under review there is none. -/
theorem Tally.bytes (h : Tally l) (hshape : Shape hash l) (hs : Retired l) :
    ∀ r ∈ l.rows, r.status = .broadcast → r.raw.isSome := by
  obtain ⟨state, rows⟩ := l
  rcases hs with hs | hs | ⟨rfl, hno⟩
  · exact h.stored (.inl hs)
  · exact h.stored (.inr hs)
  · intro r hr hst
    have := ((hshape.retired_review hno).2 r hr).1
    rw [hst] at this
    simp at this

/-- The rows that an update puts into a status no row was in are one row. -/
theorem alone_advance {S : List TxStatus} {s : TxStatus} {f : Row → Row} (hno : ∀ r ∈ rows, r.status ≠ s)
    (hid : ∀ r, (f r).id = r.id) : Alone s (advance id S f rows) := by
  have hone : ∀ x ∈ advance id S f rows, x.status = s → x.id = id := by
    refine forall_advance (fun r _ h _ _ => (hid r).trans h) fun r hr _ hs => absurd hs (hno r hr)
  intro a ha b hb has hbs
  exact (hone a ha has).trans (hone b hb hbs).symm

/-- No row of a waiting payment has a final status. -/
theorem not_final {state : State} (h : Shape hash ⟨some state, rows⟩) (hs : state ∈ waiting) :
    ∀ r ∈ rows, r.status ≠ .confirmed ∧ r.status ≠ .reverted := by
  intro r hr
  have hst := ((h.waiting hs).2 r hr).1
  constructor <;> intro hf <;> rw [hf] at hst <;> simp at hst

theorem Alone.sightAgain {s : TxStatus} (hs : s ≠ .confirming) (h : Alone s rows) :
    Alone s (advance id watched (fun r => { r with status := .confirming }) rows) := by
  have hold : ∀ x ∈ advance id watched (fun r => { r with status := .confirming }) rows, x.status = s → x ∈ rows :=
    forall_advance (fun r _ _ _ h => absurd h.symm hs) fun r hr _ _ => hr
  intro a ha b hb has hbs
  exact h a (hold a ha has) b (hold b hb hbs) has hbs

theorem Alone.forget {s : TxStatus} (h : Alone s rows) : Alone s (rows.map fun r => { r with raw := none }) := by
  intro a ha b hb has hbs
  obtain ⟨a', ha', rfl⟩ := List.mem_map.1 ha
  obtain ⟨b', hb', rfl⟩ := List.mem_map.1 hb
  exact h a' ha' b' hb' has hbs

theorem Move.tally (m : Move hash k l l') (h1 : OneActive l.rows) (hshape : Shape hash l) (h : Tally l) : Tally l' := by
  cases m with
  | keep => exact h
  | record | commit | send | doubt | sight | miss | recover | land | reorg | escalate => exact .other (by decide) _
  | lapse rows =>
    have hnil : rows = [] := hshape
    subst hnil
    exact Tally.of_retired (l := ⟨some .expired, []⟩) (.inl rfl) fun r hr => by cases hr
  | sign state rows id h' hr =>
    obtain rfl : state = some .broadcasting := hshape.of_has_intent hr
    exact .other (by decide) _
  | retire rows id target ht hr =>
    have hno : ∀ x ∈ advance id [.intent] (fun r => { r with status := .dropped }) rows,
        x.status = .broadcast → x.raw.isSome := by
      refine forall_advance (fun r _ _ _ hb => by cases hb) fun r hm _ hb => ?_
      obtain ⟨-, -, ⟨hst, -⟩ | ⟨hst, -⟩⟩ := hshape.2 r hm <;> rw [hst] at hb <;> cases hb
    rcases ht with rfl | rfl
    · exact Tally.of_retired (l := ⟨some .failed, []⟩) (.inr (.inl rfl)) hno
    · exact Tally.of_retired (l := ⟨some .expired, []⟩) (.inl rfl) hno
  | sightAgain state rows id hs =>
    rcases hs with rfl | rfl | rfl
    · exact .other (by decide) _
    · exact .of_confirmed ((h.confirmed rfl).sightAgain (by decide))
    · exact .of_reverted ((h.reverted rfl).sightAgain (by decide))
  | confirm state rows id hs hr =>
    exact .of_confirmed (alone_advance (fun r hm => (not_final hshape hs r hm).1) fun _ => rfl)
  | revert state rows id hs hr =>
    exact .of_reverted (alone_advance (fun r hm => (not_final hshape hs r hm).2) fun _ => rfl)
  | resign rows id new hr hn hraw | replace _ rows id new _ hr hn hraw =>
    obtain ⟨a, ha, his⟩ := hr
    refine .of_replaced ⟨_, List.mem_append_left _ (mem_advance.2 (.inl ⟨a, ha, Row.is_iff.1 his, rfl⟩)), by simp⟩
  | landReverted state rows id hs hr =>
    refine .of_reverted (alone_advance ?_ fun _ => rfl)
    exact forall_mapIf (fun r _ _ hst => by cases hst) fun r hm _ => (not_final hshape hs r hm).2
  | prepare l id b hs hr =>
    exact .of_retired hs (forall_advance (fun r _ _ _ _ => rfl) fun r hm _ => h.bytes hshape hs r hm)
  | refill state rows id new hr hn hraw =>
    obtain ⟨a, ha, -, haraw⟩ := hr
    have hret : Retired ⟨state, rows⟩ := hshape.of_raw ha (by intro hn; simp [hn] at haraw)
    refine Tally.of_retired hret (forall_snoc (forall_mapIf (fun r _ _ hb => by cases hb) ?_) fun _ => hraw)
    exact fun r hm _ => h.bytes hshape hret r hm
  | resolve l id hs hr =>
    refine .of_retired hs (forall_mapIf (fun r _ _ hb => by cases hb) fun r hm hw hb => ?_)
    -- a row left on the network would be the resolved one, and that has reverted
    have hid : r.id = id := by
      by_contra hne
      rw [decide_eq_false_iff_not] at hw
      exact hw ⟨hne, by simp [hb]⟩
    rcases mem_advance.1 hm with ⟨x, -, -, rfl⟩ | ⟨-, hno⟩
    · cases hb
    · exact absurd ⟨hid, by simp [hb]⟩ hno
  | forget l hf =>
    refine ⟨fun hs => ?_, fun hs => (h.confirmed hs).forget, fun hs => (h.reverted hs).forget, fun hs r hr hb => ?_⟩
    · obtain ⟨r, hr, hst⟩ := h.replaced hs
      exact ⟨_, List.mem_map.2 ⟨r, hr, rfl⟩, hst⟩
    · obtain ⟨x, hx, rfl⟩ := List.mem_map.1 hr
      have hrev := hf hs x hx
      rw [show x.status = .broadcast from hb] at hrev
      cases hrev

end Eth402.Settlement
