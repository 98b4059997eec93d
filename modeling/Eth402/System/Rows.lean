/-
The transaction rows a payment has in each state. Every worker dispatches on the status it loads, so this is what the
settlement code relies on: it holds in every state of every run, whatever ids and leases the calls were made with.
-/
import Eth402.Settlement.Tally
import Eth402.System.Invariant

namespace Eth402.System

open Lib Store Settlement Verification

variable {lib : Libraries} {cfg : Settlement.Config} {db : DB} {p : Nat} {hash : Bytes → String}

/-- The transaction rows of a payment. -/
def rowsAt (t : Tables) (p : Nat) : List Transaction := t.transactions.filter fun r => r.paymentId = p

/-- Exactly one of the rows is active, and it is like this. -/
def OnlyActive (rows : List Transaction) (like : Transaction → Prop) : Prop :=
  ∃ r, rows.filter (·.active) = [r] ∧ like r

def NoneActive (rows : List Transaction) : Prop := rows.filter (·.active) = []

/-- Exactly one of the rows is in the status. -/
def OnlyIn (s : TxStatus) (rows : List Transaction) : Prop := ∃ r, rows.filter (·.status = s) = [r]

/-- The rows a payment in the given state has; `none` is a payment that is not on record. -/
def Fits (rows : List Transaction) : Option State → Prop
  | none | some .received | some .verified => rows = []
  | some .broadcasting => ∃ r, rows = [r] ∧ r.status ∈ [.intent, .broadcasting]
  | some .replaced => OnlyActive rows (·.status = .broadcast) ∧ ∃ r ∈ rows, r.status = .replaced
  | some .manualReview => OnlyActive rows (·.status ∈ [.ambiguous, .confirming])
  | some .confirmed => NoneActive rows ∧ OnlyIn .confirmed rows
  | some .reverted => NoneActive rows ∧ OnlyIn .reverted rows
  | some .expired | some .failed =>
    NoneActive rows ∨ OnlyActive rows fun r => r.status = .broadcast ∧ r.rawTransaction.isSome
  | some .broadcast | some .confirming | some .verificationFailed => True

/-! ## From lives to tables -/

theorem rowsAt_ids (db : DB) (p : Nat) : ((rowsAt db.tables p).map (·.id)).Nodup :=
  db.wf.transactionIds.sublist (List.filter_sublist.map _)

theorem mem_rowsOf_of {r : Transaction} (hr : r ∈ rowsAt db.tables p) : r.row ∈ rowsOf db.tables p :=
  List.mem_map.2 ⟨r, hr, rfl⟩

theorem exists_rowsAt {x : Row} (hx : x ∈ rowsOf db.tables p) : ∃ r ∈ rowsAt db.tables p, r.row = x := List.mem_map.1 hx

theorem onlyActive_of {like : Transaction → Prop} {r : Transaction} (hr : r ∈ rowsAt db.tables p)
    (hact : r.active = true) (hlike : like r) : OnlyActive (rowsAt db.tables p) like := by
  refine ⟨r, filter_eq_singleton_of_key (rowsAt_ids db p) hr hact fun y hy hyact => ?_, hlike⟩
  exact congrArg Row.id (oneActive_rowsOf db p y.row (mem_rowsOf_of hy) r.row (mem_rowsOf_of hr) hyact hact)

theorem noneActive_of {S : List TxStatus} (h : ∀ x ∈ rowsOf db.tables p, x.status ∈ S)
    (hS : ∀ s ∈ S, s ∉ activeTransactionStatuses) : NoneActive (rowsAt db.tables p) := by
  refine List.filter_eq_nil_iff.2 fun r hr hact => ?_
  exact hS _ (h r.row (mem_rowsOf_of hr)) (of_decide_eq_true hact)

theorem onlyIn_of {s : TxStatus} (hmain : Main [s] (rowsOf db.tables p)) (h : Alone s (rowsOf db.tables p)) :
    OnlyIn s (rowsAt db.tables p) := by
  obtain ⟨x, hx, hst⟩ := hmain
  obtain ⟨r, hr, rfl⟩ := exists_rowsAt hx
  have hst : r.status = s := List.mem_singleton.1 hst
  refine ⟨r, filter_eq_singleton_of_key (rowsAt_ids db p) hr (decide_eq_true hst) fun y hy hys => ?_⟩
  exact h y.row (mem_rowsOf_of hy) r.row hx (of_decide_eq_true hys) hst

theorem onlyActive_of_main {S : List TxStatus} (hmain : Main S (rowsOf db.tables p))
    (hS : ∀ s ∈ S, s ∈ activeTransactionStatuses) : OnlyActive (rowsAt db.tables p) (·.status ∈ S) := by
  obtain ⟨x, hx, hst⟩ := hmain
  obtain ⟨r, hr, rfl⟩ := exists_rowsAt hx
  exact onlyActive_of hr (decide_eq_true (hS _ hst)) hst

theorem eq_singleton_of_active {S : List TxStatus} (hmain : Main S (rowsOf db.tables p))
    (h : ∀ x ∈ rowsOf db.tables p, x.status ∈ S) (hS : ∀ s ∈ S, s ∈ activeTransactionStatuses) :
    ∃ r, rowsAt db.tables p = [r] ∧ r.status ∈ S := by
  obtain ⟨r, hr, hst⟩ := onlyActive_of_main hmain hS
  refine ⟨r, ?_, hst⟩
  rw [← hr]
  refine (List.filter_eq_self.2 fun y hy => ?_).symm
  exact decide_eq_true (hS _ (h y.row (mem_rowsOf_of hy)))

/-- The rows of a retired intent: at most a filler whose bytes are stored is active. -/
theorem fits_retired (h : ∀ x ∈ rowsOf db.tables p, x.status ∈ [TxStatus.dropped, .broadcast, .replaced, .reverted] ∧
      x.Filler hash)
    (hbytes : ∀ x ∈ rowsOf db.tables p, x.status = .broadcast → x.raw.isSome) :
    NoneActive (rowsAt db.tables p) ∨
      OnlyActive (rowsAt db.tables p) fun r => r.status = .broadcast ∧ r.rawTransaction.isSome := by
  by_cases hsome : ∃ r ∈ rowsAt db.tables p, r.active = true
  · obtain ⟨r, hr, hact⟩ := hsome
    have hst : r.status = .broadcast := by
      have hmem := (h r.row (mem_rowsOf_of hr)).1
      have hact := of_decide_eq_true hact
      change r.status ∈ _ at hmem
      revert hmem hact
      cases r.status <;> decide
    exact .inr (onlyActive_of hr hact ⟨hst, hbytes r.row (mem_rowsOf_of hr) hst⟩)
  · refine .inl (List.filter_eq_nil_iff.2 fun r hr hact => hsome ⟨r, hr, hact⟩)

theorem fits_of_shape (hshape : Shape hash (lifeOf db.tables p)) (ht : Tally (lifeOf db.tables p)) :
    Fits (rowsAt db.tables p) (stateOf p db.tables) := by
  have hnil : rowsOf db.tables p = [] → rowsAt db.tables p = [] := List.map_eq_nil_iff.1
  unfold lifeOf at hshape ht
  cases hst : stateOf p db.tables with
  | none => rw [hst] at hshape; exact hnil hshape
  | some s =>
    rw [hst] at hshape ht
    cases s with
    | received | verified => exact hnil hshape
    | verificationFailed | broadcast | confirming => trivial
    | broadcasting =>
      refine eq_singleton_of_active hshape.1 (fun x hx => ?_) (by decide)
      rcases (hshape.2 x hx).2.2 with ⟨hs, -⟩ | ⟨hs, -⟩ <;> rw [hs] <;> decide
    | replaced =>
      obtain ⟨r, hr, hs⟩ := onlyActive_of_main hshape.1 (by decide)
      refine ⟨⟨r, hr, List.mem_singleton.1 hs⟩, ?_⟩
      obtain ⟨x, hx, hs⟩ := ht.replaced rfl
      obtain ⟨y, hy, rfl⟩ := exists_rowsAt hx
      exact ⟨y, hy, List.mem_singleton.1 hs⟩
    | manualReview =>
      rcases hshape with ⟨hmain, -⟩ | ⟨hmain, -⟩
      · obtain ⟨r, hr, hs⟩ := onlyActive_of_main hmain (by decide)
        exact ⟨r, hr, by simp [List.mem_singleton.1 hs]⟩
      · obtain ⟨r, hr, hs⟩ := onlyActive_of_main hmain (by decide)
        exact ⟨r, hr, by simp [List.mem_singleton.1 hs]⟩
    | confirmed =>
      exact ⟨noneActive_of (fun x hx => (hshape.2 x hx).1) (by decide), onlyIn_of hshape.1 (ht.confirmed rfl)⟩
    | reverted =>
      exact ⟨noneActive_of (fun x hx => (hshape.2 x hx).1) (by decide), onlyIn_of hshape.1 (ht.reverted rfl)⟩
    | expired => exact fits_retired hshape (ht.stored (.inl rfl))
    | failed => exact fits_retired hshape (ht.stored (.inr rfl))

/-! ## Whole runs -/

theorem reach_tally (run : Run lib cfg) (p : Nat) : Tally (lifeOf (reach lib cfg run).shared.db.tables p) := by
  refine run_lives (L := Tally) (K := fun _ => True) (P := fun _ _ _ _ _ => True) ?_ ?_ ?_ run ?_ p
  · intro rows
    constructor
    · intro h; cases h
    · intro h; cases h
    · intro h; cases h
    · rintro (h | h) <;> cases h
  · exact fun k l l' _ m h1 hshape h => m.tally h1 hshape h
  · intros; trivial
  · exact along_of_forall (fun _ _ _ _ _ _ _ _ _ => trivial) _ _

/-- In every state of every run the rows of a payment fit its state: none before settlement, the intent's one row while
it is broadcast, one active row (the replacement) and an original once replaced, one active row under review, no active
row and exactly one row with the outcome once final, and at most a filler with stored bytes active once retired. -/
theorem rows_fit_state (lib : Libraries) (cfg : Settlement.Config) (run : Run lib cfg) (p : Nat) :
    Fits (rowsAt (reach lib cfg run).shared.db.tables p) (stateOf p (reach lib cfg run).shared.db.tables) :=
  fits_of_shape ((reach_inv run).shape p) (reach_tally run p)

end Eth402.System
