/-
The diagram of the transaction rows. Whatever calls the workers make and in whatever order, each of them takes a row one
step along its diagram at most, and a recorded outcome is the end of it. And every row a payment ever has is on one
nonce of one signer.
-/
import Eth402.System.Retention

namespace Eth402.Settlement

open Lib

variable {hash : Bytes → String} {k : Kind} {l l' : Life} {rows : List Row}

/-- The statuses that may follow. -/
def TxStatus.next : TxStatus → List TxStatus
  | .intent => [.broadcasting, .dropped]
  | .broadcasting => [.broadcast, .ambiguous]
  | .ambiguous => [.broadcast, .replaced]
  | .broadcast => [.confirming, .confirmed, .reverted, .replaced, .dropped]
  | .confirming => [.broadcast, .confirmed, .reverted, .dropped]
  | .replaced => [.confirming, .reverted, .dropped]
  -- the row of a retired intent is sent after all, as a filler of its nonce
  | .dropped => [.broadcast]
  | .confirmed | .reverted => []

/-- The row stays on its nonce, and in its status or one that follows it. -/
structure Follows (r r' : Row) : Prop where
  id : r'.id = r.id
  signer : r'.signer = r.signer
  nonce : r'.nonce = r.nonce
  status : r'.status = r.status ∨ r'.status ∈ r.status.next

theorem Follows.refl (r : Row) : Follows r r := ⟨rfl, rfl, rfl, .inl rfl⟩

/-- Every row is still there, a step further on at most. -/
abbrev RowsFollow (rows rows' : List Row) : Prop := LiveOn Follows rows rows'

/-- An update takes the rows it selects, which are in the given statuses, to one that may follow. -/
structure Takes (rows : List Row) (S : List TxStatus) (s : TxStatus) (w : Row → Bool) (f : Row → Row) : Prop where
  selects : ∀ r ∈ rows, w r = true → r.status ∈ S
  keeps : ∀ r, (f r).id = r.id ∧ (f r).signer = r.signer ∧ (f r).nonce = r.nonce ∧ (f r).status = s
  allowed : ∀ a ∈ S, s = a ∨ s ∈ a.next

theorem Takes.follows {S : List TxStatus} {s : TxStatus} {w : Row → Bool} {f : Row → Row} (h : Takes rows S s w f)
    {r : Row} (hr : r ∈ rows) (hw : w r = true) : Follows r (f r) := by
  obtain ⟨hid, hsigner, hnonce, hstatus⟩ := h.keeps r
  exact ⟨hid, hsigner, hnonce, hstatus ▸ h.allowed _ (h.selects r hr hw)⟩

/-- The update of one row in one of the given statuses. -/
theorem Takes.advance {id : Nat} {S : List TxStatus} {s : TxStatus} {f : Row → Row}
    (hf : ∀ r, (f r).id = r.id ∧ (f r).signer = r.signer ∧ (f r).nonce = r.nonce ∧ (f r).status = s)
    (hS : ∀ a ∈ S, s = a ∨ s ∈ a.next) : Takes rows S s (Row.is id S) f :=
  ⟨fun _ _ h => (Row.is_iff.1 h).2, hf, hS⟩

namespace RowsFollow

variable {S S' : List TxStatus} {s s' : TxStatus} {w w' : Row → Bool} {f f' : Row → Row}

theorem update (h : Takes rows S s w f) : RowsFollow rows (mapIf w f rows) := .mapIf .refl fun _ => h.follows

/-- Two updates, the second of which passes over what the first has changed. -/
theorem update₂ (h : Takes rows S s w f) (h' : Takes rows S' s' w' f') (hpass : ∀ r, w r = true → w' (f r) = false) :
    RowsFollow rows (mapIf w' f' (mapIf w f rows)) := by
  intro r hr
  by_cases hw : w r = true
  · exact ⟨f r, mem_mapIf.2 (.inr ⟨mem_mapIf.2 (.inl ⟨r, hr, hw, rfl⟩), hpass r hw⟩), h.follows hr hw⟩
  · have hmem : r ∈ mapIf w f rows := mem_mapIf.2 (.inr ⟨hr, by simpa using hw⟩)
    by_cases hw' : w' r = true
    · exact ⟨f' r, mem_mapIf.2 (.inl ⟨r, hmem, hw', rfl⟩), h'.follows hr hw'⟩
    · exact ⟨r, mem_mapIf.2 (.inr ⟨hmem, by simpa using hw'⟩), .refl r⟩

end RowsFollow

/-- Every move follows the diagram. -/
theorem Move.follows (m : Move hash k l l') (h : Shape hash l) : RowsFollow l.rows l'.rows := by
  have same : ∀ {s : TxStatus} (r : Row), { r with status := s }.id = r.id ∧ { r with status := s }.signer = r.signer ∧
      { r with status := s }.nonce = r.nonce ∧ { r with status := s }.status = s := fun _ => ⟨rfl, rfl, rfl, rfl⟩
  cases m with
  | keep | record | lapse | miss => exact .refl .refl _
  | commit rows r => exact (LiveOn.refl .refl rows).snoc r
  | sign | send | doubt | retire | sight | sightAgain | confirm | revert | recover | reorg | prepare =>
    exact .update (.advance (fun _ => ⟨rfl, rfl, rfl, rfl⟩) (by decide))
  | resign _ _ new =>
    refine LiveOn.snoc (RowsFollow.update (.advance (s := .replaced) (fun _ => ?_) ?_)) new
    · exact ⟨rfl, rfl, rfl, rfl⟩
    · decide
  | replace _ _ _ new => exact (RowsFollow.update (.advance same (by decide))).snoc new
  | land state rows id hs =>
    refine .update₂ (S := [.broadcast, .replaced, .dropped]) ⟨fun r hr _ => ?_, same, by decide⟩
      (.advance same (by decide)) fun r _ => by simp [Row.is]
    -- a payment that was broadcast has no row that is active in another status
    rcases hs with rfl | rfl <;> exact (h.2 r hr).1
  | landReverted state rows id hs =>
    exact .update₂ ⟨fun r hr _ => ((h.waiting hs).2 r hr).1, same, by decide⟩ (.advance same (by decide)) fun r _ => by
      simp [Row.is]
  | refill state rows id new =>
    refine LiveOn.snoc (RowsFollow.update (S := [.broadcast]) ⟨fun r _ hw => ?_, same, by decide⟩) new
    exact (Row.is_iff.1 (Bool.and_eq_true_iff.1 hw).1).2
  | resolve | escalate =>
    refine .update₂ (.advance same (by decide)) ⟨fun r _ hw => (of_decide_eq_true hw).2, same, by decide⟩ fun r hw => ?_
    exact decide_eq_false fun hne => hne.1 (Row.is_iff.1 hw).1
  | forget l => exact fun r hr => ⟨_, List.mem_map.2 ⟨r, hr, rfl⟩, rfl, rfl, rfl, .inl rfl⟩

end Eth402.Settlement

namespace Eth402.System

open Lib Store Settlement Verification

variable {lib : Libraries} {cfg : Settlement.Config}

/-- A step takes each row along the diagram. -/
theorem step_follows (run : Run lib cfg) (ch : Choice (facilitator lib cfg)) (q : Nat) :
    RowsFollow (rowsOf (reach lib cfg run).shared.db.tables q)
      (rowsOf (reach lib cfg (run ++ [ch])).shared.db.tables q) := by
  have hi := reach_inv run
  rw [reach_append]
  refine (kept_reach run).step_inv (I := fun (s : Shared) _ =>
    RowsFollow (rowsOf (reach lib cfg run).shared.db.tables q) (rowsOf s.db.tables q)) ch ?_ ?_ (.refl .refl _)
  · intro pid env c e _ _ _ hj _
    obtain ⟨k, -, m⟩ := hi.moves hj env q
    exact m.follows (hi.shape q)
  · intro m _
    obtain ⟨hpay, htx, -⟩ := outside_lives (reach lib cfg run).shared m
    have hrows := congrArg Life.rows (lifeOf_congr hpay htx q)
    change RowsFollow _ (rowsOf (outside (reach lib cfg run).shared m).db.tables q)
    change rowsOf _ q = rowsOf _ q at hrows
    rw [hrows]
    exact .refl .refl _

/-- The life still has the row, on its nonce, and with its outcome if it had one. -/
def Lasts (r : Transaction) (l : Life) : Prop :=
  ∃ x ∈ l.rows, x.id = r.id ∧ x.signer = r.signerAddress ∧ x.nonce = r.transactionNonce ∧
    (r.status.next = [] → x.status = r.status)

theorem Lasts.move {hash : Bytes → String} {k : Kind} {l l' : Life} {r : Transaction} (m : Settlement.Move hash k l l')
    (hshape : Shape hash l) (h : Lasts r l) : Lasts r l' := by
  obtain ⟨x, hx, hid, hsigner, hnonce, hfinal⟩ := h
  obtain ⟨y, hy, h⟩ := m.follows hshape x hx
  refine ⟨y, hy, h.id.trans hid, h.signer.trans hsigner, h.nonce.trans hnonce, fun hend => ?_⟩
  have hx := hfinal hend
  rw [← hx]
  refine h.status.resolve_right fun hnext => ?_
  rw [hx, hend] at hnext
  cases hnext

/-- A row is still there however the run goes on, on its nonce; and an outcome stays. -/
theorem row_later (run more : Run lib cfg) {r : Transaction}
    (hr : r ∈ (reach lib cfg run).shared.db.tables.transactions) :
    ∃ r' ∈ (reach lib cfg (run ++ more)).shared.db.tables.transactions, r'.id = r.id ∧ r'.paymentId = r.paymentId ∧
      r'.signerAddress = r.signerAddress ∧ r'.transactionNonce = r.transactionNonce ∧
      (r.status.next = [] → r'.status = r.status) := by
  have h : Lasts r (lifeOf (reach lib cfg run).shared.db.tables r.paymentId) :=
    ⟨r.row, mem_rowsOf.2 ⟨r, hr, rfl, rfl⟩, rfl, rfl, rfl, fun _ => rfl⟩
  obtain ⟨x, hx, hid, hrest⟩ := lives_later (fun _ _ _ m _ hshape => Lasts.move m hshape) h more
  obtain ⟨r', hr', hq, rfl⟩ := mem_rowsOf.1 hx
  exact ⟨r', hr', hid, hq, hrest⟩

/-- Each step of a run takes each transaction row along its diagram, one status at most; and however a run goes on, no
row is lost or moved to another payment, signer or nonce, and a row recorded as confirmed or reverted stays as it is. -/
theorem rows_follow_diagram (run : Run lib cfg) :
    ∀ r ∈ (reach lib cfg run).shared.db.tables.transactions,
      (∀ ch, ∃ r' ∈ (reach lib cfg (run ++ [ch])).shared.db.tables.transactions, r'.id = r.id ∧
        (r'.status = r.status ∨ r'.status ∈ r.status.next)) ∧
      ∀ more, ∃ r' ∈ (reach lib cfg (run ++ more)).shared.db.tables.transactions, r'.id = r.id ∧
        r'.paymentId = r.paymentId ∧ r'.signerAddress = r.signerAddress ∧ r'.transactionNonce = r.transactionNonce ∧
        (r.status ∈ [.confirmed, .reverted] → r'.status = r.status) := by
  intro r hr
  constructor
  · intro ch
    obtain ⟨x, hx, h⟩ := step_follows run ch r.paymentId r.row (mem_rowsOf.2 ⟨r, hr, rfl, rfl⟩)
    obtain ⟨r', hr', -, rfl⟩ := mem_rowsOf.1 hx
    exact ⟨r', hr', h.id, h.status⟩
  · intro more
    obtain ⟨r', hr', hid, hq, hsigner, hnonce, hend⟩ := row_later run more hr
    refine ⟨r', hr', hid, hq, hsigner, hnonce, fun hfinal => hend ?_⟩
    rcases List.mem_pair.1 hfinal with hs | hs <;> rw [hs] <;> rfl

/-- The row of the sample payment, sent once, is there however the run goes on. -/
theorem rows_follow_diagram_sample : ∃ r ∈ (reach sampleLib sampleConfig sampleBroadcast).shared.db.tables.transactions,
    (r.id = 11 ∧ r.status = .broadcast) ∧
      ∀ more, ∃ r' ∈ (reach sampleLib sampleConfig (sampleBroadcast ++ more)).shared.db.tables.transactions,
        r'.id = r.id ∧ r'.transactionNonce = r.transactionNonce := by
  have h : ∃ r ∈ (reach sampleLib sampleConfig sampleBroadcast).shared.db.tables.transactions,
      r.id = 11 ∧ r.status = .broadcast := by decide +kernel
  obtain ⟨r, hr, hrow⟩ := h
  refine ⟨r, hr, hrow, fun more => ?_⟩
  obtain ⟨r', hr', hid, -, -, hnonce, -⟩ := (rows_follow_diagram sampleBroadcast r hr).2 more
  exact ⟨r', hr', hid, hnonce⟩

/-- Whatever is signed for a payment in the course of a run, its intent, the replacements of it, the fillers of its gap:
all its rows, those of earlier states too, are on the same nonce of the same signer. -/
theorem payment_keeps_nonce (run more : Run lib cfg) :
    ∀ r ∈ (reach lib cfg run).shared.db.tables.transactions,
      ∀ r' ∈ (reach lib cfg (run ++ more)).shared.db.tables.transactions, r'.paymentId = r.paymentId →
        r'.signerAddress = r.signerAddress ∧ r'.transactionNonce = r.transactionNonce := by
  intro r hr r' hr' hq
  obtain ⟨x, hx, -, hxq, hsigner, hnonce, -⟩ := row_later run more hr
  obtain ⟨hs, hn⟩ := reach_oneNonce (run ++ more) r.paymentId r'.row (mem_rowsOf.2 ⟨r', hr', hq, rfl⟩) x.row
    (mem_rowsOf.2 ⟨x, hx, hxq, rfl⟩)
  exact ⟨hs.trans hsigner, hn.trans hnonce⟩

/-- After the sample payment's transaction is replaced, whatever is signed for it is on the replacement's nonce. -/
theorem payment_keeps_nonce_sample : ∃ r ∈ (reach sampleLib sampleConfig sampleBumped).shared.db.tables.transactions,
    (r.id = 12 ∧ r.paymentId = 10) ∧
      ∀ more, ∀ r' ∈ (reach sampleLib sampleConfig (sampleBumped ++ more)).shared.db.tables.transactions,
        r'.paymentId = r.paymentId → r'.transactionNonce = r.transactionNonce := by
  have h : ∃ r ∈ (reach sampleLib sampleConfig sampleBumped).shared.db.tables.transactions,
      r.id = 12 ∧ r.paymentId = 10 := by decide +kernel
  obtain ⟨r, hr, hrow⟩ := h
  exact ⟨r, hr, hrow, fun more r' hr' hq => (payment_keeps_nonce sampleBumped more r hr r' hr' hq).2⟩

end Eth402.System
