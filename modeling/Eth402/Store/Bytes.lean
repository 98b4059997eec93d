/-
The recorded bytes of fillers: no call moves bytes to a row of another signer, and the only bytes that are new are
those a filler is prepared or replaced with, on a row of the signer it stands for.
-/
import Eth402.Store.Steps

namespace Eth402.Store

open Lib Settlement Verification

variable {db db' : DB} {env : DbEnv} {t t' : Tables}

/-- Whatever bytes are recorded were recorded before, on a row of the same signer. -/
def BytesKept (t t' : Tables) : Prop :=
  ∀ r' ∈ t'.transactions, ∀ raw, r'.rawTransaction = some raw →
    ∃ r ∈ t.transactions, r.signerAddress = r'.signerAddress ∧ r.rawTransaction = some raw

/-- The call records the bytes for the row `t`. -/
def Op.Records (t : Nat) (raw : Bytes) : Op → Prop
  | .markGapFillerPrepared u _ _ b _ _ _ | .markGapFillerReplaced _ u _ b => u = t ∧ b = raw
  | _ => False

theorem BytesKept.of_eq (h : t'.transactions = t.transactions) : BytesKept t t' := fun r' hr' _ hraw =>
  ⟨r', h ▸ hr', rfl, hraw⟩

theorem BytesKept.update {w : Transaction → Bool} {f : Transaction → Transaction} (hf : ∀ r, SameRow r (f r))
    (t : Tables) :
    BytesKept t (t.updateTransactions w f) := by
  intro r' hr' raw hraw
  rcases mem_mapIf.1 hr' with ⟨r, hr, -, rfl⟩ | ⟨hr, -⟩
  · exact ⟨r, hr, (hf r).signerAddress.symm, (hf r).rawTransaction.symm.trans hraw⟩
  · exact ⟨r', hr, rfl, hraw⟩

theorem BytesKept.insert (t : Tables) {x : Transaction} (hx : x.rawTransaction = none) :
    BytesKept t { t with transactions := t.transactions ++ [x] } := by
  intro r' hr' raw hraw
  rcases List.mem_append.1 hr' with hr | hr
  · exact ⟨r', hr, rfl, hraw⟩
  · rw [List.mem_singleton.1 hr, hx] at hraw
    cases hraw

theorem bytesKept_calm : PaymentCalm BytesKept where
  refl _ := .of_eq rfl
  trans a b c h₁ h₂ r'' hr'' raw hraw := by
    obtain ⟨r', hr', hs', hraw'⟩ := h₂ r'' hr'' raw hraw
    obtain ⟨r, hr, hs, hraw⟩ := h₁ r' hr' raw hraw'
    exact ⟨r, hr, hs.trans hs', hraw⟩
  advance _ _ _ _ := .of_eq rfl
  audit _ _ := .of_eq rfl

theorem bytesKept_motions : RowMotions BytesKept :=
  ⟨bytesKept_calm.motions, fun _ _ hf => .update hf, fun t _ _ _ _ hraw => .insert t hraw⟩

theorem bytesKept_leaseBlind : LeaseBlind BytesKept where
  refl := bytesKept_calm.refl
  trans := bytesKept_calm.trans
  lease _ _ _ _ := .of_eq rfl

theorem bytesKept_insertVerified (env : DbEnv) (p : ParsedPayment) : Txn.Keeps BytesKept (insertVerified env p) := by
  intro db n db' h
  cases insertVerified_ok h with
  | known _ _ _ hdb => exact .of_eq (by rw [hdb])
  | inserted merchant amount _ _ _ _ ht => exact .of_eq (by rw [ht])

theorem bytesKept_createSettlementIntent (request : IntentRequest) :
    Txn.Keeps BytesKept (createSettlementIntent env request) := by
  refine .createSettlementIntent (fun _ _ hq => .of_eq hq.transactions) fun db db' signer p nonce _ hc => ?_
  have hinsert := BytesKept.insert db.tables (x := intentRow env p.id signer nonce) rfl
  exact bytesKept_calm.trans _ _ _ hinsert (.of_eq hc.transactions)

theorem bytesKept_applyRetention (request : RetentionRequest) : Txn.Keeps BytesKept (applyRetention env request) := by
  intro db r db' h r' hr' raw hraw
  obtain ⟨-, ids, mid, hexpire, hredact⟩ := applyRetention_steps h
  have htx : mid.tables.transactions = db.tables.transactions := by
    rw [hexpire]
    rfl
  rw [hredact] at hr'
  obtain ⟨x, hx, rfl⟩ := List.mem_map.1 hr'
  rw [htx] at hx
  split at hraw
  · cases hraw
  · refine ⟨x, hx, ?_, hraw⟩
    rw [if_neg ‹_›]

theorem run_bytesKept (op : Op) (hfill : op.fills = false) : BytesKept db.tables (op.run env db).2.tables := by
  cases op with
  | createSettlementIntent request => exact (bytesKept_createSettlementIntent request).runInner bytesKept_calm.refl db
  | seedSignerAccount address chainNonce =>
    have hseed : Txn.Keeps BytesKept (seedSignerAccount address chainNonce) := fun _ _ _ h =>
      .of_eq (seedSignerAccount_quiet h).2.1
    exact hseed.run bytesKept_calm.refl db
  | applyRetention request => exact (bytesKept_applyRetention request).run bytesKept_calm.refl db
  | claimPayment | claimPayments | renewLease | releaseLease => exact bytesKept_leaseBlind.run env _ rfl db
  | recordVerification attempt reason =>
    have hattempt : ∀ t (r : VerificationAttempt), BytesKept t { t with
        verificationAttempts := t.verificationAttempts ++ [r] } := fun _ _ => .of_eq rfl
    exact recordVerification_keeps bytesKept_calm.refl bytesKept_calm.trans hattempt bytesKept_insertVerified
      env attempt reason db
  | markGapFillerPrepared | markGapFillerReplaced => cases hfill
  | _ => exact run_rowMotions bytesKept_motions env _ rfl rfl rfl db

theorem markGapFillerPrepared_bytes {u n : Nat} {rawHash txHash : String} {raw : Bytes} {m f : Int} {x : Unit}
    (h : markGapFillerPrepared env u rawHash txHash raw n m f db = .ok (x, db')) {r' : Transaction}
    (hr' : r' ∈ db'.tables.transactions) {b : Bytes} (hb : r'.rawTransaction = some b) :
    ∃ r ∈ db.tables.transactions, r.signerAddress = r'.signerAddress ∧
      (r.rawTransaction = some b ∨ u = r.id ∧ raw = b) := by
  obtain ⟨-, ht⟩ := updateOne_last_ok h
  rw [ht] at hr'
  rcases mem_mapIf.1 hr' with ⟨r, hr, hw, rfl⟩ | ⟨hr, -⟩
  · exact ⟨r, hr, rfl, .inr ⟨(of_decide_eq_true hw).1.symm, Option.some.inj hb⟩⟩
  · exact ⟨r', hr, rfl, .inl hb⟩

theorem markGapFillerReplaced_bytes {p u : Nat} {replacement : Replacement} {raw : Bytes} {x : Unit}
    (h : markGapFillerReplaced env p u replacement raw db = .ok (x, db')) {r' : Transaction}
    (hr' : r' ∈ db'.tables.transactions) {b : Bytes} (hb : r'.rawTransaction = some b) :
    ∃ r ∈ db.tables.transactions, r.signerAddress = r'.signerAddress ∧
      (r.rawTransaction = some b ∨ u = r.id ∧ raw = b) := by
  obtain ⟨db₁, -, ht₁, hi⟩ := updateOne_ok h
  obtain ⟨o, ho, hid, -, ht⟩ := insertReplacement_tables hi
  -- the rows before the insertion are those of the database, and the original is one of them
  have hmarked : ∀ r₁ ∈ db₁.tables.transactions, ∃ r ∈ db.tables.transactions, SameRow r r₁ := by
    intro r₁ hr₁
    rw [ht₁] at hr₁
    rcases mem_mapIf.1 hr₁ with ⟨r, hr, -, rfl⟩ | ⟨hr, -⟩
    · exact ⟨r, hr, ⟨rfl, rfl, rfl⟩, rfl, rfl⟩
    · exact ⟨r₁, hr, ⟨rfl, rfl, rfl⟩, rfl, rfl⟩
  have hlinked : ∃ r₂ ∈ db₁.tables.transactions ++ [replacementRow env o replacement none (some raw)],
    SameRow r₂ r' := by
    rw [ht] at hr'
    rcases mem_mapIf.1 hr' with ⟨r, hr, -, rfl⟩ | ⟨hr, -⟩
    · exact ⟨r, hr, ⟨rfl, rfl, rfl⟩, rfl, rfl⟩
    · exact ⟨r', hr, ⟨rfl, rfl, rfl⟩, rfl, rfl⟩
  obtain ⟨r₂, hr₂, hsame⟩ := hlinked
  rcases List.mem_append.1 hr₂ with hr₁ | hnew
  · obtain ⟨r, hr, hs⟩ := hmarked r₂ hr₁
    refine ⟨r, hr, hs.signerAddress.symm.trans hsame.signerAddress.symm, .inl ?_⟩
    rw [← hs.rawTransaction, ← hsame.rawTransaction, hb]
  · rw [List.mem_singleton.1 hnew] at hsame
    obtain ⟨r, hr, hs⟩ := hmarked o ho
    have hraw : some raw = r'.rawTransaction := hsame.rawTransaction.symm
    refine ⟨r, hr, hs.signerAddress.symm.trans hsame.signerAddress.symm, .inr ⟨?_, ?_⟩⟩
    · rw [← hid, hs.id]
    · exact Option.some.inj (hraw.trans hb)

/-- Where the bytes of a row come from. -/
theorem run_bytes (op : Op) {r' : Transaction} (hr' : r' ∈ (op.run env db).2.tables.transactions) {raw : Bytes}
    (hraw : r'.rawTransaction = some raw) : ∃ r ∈ db.tables.transactions, r.signerAddress = r'.signerAddress ∧
      (r.rawTransaction = some raw ∨ op.Records r.id raw) := by
  have unfilled : op.fills = false → ∃ r ∈ db.tables.transactions, r.signerAddress = r'.signerAddress ∧
      (r.rawTransaction = some raw ∨ op.Records r.id raw) := fun hfill => by
    obtain ⟨r, hr, hs, hb⟩ := run_bytesKept op hfill r' hr' raw hraw
    exact ⟨r, hr, hs, .inl hb⟩
  cases op with
  | markGapFillerPrepared u rawHash txHash b n m f =>
    change r' ∈ ((markGapFillerPrepared env u rawHash txHash b n m f).run db).2.tables.transactions at hr'
    unfold Txn.run at hr'
    split at hr'
    · exact markGapFillerPrepared_bytes ‹_› hr' hraw
    · exact ⟨r', hr', rfl, .inl hraw⟩
  | markGapFillerReplaced p u replacement b =>
    change r' ∈ ((markGapFillerReplaced env p u replacement b).run db).2.tables.transactions at hr'
    unfold Txn.run at hr'
    split at hr'
    · exact markGapFillerReplaced_bytes ‹_› hr' hraw
    · exact ⟨r', hr', rfl, .inl hraw⟩
  | _ => exact unfilled rfl

end Eth402.Store
