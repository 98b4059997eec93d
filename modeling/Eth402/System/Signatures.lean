/-
Signatures on record under workers with stale lists. `MarkGapFillerPrepared` takes any dropped row, and a row is dropped
a second time when a sibling of it is mined; and fillers are signed before the store is asked whether the row is still
as listed. As long as both find the row as the list had it, no recorded signature is ever written over, and nothing is
signed for a nonce that a filler has consumed.
-/
import Eth402.Settlement.Signature
import Eth402.System.Fillers

namespace Eth402.System

open Lib Store Settlement Verification

variable {lib : Libraries} {cfg : Settlement.Config}

/-! ## Calls on rows that are as they were listed -/

/-- A row that is prepared as a filler was never signed. -/
def preparesUnsigned (s : Shared) : Call → Bool
  | .store (.markGapFillerPrepared t ..) => s.db.tables.transactions.all fun r => r.id ≠ t ∨ r.rawTransactionHash = none
  | _ => true

/-- The preparation of a filler, on a row that was never signed. -/
theorem prepared_lives {s : Shared} (env : StepEnv) {t n : Nat} {rh x : String} {raw : Bytes} {m f : Int}
    (h : preparesUnsigned s (.store (.markGapFillerPrepared t rh x raw n m f)) = true) :
    (∀ p, ∀ r ∈ rowsOf s.db.tables p, r.id = t → r.rawHash = none) ∧
      ∀ p, lifeOf (perform s env (.store (.markGapFillerPrepared t rh x raw n m f))).2.db.tables p =
          lifeOf s.db.tables p ∨
        lifeOf (perform s env (.store (.markGapFillerPrepared t rh x raw n m f))).2.db.tables p =
          ⟨stateOf p s.db.tables, advance t [.dropped] (fun r => { r with
            status := .broadcast, rawHash := some rh, txHash := some x, raw := some raw }) (rowsOf s.db.tables p)⟩ := by
  constructor
  · intro p r hr hid
    obtain ⟨y, hy, -, rfl⟩ := mem_rowsOf.1 hr
    exact (of_decide_eq_true (List.all_eq_true.1 h y hy)).resolve_left (not_not.2 hid)
  · intro p
    change lifeOf (runStore env _ s.db).2.tables p = _ ∨ lifeOf (runStore env _ s.db).2.tables p = _
    rcases runStore_db env (.markGapFillerPrepared t rh x raw n m f) s.db with hdb | hdb
    · rw [hdb]
      exact .inl rfl
    · rw [hdb]
      change lifeOf ((markGapFillerPrepared env.db t rh x raw n m f).run s.db).2.tables p = _ ∨
        lifeOf ((markGapFillerPrepared env.db t rh x raw n m f).run s.db).2.tables p = _
      unfold Txn.run
      split
      · exact .inr (markGapFillerPrepared_rows ‹_› p)
      · exact .inl rfl

section Step

variable {s : Shared} {log : List (Nat × Ev)} {pid : Nat} {env : StepEnv} {q : Call} {e : Entry}

theorem signaturesKept_call (hi : Inv lib s log) (hj : Allowed lib cfg e (own pid log) q)
    (hup : preparesUnsigned s q = true) (p : Nat) :
    SignaturesKept (rowsOf s.db.tables p) (rowsOf (perform s env q).2.db.tables p) := by
  obtain ⟨k, hk, m⟩ := hi.moves hj env p
  by_cases hprep : k = .prepared
  · subst hprep
    cases q with
    | store op =>
      obtain ⟨t, rh, x, raw, g, mf, pf, rfl⟩ := Kinds.of_prepared hk
      obtain ⟨hnone, hlives⟩ := prepared_lives env hup
      rcases hlives p with hsame | hnew
      · have hrows : rowsOf (perform s env (.store (.markGapFillerPrepared t rh x raw g mf pf))).2.db.tables p =
            rowsOf s.db.tables p := congrArg Life.rows hsame
        rw [hrows]
        exact .refl .refl _
      · have hrows := congrArg Life.rows hnew
        change rowsOf _ p = _ at hrows
        rw [hrows]
        exact signaturesKept_advance fun r hr hid _ => .of_unsigned rfl (hnone p r hr hid)
    | _ => cases hk
  · exact m.signaturesKept hprep (hi.shape p)

end Step

/-! ## Whole runs -/

/-- The simulation of payment `10` reverted, and payment `12` holds the next nonce; when both authorizations are over, a
recovery worker lists the gap and stalls. -/
def sampleStalled : Run sampleLib sampleConfig :=
  sampleVerified ++ [enter (.settle (sampleRequest 'a') 0)] ++ calls 8 2 { calm 11 with reverts := true } ++
    [enter (.verify (sampleRequest 'b'))] ++ calls 4 3 (calm 12) ++ [enter (.settle (sampleRequest 'b') 0)] ++
    calls 2 4 (calm 13) ++ [tick 1000010, enter (.recoveryTick "slow")] ++ calls 6 5 (late 14)

/-- Others fill the gap with the row `11`, bump it by a row `15`, and find that one mined: the row `11` is dropped
again. -/
def sampleConsumed : Run sampleLib sampleConfig :=
  sampleStalled ++ [enter (.recoveryTick "fast")] ++ calls 17 6 (late 14) ++ calls 14 6 (laterAt 15 200) ++
    [enter (.recoveryTick "last")] ++ calls 17 7 ((laterAt 16 300).mined "0x0308" 5 0)

/-- The signer's payment `10` is retired with a row on nonce 3, and a filler of it is recorded reverted. -/
def filled (db : DB) : Bool :=
  stateOf 10 db.tables = some .failed ∧ (rowsOf db.tables 10).any (fun r => r.status = .reverted) ∧
    (rowsOf db.tables 10).any fun r => r.signer = sampleSigner ∧ r.nonce = 3

end Eth402.System
