/-
Recording verifications at once (internal/store/store.go: `RecordVerification`, `recordVerification`;
internal/store/retention.go: `ApplyRetention`), statement by statement. Any number of calls run beside each other,
beside retention, settlement and changes of the merchants; a transaction may fail at any statement, and a commit may be
reported as failed although it was made. The number of a row is its key in the table; the column of the row type that
repeats it is not used.
-/
import Eth402.Lib.Traces
import Eth402.Lib.Word
import Eth402.Store.Upkeep
import Eth402.Verification.Canonical

namespace Eth402.Recording

open Lib Lib.Relational Lib.Relational.Sql Settlement Store Verification

/-! ## The tables -/

/-- The tables these transactions write and read. Advisory locks are numbers without rows. -/
inductive Table
  | payments | transitions | attempts | merchants | advisory
  deriving DecidableEq

@[reducible] def Row : Table → Type
  | .payments => Payment
  | .transitions => Transition
  | .attempts => VerificationAttempt
  | .merchants => Merchant
  | .advisory => Empty

/-- Entries of the two unique indexes of `payment_records`. -/
inductive Slot
  | identity (value : String)
  | authorization (key : String × String × String × String)
  deriving DecidableEq

/-- The arbiter of the insert comes first. -/
def slots : (t : Table) → Row t → List Slot
  | .payments, r => .identity r.paymentIdentity :: (r.authorizationKey.map Slot.authorization).toList
  | _, _ => []

def parents : (t : Table) → Row t → List (Table × Nat)
  | .payments, r => r.merchantId.toList.map fun m => (.merchants, m)
  | .transitions, r => [(.payments, r.paymentId)]
  | .attempts, r => r.paymentId.toList.map fun p => (.payments, p)
  | _, _ => []

def check : (t : Table) → Row t → Bool
  | .payments, r => r.fits && r.check
  | .transitions, r | .attempts, r => r.check
  | _, _ => true

/-- A payment keeps its identity and its asset, and its merchant and its authorization until they are erased. -/
structure Kept (p p' : Payment) : Prop where
  identity : p'.paymentIdentity = p.paymentIdentity
  asset : p'.asset = p.asset
  merchant : p'.merchantId = p.merchantId ∨ p'.merchantId = none
  key : p'.authorizationKey = p.authorizationKey ∨ p'.authorizationKey = none

theorem Kept.refl (p : Payment) : Kept p p := ⟨rfl, rfl, .inl rfl, .inl rfl⟩

theorem Kept.trans {p q r : Payment} (h : Kept p q) (h' : Kept q r) : Kept p r where
  identity := h'.identity.trans h.identity
  asset := h'.asset.trans h.asset
  merchant := by
    rcases h'.merchant with hm | hm
    · rw [hm]
      exact h.merchant
    · exact .inr hm
  key := by
    rcases h'.key with hk | hk
    · rw [hk]
      exact h.key
    · exact .inr hk

/-- Payments and merchants are updated, the rest is only added to. -/
def Legal : (t : Table) → Row t → Row t → Prop
  | .payments, r, r' => Kept r r'
  | .transitions, r, r' | .attempts, r, r' => r' = r
  | _, _, _ => True

theorem Legal.refl : ∀ {t : Table} (r : Row t), Legal t r r
  | .payments, r => Kept.refl r
  | .transitions, _ | .attempts, _ => rfl
  | .merchants, _ | .advisory, _ => trivial

theorem Legal.trans : ∀ {t : Table} {a b c : Row t}, Legal t a b → Legal t b c → Legal t a c
  | .payments, _, _, _, h, h' => Kept.trans h h'
  | .transitions, _, _, _, h, h' | .attempts, _, _, _, h, h' => Eq.trans h' h
  | .merchants, _, _, _, _, _ | .advisory, _, _, _, _, _ => trivial

theorem Legal.parents : ∀ {t : Table} {a b : Row t}, Legal t a b → Recording.parents t b ⊆ Recording.parents t a
  | .payments, a, b, h => by
    rcases h.merchant with hm | hm <;> simp [Recording.parents, hm]
  | .transitions, _, _, h | .attempts, _, _, h => by rw [show _ = _ from h]; exact List.Subset.refl _
  | .merchants, _, _, _ | .advisory, _, _, _ => List.Subset.refl _

theorem Legal.slots : ∀ {t : Table} {a b : Row t}, Legal t a b → Recording.slots t b ⊆ Recording.slots t a
  | .payments, a, b, h => by
    rcases h.key with hk | hk <;> simp [Recording.slots, hk, h.identity]
  | .transitions, _, _, _ | .attempts, _, _, _ | .merchants, _, _, _ | .advisory, _, _, _ => List.Subset.refl _

@[reducible] def tables : Schema where
  Table := Table
  Row := Row
  Slot := Slot
  Note := Unit
  slots := slots
  parents := parents
  check := check
  Legal := Legal
  legal_refl := Legal.refl
  legal_trans := Legal.trans
  legal_parents := Legal.parents
  legal_slots := Legal.slots

/-- No rows at all. -/
def empty : Db tables := ⟨fun _ => ∅⟩

theorem empty_sound : empty.Sound where
  parents h := absurd h (by simp [Db.find, empty])
  unique h := absurd h (by simp [Db.find, empty])
  checked h := absurd h (by simp [Db.find, empty])

/-! ## The transactions -/

/-- What a call returns: nothing is wrong; the insert met the authorization's index (23505); the authorization conflict;
an error of the database with its code, which is empty where the driver reports one without a code. A transaction that
fails by itself is a `fault`, whose code the caller then finds. -/
inductive Reply
  | done | duplicate | conflict
  | failed (code : String)
  | fault
  deriving DecidableEq

abbrev Body (α : Type) := Sql tables Reply α

abbrev clock : Body Int := stmt (S := tables) .now

abbrev ask (g : Db tables → List Nat) : Body (List Nat) := stmt (S := tables) (.query .ids g)

abbrev tryInsert (t : Table) (r : Row t) : Body (Except Slot Nat) := stmt (S := tables) (.insert t r)

abbrev updateRow (skip : Bool) (t : Table) (id : Nat) (e : Edit tables t) : Body (Option (Row t)) :=
  stmt (S := tables) (.update skip t id e)

/-- A new row of a table that has no unique index. -/
def insertRow (t : Table) (r : Row t) : Body Nat := do
  match ← tryInsert t r with
  | .ok id => pure id
  | .error _ => throw (.failed "23505")

/-- The rows with their numbers. -/
def paymentsOf (db : Db tables) : List Payment := (db.rows .payments).entries.map fun e => { e.2 with id := e.1 }

def merchantsOf (db : Db tables) : List Merchant := (db.rows .merchants).entries.map fun e => { e.2 with id := e.1 }

section Record

variable (lib : Libraries)

/-- `authorizationLockKey`. -/
def authorizationLockKey (payer nonce : String) : Nat :=
  fromBigEndian ((lib.sha256 (utf8 (lower payer ++ "|" ++ lower nonce))).take 8) % 2 ^ 63

/-- The move to verified of the row that was inserted. -/
def markVerified (now : Time) : Edit tables .payments where
  cond r := r.state = .received
  change r := { r with verificationStatus := .verified, state := .verified, updatedAt := now }
  legal _ _ := ⟨rfl, rfl, .inl rfl, .inl rfl⟩

/-- The part of `recordVerification` for a verified attempt: the number of its payment. -/
def recordPayment (now : Time) (p : ParsedPayment) : Body Nat := do
  stmt (S := tables) (.hold .advisory (authorizationLockKey lib p.payer p.nonce))
  match setString10 p.amount with
  | none => throw (.failed "22P02")
  | some amount =>
    let merchant ← ask fun db => (claimant (padTo 42 p.recipient)
      { Tables.empty with merchants := merchantsOf db }).toList
    match ← tryInsert .payments (paymentRow ⟨now, 0, id, fun _ => false⟩ merchant.head? p amount) with
    | .ok n =>
      let _ ← updateRow false .payments n (markVerified now)
      let _ ← insertRow .transitions ⟨n, .received, .verified, none, "http"⟩
      pure n
    -- DO NOTHING returned no row
    | .error (.identity _) =>
      match ← ask fun db => ((paymentsOf db).filter fun q => q.paymentIdentity = padTo 68 p.identity).map (·.id) with
      | n :: _ => pure n
      | [] => throw (.failed "")
    | .error (.authorization _) => throw .duplicate

/-- The transaction of `recordVerification`. -/
def recordVerification (attempt : Attempt) : Body Reply := do
  let now ← clock
  if attempt.result = "verified" then
    match attempt.payment with
    | none => throw (.failed "")
    | some p =>
      let n ← recordPayment lib now p
      let _ ← insertRow .attempts
        ⟨some n, nullString attempt.paymentIdentity, attempt.result, nullString attempt.reasonCode⟩
      pure .done
  else
    let _ ← insertRow .attempts
      ⟨none, nullString attempt.paymentIdentity, attempt.result, nullString attempt.reasonCode⟩
    pure .done

/-- The insert after the rollback. -/
def recordConflict (identity : String) : Body Reply := do
  let _ ← insertRow .attempts ⟨none, some identity, "failed", some (lib.reasonText .nonceAlreadyUsed)⟩
  pure .done

end Record

/-! ### Retention -/

def expire (now : Time) : Edit tables .payments where
  cond r := r.state = .verified ∧ r.validBefore.any (· < now)
  change r := { r with state := .expired, updatedAt := now }
  legal _ _ := ⟨rfl, rfl, .inl rfl, .inl rfl⟩

/-- The candidates of the first statement, in its order. -/
def expiryCandidates (now : Time) (db : Db tables) : List Nat :=
  (((paymentsOf db).filter (expire now).cond).insertionSort fun a b =>
    a.validBefore.getD 0 < b.validBefore.getD 0 ∨
      (a.validBefore.getD 0 = b.validBefore.getD 0 ∧ a.id ≤ b.id)).map (·.id)

/-- Expire those that nobody has locked, up to the limit, and audit each move. -/
def expireEach (now : Time) : Nat → List Nat → Body Unit
  | _, [] | 0, _ :: _ => pure ()
  | n + 1, id :: ids => do
    match ← updateRow true .payments id (expire now) with
    | some _ =>
      let _ ← insertRow .transitions ⟨id, .verified, .expired, some "authorization_expired", "system"⟩
      expireEach now n ids
    | none => expireEach now (n + 1) ids

/-- Whether every transaction of a failed or expired payment has reverted is in a table of settlement. -/
def redact (now cutoff : Time) : Edit tables .payments where
  cond r := redactable cutoff Tables.empty r
  change r := r.redact now
  legal _ _ := ⟨rfl, rfl, .inr rfl, .inr rfl⟩

def redactionCandidates (now cutoff : Time) (db : Db tables) : List Nat :=
  (((paymentsOf db).filter (redact now cutoff).cond).insertionSort fun a b =>
    a.confirmedAt.getD a.updatedAt < b.confirmedAt.getD b.updatedAt ∨
      (a.confirmedAt.getD a.updatedAt = b.confirmedAt.getD b.updatedAt ∧ a.id ≤ b.id)).map (·.id)

def redactEach (now cutoff : Time) : Nat → List Nat → Body Unit
  | _, [] | 0, _ :: _ => pure ()
  | n + 1, id :: ids => do
    if ← stmt (S := tables) .flip then
      match ← updateRow true .payments id (redact now cutoff) with
      | some _ => redactEach now cutoff n ids
      | none => redactEach now cutoff (n + 1) ids
    else redactEach now cutoff (n + 1) ids

/-- `ApplyRetention` on the payments. -/
def applyRetention (request : RetentionRequest) : Body Reply := do
  match request.validate with
  | some _ => throw (.failed "")
  | none =>
    let expired ← ask (expiryCandidates request.now)
    expireEach request.now request.batchSize.toNat expired
    let redacted ← ask (redactionCandidates request.now (request.now - request.paymentAfter))
    redactEach request.now (request.now - request.paymentAfter) request.batchSize.toNat redacted
    pure .done

/-! ### The rest of the service -/

/-- A statement of settlement on a payment: the row stays in its state or takes an edge, and its terms stay. -/
structure Motion where
  source : State
  target : State
  edge : target = source ∨ canTransition source target = true
  change : Payment → Payment
  reason : Option String
  actor : String
  identity : ∀ p, (change p).paymentIdentity = p.paymentIdentity
  asset : ∀ p, (change p).asset = p.asset
  merchantId : ∀ p, (change p).merchantId = p.merchantId
  key : ∀ p, (change p).authorizationKey = p.authorizationKey
  redactedAt : ∀ p, (change p).redactedAt = p.redactedAt
  state : ∀ p, (change p).state = target

def Motion.edit (m : Motion) : Edit tables .payments where
  cond r := r.state = m.source
  change := m.change
  legal r _ := ⟨m.identity r, m.asset r, .inl (m.merchantId r), .inl (m.key r)⟩

def movePayment (id : Nat) (m : Motion) : Body Reply := do
  match ← updateRow false .payments id m.edit with
  | none => throw .done
  | some _ =>
    if m.target = m.source then pure .done
    else
      let _ ← insertRow .transitions ⟨id, m.source, m.target, m.reason, m.actor⟩
      pure .done

def addMerchant (m : Merchant) : Body Reply := do
  let _ ← insertRow .merchants m
  pure .done

def setMerchant (id : Nat) (m : Merchant) : Body Reply := do
  let _ ← updateRow false .merchants id ⟨fun _ => true, fun _ => m, fun _ _ => trivial⟩
  pure .done

/-! ## The calls -/

inductive Op
  | record (attempt : Attempt)
  | recordConflict | retain | movePayment | merchants

abbrev Call := Prog (Act tables Reply Op) Act.Answer Reply

abbrev transact (op : Op) (body : Body Reply) : Call := Prog.perform (C := Act tables Reply Op) (.transact op body)

/-- The error of a transaction that failed by itself. -/
def failure : Call := do
  let code ← Prog.perform (C := Act tables Reply Op) .draw
  pure (.failed code)

/-- `retryableWrite`: a deadlock or a serialization failure. -/
def retryableWrite (code : String) : Bool := code = "40P01" || code = "40001"

def maxAttempts : Nat := 3

section Calls

variable (lib : Libraries)

/-- `recordVerification`. Only the insert of the payment can break a unique index, so that no other failure is a
`duplicate`. -/
def recordOnce (attempt : Attempt) : Call := do
  match ← transact (.record attempt) (recordVerification lib attempt) with
  | .duplicate =>
    match ← transact .recordConflict (recordConflict lib attempt.paymentIdentity) with
    | .done => pure .conflict
    | .fault => failure
    | r => pure r
  | .fault => failure
  | r => pure r

/-- The loop of `RecordVerification`, with the error so far. -/
def recordLoop (attempt : Attempt) : Nat → Reply → Call
  | 0, last => pure last
  | left + 1, _ => do
    match ← recordOnce lib attempt with
    | .failed code => if retryableWrite code then recordLoop attempt left (.failed code) else pure (.failed code)
    | r => pure r

/-- Who calls: a verified request, with the payment it was parsed into; a failed one; retention; and the rest. -/
inductive Entry
  | verified (request : Request) (payment : ParsedPayment) (parsed : parseRequest lib request = .ok payment)
  | failed (identity reason : String)
  | retention (request : RetentionRequest)
  | movePayment (id : Nat) (m : Motion)
  | addMerchant (m : Merchant)
  | setMerchant (id : Nat) (m : Merchant)

def verifiedAttempt (payment : ParsedPayment) : Attempt := ⟨payment.identity, "verified", "", some payment⟩

def failedAttempt (identity reason : String) : Attempt := ⟨identity, "failed", reason, none⟩

def service : Service tables where
  Reply := Reply
  Op := Op
  Entry := Entry lib
  code
    | .verified _ payment _ => recordLoop lib (verifiedAttempt payment) maxAttempts .done
    | .failed identity reason => recordLoop lib (failedAttempt identity reason) maxAttempts .done
    | .retention request => transact .retain (applyRetention request)
    | .movePayment id m => transact .movePayment (movePayment id m)
    | .addMerchant m => transact .merchants (addMerchant m)
    | .setMerchant id m => transact .merchants (setMerchant id m)
  fault := .fault

end Calls

end Eth402.Recording
