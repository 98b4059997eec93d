/-
Database transactions. A statement changes the tables and is refused when the result would violate
a constraint; a transaction is a sequence of statements that either all take effect or, when one
fails or the code gives up, leave the database as it was.

Also the statements the store's methods share: `transitionPayment`, `transitionPaymentIn` and
`recordTransition` (internal/store/settlementwork.go).
-/
import Eth402.Lib.Table
import Eth402.Store.Schema

namespace Eth402.Store

open Lib Settlement

/-- A transaction in progress: it fails, or goes on with a result and the tables so far. -/
def Txn (α : Type) := DB → Except Err (α × DB)

namespace Txn

variable {α β : Type}

def ret (a : α) : Txn α := fun db => .ok (a, db)

def bind (m : Txn α) (k : α → Txn β) : Txn β := fun db =>
  match m db with
  | .ok (a, db') => k a db'
  | .error e => .error e

instance : Monad Txn where
  pure := ret
  bind := bind

/-- Give up: the transaction is rolled back. -/
def fail (e : Err) : Txn α := fun _ => .error e

def read (f : Tables → α) : Txn α := fun db => .ok (f db.tables, db)

/-- One statement that leaves the tables as `f` makes them, unless a constraint forbids it. -/
def write (f : Tables → Tables) : Txn Unit := fun db =>
  if h : (f db.tables).violation = none then .ok ((), ⟨f db.tables, h⟩)
  else .error (((f db.tables).violation).getD .noRows)

/-- Run the transaction: commit what it reached, or roll back. -/
def run (m : Txn α) (db : DB) : Except Err α × DB :=
  match m db with
  | .ok (a, db') => (.ok a, db')
  | .error e => (.error e, db)

/-! ### What a successful transaction did -/

theorem bind_ok {m : Txn α} {k : α → Txn β} {db : DB} {r : β × DB} (h : (m >>= k) db = .ok r) :
    ∃ a db', m db = .ok (a, db') ∧ k a db' = .ok r := by
  change bind m k db = .ok r at h
  unfold bind at h
  split at h
  · rename_i a db' hm; exact ⟨a, db', hm, h⟩
  · cases h

theorem map_ok {m : Txn α} {f : α → β} {db : DB} {r : β × DB} (h : (f <$> m) db = .ok r) :
    ∃ a db', m db = .ok (a, db') ∧ (f a, db') = r := by
  obtain ⟨a, db', hm, h⟩ := bind_ok (k := fun a => (pure (f a) : Txn β)) h
  cases h
  exact ⟨a, db', hm, rfl⟩

theorem pure_ok {a : α} {db : DB} {r : α × DB} (h : (pure a : Txn α) db = .ok r) : (a, db) = r := by
  cases h; rfl

theorem fail_ok {e : Err} {db : DB} {r : α × DB} (h : (fail e : Txn α) db = .ok r) : False := by cases h

theorem read_ok {f : Tables → α} {db : DB} {r : α × DB} (h : read f db = .ok r) :
    (f db.tables, db) = r := by cases h; rfl

theorem write_ok {f : Tables → Tables} {db db' : DB} {u : Unit} (h : write f db = .ok (u, db')) :
    db'.tables = f db.tables := by
  unfold write at h
  split at h
  · cases h; rfl
  · cases h

end Txn

/-! ## Statements -/

/-- The rows `w` selects are changed by `f`. -/
def Tables.updateTransactions (w : Transaction → Bool) (f : Transaction → Transaction) (t : Tables) : Tables :=
  { t with transactions := mapIf w f t.transactions }

def Tables.updatePayments (w : Payment → Bool) (f : Payment → Payment) (t : Tables) : Tables :=
  { t with payments := mapIf w f t.payments }

/-- `UPDATE ethereum_transactions`, with the number of rows it selected. -/
def updateTransactions (w : Transaction → Bool) (f : Transaction → Transaction) : Txn Nat := do
  let n ← Txn.read fun t => t.transactions.countP w
  Txn.write (Tables.updateTransactions w f)
  pure n

/-- `UPDATE payment_records`, with the number of rows it selected. -/
def updatePayments (w : Payment → Bool) (f : Payment → Payment) : Txn Nat := do
  let n ← Txn.read fun t => t.payments.countP w
  Txn.write (Tables.updatePayments w f)
  pure n

def insertTransaction (r : Transaction) : Txn Unit :=
  Txn.write fun t => { t with transactions := t.transactions ++ [r] }

def insertTransition (r : Transition) : Txn Unit :=
  Txn.write fun t => { t with transitions := t.transitions ++ [r] }

def insertSettlementAttempt (r : SettlementAttempt) : Txn Unit :=
  Txn.write fun t => { t with settlementAttempts := t.settlementAttempts ++ [r] }

/-- The source's test of `RowsAffected`: anything but one row is a lost race. -/
def expectOne (n : Nat) (context : String) : Txn Unit :=
  if n = 1 then pure () else Txn.fail (.wrap context (.sentinel .settlementRace))

theorem updateTransactions_ok {w : Transaction → Bool} {f : Transaction → Transaction} {db : DB} {n : Nat}
    {db' : DB} (h : updateTransactions w f db = .ok (n, db')) :
    n = db.tables.transactions.countP w ∧ db'.tables = db.tables.updateTransactions w f := by
  obtain ⟨m, db₁, h₁, h⟩ := Txn.bind_ok h
  cases Txn.read_ok h₁
  obtain ⟨u, db₂, h₂, h⟩ := Txn.bind_ok h
  cases Txn.pure_ok h
  exact ⟨rfl, Txn.write_ok h₂⟩

theorem updatePayments_ok {w : Payment → Bool} {f : Payment → Payment} {db : DB} {n : Nat} {db' : DB}
    (h : updatePayments w f db = .ok (n, db')) :
    n = db.tables.payments.countP w ∧ db'.tables = db.tables.updatePayments w f := by
  obtain ⟨m, db₁, h₁, h⟩ := Txn.bind_ok h
  cases Txn.read_ok h₁
  obtain ⟨u, db₂, h₂, h⟩ := Txn.bind_ok h
  cases Txn.pure_ok h
  exact ⟨rfl, Txn.write_ok h₂⟩

theorem expectOne_ok {n : Nat} {c : String} {db db' : DB} {u : Unit} (h : expectOne n c db = .ok (u, db')) :
    n = 1 ∧ db' = db := by
  unfold expectOne at h
  split at h
  · cases h; exact ⟨‹_›, rfl⟩
  · cases h

/-! ## Moving a payment -/

/-- `ValidateTransition`. -/
def validateTransition (source target : State) : Txn Unit :=
  if canTransition source target then pure ()
  else Txn.fail (.text ("invalid payment transition " ++ source.text ++ " -> " ++ target.text))

def recordTransition (paymentId : Nat) (source target : State) (actor : String) : Txn Unit :=
  insertTransition ⟨paymentId, source, target, none, actor⟩

/-- Move a payment between exactly two states and audit the move. -/
def transitionPayment (now : Time) (paymentId : Nat) (source target : State) (actor : String) : Txn Unit := do
  validateTransition source target
  let n ← updatePayments (fun p => p.id = paymentId ∧ p.state = source)
    fun p => { p with state := target, updatedAt := now }
  expectOne n ("payment " ++ toString paymentId ++ " transition " ++ source.text ++ " -> " ++ target.text)
  recordTransition paymentId source target actor

/-- The state of a payment before the statement that moves it, as its CTE captures it. -/
def stateOf (paymentId : Nat) (t : Tables) : Option State :=
  (t.payments.find? fun p => p.id = paymentId).map (·.state)

/-- `transitionPayment` from any of several states; `assign` sets the terminal columns. -/
def transitionPaymentIn (now : Time) (paymentId : Nat) (source : List State) (target : State) (actor : String)
    (assign : Payment → Payment) : Txn Unit := do
  if ¬ source.all (canTransition · target) then Txn.fail (.text "invalid payment transition")
  let previous ← Txn.read (stateOf paymentId)
  let n ← updatePayments (fun p => p.id = paymentId ∧ p.state ∈ source)
    fun p => { assign p with updatedAt := now }
  match previous, n with
  | some s, 1 => recordTransition paymentId s target actor
  | _, _ => Txn.fail (.wrap ("payment " ++ toString paymentId ++ " transition to " ++ target.text)
      (.sentinel .settlementRace))

end Eth402.Store
