/-
The transactions of the merchant service (internal/merchant/service.go, admin.go, email_delivery.go) and the settlement
admission's hold on the merchant (internal/store/settlement.go), statement by statement.
-/
import Eth402.Lib.Transactions
import Eth402.Merchant.Tables
import Mathlib.Data.List.Sort

namespace Eth402.Merchants

open Lib Lib.Relational Lib.Relational.Sql

inductive Err
  | invalid | unauthorized | forbidden | notFound | conflict | throttled
  /-- Any other error. -/
  | fault
  deriving DecidableEq

structure Config where
  emailTTL : Int
  resend : Int
  walletTTL : Int
  recipientCooldown : Int
  adminSessionTTL : Int
  emailDeliveryLease : Int
  blockDisposable : Bool
  restrictFree : Bool
  allowlist : List String
  denylist : List String

/-- What the service takes from libraries: hashes, address and link parsing, the sealing of tokens and the text of an
id. -/
structure Library extends Wallets where
  hash : String → String
  keyedHash : String → String
  trimSpace : String → String
  parseAddress : String → Option String
  /-- The scheme and the host. -/
  parseRequestURI : String → Option (String × String)
  sealToken : (nonce token : String) → (merchantID : Nat) → (tokenHash : String) → MailKind → String
  openToken : (ciphertext : String) → (merchantID : Nat) → (tokenHash : String) → MailKind → Option String
  idText : Nat → String

structure Env where
  cfg : Config
  lib : Library

/-- `emailDelivery`: a claimed row with what is read beside it. -/
structure Item where
  id : Nat
  tokenID : Nat
  tokenHash : String
  merchantID : Nat
  claimToken : Mint
  kind : MailKind
  ciphertext : String
  attempts : Nat

inductive Reply
  | err (e : Err)
  | done
  | principal (merchantID : Nat) (m : Merchant) (walletAuthenticated : Bool)
  | merchant (merchantID : Nat) (m : Merchant)
  | verified (merchantID : Nat) (session : Option String)
  | challenge (id : Nat) (message address : String) (expiresAt : Int)
  | key (full : String)
  | claimed (item : Option Item)

abbrev Body (α : Type) := Sql tables Reply α

variable (env : Env)

def fail {α : Type} (e : Err) : Body α := throw (.err e)

def require (ok : Bool) (e : Err) : Body Unit := Sql.guard ok (.err e)

/-! ### Statements on these tables -/

abbrev clock : Body Int := stmt (S := tables) .now

abbrev draw : Body String := stmt (S := tables) .draw

abbrev flip : Body Bool := stmt (S := tables) .flip

abbrev mint : Body Mint := stmt (S := tables) .mint

abbrev reached (n : Point) : Body Unit := stmt (S := tables) (.note n)

/-- A plain query. -/
abbrev ask (κ : Kind tables) (g : Db tables → κ.Answer) : Body κ.Answer := stmt (S := tables) (.query κ g)

/-- `SELECT … WHERE id=… FOR UPDATE`. -/
abbrev lockRow (t : Table) (id : Nat) (cond : Row t → Bool) :
    Body (Option (Row t)) := stmt (S := tables) (.lock t id cond)

/-- `UPDATE … WHERE id=…`. -/
abbrev updateRow (t : Table) (id : Nat) (e : Edit tables t) : Body (Option (Row t)) :=
  stmt (S := tables) (.update false t id e)

/-- `INSERT … ON CONFLICT DO NOTHING`. -/
abbrev tryInsert (t : Table) (r : Row t) : Body (Except Slot Nat) := stmt (S := tables) (.insert t r)

/-- The numbers of the rows that meet a condition. -/
def select (t : Table) (cond : Row t → Bool) (db : Db tables) : List Nat :=
  ((db.rows t).entries.filter fun e => cond e.2).map Sigma.fst

/-- `SELECT … WHERE … FOR UPDATE`, read by its first row. -/
def lockWhere (t : Table) (cond : Row t → Bool) : Body (Option (Nat × Row t)) := do
  let ids ← ask .ids (select t cond)
  lockFirst (S := tables) t cond ids

/-- `UPDATE … WHERE …` of the one row that a unique column names. -/
def updateOne (t : Table) (e : Edit tables t) : Body (Option (Nat × Row t)) := do
  let ids ← ask .ids (select t e.cond)
  updateFirst (S := tables) false t e ids

/-- `UPDATE … WHERE …`. -/
def updateWhere (t : Table) (e : Edit tables t) : Body Unit := do
  let ids ← ask .ids (select t e.cond)
  updateEach t e ids

/-- A new row; a conflict is an error. -/
def insertRow (t : Table) (r : Row t) : Body Nat := do
  match ← tryInsert t r with
  | .ok id => pure id
  | .error _ => fail .fault

/-! ## Registration and its mails -/

/-- The token has no outbox row, or one that is neither delivered nor abandoned: the left join. -/
def undelivered (db : Db tables) (tokenID : Nat) : Bool :=
  let rows := (db.rows .outbox).entries.filter fun o => decide (o.2.tokenID = tokenID)
  rows.isEmpty || rows.any fun o => o.2.isOpen

/-- Whether another mail to the merchant is held back. -/
def suppressed (m : Nat) (since now : Int) (db : Db tables) : Bool :=
  (db.rows .tokens).entries.any fun t => decide (t.2.merchantID = m) &&
    match t.2.sentAt with
    | some sent => decide (since < sent)
    | none => decide (now < t.2.expiresAt) && undelivered db t.1

/-- The token and its outbox row. -/
def enqueueEmail (m : Nat) (tokenHash rawToken : String) (kind : MailKind) (now : Int) : Body Unit := do
  let tokenID ← insertRow .tokens
    { merchantID := m, tokenHash := tokenHash, expiresAt := now + env.cfg.emailTTL, createdAt := now }
  let nonce ← draw
  let _ ← insertRow .outbox
    { merchantID := m, tokenID := tokenID, messageKind := kind
      ciphertext := some (env.lib.sealToken nonce rawToken m tokenHash kind), nextAttemptAt := now, createdAt := now }
  pure ()

def notRejected (email : String) (r : Merchant) : Bool := r.businessEmail = email && r.status ≠ .rejected

/-- From the lock of an existing merchant on: nothing while a mail is held back. -/
def enqueueAgain (email rawToken : String) (kind : MailKind) (now : Int) : Body Reply := do
  match ← lockWhere .merchants (notRejected email) with
  | none => throw .done
  | some (m, _) =>
    let held ← ask .flag (suppressed m (now - env.cfg.resend) now)
    if held then throw .done
    else
      enqueueEmail env m (env.lib.hash rawToken) rawToken kind now
      pure .done

/-- The transaction of `Register`. -/
def register (email recipient rawToken : String) (now : Int) : Body Reply := do
  match ← tryInsert .merchants { businessEmail := email, recipientAddress := recipient } with
  | .ok m =>
    enqueueEmail env m (env.lib.hash rawToken) rawToken .registration now
    pure .done
  | .error _ => enqueueAgain env email rawToken .registration now

/-- The transaction of `RequestAdminLink`. -/
def requestAdminLink (email rawToken : String) (now : Int) : Body Reply :=
  enqueueAgain env email rawToken .adminLogin now

def consumeToken (hash : String) (now : Int) : Edit tables .tokens where
  cond r := r.tokenHash = hash && r.consumedAt.isNone && decide (now < r.expiresAt)
  change r := { r with consumedAt := some now }
  legal r h := by
    have hc : r.consumedAt = none := by simp_all
    exact ⟨rfl, rfl, rfl, rfl, kept_none hc _, .refl _⟩

def markEmailVerified (now : Int) : Edit tables .merchants where
  cond _ := true
  change r := { r with emailVerifiedAt := r.emailVerifiedAt <|> some now }
  legal r _ := by
    refine ⟨rfl, fun h => ?_, fun h => h⟩
    cases hr : r.emailVerifiedAt with
    | none => rw [hr] at h; cases h
    | some t => rfl

/-- The transaction of `verifyEmail`; a session is issued if its token is given. -/
def verifyEmail (token : String) (session : Option (String × Int)) (now : Int) : Body Reply := do
  match ← updateOne .tokens (consumeToken (env.lib.hash token) now) with
  | none => fail .invalid
  | some (_, t) =>
    let _ ← updateRow .merchants t.merchantID (markEmailVerified now)
    match session with
    | none => pure (.verified t.merchantID none)
    | some (sessionToken, expiresAt) =>
      let _ ← insertRow .sessions
        { merchantID := t.merchantID, tokenHash := env.lib.hash sessionToken, expiresAt := expiresAt, createdAt := now }
      pure (.verified t.merchantID (some sessionToken))

/-! ## Delivery -/

/-- Not claimed, or by a claim that has lapsed. -/
def Delivery.free (r : Delivery) (now : Int) : Bool := r.claimedUntil.all fun until_ => decide (until_ ≤ now)

/-- The expiry of the token a row is for, from the join. -/
def tokenExpiry (db : Db tables) (r : Delivery) : Option Int := (db.find .tokens r.tokenID).map Token.expiresAt

/-- Candidate rows in the order of a key. -/
def ordered (key : Delivery → Int) (rows : List (Σ _ : Nat, Delivery)) : List Nat :=
  (rows.insertionSort fun a b => key a.2 ≤ key b.2).map Sigma.fst

def closeDelivery (r : Delivery) : Delivery := { r with ciphertext := none, claimedUntil := none, claimToken := none }

/-- Give up an open row that nobody is working on. -/
def abandonExpired (now : Int) : Edit tables .outbox where
  cond r := r.isOpen && r.free now
  change r := { closeDelivery r with abandonedAt := some now }
  legal r h := ⟨rfl, rfl, fun ho => by simp_all⟩

def expireEmail (now : Int) : Body Reply := do
  let ids ← ask .ids fun db =>
    ordered (fun r => (tokenExpiry db r).getD 0) ((db.rows .outbox).entries.filter fun o =>
      o.2.isOpen && (tokenExpiry db o.2).any (fun e => decide (e ≤ now)) && o.2.free now)
  updateUpTo (S := tables) true .outbox (abandonExpired now) 100 ids
  pure .done

def claim (now until_ : Int) (token : Mint) : Edit tables .outbox where
  cond r := r.isOpen && decide (r.nextAttemptAt ≤ now) && r.free now
  change r := { r with claimedUntil := some until_, claimToken := some token, attempts := r.attempts + 1 }
  legal r h := ⟨rfl, rfl, fun ho => by simp_all⟩

def claimEmail (now : Int) : Body Reply := do
  let ids ← ask .ids fun db =>
    ordered Delivery.createdAt ((db.rows .outbox).entries.filter fun o =>
      o.2.isOpen && decide (o.2.nextAttemptAt ≤ now) && o.2.free now
        && (tokenExpiry db o.2).any (fun e => decide (now < e)))
  let claimToken ← mint
  match ← updateFirst (S := tables) true .outbox (claim now (now + env.cfg.emailDeliveryLease) claimToken) ids with
  | none => pure (.claimed none)
  | some (id, r) =>
    let t ← ask (.row .tokens) fun db => db.find .tokens r.tokenID
    pure (.claimed (some ⟨id, r.tokenID, (t.map Token.tokenHash).getD "", r.merchantID, claimToken, r.messageKind,
      r.ciphertext.getD "", r.attempts⟩))

/-- The row is still the claim's: the fencing of the statements that end it. -/
def Delivery.claimedBy (r : Delivery) (token : Mint) : Bool := decide (r.claimToken = some token) && r.isOpen

def release (token : Mint) (next : Int) : Edit tables .outbox where
  cond r := r.claimedBy token
  change r := { r with claimedUntil := none, claimToken := none, nextAttemptAt := next }
  legal r h := ⟨rfl, rfl, fun ho => by simp_all [Delivery.claimedBy]⟩

def deliver (token : Mint) (deliveredAt : Int) : Edit tables .outbox where
  cond r := r.claimedBy token
  change r := { closeDelivery r with deliveredAt := some deliveredAt }
  legal r h := ⟨rfl, rfl, fun ho => by simp_all [Delivery.claimedBy]⟩

def abandonCorrupt (token : Mint) (now : Int) : Edit tables .outbox where
  cond r := r.claimedBy token
  change r := { closeDelivery r with abandonedAt := some now }
  legal r h := ⟨rfl, rfl, fun ho => by simp_all [Delivery.claimedBy]⟩

def markSent (deliveredAt : Int) : Edit tables .tokens where
  cond r := r.sentAt.isNone
  change r := { r with sentAt := some deliveredAt }
  legal r h := by
    have hs : r.sentAt = none := by simp_all
    exact ⟨rfl, rfl, rfl, rfl, .refl _, kept_none hs _⟩

/-- 5 seconds, doubled with each attempt, up to 5 minutes. -/
def retryDelay (attempt : Nat) : Int := min (5 * second * 2 ^ min (attempt - 1) 6) (300 * second)

def releaseEmail (item : Item) (finishedAt : Int) : Body Reply := do
  let _ ← updateRow .outbox item.id (release item.claimToken (finishedAt + retryDelay item.attempts))
  pure .done

def abandonCorruptEmail (item : Item) (now : Int) : Body Reply := do
  let _ ← updateRow .outbox item.id (abandonCorrupt item.claimToken now)
  pure .done

def recordDelivery (item : Item) (deliveredAt : Int) : Body Reply := do
  match ← updateRow .outbox item.id (deliver item.claimToken deliveredAt) with
  -- a newer worker has the row: nothing is written
  | none => throw .done
  | some _ =>
    let _ ← updateRow .tokens item.tokenID (markSent deliveredAt)
    pure .done

/-! ## Credentials -/

def adminSessionPrefix : String := "eth402_admin_"

def keyPrefix : String := "eth402_live_"

def lookupPrefix (value : String) : String :=
  if hasPrefix keyPrefix value && decide (24 ≤ value.utf8ByteSize) then String.ofList ((chars value).take 24) else ""

/-- Both decode, to the same bytes. -/
def sameHex (a b : String) : Bool :=
  match hexDecode (chars a), hexDecode (chars b) with
  | some x, some y => decide (x = y)
  | _, _ => false

/-- The session's wallet proof is there and not older than the merchant's. -/
def elevated (merchant session : Option Int) : Bool :=
  match merchant, session with
  | some m, some s => decide (m ≤ s)
  | _, _ => false

def liveSession (m : Nat) (hash : String) (s : Session) : Bool :=
  decide (s.merchantID = m) && decide (s.tokenHash = hash) && s.revokedAt.isNone

def lockWalletAuthenticatedAdmin (m : Nat) (sessionToken : String) : Body Unit := do
  require (hasPrefix adminSessionPrefix sessionToken && decide (sessionToken.utf8ByteSize ≤ 128)) .unauthorized
  match ← lockRow .merchants m fun _ => true with
  | none => fail .notFound
  | some merchant =>
    match ← lockWhere .sessions (liveSession m (env.lib.hash sessionToken)) with
    | none => fail .unauthorized
    | some (_, session) =>
      let now ← clock
      require (decide (now < session.expiresAt)) .unauthorized
      require (decide (merchant.status = .active) && elevated merchant.walletVerifiedAt session.walletVerifiedAt)
        .forbidden
      reached (.walletAuthenticated m sessionToken)

def liveKey (m : Nat) (value : String) (k : APIKey) : Bool :=
  decide (k.merchantID = m) && decide (k.keyPrefix = lookupPrefix value) && k.revokedAt.isNone

def lockAuthenticatedAPIKey (m : Nat) (value : String) : Body Unit := do
  require (hasPrefix keyPrefix value && decide (value.utf8ByteSize ≤ 256)) .unauthorized
  match ← lockRow .merchants m fun _ => true with
  | none => fail .unauthorized
  | some merchant =>
    require (decide (merchant.status = .active)) .forbidden
    match ← lockWhere .apiKeys (liveKey m value) with
    | none => fail .unauthorized
    | some (_, key) => require (sameHex key.keyHash (env.lib.keyedHash value)) .unauthorized

/-- `AuthenticateAdmin`: one look at the session and its merchant. -/
def authenticateAdmin (token : String) (now : Int) : Body Reply := do
  require (hasPrefix adminSessionPrefix token && decide (token.utf8ByteSize ≤ 128)) .unauthorized
  match ← ask (.pair .sessions .merchants) (fun db =>
      (db.rows .sessions).entries.findSome? fun s =>
        if s.2.tokenHash = env.lib.hash token ∧ s.2.revokedAt = none ∧ now < s.2.expiresAt then
          match db.find .merchants s.2.merchantID with
          | some m => if m.status ≠ .rejected then some ((s.1, s.2), (s.2.merchantID, m)) else none
          | none => none
        else none) with
  | none => fail .unauthorized
  | some ((_, session), (m, merchant)) =>
    pure (.principal m merchant (elevated merchant.walletVerifiedAt session.walletVerifiedAt))

/-- `Authenticate`: one look at the key and its merchant. -/
def authenticate (value : String) : Body Reply := do
  require (hasPrefix keyPrefix value && decide (value.utf8ByteSize ≤ 256)) .unauthorized
  match ← ask (.pair .apiKeys .merchants) (fun db =>
      (db.rows .apiKeys).entries.findSome? fun k =>
        if k.2.keyPrefix = lookupPrefix value ∧ k.2.revokedAt = none then
          (db.find .merchants k.2.merchantID).map fun m => ((k.1, k.2), (k.2.merchantID, m))
        else none) with
  | none => fail .unauthorized
  | some ((_, key), (m, merchant)) =>
    require (sameHex key.keyHash (env.lib.keyedHash value)) .unauthorized
    require (decide (merchant.status = .active)) .forbidden
    pure (.merchant m merchant)

/-! ## Wallet challenges -/

/-- `NewChallenge` with a nonce drawn for it. -/
def challengeFor (m : Nat) (address : String) (action : Action) (now : Int) : Body Challenge := do
  let nonce ← draw
  match newChallenge env.lib.toWallets (env.lib.idText m) address action now env.cfg.walletTTL nonce with
  | some c => pure c
  | none => fail .invalid

def persistWalletChallenge (m : Nat) (c : Challenge) : Body Reply := do
  let message := c.message env.lib.toWallets
  let createdAt ← clock
  let id ← insertRow .challenges
    { merchantID := m, address := lower c.address, nonce := c.nonce, messageHash := env.lib.hash message
      action := c.action, issuedAt := c.issuedAt, expiresAt := c.expiresAt, createdAt := createdAt }
  pure (.challenge id message c.address c.expiresAt)

/-- The look at the merchant with which `WalletChallenge` begins. -/
def readMerchant (m : Nat) : Body Reply := do
  match ← ask (.row .merchants) (fun db => db.find .merchants m) with
  | none => fail .notFound
  | some merchant => pure (.merchant m merchant)

/-- The rest of `WalletChallenge`, from what it read. -/
def walletChallenge (m : Nat) (merchant : Merchant) (address : String) (action : Action) (now : Int) : Body Reply := do
  require (merchant.emailVerifiedAt.isSome && decide (merchant.status ≠ .suspended) &&
    decide (merchant.status ≠ .rejected))
    .forbidden
  require (decide (action ≠ .changeRecipient) || !equalFold address merchant.recipientAddress) .conflict
  let c ← challengeFor env m (if action = .changeRecipient then address else merchant.recipientAddress) action now
  persistWalletChallenge env m c

def authenticatedWalletChallenge (m : Nat) (apiKey address : String) : Body Reply := do
  lockAuthenticatedAPIKey env m apiKey
  match ← ask (.row .merchants) (fun db => db.find .merchants m) with
  | none => fail .fault
  | some merchant =>
    require (decide (merchant.status = .active) && merchant.emailVerifiedAt.isSome) .forbidden
    require (!equalFold address merchant.recipientAddress) .conflict
    let now ← clock
    let c ← challengeFor env m address .changeRecipient now
    persistWalletChallenge env m c

def adminWalletChallenge (m : Nat) (sessionToken address : String) : Body Reply := do
  lockWalletAuthenticatedAdmin env m sessionToken
  match ← ask (.row .merchants) (fun db => db.find .merchants m) with
  | none => fail .fault
  | some merchant =>
    require (!equalFold address merchant.recipientAddress) .conflict
    let now ← clock
    let c ← challengeFor env m address .changeRecipient now
    persistWalletChallenge env m c

def unproven (r : Merchant) : Bool :=
  decide (r.status = .pending) && r.emailVerifiedAt.isSome && r.walletVerifiedAt.isNone

def replacePending (address : String) : Edit tables .merchants where
  cond := unproven
  change r := { r with recipientAddress := address }
  legal _ _ := ⟨rfl, .refl _, fun h => h⟩

/-- The transaction of `PendingRecipientChallenge`, for a normalized address. -/
def pendingRecipientChallenge (m : Nat) (normalized : String) (now : Int) : Body Reply := do
  match ← lockRow .merchants m fun _ => true with
  | none => fail .notFound
  | some merchant =>
    require (unproven merchant) .forbidden
    let c ← challengeFor env m normalized .verifyRecipient now
    if equalFold merchant.recipientAddress normalized then persistWalletChallenge env m c
    else
      match ← updateRow .merchants m (replacePending normalized) with
      | none => fail .conflict
      | some _ => persistWalletChallenge env m c

/-! ## Proofs of a wallet -/

def consume (now : Int) (proof : Proof) : Edit tables .challenges where
  cond r := r.consumedAt.isNone
  change r := { r with consumedAt := some now, proof := some proof }
  legal r h := ⟨rfl, fun hc => by simp_all⟩

def activateMerchant (address : String) (now : Int) : Edit tables .merchants where
  cond r := r.emailVerifiedAt.isSome && r.walletVerifiedAt.isNone && decide (r.status = .pending)
    && decide (r.recipientAddress = address)
  change r := { r with walletVerifiedAt := some now, status := .active }
  legal _ _ := ⟨rfl, .refl _, fun _ => rfl⟩

def setRecipient (address : String) (now : Int) : Edit tables .merchants where
  cond _ := true
  change r := { r with recipientAddress := address, walletVerifiedAt := some now }
  legal _ _ := ⟨rfl, .refl _, fun h => h⟩

/-- The wallet proofs of all the merchant's sessions are taken back. -/
def clearWallet (m : Nat) : Edit tables .sessions where
  cond s := decide (s.merchantID = m) && s.walletVerifiedAt.isSome
  change s := { s with walletVerifiedAt := none }
  legal _ _ := ⟨rfl, rfl, rfl, .refl _⟩

def stampWallet (m : Nat) (hash : String) (now : Int) : Edit tables .sessions where
  cond s := liveSession m hash s && decide (now < s.expiresAt)
  change s := { s with walletVerifiedAt := some now }
  legal _ _ := ⟨rfl, rfl, rfl, .refl _⟩

/-- `max(verified_at)` over the merchant's recipient history. -/
def lastProof (m : Nat) (db : Db tables) : Option Int :=
  (((db.rows .history).entries.filter fun h => decide (h.2.merchantID = m)).map fun h => h.2.verifiedAt).max?

def cooledDown (m : Nat) (now : Int) : Body Unit := do
  match ← ask .time (lastProof m) with
  | none => fail .fault
  | some last => require (decide (env.cfg.recipientCooldown ≤ now - last)) .throttled

/-- Consume the challenge; somebody else's consumption is a conflict. -/
def consumeChallenge (id : Nat) (now : Int) (proof : Proof) : Body Unit := do
  match ← updateRow .challenges id (consume now proof) with
  | none => fail .conflict
  | some _ => pure ()

/-- The end of `verifyWallet` for a first proof. -/
def activate (m challengeID : Nat) (ch : WalletChallenge) (merchant : Merchant) (proof : Proof) (now : Int)
    (generated : String) : Body Reply := do
  require (decide (merchant.status = .pending) && merchant.emailVerifiedAt.isSome && merchant.walletVerifiedAt.isNone
    && equalFold merchant.recipientAddress ch.address) .forbidden
  consumeChallenge challengeID now proof
  match ← updateRow .merchants m (activateMerchant (lower ch.address) now) with
  | none => fail .forbidden
  | some _ =>
    let _ ← insertRow .history
      { merchantID := m, previousAddress := none, newAddress := lower ch.address, requestedAt := now, verifiedAt := now
        walletChallengeID := challengeID }
    let _ ← insertRow .apiKeys
      { merchantID := m, name := "initial", keyPrefix := lookupPrefix generated, keyHash :=
        env.lib.keyedHash generated }
    pure (.key generated)

/-- The end of `verifyWallet` for another recipient. -/
def changeRecipient (m challengeID : Nat) (ch : WalletChallenge) (merchant : Merchant) (proof : Proof) (now : Int) :
    Body Reply := do
  require (decide (merchant.status = .active) && merchant.walletVerifiedAt.isSome) .forbidden
  require (!equalFold merchant.recipientAddress ch.address) .conflict
  cooledDown env m now
  consumeChallenge challengeID now proof
  let _ ← updateRow .merchants m (setRecipient (lower ch.address) now)
  updateWhere .sessions (clearWallet m)
  let _ ← insertRow .history
    { merchantID := m, previousAddress := some merchant.recipientAddress, newAddress := lower ch.address
      requestedAt := ch.createdAt, verifiedAt := now, walletChallengeID := challengeID }
  pure (.key "")

/-- `verifyWallet`. The session is the one the request carries, if it is the panel's. -/
def verifyWallet (m : Nat) (apiKey : String) (challengeID : Nat) (message signature : String) (expected : Action)
    (session : Option String) (generated : String) : Body Reply := do
  match ← lockRow .challenges challengeID fun ch => decide (ch.merchantID = m) with
  | none => fail .notFound
  | some ch =>
    require (ch.consumedAt.isNone && decide (ch.messageHash = env.lib.hash message)) .invalid
    require (decide (ch.action = expected) && decide (ch.action ≠ .authenticateAdmin)) .forbidden
    match ← lockRow .merchants m fun _ => true with
    | none => fail .notFound
    | some merchant =>
      if apiKey ≠ "" then
        require (decide (expected = .changeRecipient)) .forbidden
        lockAuthenticatedAPIKey env m apiKey
      let now ← clock
      require (decide (now < ch.expiresAt)) .invalid
      require (verifyMessage env.lib.toWallets message signature (env.lib.idText m) ch.address ch.action now) .invalid
      if ch.action = .verifyRecipient then
        activate env m challengeID ch merchant ⟨message, signature, session⟩ now generated
      else changeRecipient env m challengeID ch merchant ⟨message, signature, session⟩ now

def verifyAdminWallet (m : Nat) (sessionToken : String) (challengeID : Nat) (message signature : String) :
    Body Reply := do
  match ← lockRow .challenges challengeID fun ch => decide (ch.merchantID = m) with
  | none => fail .notFound
  | some ch =>
    match ← lockRow .merchants m fun _ => true with
    | none => fail .notFound
    | some merchant =>
      require (decide (merchant.status = .active) && equalFold merchant.recipientAddress ch.address) .forbidden
      let now ← clock
      require (decide (ch.action = .authenticateAdmin) && ch.consumedAt.isNone && decide (now < ch.expiresAt)
        && decide (ch.messageHash = env.lib.hash message)) .invalid
      require (verifyMessage env.lib.toWallets message signature (env.lib.idText m) ch.address .authenticateAdmin now)
        .invalid
      consumeChallenge challengeID now ⟨message, signature, some sessionToken⟩
      match ← updateOne .sessions (stampWallet m (env.lib.hash sessionToken) now) with
      | none => fail .unauthorized
      | some _ => pure .done

def verifyAdminRecipientChange (m : Nat) (sessionToken : String) (challengeID : Nat) (message signature : String) :
    Body Reply := do
  match ← lockRow .challenges challengeID fun ch => decide (ch.merchantID = m) with
  | none => fail .notFound
  | some ch =>
    match ← lockRow .merchants m fun _ => true with
    | none => fail .notFound
    | some merchant =>
      match ← lockWhere .sessions (liveSession m (env.lib.hash sessionToken)) with
      | none => fail .unauthorized
      | some (_, session) =>
        let now ← clock
        require (decide (now < session.expiresAt)) .unauthorized
        require (decide (ch.action = .changeRecipient) && ch.consumedAt.isNone && decide (now < ch.expiresAt)
          && decide (ch.messageHash = env.lib.hash message)) .invalid
        require (verifyMessage env.lib.toWallets message signature (env.lib.idText m) ch.address .changeRecipient now)
          .invalid
        require (decide (merchant.status = .active) && elevated merchant.walletVerifiedAt session.walletVerifiedAt)
          .forbidden
        require (!equalFold merchant.recipientAddress ch.address) .conflict
        cooledDown env m now
        consumeChallenge challengeID now ⟨message, signature, some sessionToken⟩
        let _ ← updateRow .merchants m (setRecipient (lower ch.address) now)
        let _ ← insertRow .history
          { merchantID := m, previousAddress := some merchant.recipientAddress, newAddress := lower ch.address
            requestedAt := ch.createdAt, verifiedAt := now, walletChallengeID := challengeID }
        updateWhere .sessions (clearWallet m)
        match ← updateOne .sessions (stampWallet m (env.lib.hash sessionToken) now) with
        | none => fail .unauthorized
        | some _ => pure .done

/-- One statement: it does not look at the merchant. -/
def markAdminSessionWalletVerified (m : Nat) (sessionToken : String) (now : Int) : Body Reply := do
  match ← updateOne .sessions (stampWallet m (env.lib.hash sessionToken) now) with
  | none => fail .unauthorized
  | some _ => pure .done

def revokeSession (hash : String) (now : Int) : Edit tables .sessions where
  cond s := decide (s.tokenHash = hash) && s.revokedAt.isNone
  change s := { s with revokedAt := some now }
  legal s h := by
    have hs : s.revokedAt = none := by simp_all
    exact ⟨rfl, rfl, rfl, kept_none hs _⟩

def revokeAdminSession (token : String) (now : Int) : Body Reply := do
  let _ ← updateOne .sessions (revokeSession (env.lib.hash token) now)
  pure .done

/-! ## Keys, consents, suspension and settlement -/

/-- The credential a protected operation is asked for with. -/
def lockCredential (m : Nat) (sessionToken apiKey : String) : Body Unit :=
  if sessionToken ≠ "" then lockWalletAuthenticatedAdmin env m sessionToken
  else if apiKey ≠ "" then lockAuthenticatedAPIKey env m apiKey
  else pure ()

def createAPIKey (m : Nat) (sessionToken apiKey name generated : String) : Body Reply := do
  lockCredential env m sessionToken apiKey
  let _ ← insertRow .apiKeys
    { merchantID := m, name := name, keyPrefix := lookupPrefix generated, keyHash := env.lib.keyedHash generated }
  pure (.key generated)

def listProtectedAPIKeys (m : Nat) (sessionToken apiKey : String) : Body Reply := do
  lockCredential env m sessionToken apiKey
  let _ ← ask .ids (select .apiKeys fun k => decide (k.merchantID = m))
  pure .done

def revoke (m : Nat) (now : Int) : Edit tables .apiKeys where
  cond k := decide (k.merchantID = m) && k.revokedAt.isNone
  change k := { k with revokedAt := some now }
  legal k h := by
    have hk : k.revokedAt = none := by simp_all
    exact ⟨rfl, kept_none hk _⟩

def revokeAPIKey (m : Nat) (sessionToken apiKey : String) (keyID : Nat) : Body Reply := do
  lockCredential env m sessionToken apiKey
  let now ← clock
  match ← updateRow .apiKeys keyID (revoke m now) with
  | none => fail .notFound
  | some _ => pure .done

/-- The opt-in of before stays when it is given again. -/
def consent (existing : Option Int) (enabled : Bool) (now : Int) : Option Int :=
  if enabled then existing <|> some now else none

def setStats (value : Option Int) : Edit tables .merchants where
  cond _ := true
  change r := { r with statsOptedInAt := value }
  legal _ _ := ⟨rfl, .refl _, fun h => h⟩

def setPublicProfile (value : Option Int) : Edit tables .merchants where
  cond _ := true
  change r := { r with publicProfileOptedInAt := value }
  legal _ _ := ⟨rfl, .refl _, fun h => h⟩

/-- `setStatsConsent` and `setPublicProfileConsent`, which differ in the column. -/
def setConsent (column : Merchant → Option Int) (write : Option Int → Edit tables .merchants) (m : Nat)
    (sessionToken : String) (enabled : Bool) (now : Int) : Body Reply := do
  if sessionToken ≠ "" then
    lockWalletAuthenticatedAdmin env m sessionToken
  match ← lockRow .merchants m fun _ => true with
  | none => fail .notFound
  | some merchant =>
    require (decide (merchant.status = .active)) .forbidden
    let _ ← updateRow .merchants m (write (consent (column merchant) enabled now))
    pure .done

def setStatsConsent := setConsent env Merchant.statsOptedInAt setStats

def setPublicProfileConsent := setConsent env Merchant.publicProfileOptedInAt setPublicProfile

/-- Suspend or reinstate. -/
def setStatus (status : Status) (h : status.established = true) : Edit tables .merchants where
  cond _ := true
  change r := { r with status := status }
  legal _ _ := ⟨rfl, .refl _, fun _ => h⟩

def reinstateSuspension (m : Nat) (operator : String) (now : Int) : Edit tables .suspensions where
  cond s := decide (s.merchantID = m) && s.reinstatedAt.isNone
  change s := { s with reinstatedAt := some now, reinstatedBy := some operator }
  legal s h := by
    have hs : s.reinstatedAt = none := by simp_all
    exact ⟨rfl, kept_none hs _⟩

/-- `Suspend` with `reinstate` set. -/
def reinstate (m : Nat) (operator : String) : Body Reply := do
  let now ← clock
  match ← updateOne .suspensions (reinstateSuspension m operator now) with
  | none => fail .notFound
  | some _ =>
    let _ ← updateRow .merchants m (setStatus .active rfl)
    pure .done

/-- `Suspend`. The insert selects from a plain look at the merchant. -/
def suspend (m : Nat) (reason operator : String) : Body Reply := do
  match ← ask (.row .merchants) (fun db => db.find .merchants m) with
  | none => fail .notFound
  | some merchant =>
    require (decide (merchant.status = .active)) .notFound
    match ← tryInsert .suspensions { merchantID := m, reasonCode := reason, operatorID := operator } with
    | .error _ => fail .conflict
    | .ok _ =>
      let _ ← updateRow .merchants m (setStatus .suspended rfl)
      pure .done

/-- A payment that verification attributes to a merchant or to nobody. -/
def recordPayment (m : Option Nat) (state : Settlement.State) : Body Reply := do
  let _ ← insertRow .payments { merchantID := m, state := state }
  pure .done

def startSettlement (state : Settlement.State) (now : Int) : Edit tables .payments where
  cond r := decide (r.state = state)
  change r := { r with state := .broadcasting, settlementRequestedAt := some now }
  legal _ _ := rfl

/-- `CreateSettlementIntent`, as far as the merchant decides: a refusal also commits, with nothing of these tables. What
else can refuse (the validity window, the quotas, the signature, the nonce) is left to the outside. -/
def createSettlementIntent (paymentID : Nat) : Body Reply := do
  match ← lockRow .payments paymentID fun _ => true with
  | none => pure .done
  | some payment =>
    if Settlement.canTransition payment.state .broadcasting then
      match payment.merchantID with
      | none => pure .done
      | some m =>
        match ← lockRow .merchants m fun r => decide (r.status = .active) with
        | none => pure .done
        | some _ =>
          let admitted ← flip
          if admitted then
            let now ← clock
            match ← updateRow .payments paymentID (startSettlement payment.state now) with
            | none => fail .fault
            | some _ => pure .done
          else pure .done
    else pure .done

end Eth402.Merchants
