/-
The requests that reach the merchant service (internal/httpapi/merchant.go, merchant_admin.go) and the delivery worker:
what is checked before a transaction, which transactions follow one another, and what is carried from one to the next.
Fair use and decoding come before and can only turn a request away, which is also what a request that stops does.
-/
import Eth402.Merchant.Service

namespace Eth402.Merchants

open Lib Lib.Relational

/-- The transactions by name, with the merchant they are for where the caller says it. A stamp also has the challenge
its request consumed, for the record. -/
inductive Op
  | authenticate | register | requestAdminLink | verifyEmail
  | expireEmail | claimEmail | releaseEmail | abandonEmail | recordDelivery
  | readMerchant | walletChallenge
  | pendingRecipientChallenge (m : Nat)
  | authenticatedWalletChallenge (m : Nat)
  | adminWalletChallenge (m : Nat)
  | verifyWallet (m : Nat)
  | verifyAuthenticatedWallet (m : Nat)
  | verifyAdminWallet (m : Nat)
  | verifyAdminRecipientChange (m : Nat)
  | markAdminSessionWalletVerified (m : Nat) (sessionToken : String) (challengeID : Nat)
  | revokeAdminSession
  | createAPIKey (m : Nat)
  | listAPIKeys (m : Nat)
  | revokeAPIKey (m : Nat)
  | setStatsConsent (m : Nat)
  | setPublicProfileConsent (m : Nat)
  | suspend (m : Nat)
  | reinstate (m : Nat)
  | recordPayment
  | createSettlementIntent (paymentID : Nat)
  deriving DecidableEq

/-- Code around transactions. -/
abbrev Code (α : Type) := Prog (Act tables Reply Op) Act.Answer α

abbrev Request := Prog (Act tables Reply Op) Act.Answer Reply

abbrev readClock : Code Int := Prog.perform (C := Act tables Reply Op) .now

abbrev random : Code String := Prog.perform (C := Act tables Reply Op) .draw

abbrev outcome : Code Bool := Prog.perform (C := Act tables Reply Op) .flip

abbrev transact (op : Op) (body : Body Reply) :
    Code Reply := Prog.perform (C := Act tables Reply Op) (.transact op body)

abbrev refuse (e : Err) : Request := .pure (.err e)

variable (env : Env)

/-! ## Registration -/

structure Registration where
  name : String
  email : String
  recipient : String
  website : String
  description : String
  acceptTerms : Bool

def freeDomains : List String :=
  ["gmail.com", "outlook.com", "hotmail.com", "yahoo.com", "icloud.com", "proton.me", "protonmail.com"]

def disposableDomains : List String := ["mailinator.com", "guerrillamail.com", "10minutemail.com", "tempmail.com"]

def validateDomain (domain : String) : Bool :=
  if env.cfg.denylist.contains domain then false
  else if env.cfg.allowlist ≠ [] then env.cfg.allowlist.contains domain
  else if env.cfg.restrictFree && freeDomains.contains domain then false
  else if env.cfg.blockDisposable && disposableDomains.contains domain then false
  else true

/-- What stands after the first `@`. -/
def emailDomain (email : String) : String := String.ofList (((chars email).dropWhile (· ≠ '@')).drop 1)

def validEmail (email : String) : Bool :=
  decide (email.utf8ByteSize ≤ 320) && decide (env.lib.parseAddress email = some email)
    && decide ((chars email).count '@' = 1) && validateDomain env (emailDomain email)

def validWebsite (website : String) : Bool :=
  website = "" || (env.lib.parseRequestURI website).any fun u => (u.1 = "https" || u.1 = "http") && u.2 ≠ ""

def registerRequest (r : Registration) : Request :=
  let name := env.lib.trimSpace r.name
  let email := lower (env.lib.trimSpace r.email)
  if name.utf8ByteSize < 1 ∨ 200 < name.utf8ByteSize ∨ 2048 < r.website.utf8ByteSize ∨
      4000 < r.description.utf8ByteSize ∨ ¬ r.acceptTerms ∨ ¬ validEmail env email then refuse .invalid
  else
    match normalizeAddress (env.lib.trimSpace r.recipient) with
    | none => refuse .invalid
    | some recipient =>
      if validWebsite env r.website then do
        let rawToken ← random
        let now ← readClock
        transact .register (register env email recipient rawToken now)
      else refuse .invalid

def adminLinkRequest (value : String) : Request :=
  let email := lower (env.lib.trimSpace value)
  if validEmail env email then do
    let rawToken ← random
    let now ← readClock
    transact .requestAdminLink (requestAdminLink env email rawToken now)
  else refuse .invalid

def verifyEmailRequest (token : String) (issueSession : Bool) : Request :=
  if token.utf8ByteSize < 20 then refuse .invalid
  else if issueSession then
    if env.cfg.adminSessionTTL ≤ 0 then refuse .invalid
    else do
      let raw ← random
      let issued ← readClock
      let now ← readClock
      transact .verifyEmail
        (verifyEmail env token (some (adminSessionPrefix ++ raw, issued + env.cfg.adminSessionTTL)) now)
  else do
    let now ← readClock
    transact .verifyEmail (verifyEmail env token none now)

/-! ## The delivery worker -/

/-- `deliverNext`. -/
def deliverNext : Request := do
  let now ← readClock
  match ← transact .expireEmail (expireEmail now) with
  | .done =>
    match ← transact .claimEmail (claimEmail env now) with
    | .claimed (some item) =>
      match env.lib.openToken item.ciphertext item.merchantID item.tokenHash item.kind with
      | none => do
        let now ← readClock
        transact .abandonEmail (abandonCorruptEmail item now)
      | some _ => do
        let sent ← outcome
        if sent then
          let deliveredAt ← readClock
          transact .recordDelivery (recordDelivery item deliveredAt)
        else
          let finishedAt ← readClock
          transact .releaseEmail (releaseEmail item finishedAt)
    | r => pure r
  | r => pure r

/-! ## Authenticated requests -/

def withMerchant (apiKey : String) (next : Nat → Request) : Request := do
  match ← transact .authenticate (authenticate env apiKey) with
  | .merchant m _ => next m
  | r => pure r

def withAdmin (requireWallet : Bool) (sessionToken : String) (next : Nat → Merchant → Request) : Request := do
  let now ← readClock
  match ← transact .authenticate (authenticateAdmin env sessionToken now) with
  | .principal m merchant walletAuthenticated =>
    if requireWallet && !(walletAuthenticated && decide (merchant.status = .active)) then refuse .forbidden
    else next m merchant
  | r => pure r

/-! ### Wallets -/

def walletChallengeRequest (m : Nat) (action : Action) : Request := do
  match ← transact .readMerchant (readMerchant m) with
  | .merchant _ merchant =>
    let now ← readClock
    transact .walletChallenge (walletChallenge env m merchant "" action now)
  | r => pure r

def pendingRecipientRequest (m : Nat) (address : String) : Request :=
  match normalizeAddress address with
  | none => refuse .invalid
  | some normalized => do
    let now ← readClock
    transact (.pendingRecipientChallenge m) (pendingRecipientChallenge env m normalized now)

/-- The lengths every proof is checked for. -/
def wellSized (message signature : String) : Bool :=
  decide (0 < message.utf8ByteSize) && decide (message.utf8ByteSize ≤ 4096) && decide (signature.utf8ByteSize = 132)

/-- `POST /v1/merchants/verify-wallet`. -/
def verifyWalletRequest (m challengeID : Nat) (message signature : String) : Request :=
  if wellSized message signature then do
    let raw ← random
    transact (.verifyWallet m)
      (verifyWallet env m "" challengeID message signature .verifyRecipient none (keyPrefix ++ raw))
  else refuse .invalid

def recipientChallenge (apiKey address : String) : Request :=
  withMerchant env apiKey fun m =>
    transact (.authenticatedWalletChallenge m) (authenticatedWalletChallenge env m apiKey address)

def recipientVerify (apiKey : String) (challengeID : Nat) (message signature : String) : Request :=
  withMerchant env apiKey fun m =>
    if wellSized message signature then do
      let raw ← random
      transact (.verifyAuthenticatedWallet m)
        (verifyWallet env m apiKey challengeID message signature .changeRecipient none (keyPrefix ++ raw))
    else refuse .invalid

def adminWalletChallengeRequest (sessionToken address : String) : Request :=
  withAdmin env false sessionToken fun m merchant =>
    if merchant.status = .pending ∧ merchant.emailVerifiedAt.isSome ∧ merchant.walletVerifiedAt = none then
      if address = "" then walletChallengeRequest env m .verifyRecipient
      else pendingRecipientRequest env m address
    else if merchant.status ≠ .active ∨ merchant.walletVerifiedAt = none then refuse .conflict
    else if address ≠ "" then refuse .invalid
    else walletChallengeRequest env m .authenticateAdmin

/-- `adminVerifyWallet`: a merchant that was pending is activated first and its session stamped in another transaction.
-/
def adminVerifyWalletRequest (sessionToken : String) (challengeID : Nat) (message signature : String) : Request :=
  withAdmin env false sessionToken fun m merchant =>
    match merchant.status with
    | .pending =>
      if wellSized message signature then do
        let raw ← random
        match ← transact (.verifyWallet m)
            (verifyWallet env m "" challengeID message signature .verifyRecipient (some sessionToken)
              (keyPrefix ++ raw)) with
        | .key key =>
          if hasPrefix adminSessionPrefix sessionToken then
            let now ← readClock
            let _ ← transact (.markAdminSessionWalletVerified m sessionToken challengeID)
              (markAdminSessionWalletVerified env m sessionToken now)
            pure (.key key)
          else pure (.key key)
        | r => pure r
      else refuse .invalid
    | .active =>
      if hasPrefix adminSessionPrefix sessionToken && wellSized message signature then
        transact (.verifyAdminWallet m) (verifyAdminWallet env m sessionToken challengeID message signature)
      else refuse .invalid
    | _ => refuse .forbidden

def adminRecipientChallenge (sessionToken address : String) : Request :=
  withAdmin env true sessionToken fun m _ =>
    transact (.adminWalletChallenge m) (adminWalletChallenge env m sessionToken address)

def adminVerifyRecipientChange (sessionToken : String) (challengeID : Nat) (message signature : String) : Request :=
  withAdmin env true sessionToken fun m _ =>
    if hasPrefix adminSessionPrefix sessionToken && wellSized message signature then
      transact (.verifyAdminRecipientChange m)
        (verifyAdminRecipientChange env m sessionToken challengeID message signature)
    else refuse .invalid

def adminLogout (sessionToken : String) : Request :=
  if hasPrefix adminSessionPrefix sessionToken && decide (sessionToken.utf8ByteSize ≤ 128) then do
    let now ← readClock
    transact .revokeAdminSession (revokeAdminSession env sessionToken now)
  else refuse .unauthorized

/-! ### Keys and consents -/

/-- The credential that authenticated a request. -/
inductive Credential
  | session (token : String)
  | apiKey (value : String)

/-- Authenticated by either credential; `next` has the session token and the key, one of them empty. -/
def withCredential (cred : Credential) (next : Nat → String → String → Request) : Request :=
  match cred with
  | .session token => withAdmin env true token fun m _ => next m token ""
  | .apiKey value => withMerchant env value fun m => next m "" value

def createKey (cred : Credential) (name : String) : Request :=
  withCredential env cred fun m sessionToken apiKey =>
    let name := env.lib.trimSpace name
    if name.utf8ByteSize < 1 ∨ 100 < name.utf8ByteSize then refuse .invalid
    else do
      let raw ← random
      transact (.createAPIKey m) (createAPIKey env m sessionToken apiKey name (keyPrefix ++ raw))

def listKeys (cred : Credential) : Request :=
  withCredential env cred fun m sessionToken apiKey =>
    transact (.listAPIKeys m) (listProtectedAPIKeys env m sessionToken apiKey)

def revokeKey (cred : Credential) (keyID : Nat) : Request :=
  withCredential env cred fun m sessionToken apiKey =>
    transact (.revokeAPIKey m) (revokeAPIKey env m sessionToken apiKey keyID)

def adminStatsConsent (sessionToken : String) (enabled : Bool) : Request :=
  withAdmin env true sessionToken fun m _ => do
    let now ← readClock
    transact (.setStatsConsent m) (setStatsConsent env m sessionToken enabled now)

def adminPublicProfileConsent (sessionToken : String) (enabled : Bool) : Request :=
  withAdmin env true sessionToken fun m _ => do
    let now ← readClock
    transact (.setPublicProfileConsent m) (setPublicProfileConsent env m sessionToken enabled now)

/-! ## Operators, verification and settlement -/

def suspendRequest (m : Nat) (reason operator : String) : Request :=
  if 200 < reason.utf8ByteSize ∨ operator = "" ∨ env.lib.trimSpace reason = "" then refuse .invalid
  else transact (.suspend m) (suspend m reason operator)

def reinstateRequest (m : Nat) (operator : String) : Request :=
  if operator = "" then refuse .invalid else transact (.reinstate m) (reinstate m operator)

inductive Entry
  | register (r : Registration)
  | adminLink (email : String)
  | verifyEmail (token : String) (issueSession : Bool)
  | deliverNext
  | walletChallenge (m : Nat)
  | verifyWallet (m challengeID : Nat) (message signature : String)
  | recipientChallenge (apiKey address : String)
  | recipientVerify (apiKey : String) (challengeID : Nat) (message signature : String)
  | adminWalletChallenge (sessionToken address : String)
  | adminVerifyWallet (sessionToken : String) (challengeID : Nat) (message signature : String)
  | adminRecipientChallenge (sessionToken address : String)
  | adminVerifyRecipientChange (sessionToken : String) (challengeID : Nat) (message signature : String)
  | adminLogout (sessionToken : String)
  | createKey (cred : Credential) (name : String)
  | listKeys (cred : Credential)
  | revokeKey (cred : Credential) (keyID : Nat)
  | adminStatsConsent (sessionToken : String) (enabled : Bool)
  | adminPublicProfileConsent (sessionToken : String) (enabled : Bool)
  | suspend (m : Nat) (reason operator : String)
  | reinstate (m : Nat) (operator : String)
  | recordPayment (m : Option Nat) (state : Settlement.State)
  | settle (paymentID : Nat)

def code : Entry → Request
  | .register r => registerRequest env r
  | .adminLink email => adminLinkRequest env email
  | .verifyEmail token issueSession => verifyEmailRequest env token issueSession
  | .deliverNext => deliverNext env
  | .walletChallenge m => walletChallengeRequest env m .verifyRecipient
  | .verifyWallet m challengeID message signature => verifyWalletRequest env m challengeID message signature
  | .recipientChallenge apiKey address => recipientChallenge env apiKey address
  | .recipientVerify apiKey challengeID message signature => recipientVerify env apiKey challengeID message signature
  | .adminWalletChallenge sessionToken address => adminWalletChallengeRequest env sessionToken address
  | .adminVerifyWallet sessionToken challengeID message signature =>
    adminVerifyWalletRequest env sessionToken challengeID message signature
  | .adminRecipientChallenge sessionToken address => adminRecipientChallenge env sessionToken address
  | .adminVerifyRecipientChange sessionToken challengeID message signature =>
    adminVerifyRecipientChange env sessionToken challengeID message signature
  | .adminLogout sessionToken => adminLogout env sessionToken
  | .createKey cred name => createKey env cred name
  | .listKeys cred => listKeys env cred
  | .revokeKey cred keyID => revokeKey env cred keyID
  | .adminStatsConsent sessionToken enabled => adminStatsConsent env sessionToken enabled
  | .adminPublicProfileConsent sessionToken enabled => adminPublicProfileConsent env sessionToken enabled
  | .suspend m reason operator => suspendRequest env m reason operator
  | .reinstate m operator => reinstateRequest m operator
  | .recordPayment m state => transact .recordPayment (recordPayment m state)
  | .settle paymentID => transact (.createSettlementIntent paymentID) (createSettlementIntent paymentID)

@[reducible] def service : Service tables where
  Reply := Reply
  Op := Op
  Entry := Entry
  code := code env
  fault := .err .fault

end Eth402.Merchants
