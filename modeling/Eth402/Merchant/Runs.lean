/-
Every request keeps to its transactions' specifications: what is known of one transaction when the next begins, and from
it that every commit of every run is a `Change` (`committed`). What a request knows between transactions no other takes
away: which row a worker has claimed and for which token, and that the challenge of a first proof has been consumed.
-/
import Eth402.Lib.Traces
import Eth402.Merchant.Commits

namespace Eth402.Merchants

open Lib Lib.Relational Lib.Relational.Sql

variable {env : Env} {D : Discipline tables} {p : Nat} {K : Int → Db tables → Prop}

/-- A transaction whose reply says something lasting about the database, and what follows it. -/
theorem safe_then {op : Op} {body : Body Reply} {k : Reply → Request} {R : Reply → Db tables → Prop}
    (hmoves : ∀ {r db db'}, R r db → db.Moves db' → R r db') (hrefused : ∀ {r db}, Refusal r → R r db)
    (hbody : ∀ τ c db, D.Later τ c → K τ db → K c db → Ok D (noteHolds env) p c db τ {} body Refusal fun r _ w =>
      Change env D p c db w op ∧ R r (db.puts w.puts))
    (hnext : ∀ r, Safe D (spec env D) p (k r) fun _ db => R r db) (hfault : Safe D (spec env D) p (k (.err .fault)) K) :
    Safe D (spec env D) p (transact op body >>= k : Request) K := by
  refine ⟨fun e _ db => R (reply e) db, fun _ => (fun h _ hm => hmoves h hm), fun τ c db _ hτ hk hk' => ?_,
    fun e => hnext (reply e), hfault⟩
  exact ok_mono (hbody τ c db hτ hk hk') (fun r hr => hrefused hr) fun _ _ _ h => h

/-! ## Registration and delivery -/

theorem safe_registerRequest (r : Registration) : Safe D (spec env D) p (registerRequest env r) fun _ _ => True := by
  unfold registerRequest
  dsimp only
  split
  · trivial
  · split
    · trivial
    · split
      · intro rawToken now _
        exact safe_last fun τ c db _ _ hk _ => ok_register hk.2
      · trivial

theorem safe_adminLinkRequest (email : String) : Safe D (spec env D) p (adminLinkRequest env email) fun _ _ =>
    True := by
  unfold adminLinkRequest
  dsimp only
  split
  · intro rawToken now _
    exact safe_last fun τ c db _ _ hk _ => ok_enqueueAgain (.inr rfl) hk.2
  · trivial

theorem safe_verifyEmailRequest (token : String) (issueSession : Bool) :
    Safe D (spec env D) p (verifyEmailRequest env token issueSession) fun _ _ => True := by
  unfold verifyEmailRequest
  split
  · trivial
  · split
    · split
      · trivial
      · intro raw issued _ now _
        exact safe_last fun _ _ _ _ _ _ _ => ok_verifyEmail
    · intro now _
      exact safe_last fun _ _ _ _ _ _ _ => ok_verifyEmail

theorem safe_deliverNext : Safe D (spec env D) p (deliverNext env) fun _ _ => True := by
  intro now hread
  refine safe_then (R := fun _ _ => True) (fun h _ => h) (fun _ => trivial)
    (fun _ _ _ _ _ _ => ok_mono (ok_expireEmail hread) (fun _ h => h) fun _ _ _ h => ⟨h, trivial⟩) (fun r => ?_) trivial
  cases r with
  | done =>
    refine safe_then (R := fun r db => ∀ item, r = .claimed (some item) → Claims p item db)
      (fun h hm item he => (h item he).moves hm) (fun hr item he => ?_) (fun _ _ _ _ _ _ => ok_claimEmail hread)
      (fun r => ?_) trivial
    · subst he
      rcases hr with hr | ⟨e, hr⟩ <;> cases hr
    · cases r with
      | claimed item =>
        cases item with
        | none => trivial
        | some item =>
          dsimp only
          split
          · intro now _
            exact safe_last fun _ _ _ _ _ _ hk => ok_abandonCorruptEmail (hk.1 item rfl)
          · intro sent
            cases sent with
            | true =>
              intro deliveredAt _
              exact safe_last fun _ _ _ _ _ _ hk => ok_recordDelivery (hk.1 item rfl)
            | false =>
              intro finishedAt _
              exact safe_last fun _ _ _ _ _ _ hk => ok_releaseEmail (hk.1 item rfl)
      | _ => trivial
  | _ => trivial

/-! ## Authenticated requests -/

theorem ne_empty_of_hasPrefix {pre s : String} (hpre : chars pre ≠ []) (h : hasPrefix pre s = true) : s ≠ "" := by
  rintro rfl
  have : chars pre <+: [] := by simpa [hasPrefix] using h
  exact hpre (List.prefix_nil.1 this)

theorem safe_withAdmin {requireWallet : Bool} {token : String} {next : Nat → Merchant → Request}
    (h : token ≠ "" → ∀ m merchant, Safe D (spec env D) p (next m merchant) fun _ _ => True) :
    Safe D (spec env D) p (withAdmin env requireWallet token next) fun _ _ => True := by
  intro now _
  refine safe_then (R := fun r _ => Refusal r ∨ hasPrefix adminSessionPrefix token = true) (fun h _ => h) .inl
    (fun _ _ _ _ _ _ => ok_mono ok_authenticateAdmin (fun _ h => h) fun _ _ _ h => ⟨h.1, .inr h.2⟩)
    (fun r => ?_) trivial
  cases r with
  | principal m merchant walletAuthenticated =>
    dsimp only
    split
    · trivial
    · refine Safe.of_known (P := hasPrefix adminSessionPrefix token = true) (fun _ _ hk => ?_) fun htoken => ?_
      · rcases hk with (hk | ⟨e, hk⟩) | hk
        · cases hk
        · cases hk
        · exact hk
      · exact (h (ne_empty_of_hasPrefix (by decide) htoken) m merchant).mono fun _ _ _ => trivial
  | _ => trivial

theorem safe_withMerchant {apiKey : String} {next : Nat → Request}
    (h : apiKey ≠ "" → ∀ m, Safe D (spec env D) p (next m) fun _ _ => True) :
    Safe D (spec env D) p (withMerchant env apiKey next) fun _ _ => True := by
  refine safe_then (R := fun r _ => Refusal r ∨ hasPrefix keyPrefix apiKey = true) (fun h _ => h) .inl
    (fun _ _ _ _ _ _ => ok_mono ok_authenticate (fun _ h => h) fun _ _ _ h => ⟨h.1, .inr h.2⟩) (fun r => ?_) trivial
  cases r with
  | merchant m merchant =>
    refine Safe.of_known (P := hasPrefix keyPrefix apiKey = true) (fun _ _ hk => ?_) fun hkey => ?_
    · rcases hk with (hk | ⟨e, hk⟩) | hk
      · cases hk
      · cases hk
      · exact hk
    · exact (h (ne_empty_of_hasPrefix (by decide) hkey) m).mono fun _ _ _ => trivial
  | _ => trivial

theorem safe_withCredential {cred : Credential} {next : Nat → String → String → Request}
    (h : ∀ m sessionToken apiKey, sessionToken ≠ "" ∨ apiKey ≠ "" →
      Safe D (spec env D) p (next m sessionToken apiKey) fun _ _ => True) :
    Safe D (spec env D) p (withCredential env cred next) fun _ _ => True := by
  cases cred with
  | session token => exact safe_withAdmin fun htoken m _ => h m token "" (.inl htoken)
  | apiKey value => exact safe_withMerchant fun hkey m => h m "" value (.inr hkey)

/-! ### Wallets -/

theorem safe_walletChallengeRequest (m : Nat) (action : Action) :
    Safe D (spec env D) p (walletChallengeRequest env m action) fun _ _ => True := by
  refine safe_then (R := fun _ _ => True) (fun h _ => h) (fun _ => trivial)
    (fun _ _ _ _ _ _ => ok_mono ok_readMerchant (fun _ h => h) fun _ _ _ h => ⟨h, trivial⟩) (fun r => ?_) trivial
  cases r with
  | merchant _ merchant =>
    intro now _
    exact safe_last fun _ _ _ _ _ _ _ => ok_walletChallenge
  | _ => trivial

theorem safe_pendingRecipientRequest (m : Nat) (address : String) :
    Safe D (spec env D) p (pendingRecipientRequest env m address) fun _ _ => True := by
  unfold pendingRecipientRequest
  split
  · trivial
  · intro now _
    exact safe_last fun _ _ _ _ _ _ _ => ok_pendingRecipientChallenge

theorem safe_verifyWalletRequest (m challengeID : Nat) (message signature : String) :
    Safe D (spec env D) p (verifyWalletRequest env m challengeID message signature) fun _ _ => True := by
  unfold verifyWalletRequest
  split
  · intro raw
    exact safe_last fun _ _ _ _ _ _ _ =>
      ok_mono (ok_verifyWallet (.inl ⟨rfl, rfl⟩)) (fun _ h => h) fun _ _ _ h => h.1
  · trivial

theorem safe_recipientVerify (apiKey : String) (challengeID : Nat) (message signature : String) :
    Safe D (spec env D) p (recipientVerify env apiKey challengeID message signature) fun _ _ => True := by
  refine safe_withMerchant fun _ m => ?_
  split
  · intro raw
    exact safe_last fun _ _ _ _ _ _ _ =>
      ok_mono (ok_verifyWallet (.inr ⟨rfl, rfl⟩)) (fun _ h => h) fun _ _ _ h => h.1
  · trivial

theorem safe_adminWalletChallengeRequest (sessionToken address : String) :
    Safe D (spec env D) p (adminWalletChallengeRequest env sessionToken address) fun _ _ => True := by
  refine safe_withAdmin fun _ m merchant => ?_
  split
  · split
    · exact safe_walletChallengeRequest m .verifyRecipient
    · exact safe_pendingRecipientRequest m address
  · split
    · trivial
    · split
      · trivial
      · exact safe_walletChallengeRequest m .authenticateAdmin

/-- The stamp that follows an activation is made by a request whose challenge has been consumed. -/
theorem safe_activation {m challengeID : Nat} {message signature sessionToken generated : String} :
    Safe D (spec env D) p (do
      match ← transact (.verifyWallet m)
          (verifyWallet env m "" challengeID message signature .verifyRecipient (some sessionToken) generated) with
      | .key key =>
        if hasPrefix adminSessionPrefix sessionToken then
          let now ← readClock
          let _ ← transact (.markAdminSessionWalletVerified m sessionToken challengeID)
            (markAdminSessionWalletVerified env m sessionToken now)
          pure (.key key)
        else pure (.key key)
      | r => pure r : Request) fun _ _ => True := by
  refine safe_then (R := fun r db => Refusal r ∨
    ∃ ch, Spent env db m challengeID ch ⟨message, signature, some sessionToken⟩)
    (fun h hm => h.imp_right fun ⟨ch, h⟩ => ⟨ch, h.moves hm⟩) .inl
    (fun _ _ _ _ _ _ => ok_mono (ok_verifyWallet (.inl ⟨rfl, rfl⟩)) (fun _ h => h) fun _ _ _ h => ⟨h.1, .inr (h.2 rfl)⟩)
    (fun r => ?_) trivial
  cases r with
  | key key =>
    dsimp only
    split
    · intro now _
      refine safe_last (E := Refusal) (g := fun _ => Reply.key key) fun τ c db _ _ _ hk => ?_
      rcases hk.1 with (hr | ⟨e, hr⟩) | ⟨ch, h⟩
      · cases hr
      · cases hr
      · exact ok_markAdminSessionWalletVerified h rfl
    · trivial
  | _ => trivial

theorem safe_adminVerifyWalletRequest (sessionToken : String) (challengeID : Nat) (message signature : String) :
    Safe D (spec env D) p (adminVerifyWalletRequest env sessionToken challengeID message signature) fun _ _ =>
      True := by
  refine safe_withAdmin fun _ m merchant => ?_
  split
  · split
    · intro raw
      exact safe_activation
    · trivial
  · split
    · exact safe_last fun _ _ _ _ _ _ _ => ok_verifyAdminWallet
    · trivial
  · trivial

theorem safe_adminVerifyRecipientChange (sessionToken : String) (challengeID : Nat) (message signature : String) :
    Safe D (spec env D) p (adminVerifyRecipientChange env sessionToken challengeID message signature) fun _ _ =>
      True := by
  refine safe_withAdmin fun _ m merchant => ?_
  split
  · exact safe_last fun _ _ _ _ _ _ _ => ok_verifyAdminRecipientChange
  · trivial

/-! ### Keys -/

theorem safe_createKey (cred : Credential) (name : String) :
    Safe D (spec env D) p (createKey env cred name) fun _ _ => True := by
  unfold createKey
  refine safe_withCredential fun m sessionToken apiKey hcred => ?_
  dsimp only
  split
  · trivial
  · intro raw
    exact safe_last fun _ _ _ _ _ _ _ => ok_createAPIKey hcred

theorem safe_listKeys (cred : Credential) : Safe D (spec env D) p (listKeys env cred) fun _ _ => True := by
  unfold listKeys
  exact safe_withCredential fun m _ _ hcred => safe_last fun _ _ _ _ _ _ _ => ok_listProtectedAPIKeys hcred

theorem safe_revokeKey (cred : Credential) (keyID : Nat) :
    Safe D (spec env D) p (revokeKey env cred keyID) fun _ _ => True := by
  unfold revokeKey
  exact safe_withCredential fun m _ _ hcred => safe_last fun _ _ _ _ _ _ _ => ok_revokeAPIKey hcred

/-! ## All of them -/

theorem safe_code (e : Entry) : Safe D (spec env D) p (code env e) fun _ _ => True := by
  cases e with
  | register r => exact safe_registerRequest r
  | adminLink email => exact safe_adminLinkRequest email
  | verifyEmail token issueSession => exact safe_verifyEmailRequest token issueSession
  | deliverNext => exact safe_deliverNext
  | walletChallenge m => exact safe_walletChallengeRequest m .verifyRecipient
  | verifyWallet m challengeID message signature => exact safe_verifyWalletRequest m challengeID message signature
  | recipientChallenge apiKey address =>
    exact safe_withMerchant fun _ m => safe_last fun _ _ _ _ _ _ _ => ok_authenticatedWalletChallenge
  | recipientVerify apiKey challengeID message signature =>
    exact safe_recipientVerify apiKey challengeID message signature
  | adminWalletChallenge sessionToken address => exact safe_adminWalletChallengeRequest sessionToken address
  | adminVerifyWallet sessionToken challengeID message signature =>
    exact safe_adminVerifyWalletRequest sessionToken challengeID message signature
  | adminRecipientChallenge sessionToken address =>
    exact safe_withAdmin fun _ m _ => safe_last fun _ _ _ _ _ _ _ => ok_adminWalletChallenge
  | adminVerifyRecipientChange sessionToken challengeID message signature =>
    exact safe_adminVerifyRecipientChange sessionToken challengeID message signature
  | adminLogout sessionToken =>
    simp only [code, adminLogout]
    split
    · intro now _
      exact safe_last fun _ _ _ _ _ _ _ => ok_revokeAdminSession
    · trivial
  | createKey cred name => exact safe_createKey cred name
  | listKeys cred => exact safe_listKeys cred
  | revokeKey cred keyID => exact safe_revokeKey cred keyID
  | adminStatsConsent sessionToken enabled =>
    exact safe_withAdmin fun _ m _ now _ => safe_last fun _ _ _ _ _ _ _ => ok_setStatsConsent
  | adminPublicProfileConsent sessionToken enabled =>
    exact safe_withAdmin fun _ m _ now _ => safe_last fun _ _ _ _ _ _ _ => ok_setPublicProfileConsent
  | suspend m reason operator =>
    simp only [code, suspendRequest]
    split
    · trivial
    · exact safe_last fun _ _ _ _ _ _ _ => ok_suspend
  | reinstate m operator =>
    simp only [code, reinstateRequest]
    split
    · trivial
    · exact safe_last fun _ _ _ _ _ _ _ => ok_reinstate
  | recordPayment m state => exact safe_last fun _ _ _ _ _ _ _ => ok_recordPayment
  | settle paymentID => exact safe_last fun _ _ _ _ _ _ _ => ok_createSettlementIntent

theorem committed {chs : List (Choice (service env))} {s : World (service env)}
    (h : (World.init (service env) empty).run chs = some s) :
    Inv (.any tables) (spec env (.any tables))
      (fun e => Change env (.any tables) e.caller e.clock e.before e.work e.op) empty s :=
  Inv.run_any empty_sound (fun _ e => safe_code e) h

/-- The times that a change goes by were read in the run. -/
theorem committed_tracing {chs : List (Choice (service env))} {s : World (service env)}
    (h : (World.init (service env) empty).run chs = some s) :
    Inv (.tracing (.init (service env) empty) chs) (spec env (.tracing (.init (service env) empty) chs))
      (fun e => Change env (.tracing (.init (service env) empty) chs) e.caller e.clock e.before e.work e.op) empty s :=
  Inv.run_tracing empty_sound (fun _ e => safe_code e) (List.append_nil _).symm h

/-! ## A fixed environment

For runs on fixed inputs: texts are their own hashes, every signature is good, and messages are read line by line. -/

def lines : List Char → List (List Char)
  | [] => [[]]
  | c :: cs =>
    if c = '\n' then [] :: lines cs
    else
      match lines cs with
      | [] => [[c]]
      | l :: ls => (c :: l) :: ls

/-- The rest of a line after its label. -/
def afterLabel (label : String) (line : List Char) : String := String.ofList (line.drop (chars label).length)

def sampleWallets : Wallets where
  parseMessage message :=
    match lines (chars message) with
    | [_, address, _, _, _, uri, _, _, _, issuedAt, expirationTime, requestID, _, resource] =>
      some ⟨domain, afterLabel "URI: " uri, 1, some (afterLabel "Request ID: " requestID), String.ofList address,
        [afterLabel "- " resource], afterLabel "Issued At: " issuedAt,
          some (afterLabel "Expiration Time: " expirationTime)⟩
    | _ => none
  verifyEIP191 _ _ := true
  keccak _ := []
  formatRFC3339 t := toString t
  parseRFC3339 s := some ((chars s).foldl (fun n d => 10 * n + (d.toNat - 48)) 0)

def sampleEnv : Env where
  cfg := {
    emailTTL := 100, resend := 60, walletTTL := 1000, recipientCooldown := 0, adminSessionTTL := 1000
    emailDeliveryLease := 30, blockDisposable := false, restrictFree := false, allowlist := [], denylist := [] }
  lib := { sampleWallets with
    hash := id, keyedHash := id, trimSpace := id, parseAddress := some, parseRequestURI := fun _ => none
    sealToken := fun _ token _ _ _ => token, openToken := fun ciphertext _ _ _ => some ciphertext
    idText := fun n => toString n }

/-- A world of that environment nobody has entered. -/
def sampleWorld : World (service sampleEnv) := .init _ empty

/-- Steps of one caller with the same input. -/
def steps (p : Nat) (inp : Input) (n : Nat) : List (Choice (service sampleEnv)) := List.replicate n (.go p inp)

def sampleAddress : String := "0x1111111111111111111111111111111111111111"

def sampleToken : String := "abcdefghijklmnopqrstuvwxyz"

/-- Caller 0 registers a merchant. -/
def sampleRegistration : List (Choice (service sampleEnv)) :=
  .start 0 (.register ⟨"shop", "a@b.org", sampleAddress, "", "", true⟩) ::
    steps 0 { text := sampleToken } 7 ++ [.finish 0 .made]

/-- The message of a challenge to merchant 0 issued in the first second. -/
def sampleMessage (address nonce : String) (action : Action) : String :=
  Challenge.message sampleWallets ⟨"0", address, nonce, 0, 1000, action, 1⟩

def sampleSignature : String := String.ofList (List.replicate 132 'f')

/-- The merchant's email is verified at 10, a challenge issued at 20 and the wallet proven at 30. -/
def sampleActivation : List (Choice (service sampleEnv)) :=
  sampleRegistration
    ++ .start 1 (.verifyEmail sampleToken false) :: steps 1 { time := 10 } 5 ++ [.finish 1 .made]
    ++ .start 2 (.walletChallenge 0) :: steps 2 {} 2 ++ [.finish 2 .made] ++ steps 2 { time := 20, text := "n" } 5
    ++ [.finish 2 .made]
    ++ .start 3 (.verifyWallet 0 0 (sampleMessage sampleAddress "n" .verifyRecipient) sampleSignature)
      :: steps 3 { time := 30, text := "k" } 9 ++ [.finish 3 .made]

end Eth402.Merchants
