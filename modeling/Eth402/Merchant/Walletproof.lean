/-
Wallet challenges (internal/walletproof/challenge.go): a sign-in message bound to a merchant, an address and an action,
and what a signature over it proves. The sign-in library, the hash behind checksummed addresses and the time format are
parameters.
-/
import Eth402.Lib.Text

namespace Eth402.Merchants

open Lib

def domain : String := "eth402.org"

inductive Action
  | verifyRecipient | changeRecipient | authenticateAdmin
  deriving DecidableEq

/-- The action as requests and messages spell it; the database has `_` for `-`. -/
def Action.wire : Action → String
  | .verifyRecipient => "verify-recipient"
  | .changeRecipient => "change-recipient"
  | .authenticateAdmin => "authenticate-admin"

/-- The fields of a parsed message that are checked. -/
structure Siwe where
  domain : String
  uri : String
  chainID : Nat
  requestID : Option String
  address : String
  resources : List String
  issuedAt : String
  expirationTime : Option String

structure Wallets where
  parseMessage : String → Option Siwe
  /-- The message was signed, by the address it names. -/
  verifyEIP191 : String → String → Bool
  /-- The digest of the lower-case address, half a byte at a time. -/
  keccak : List Char → List Nat
  formatRFC3339 : Int → String
  parseRFC3339 : String → Option Int

/-! ## Addresses -/

def zeroAddress : String := "0x0000000000000000000000000000000000000000"

def normalizeAddress (address : String) : Option String :=
  if address.utf8ByteSize ≠ 42 ∨ ¬ hasPrefix "0x" address then none
  else if (hexDecode ((chars address).drop 2)).isNone then none
  else if equalFold address zeroAddress then none
  else some (lower address)

theorem normalizeAddress_some {a n : String} (h : normalizeAddress a = some n) : n = lower a := by
  unfold normalizeAddress at h
  split at h
  · cases h
  · split at h
    · cases h
    · split at h
      · cases h
      · exact (Option.some.inj h).symm

/-- A letter is upper case where the digest has a half byte from 8 on. -/
def checksumChar (c : Char) (nibble : Nat) : Char :=
  if 'a' ≤ c ∧ c ≤ 'f' ∧ 8 ≤ nibble then Char.ofNat (c.toNat - 32) else c

variable (lib : Wallets)

def checksumAddress (address : String) : Option String :=
  (normalizeAddress address).map fun normalized =>
    let digits := (chars normalized).drop 2
    "0x" ++ String.ofList (digits.zipIdx.map fun x => checksumChar x.1 ((lib.keccak digits).getD x.2 0))

/-! ## Challenges -/

structure Challenge where
  merchantID : String
  address : String
  nonce : String
  issuedAt : Int
  expiresAt : Int
  action : Action
  chainID : Nat

/-- Times are in microseconds. -/
def second : Int := 1000000

/-- `NewChallenge`, given the nonce that was drawn. -/
def newChallenge (merchantID address : String) (action : Action) (now ttl : Int) (nonce : String) :
    Option Challenge := do
  let checksummed ← checksumAddress lib address
  if merchantID = "" ∨ ttl ≤ 0 then none
  else
    let now := now - now % second
    some ⟨merchantID, checksummed, nonce, now, now + ttl, action, 1⟩

def Challenge.message (c : Challenge) : String :=
  domain ++ " wants you to sign in with your Ethereum account:\n" ++ c.address
    ++ "\n\nAuthorize ETH402 recipient control\n\nURI: https://" ++ domain
    ++ "\nVersion: 1\nChain ID: " ++ toString c.chainID ++ "\nNonce: " ++ c.nonce
    ++ "\nIssued At: " ++ lib.formatRFC3339 c.issuedAt ++ "\nExpiration Time: " ++ lib.formatRFC3339 c.expiresAt
    ++ "\nRequest ID: " ++ c.merchantID ++ "\nResources:\n- urn:eth402:action:" ++ c.action.wire

/-- The message parses to one that names the address, and its signature is by the address it names. -/
def Signed (message signature address : String) : Prop :=
  ∃ parsed, lib.parseMessage message = some parsed ∧ lower parsed.address = lower address ∧
    lib.verifyEIP191 message signature = true

/-- `VerifyMessage`: no error. -/
def verifyMessage (message signature merchantID expectedAddress : String) (action : Action) (now : Int) : Bool :=
  match lib.parseMessage message, normalizeAddress expectedAddress with
  | some parsed, some normalized =>
    if parsed.domain ≠ domain ∨ parsed.uri ≠ "https://" ++ domain ∨ parsed.chainID ≠ 1 ∨
        parsed.requestID ≠ some merchantID ∨ lower parsed.address ≠ normalized then false
    else if parsed.resources ≠ ["urn:eth402:action:" ++ action.wire] then false
    else
      match lib.parseRFC3339 parsed.issuedAt, parsed.expirationTime.bind lib.parseRFC3339 with
      | some issued, some expires =>
        decide (issued ≤ now + 60 * second) && decide (now < expires) && lib.verifyEIP191 message signature
      | _, _ => false
  | _, _ => false

theorem verifyMessage_signed {message signature merchantID address : String} {action : Action} {now : Int}
    (h : verifyMessage lib message signature merchantID address action now = true) :
    Signed lib message signature address := by
  unfold verifyMessage at h
  split at h
  · rename_i parsed normalized hp hn
    split at h
    · cases h
    · rename_i hbind
      split at h
      · cases h
      · split at h
        · simp only [Bool.and_eq_true] at h
          have haddr : lower parsed.address = normalized := by
            by_contra hne
            exact hbind (.inr (.inr (.inr (.inr hne))))
          exact ⟨parsed, hp, haddr.trans (normalizeAddress_some hn), h.2⟩
        · cases h
  · cases h

end Eth402.Merchants
