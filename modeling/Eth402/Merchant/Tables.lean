/-
The tables of the merchant service (migrations 1, 11, 12 and 13): the columns that are read, the unique indexes, the
foreign keys and the checks. A challenge also keeps what it was consumed with, for the record. Audit events are left
out: nothing here reads them.
-/
import Eth402.Lib.Relation
import Eth402.Lib.Sql
import Eth402.Lib.Text
import Eth402.Merchant.Walletproof
import Eth402.Settlement.State

namespace Eth402.Merchants

open Lib Lib.Relational

inductive Status
  | pending | manualReview | active | suspended | rejected
  deriving DecidableEq

structure Merchant where
  businessEmail : String
  recipientAddress : String
  status : Status := .pending
  emailVerifiedAt : Option Int := none
  walletVerifiedAt : Option Int := none
  statsOptedInAt : Option Int := none
  publicProfileOptedInAt : Option Int := none

/-- `email_verification_tokens`. -/
structure Token where
  merchantID : Nat
  tokenHash : String
  expiresAt : Int
  createdAt : Int
  consumedAt : Option Int := none
  sentAt : Option Int := none

inductive MailKind
  | registration | adminLogin
  deriving DecidableEq

/-- `email_delivery_outbox`. -/
structure Delivery where
  merchantID : Nat
  tokenID : Nat
  messageKind : MailKind
  ciphertext : Option String
  attempts : Nat := 0
  nextAttemptAt : Int
  claimedUntil : Option Int := none
  claimToken : Option Mint := none
  deliveredAt : Option Int := none
  abandonedAt : Option Int := none
  createdAt : Int

/-- The message and the signature a challenge was consumed with, and the session token its request carried. -/
structure Proof where
  message : String
  signature : String
  session : Option String

/-- `wallet_verification_challenges`. -/
structure WalletChallenge where
  merchantID : Nat
  address : String
  nonce : String
  messageHash : String
  action : Action
  issuedAt : Int
  expiresAt : Int
  createdAt : Int
  consumedAt : Option Int := none
  proof : Option Proof := none

structure APIKey where
  merchantID : Nat
  name : String
  keyPrefix : String
  keyHash : String
  revokedAt : Option Int := none

/-- `recipient_address_history`. -/
structure Recipient where
  merchantID : Nat
  previousAddress : Option String
  newAddress : String
  requestedAt : Int
  verifiedAt : Int
  walletChallengeID : Nat

structure Suspension where
  merchantID : Nat
  reasonCode : String
  operatorID : String
  reinstatedAt : Option Int := none
  reinstatedBy : Option String := none

/-- `merchant_admin_sessions`. -/
structure Session where
  merchantID : Nat
  tokenHash : String
  expiresAt : Int
  createdAt : Int
  walletVerifiedAt : Option Int := none
  revokedAt : Option Int := none

/-- `payment_records`. -/
structure Payment where
  merchantID : Option Nat
  state : Settlement.State
  settlementRequestedAt : Option Int := none

inductive Table
  | merchants | tokens | outbox | challenges | apiKeys | history | suspensions | sessions | payments
  deriving DecidableEq

@[reducible] def Row : Table → Type
  | .merchants => Merchant
  | .tokens => Token
  | .outbox => Delivery
  | .challenges => WalletChallenge
  | .apiKeys => APIKey
  | .history => Recipient
  | .suspensions => Suspension
  | .sessions => Session
  | .payments => Payment

/-- Entries of the unique indexes, by column. -/
inductive Slot
  | businessEmail (s : String)
  | tokenHash (s : String)
  | tokenID (n : Nat)
  | nonce (s : String)
  | messageHash (s : String)
  | keyPrefix (s : String)
  | keyHash (s : String)
  | openSuspension (n : Nat)
  | sessionHash (s : String)
  deriving DecidableEq

/-- The index on the email leaves out rejected merchants; nothing here rejects one. -/
def slots : (t : Table) → Row t → List Slot
  | .merchants, r => [.businessEmail r.businessEmail]
  | .tokens, r => [.tokenHash r.tokenHash]
  | .outbox, r => [.tokenID r.tokenID]
  | .challenges, r => [.nonce r.nonce, .messageHash r.messageHash]
  | .apiKeys, r => [.keyPrefix r.keyPrefix, .keyHash r.keyHash]
  | .history, _ | .payments, _ => []
  | .suspensions, r => if r.reinstatedAt = none then [.openSuspension r.merchantID] else []
  | .sessions, r => [.sessionHash r.tokenHash]

def parents : (t : Table) → Row t → List (Table × Nat)
  | .merchants, _ => []
  | .tokens, r | .challenges, r | .apiKeys, r | .suspensions, r | .sessions, r => [(.merchants, r.merchantID)]
  | .outbox, r => [(.merchants, r.merchantID), (.tokens, r.tokenID)]
  | .history, r => [(.merchants, r.merchantID), (.challenges, r.walletChallengeID)]
  | .payments, r => r.merchantID.toList.map fun m => (.merchants, m)

/-- NULL, or at or after the given time. -/
def nullOrFrom (t : Int) (x : Option Int) : Bool := x.all fun y => decide (t ≤ y)

def check : (t : Table) → Row t → Bool
  | .merchants, r => lower r.businessEmail = r.businessEmail && lower r.recipientAddress = r.recipientAddress
  | .tokens, r => decide (r.createdAt < r.expiresAt) && nullOrFrom r.createdAt r.consumedAt
  | .outbox, r =>
    (r.ciphertext.isSome || r.deliveredAt.isSome || r.abandonedAt.isSome)
      && (r.claimedUntil.isNone == r.claimToken.isNone)
      && (r.deliveredAt.isNone || r.abandonedAt.isNone)
      && ((r.deliveredAt.isNone && r.abandonedAt.isNone) || r.claimToken.isNone)
      && nullOrFrom r.createdAt r.deliveredAt && nullOrFrom r.createdAt r.abandonedAt
  | .challenges, r =>
    lower r.address = r.address && decide (r.issuedAt < r.expiresAt) && nullOrFrom r.issuedAt r.consumedAt
  | .apiKeys, r => 1 ≤ r.name.length && r.name.length ≤ 100
  | .history, r =>
    r.previousAddress.all (fun a => decide (lower a = a)) && lower r.newAddress = r.newAddress
      && decide (r.requestedAt ≤ r.verifiedAt)
  | .suspensions, r => r.reinstatedAt.isNone == r.reinstatedBy.isNone
  | .sessions, r =>
    decide (r.createdAt < r.expiresAt) && nullOrFrom r.createdAt r.walletVerifiedAt
      && nullOrFrom r.createdAt r.revokedAt
  | .payments, _ => true

/-- Set once, it stays. -/
def Kept {α : Type} (a b : Option α) : Prop := a.isSome → b = a

theorem Kept.refl {α : Type} (a : Option α) : Kept a a := fun _ => rfl

theorem Kept.trans {α : Type} {a b c : Option α} (h : Kept a b) (h' : Kept b c) : Kept a c := by
  intro ha
  have hb := h ha
  rw [h' (hb ▸ ha), hb]

theorem kept_none {α : Type} {a : Option α} (h : a = none) (b : Option α) : Kept a b := by
  intro ha
  rw [h] at ha
  cases ha

/-- Past activation: the statuses a merchant goes between from then on. -/
def Status.established (s : Status) : Bool := decide (s = .active) || decide (s = .suspended)

def Delivery.isOpen (r : Delivery) : Bool := r.deliveredAt.isNone && r.abandonedAt.isNone

/-- How rows change. -/
def Legal : (t : Table) → Row t → Row t → Prop
  | .merchants, r, r' => r'.businessEmail = r.businessEmail ∧ Kept r.emailVerifiedAt r'.emailVerifiedAt ∧
      (r.status.established = true → r'.status.established = true)
  | .tokens, r, r' => r'.merchantID = r.merchantID ∧ r'.tokenHash = r.tokenHash ∧ r'.expiresAt = r.expiresAt ∧
      r'.createdAt = r.createdAt ∧ Kept r.consumedAt r'.consumedAt ∧ Kept r.sentAt r'.sentAt
  | .outbox, r, r' => r'.merchantID = r.merchantID ∧ r'.tokenID = r.tokenID ∧ (r.isOpen = false → r' = r)
  | .challenges, r, r' => r' = { r with consumedAt := r'.consumedAt, proof := r'.proof } ∧
      (r.consumedAt.isSome → r' = r)
  | .apiKeys, r, r' => r' = { r with revokedAt := r'.revokedAt } ∧ Kept r.revokedAt r'.revokedAt
  | .history, r, r' => r' = r
  | .suspensions, r, r' => r'.merchantID = r.merchantID ∧ Kept r.reinstatedAt r'.reinstatedAt
  | .sessions, r, r' => r'.merchantID = r.merchantID ∧ r'.tokenHash = r.tokenHash ∧ r'.expiresAt = r.expiresAt ∧
      Kept r.revokedAt r'.revokedAt
  | .payments, r, r' => r'.merchantID = r.merchantID

theorem Legal.refl : ∀ {t : Table} (r : Row t), Legal t r r
  | .merchants, _ => ⟨rfl, .refl _, fun h => h⟩
  | .tokens, _ => ⟨rfl, rfl, rfl, rfl, .refl _, .refl _⟩
  | .outbox, _ => ⟨rfl, rfl, fun _ => rfl⟩
  | .challenges, _ => ⟨rfl, fun _ => rfl⟩
  | .apiKeys, _ | .suspensions, _ => ⟨rfl, .refl _⟩
  | .history, _ | .payments, _ => rfl
  | .sessions, _ => ⟨rfl, rfl, rfl, .refl _⟩

theorem Legal.trans : ∀ {t : Table} {a b c : Row t}, Legal t a b → Legal t b c → Legal t a c
  | .merchants, _, _, _, ⟨h₁, h₂, h₃⟩, ⟨h₁', h₂', h₃'⟩ => ⟨h₁'.trans h₁, h₂.trans h₂', fun h => h₃' (h₃ h)⟩
  | .tokens, _, _, _, ⟨h₁, h₂, h₃, h₄, h₅, h₆⟩, ⟨h₁', h₂', h₃', h₄', h₅', h₆'⟩ =>
    ⟨h₁'.trans h₁, h₂'.trans h₂, h₃'.trans h₃, h₄'.trans h₄, h₅.trans h₅', h₆.trans h₆'⟩
  | .outbox, a, _, _, ⟨h₁, h₂, h₃⟩, ⟨h₁', h₂', h₃'⟩ => by
    refine ⟨h₁'.trans h₁, h₂'.trans h₂, fun ho => ?_⟩
    have hb := h₃ ho
    rw [h₃' (hb ▸ ho), hb]
  | .challenges, a, b, _, ⟨h₁, h₂⟩, ⟨h₁', h₂'⟩ => by
    refine ⟨?_, fun hc => ?_⟩
    · rw [h₁', h₁]
    · have hb := h₂ hc
      rw [h₂' (hb ▸ hc), hb]
  | .apiKeys, _, _, _, ⟨h₁, h₂⟩, ⟨h₁', h₂'⟩ => ⟨by rw [h₁', h₁], h₂.trans h₂'⟩
  | .history, _, _, _, h, h' | .payments, _, _, _, h, h' => Eq.trans h' h
  | .suspensions, _, _, _, ⟨h₁, h₂⟩, ⟨h₁', h₂'⟩ => ⟨h₁'.trans h₁, h₂.trans h₂'⟩
  | .sessions, _, _, _, ⟨h₁, h₂, h₃, h₄⟩, ⟨h₁', h₂', h₃', h₄'⟩ =>
    ⟨h₁'.trans h₁, h₂'.trans h₂, h₃'.trans h₃, h₄.trans h₄'⟩

theorem Legal.parents_eq : ∀ {t : Table} {a b : Row t}, Legal t a b → parents t b = parents t a
  | .merchants, _, _, _ => rfl
  | .tokens, _, _, h | .suspensions, _, _, h | .sessions, _, _, h => by simp only [parents]; rw [h.1]
  | .outbox, _, _, h => by simp only [parents]; rw [h.1, h.2.1]
  | .challenges, _, _, h | .apiKeys, _, _, h => by rw [h.1]; rfl
  | .history, _, _, h => by cases h; rfl
  | .payments, _, _, h => by simp only [parents]; rw [show _ = _ from h]

theorem Legal.slots_subset : ∀ {t : Table} {a b : Row t}, Legal t a b → slots t b ⊆ slots t a
  | .merchants, _, _, h => by simp [slots, h.1]
  | .tokens, _, _, h | .outbox, _, _, h | .sessions, _, _, h => by simp [slots, h.2.1]
  | .challenges, _, _, h | .apiKeys, _, _, h => by rw [h.1]; exact fun _ hx => hx
  | .history, _, _, h => by cases h; exact fun _ hx => hx
  | .suspensions, a, b, h => by
    intro x hx
    simp only [slots] at hx ⊢
    split at hx
    · rename_i hb
      rw [h.1] at hx
      have ha : a.reinstatedAt = none := by
        cases hr : a.reinstatedAt with
        | none => rfl
        | some _ =>
          have := h.2 (by rw [hr]; rfl)
          rw [hb, hr] at this
          cases this
      rwa [if_pos ha]
    · cases hx
  | .payments, _, _, _ => fun _ hx => hx

/-- The points transactions record: `lockWalletAuthenticatedAdmin` has returned nil for a merchant and a session token.
-/
inductive Point
  | walletAuthenticated (merchantID : Nat) (sessionToken : String)

/-- The tables as a schema. -/
@[reducible] def tables : Schema where
  Table := Table
  Row := Row
  Slot := Slot
  Note := Point
  slots := slots
  parents := parents
  check := check
  Legal := Legal
  legal_refl := Legal.refl
  legal_trans := Legal.trans
  legal_parents h := fun _ hk => Legal.parents_eq h ▸ hk
  legal_slots := Legal.slots_subset

/-- No rows at all. -/
def empty : Db tables := ⟨fun _ => ∅⟩

theorem empty_sound : empty.Sound where
  parents h := absurd h (by simp [Db.find, empty])
  unique h := absurd h (by simp [Db.find, empty])
  checked h := absurd h (by simp [Db.find, empty])

end Eth402.Merchants
