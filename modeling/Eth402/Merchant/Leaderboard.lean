/-
The public leaderboard and the consent to be listed (internal/merchant/admin.go: `PublicLeaderboard`,
`setPublicProfileConsent`, `invalidatePublicLeaderboard`). The calls of one instance share a cache under `publicMu`,
which `PublicLeaderboard` holds from its look at the cache to the filling of it. A consent change commits first and
clears the cache afterwards, so that the cache can be older than a change that is committed and not yet followed by its
invalidation.
-/
import Eth402.Lib.Text
import Mathlib.Data.List.AList
import Mathlib.Data.List.Induction

namespace Eth402.Leaderboard

open Lib

/-! ## The query -/

/-- The columns of `merchants` that are read here. -/
structure Merchant where
  name : String
  website : Option String
  active : Bool
  optedInAt : Option Int

structure Payment where
  merchantID : Nat
  confirmed : Bool
  createdAt : Int
  confirmedAt : Option Int

abbrev Merchants := AList fun _ : Nat => Merchant

/-- `PublicMerchant`, with the row it was read from: the merchant, the opt-in and the payments that were counted. -/
structure Item where
  name : String
  website : Option String
  confirmedSettlements : Nat
  lastConfirmedAt : Option Int
  merchantID : Nat
  since : Int
  counted : List Payment

/-- What the database and the library decide: the collation of names, and which websites are https addresses with a
host. -/
structure Conventions where
  collate : String → String → Ordering
  httpsWithHost : String → Bool

/-- `max` over the confirmed times; NULLs do not count. -/
def lastOf (ps : List Payment) : Option Int := (ps.filterMap Payment.confirmedAt).max?

/-- The later time first, NULLs last. -/
def laterFirst : Option Int → Option Int → Bool
  | some a, some b => b < a
  | some _, none => true
  | none, _ => false

/-- The ORDER BY of the query. -/
def ranked (conv : Conventions) (a b : Item) : Bool :=
  if a.confirmedSettlements ≠ b.confirmedSettlements then b.confirmedSettlements < a.confirmedSettlements
  else if a.lastConfirmedAt ≠ b.lastConfirmedAt then laterFirst a.lastConfirmedAt b.lastConfirmedAt
  else
    match conv.collate (lower a.name) (lower b.name) with
    | .lt => true
    | .gt => false
    | .eq => a.merchantID ≤ b.merchantID

/-- The row of one merchant, when it is listed. -/
def itemOf (conv : Conventions) (payments : List Payment) (id : Nat) (m : Merchant) : Option Item :=
  match m.active, m.optedInAt with
  | true, some since =>
    let counted := payments.filter fun p => p.merchantID = id && p.confirmed && since ≤ p.createdAt
    some { name := m.name, website := m.website.filter conv.httpsWithHost, confirmedSettlements := counted.length,
           lastConfirmedAt := lastOf counted, merchantID := id, since, counted }
  | _, _ => none

/-- The query, on one snapshot. -/
def leaderboard (conv : Conventions) (merchants : Merchants) (payments : List Payment) : List Item :=
  ((merchants.entries.filterMap fun e => itemOf conv payments e.1 e.2).mergeSort (ranked conv)).take 100

/-! ## The instance -/

/-- A call of `PublicLeaderboard` that holds `publicMu` because the cache had expired. -/
inductive Fetch
  | locked (limit : Nat)
  | fetched (limit : Nat) (items : List Item)

/-- What becomes of a commit: it is done, it fails, or it is done and reported as failed. -/
inductive Fate
  | ok
  | failed
  | lost
  deriving DecidableEq

/-- A consent change that is committed while the cache was not cleared after it. -/
structure Unsettled where
  call : Nat
  merchantID : Nat
  lost : Bool

/-- What happened, for the record: a consent change took effect, a consent call returned without an error, a list was
read, from the cache or from the database, with the table and the unsettled changes at that moment. -/
inductive Event
  | consent (call merchantID : Nat) (enabled : Bool)
  | returned (call : Nat)
  | listed (cached : Bool) (items : List Item) (merchants : Merchants) (unsettled : List Unsettled)

structure State where
  merchants : Merchants
  payments : List Payment
  publicCached : List Item
  /-- `none` is the zero time. -/
  publicExpires : Option Int
  fetch : Option Fetch
  calls : AList fun _ : Nat => Bool
  unsettled : List Unsettled
  log : List Event

/-- One step of one of the calls, or a change by other calls. -/
inductive Choice
  /-- `setPublicProfileConsent` up to its commit, in a new call. -/
  | consent (call merchantID : Nat) (enabled : Bool) (now : Int) (fate : Fate)
  /-- `invalidatePublicLeaderboard` of a call that has committed; the call returns. -/
  | invalidate (call : Nat)
  /-- `PublicLeaderboard` finds the cache valid. -/
  | hit (limit : Nat) (now : Int)
  /-- `PublicLeaderboard` finds it expired and goes on to the query. -/
  | miss (limit : Nat) (now : Int)
  | query (answered : Bool)
  | fill (now : Int)
  /-- Anything else that happens to the two tables. -/
  | other (merchants : Merchants) (payments : List Payment)

section Steps

variable (conv : Conventions) (ttl : Int)

/-- The time since which the merchant agrees to be listed. -/
def consentOf (merchants : Merchants) (id : Nat) : Option Int := (merchants.lookup id).bind Merchant.optedInAt

/-- Other calls leave the consent of every merchant; a new merchant has given none. -/
def keepsConsent (old new : Merchants) : Bool :=
  (old.keys ++ new.keys).all fun id => consentOf old id = consentOf new id

/-- `setPublicProfileConsent` in a call that has begun. -/
def setPublicProfileConsent (s : State) (call id : Nat) (enabled : Bool) (now : Int) (fate : Fate) : State :=
  match s.merchants.lookup id with
  | none => s
  | some m =>
    if m.active = false then s
    else
      let value := if enabled then some (m.optedInAt.getD now) else none
      let committed := { s with
        merchants := s.merchants.insert id { m with optedInAt := value }
        log := s.log ++ [Event.consent call id enabled] }
      match fate with
      | .failed => s
      | .lost => { committed with unsettled := ⟨call, id, true⟩ :: s.unsettled }
      | .ok => { committed with calls := s.calls.insert call true, unsettled := ⟨call, id, false⟩ :: s.unsettled }

def step (s : State) : Choice → Option State
  | .consent call id enabled now fate =>
    if s.calls.lookup call ≠ none then none
    else some (setPublicProfileConsent { s with calls := s.calls.insert call false } call id enabled now fate)
  | .invalidate call =>
    if s.calls.lookup call ≠ some true ∨ s.fetch.isSome then none
    else some { s with
      publicCached := []
      publicExpires := none
      calls := s.calls.insert call false
      unsettled := s.unsettled.filter fun u => u.call ≠ call && !u.lost
      log := s.log ++ [Event.returned call] }
  | .hit limit now =>
    if limit < 1 ∨ 100 < limit ∨ s.fetch.isSome then none
    else if s.publicExpires.any fun expires => now < expires then
      some { s with log := s.log ++ [Event.listed true (s.publicCached.take limit) s.merchants s.unsettled] }
    else none
  | .miss limit now =>
    if limit < 1 ∨ 100 < limit ∨ s.fetch.isSome then none
    else if s.publicExpires.any fun expires => now < expires then none
    else some { s with fetch := some (.locked limit) }
  | .query answered =>
    match s.fetch with
    | some (.locked limit) =>
      if answered then
        let items := leaderboard conv s.merchants s.payments
        some { s with
          fetch := some (.fetched limit items)
          log := s.log ++ [Event.listed false (items.take limit) s.merchants s.unsettled] }
      else some { s with fetch := none }
    | _ => none
  | .fill now =>
    match s.fetch with
    | some (.fetched _ items) => some { s with publicCached := items, publicExpires := some (now + ttl), fetch := none }
    | _ => none
  | .other merchants payments =>
    if keepsConsent s.merchants merchants then some { s with merchants, payments } else none

/-- A run from a state. -/
def run (s : State) (choices : List Choice) : Option State := choices.foldlM (step conv ttl) s

/-- An instance that starts on some tables. -/
def start (merchants : Merchants) (payments : List Payment) : State := ⟨merchants, payments, [], none, none, ∅, [], []⟩

end Steps

/-! ## Opt-outs in the log -/

/-- The last consent change of the merchant was an opt-out. -/
def OptedOut (id : Nat) (log : List Event) : Prop :=
  ∃ before call after, log = before ++ .consent call id false :: after ∧ ∀ other, .consent other id true ∉ after

/-- It was an opt-out, and its call has returned. -/
def Withdrawn (id : Nat) (log : List Event) : Prop :=
  ∃ before call after, log = before ++ .consent call id false :: after ∧ (∀ other, .consent other id true ∉ after) ∧
    .returned call ∈ after

theorem Withdrawn.optedOut {id : Nat} {log : List Event} (h : Withdrawn id log) : OptedOut id log := by
  obtain ⟨before, call, after, hlog, hnone, -⟩ := h
  exact ⟨before, call, after, hlog, hnone⟩

theorem snoc_eq {log before after : List Event} {e x : Event} (h : log ++ [e] = before ++ x :: after) :
    (after = [] ∧ x = e ∧ before = log) ∨ ∃ after', after = after' ++ [e] ∧ log = before ++ x :: after' := by
  rcases List.eq_nil_or_concat after with rfl | ⟨after', e', rfl⟩
  · obtain ⟨rfl, hx⟩ := List.append_inj' h rfl
    exact .inl ⟨rfl, (List.cons.inj hx).1.symm, rfl⟩
  · rw [List.concat_eq_append, ← List.cons_append, ← List.append_assoc] at h
    obtain ⟨rfl, he⟩ := List.append_inj' h rfl
    obtain rfl := (List.cons.inj he).1
    exact .inr ⟨after', by rw [List.concat_eq_append], rfl⟩

theorem optedOut_of_snoc {id : Nat} {log : List Event} {e : Event} (h : OptedOut id (log ++ [e])) :
    (∃ call, e = .consent call id false) ∨ (OptedOut id log ∧ ∀ other, e ≠ .consent other id true) := by
  obtain ⟨before, call, after, hlog, hnone⟩ := h
  rcases snoc_eq hlog with ⟨-, rfl, -⟩ | ⟨after', rfl, hbefore⟩
  · exact .inl ⟨call, rfl⟩
  · refine .inr ⟨⟨before, call, after', hbefore, fun other h => hnone other (List.mem_append_left _ h)⟩, ?_⟩
    rintro other rfl
    exact hnone other List.mem_concat_self

theorem withdrawn_of_snoc {id : Nat} {log : List Event} {e : Event} (h : Withdrawn id (log ++ [e]))
    (he : ∀ call, e ≠ .returned call) : Withdrawn id log := by
  obtain ⟨before, call, after, hlog, hnone, hreturned⟩ := h
  rcases snoc_eq hlog with ⟨rfl, -, -⟩ | ⟨after', rfl, hbefore⟩
  · cases hreturned
  · refine ⟨before, call, after', hbefore, fun other h => hnone other (List.mem_append_left _ h), ?_⟩
    rcases List.mem_append.1 hreturned with h | h
    · exact h
    · exact absurd (List.mem_singleton.1 h).symm (he call)

/-! ## The invariant -/

/-- The items the instance holds: the cache, and the answer of a query that will fill it. -/
def State.items (s : State) : List Item :=
  s.publicCached ++ match s.fetch with
    | some (.fetched _ items) => items
    | _ => []

/-- An item agrees with the table. -/
def Current (merchants : Merchants) (it : Item) : Prop := consentOf merchants it.merchantID = some it.since

/-- The merchant has no consent change that is still to be followed by an invalidation. -/
def Settled (unsettled : List Unsettled) (id : Nat) : Prop := ∀ u ∈ unsettled, u.merchantID ≠ id

/-- The count of an item is that of confirmed payments of its merchant since the opt-in it was read with. -/
def CountsSince (it : Item) : Prop :=
  it.confirmedSettlements = it.counted.length ∧ it.lastConfirmedAt = lastOf it.counted ∧
    ∀ p ∈ it.counted, p.merchantID = it.merchantID ∧ p.confirmed = true ∧ it.since ≤ p.createdAt

/-- What the listings in the log were. -/
def Listings (log : List Event) : Prop :=
  ∀ before cached items merchants unsettled after, log = before ++ .listed cached items merchants unsettled :: after →
    (∀ it ∈ items, ¬ Withdrawn it.merchantID before) ∧
      ∀ it ∈ items, (cached = true → Settled unsettled it.merchantID) → Current merchants it ∧ CountsSince it

structure Inv (s : State) : Prop where
  counted : ∀ it ∈ s.items, CountsSince it
  current : ∀ it ∈ s.items, Settled s.unsettled it.merchantID → Current s.merchants it
  optedOut : ∀ id, OptedOut id s.log → consentOf s.merchants id = none
  withdrawn : ∀ it ∈ s.items, ¬ Withdrawn it.merchantID s.log
  listings : Listings s.log

theorem mem_leaderboard {conv : Conventions} {merchants : Merchants} {payments : List Payment} {it : Item}
    (h : it ∈ leaderboard conv merchants payments) : Current merchants it ∧ CountsSince it := by
  have h := List.mem_mergeSort.1 (List.mem_of_mem_take h)
  obtain ⟨e, he, hitem⟩ := List.mem_filterMap.1 h
  have hlookup : merchants.lookup e.1 = some e.2 := AList.mem_lookup_iff.2 he
  unfold itemOf at hitem
  split at hitem
  · rename_i since _ hsince
    obtain rfl := Option.some.inj hitem
    refine ⟨?_, ?_⟩
    · simp only [Current, consentOf, hlookup, Option.bind_some, hsince]
    · refine ⟨rfl, rfl, fun p hp => ?_⟩
      have := (List.mem_filter.1 hp).2
      simpa only [Bool.and_eq_true, decide_eq_true_eq, and_assoc] using this
  · cases hitem

theorem consentOf_insert_self (merchants : Merchants) (id : Nat) (m : Merchant) :
    consentOf (merchants.insert id m) id = m.optedInAt := by
  rw [consentOf, AList.lookup_insert, Option.bind_some]

theorem consentOf_insert_ne (merchants : Merchants) {id other : Nat} (h : other ≠ id) (m : Merchant) :
    consentOf (merchants.insert id m) other = consentOf merchants other := by
  rw [consentOf, AList.lookup_insert_ne h, consentOf]

theorem consentOf_keeps {old new : Merchants} (h : keepsConsent old new = true) (id : Nat) :
    consentOf new id = consentOf old id := by
  by_cases hmem : id ∈ old.keys ++ new.keys
  · exact (of_decide_eq_true (List.all_eq_true.1 h id hmem)).symm
  · rw [List.mem_append, not_or] at hmem
    rw [consentOf, consentOf, AList.lookup_eq_none.2 fun hm => hmem.2 (AList.mem_keys.1 hm),
      AList.lookup_eq_none.2 fun hm => hmem.1 (AList.mem_keys.1 hm)]

theorem Listings.snoc {log : List Event} (h : Listings log) {e : Event}
    (he : ∀ cached items merchants unsettled, e = .listed cached items merchants unsettled →
      (∀ it ∈ items, ¬ Withdrawn it.merchantID log) ∧
        ∀ it ∈ items, (cached = true → Settled unsettled it.merchantID) → Current merchants it ∧ CountsSince it) :
    Listings (log ++ [e]) := by
  intro before cached items merchants unsettled after hlog
  rcases snoc_eq hlog with ⟨-, rfl, rfl⟩ | ⟨after', -, hlog⟩
  · exact he cached items merchants unsettled rfl
  · exact h before cached items merchants unsettled after' hlog

/-! ## The steps keep it -/

/-- A change of the consent of a merchant takes effect. -/
theorem Inv.consent {s s' : State} (h : Inv s) {call id : Nat} {enabled lost : Bool} {m : Merchant}
    (hm : m.optedInAt.isSome = enabled) (hmerchants : s'.merchants = s.merchants.insert id m)
    (hcached : s'.publicCached = s.publicCached) (hfetch : s'.fetch = s.fetch)
    (hunsettled : s'.unsettled = ⟨call, id, lost⟩ :: s.unsettled)
    (hlog : s'.log = s.log ++ [.consent call id enabled]) : Inv s' := by
  have hitems : s'.items = s.items := by rw [State.items, hcached, hfetch, State.items]
  refine ⟨?_, ?_, ?_, ?_, ?_⟩
  · rw [hitems]
    exact h.counted
  · intro it hit hsettled
    rw [hitems] at hit
    rw [hunsettled] at hsettled
    have hne : it.merchantID ≠ id := fun heq => hsettled _ (List.mem_cons_self ..) heq.symm
    rw [Current, hmerchants, consentOf_insert_ne _ hne]
    exact h.current it hit fun u hu => hsettled u (List.mem_cons_of_mem _ hu)
  · intro other hout
    rw [hlog] at hout
    rw [hmerchants]
    by_cases hother : other = id
    · subst hother
      rw [consentOf_insert_self]
      rcases optedOut_of_snoc hout with ⟨call', heq⟩ | ⟨-, hnot⟩
      · obtain ⟨-, -, rfl⟩ := Event.consent.inj heq
        exact Option.isNone_iff_eq_none.1 (Option.isSome_eq_false_iff.1 hm)
      · cases enabled with
        | true => exact absurd rfl (hnot call)
        | false => exact Option.isNone_iff_eq_none.1 (Option.isSome_eq_false_iff.1 hm)
    · rw [consentOf_insert_ne _ hother]
      rcases optedOut_of_snoc hout with ⟨call', heq⟩ | ⟨hout, -⟩
      · exact absurd (Event.consent.inj heq).2.1.symm hother
      · exact h.optedOut other hout
  · intro it hit hwithdrawn
    rw [hitems] at hit
    rw [hlog] at hwithdrawn
    exact h.withdrawn it hit (withdrawn_of_snoc hwithdrawn nofun)
  · rw [hlog]
    exact h.listings.snoc nofun

/-- The cache is cleared by a call, which returns; no query is under way. -/
theorem Inv.invalidate {s s' : State} (h : Inv s) {call : Nat} (hmerchants : s'.merchants = s.merchants)
    (hitems : s'.items = []) (hlog : s'.log = s.log ++ [.returned call]) : Inv s' := by
  refine ⟨?_, ?_, ?_, ?_, ?_⟩
  · rw [hitems]
    exact nofun
  · rw [hitems]
    exact nofun
  · intro id hout
    rw [hlog] at hout
    rw [hmerchants]
    rcases optedOut_of_snoc hout with ⟨call', heq⟩ | ⟨hout, -⟩
    · cases heq
    · exact h.optedOut id hout
  · rw [hitems]
    exact nofun
  · rw [hlog]
    exact h.listings.snoc nofun

/-- A list is read, and the items held afterwards are from it or were held before. -/
theorem Inv.listed {s s' : State} (h : Inv s) {cached : Bool} {items : List Item}
    (hmerchants : s'.merchants = s.merchants)
    (hunsettled : s'.unsettled = s.unsettled)
    (hitems : ∀ it ∈ s'.items, it ∈ s.items ∨ (Current s.merchants it ∧ CountsSince it))
    (hlisted : ∀ it ∈ items, (cached = true ∧ it ∈ s.items) ∨ (Current s.merchants it ∧ CountsSince it))
    (hlog : s'.log = s.log ++ [.listed cached items s.merchants s.unsettled]) : Inv s' := by
  -- who is in the table with an opt-in has not withdrawn
  have hopen : ∀ it, Current s.merchants it → ¬ Withdrawn it.merchantID s.log := by
    intro it hcurrent hwithdrawn
    have hnone := h.optedOut _ hwithdrawn.optedOut
    rw [Current, hnone] at hcurrent
    cases hcurrent
  refine ⟨?_, ?_, ?_, ?_, ?_⟩
  · intro it hit
    rcases hitems it hit with hold | hnew
    · exact h.counted it hold
    · exact hnew.2
  · intro it hit hsettled
    rw [hunsettled] at hsettled
    rw [hmerchants]
    rcases hitems it hit with hold | hnew
    · exact h.current it hold hsettled
    · exact hnew.1
  · intro id hout
    rw [hlog] at hout
    rw [hmerchants]
    rcases optedOut_of_snoc hout with ⟨call', heq⟩ | ⟨hout, -⟩
    · cases heq
    · exact h.optedOut id hout
  · intro it hit hwithdrawn
    rw [hlog] at hwithdrawn
    have hwithdrawn := withdrawn_of_snoc hwithdrawn nofun
    rcases hitems it hit with hold | hnew
    · exact h.withdrawn it hold hwithdrawn
    · exact hopen it hnew.1 hwithdrawn
  · rw [hlog]
    refine h.listings.snoc fun cached' items' merchants' unsettled' heq => ?_
    obtain ⟨rfl, rfl, rfl, rfl⟩ := Event.listed.inj heq
    refine ⟨?_, ?_⟩
    · intro it hit
      rcases hlisted it hit with ⟨-, hold⟩ | hnew
      · exact h.withdrawn it hold
      · exact hopen it hnew.1
    · intro it hit hsettled
      rcases hlisted it hit with ⟨hcached, hold⟩ | hnew
      · exact ⟨h.current it hold (hsettled hcached), h.counted it hold⟩
      · exact hnew

/-- The tables change without the consents, or the items move. -/
theorem Inv.moved {s s' : State} (h : Inv s) (hmerchants : ∀ id, consentOf s'.merchants id = consentOf s.merchants id)
    (hunsettled : s'.unsettled = s.unsettled) (hitems : ∀ it ∈ s'.items, it ∈ s.items) (hlog : s'.log = s.log) :
    Inv s' := by
  refine ⟨fun it hit => h.counted it (hitems it hit), ?_, ?_, ?_, ?_⟩
  · intro it hit hsettled
    rw [hunsettled] at hsettled
    rw [Current, hmerchants]
    exact h.current it (hitems it hit) hsettled
  · intro id hout
    rw [hlog] at hout
    rw [hmerchants]
    exact h.optedOut id hout
  · intro it hit
    rw [hlog]
    exact h.withdrawn it (hitems it hit)
  · rw [hlog]
    exact h.listings

theorem setPublicProfileConsent_inv {s : State} (h : Inv s) (call id : Nat) (enabled : Bool) (now : Int) (fate : Fate) :
    Inv (setPublicProfileConsent s call id enabled now fate) := by
  unfold setPublicProfileConsent
  cases hm : s.merchants.lookup id with
  | none => exact h
  | some m =>
    simp only
    have hvalue : (if enabled = true then some (m.optedInAt.getD now) else none).isSome = enabled := by
      cases enabled <;> rfl
    split
    · exact h
    · cases fate with
      | failed => exact h
      | lost | ok => exact h.consent hvalue rfl rfl rfl rfl rfl

theorem step_inv {conv : Conventions} {ttl : Int} {s s' : State} {c : Choice} (h : Inv s)
    (hstep : step conv ttl s c = some s') : Inv s' := by
  cases c with
  | consent call id enabled now fate =>
    simp only [step] at hstep
    split at hstep
    · cases hstep
    · obtain rfl := Option.some.inj hstep
      refine setPublicProfileConsent_inv ?_ call id enabled now fate
      exact h.moved (fun _ => rfl) rfl (fun _ hit => hit) rfl
  | invalidate call =>
    simp only [step] at hstep
    split at hstep
    · cases hstep
    · rename_i hlock
      obtain rfl := Option.some.inj hstep
      -- the lock is free: no query is on its way to fill the cache
      have hfetch : s.fetch = none := Option.not_isSome_iff_eq_none.1 fun hs => hlock (.inr hs)
      refine h.invalidate rfl ?_ rfl
      simp only [State.items, hfetch, List.append_nil]
  | hit limit now =>
    simp only [step] at hstep
    split at hstep
    · cases hstep
    · split at hstep
      · obtain rfl := Option.some.inj hstep
        refine h.listed rfl rfl (fun it hit => .inl hit) (fun it hit => .inl ⟨rfl, ?_⟩) rfl
        exact List.mem_append_left _ (List.mem_of_mem_take hit)
      · cases hstep
  | miss limit now =>
    simp only [step] at hstep
    split at hstep
    · cases hstep
    · split at hstep
      · cases hstep
      · obtain rfl := Option.some.inj hstep
        refine h.moved (fun _ => rfl) rfl (fun it hit => ?_) rfl
        simp only [State.items, List.append_nil] at hit
        exact List.mem_append_left _ hit
  | query answered =>
    simp only [step] at hstep
    split at hstep
    · rename_i limit hfetch
      split at hstep
      · obtain rfl := Option.some.inj hstep
        refine h.listed rfl rfl (fun it hit => ?_) (fun it hit => .inr ?_) rfl
        · rcases List.mem_append.1 hit with hold | hnew
          · exact .inl (List.mem_append_left _ hold)
          · exact .inr (mem_leaderboard hnew)
        · exact mem_leaderboard (List.mem_of_mem_take hit)
      · obtain rfl := Option.some.inj hstep
        refine h.moved (fun _ => rfl) rfl (fun it hit => ?_) rfl
        simp only [State.items, List.append_nil] at hit
        exact List.mem_append_left _ hit
    · cases hstep
  | fill now =>
    simp only [step] at hstep
    split at hstep
    · rename_i limit items hfetch
      obtain rfl := Option.some.inj hstep
      refine h.moved (fun _ => rfl) rfl (fun it hit => ?_) rfl
      simp only [State.items, List.append_nil] at hit
      simp only [State.items, hfetch]
      exact List.mem_append_right _ hit
    · cases hstep
  | other merchants payments =>
    simp only [step] at hstep
    split at hstep
    · rename_i hkeeps
      obtain rfl := Option.some.inj hstep
      exact h.moved (consentOf_keeps hkeeps) rfl (fun _ hit => hit) rfl
    · cases hstep

theorem start_inv (merchants : Merchants) (payments : List Payment) : Inv (start merchants payments) := by
  refine ⟨nofun, nofun, ?_, nofun, ?_⟩
  · rintro id ⟨before, call, after, hlog, -⟩
    exact absurd hlog.symm (List.append_ne_nil_of_right_ne_nil _ (List.cons_ne_nil _ _))
  · intro before cached items merchants' unsettled after hlog
    exact absurd hlog.symm (List.append_ne_nil_of_right_ne_nil _ (List.cons_ne_nil _ _))

theorem run_inv {conv : Conventions} {ttl : Int} {s s' : State} (choices : List Choice) (h : Inv s)
    (hrun : run conv ttl s choices = some s') : Inv s' := by
  induction choices generalizing s with
  | nil => exact Option.some.inj hrun ▸ h
  | cons c choices ih =>
    rw [run, List.foldlM_cons] at hrun
    obtain ⟨next, hstep, hrest⟩ := Option.bind_eq_some_iff.1 hrun
    exact ih (step_inv h hstep) hrest

/-- For every interleaving: a list that is read after an opt-out of a merchant has returned has the merchant only when
it has opted in again since the opt-out; and the count a list has for a merchant is that of confirmed payments since its
current opt-in, when the list is read from the database, or when no consent change of the merchant is committed and not
yet followed by the invalidation of the cache. -/
theorem leaderboard_consent (conv : Conventions) (ttl : Int) (merchants : Merchants) (payments : List Payment)
    (choices : List Choice) (s : State) (hrun : run conv ttl (start merchants payments) choices = some s) :
    (∀ before call id between after cached items table unsettled rest,
      s.log = before ++ .consent call id false :: (between ++ .returned call :: (after ++
        .listed cached items table unsettled :: rest)) →
      (∃ it ∈ items, it.merchantID = id) → ∃ other, .consent other id true ∈ between ++ after) ∧
    ∀ cached items table unsettled, .listed cached items table unsettled ∈ s.log →
      ∀ it ∈ items, (cached = true → ∀ u ∈ unsettled, u.merchantID ≠ it.merchantID) →
        ∃ since, consentOf table it.merchantID = some since ∧ it.confirmedSettlements = it.counted.length ∧
          it.lastConfirmedAt = lastOf it.counted ∧
          ∀ p ∈ it.counted, p.merchantID = it.merchantID ∧ p.confirmed = true ∧ since ≤ p.createdAt := by
  have hinv := run_inv choices (start_inv merchants payments) hrun
  constructor
  · intro before call id between after cached items table unsettled rest hlog
    rintro ⟨it, hit, rfl⟩
    by_contra hnone
    have hsplit : s.log = (before ++ .consent call it.merchantID false :: (between ++ .returned call :: after)) ++
        .listed cached items table unsettled :: rest := by
      rw [hlog]
      simp only [List.append_assoc, List.cons_append]
    refine (hinv.listings _ cached items table unsettled rest hsplit).1 it hit ⟨before, call, _, rfl, ?_, ?_⟩
    · intro other hmem
      refine hnone ⟨other, ?_⟩
      rcases List.mem_append.1 hmem with h | h
      · exact List.mem_append_left _ h
      · rcases List.mem_cons.1 h with h | h
        · cases h
        · exact List.mem_append_right _ h
    · exact List.mem_append_right _ (List.mem_cons_self ..)
  · intro cached items table unsettled hmem it hit hsettled
    obtain ⟨before, after, hlog⟩ := List.append_of_mem hmem
    obtain ⟨hcurrent, hcounted⟩ := (hinv.listings before cached items table unsettled after hlog).2 it hit hsettled
    exact ⟨it.since, hcurrent, hcounted⟩

/-! ## A change between commit and invalidation -/

def plain : Conventions := ⟨fun _ _ => .eq, fun _ => true⟩

/-- A merchant with its consent, and one that has given none. -/
def shop (since : Option Int) : Merchants :=
  (AList.singleton 8 ⟨"Store", none, true, none⟩).insert 7 ⟨"Shop", none, true, since⟩

def sales : List Payment := [⟨7, true, 5, some 6⟩, ⟨7, false, 8, none⟩, ⟨8, true, 9, some 9⟩]

/-- The merchant as it is listed with its first opt-in, and with its second. -/
def shopItem : Item := ⟨"Shop", none, 1, some 6, 7, 0, [⟨7, true, 5, some 6⟩]⟩

def shopItemAgain : Item := ⟨"Shop", none, 0, none, 7, 50, []⟩

theorem step_query {s : State} {limit : Nat} (it : Item) (hfetch : s.fetch = some (.locked limit))
    (hrow : (s.merchants.entries.filterMap fun e => itemOf plain s.payments e.1 e.2) = [it]) :
    step plain 100 s (.query true) = some { s with
      fetch := some (.fetched limit [it])
      log := s.log ++ [.listed false ([it].take limit) s.merchants s.unsettled] } := by
  have hlist : leaderboard plain s.merchants s.payments = [it] := by
    rw [leaderboard, hrow, List.mergeSort_singleton]
    rfl
  simp only [step, hfetch, hlist, if_true]

theorem run_append {s s' : State} {front : List Choice} (back : List Choice) (h : run plain 100 s front = some s') :
    run plain 100 s (front ++ back) = run plain 100 s' back := by
  rw [run, List.foldlM_append, ← run, h]
  rfl

/-- The instance when the cache has been filled for the first time. -/
def filled : State :=
  { start (shop (some 0)) sales with
    publicCached := [shopItem]
    publicExpires := some 120
    log := [.listed false [shopItem] (shop (some 0)) []] }

theorem run_filled : run plain 100 (start (shop (some 0)) sales)
    [.miss 10 20, .query true, .fill 20] = some filled := by
  have hmiss : step plain 100 (start (shop (some 0)) sales) (.miss 10 20) =
      some { start (shop (some 0)) sales with fetch := some (.locked 10) } := rfl
  rw [run, List.foldlM_cons, hmiss, Option.bind_eq_bind, Option.bind_some, List.foldlM_cons,
    step_query shopItem rfl rfl]
  rfl

/-- While the other merchant's change is committed and not yet followed by an invalidation, the list is read from the
cache; then the merchant opts out and, when that call has returned, in again. -/
def sampleChanges : List Choice :=
  [.consent 1 8 false 25 .ok, .hit 10 30, .consent 2 7 false 40 .ok, .invalidate 2, .consent 3 7 true 50 .ok,
    .miss 10 80]

/-- The first list from the cache, and the two changes. -/
def sampleLog : List Event :=
  [.listed false [shopItem] (shop (some 0)) [], .consent 1 8 false,
    .listed true [shopItem] ((shop (some 0)).insert 8 ⟨"Store", none, true, none⟩) [⟨1, 8, false⟩]]

/-- The instance when the second list is read from the database. -/
def changed : State :=
  { start (shop (some 50)) sales with
    fetch := some (.fetched 10 [shopItemAgain])
    calls := (∅ : AList fun _ : Nat => Bool).insert 1 false |>.insert 1 true |>.insert 2 false |>.insert 2 true
      |>.insert 2 false |>.insert 3 false |>.insert 3 true
    unsettled := [⟨3, 7, false⟩, ⟨1, 8, false⟩]
    log := sampleLog ++ .consent 2 7 false :: ([] ++ .returned 2 :: ([.consent 3 7 true] ++
      [.listed false [shopItemAgain] (shop (some 50)) [⟨3, 7, false⟩, ⟨1, 8, false⟩]])) }

theorem run_changed : run plain 100 (start (shop (some 0)) sales)
    ([.miss 10 20, .query true, .fill 20] ++ (sampleChanges ++ [.query true])) = some changed := by
  have hchanges : run plain 100 filled sampleChanges = some { changed with
      fetch := some (.locked 10)
      log := sampleLog ++ [.consent 2 7 false, .returned 2, .consent 3 7 true] } := rfl
  rw [run_append _ run_filled, run_append _ hchanges, run, List.foldlM_cons, step_query shopItemAgain rfl rfl]
  rfl

/-- The merchant that is listed again has opted in again, and the list from the cache counts its payments since its
opt-in of that time. -/
theorem leaderboard_consent_filled :
    (∃ other, Event.consent other 7 true ∈ ([] : List Event) ++ [.consent 3 7 true]) ∧
    ∃ since, consentOf ((shop (some 0)).insert 8 ⟨"Store", none, true, none⟩) 7 = some since ∧
      shopItem.confirmedSettlements = shopItem.counted.length ∧ shopItem.lastConfirmedAt = lastOf shopItem.counted ∧
      ∀ p ∈ shopItem.counted, p.merchantID = 7 ∧ p.confirmed = true ∧ since ≤ p.createdAt := by
  obtain ⟨hlisted, hcounts⟩ := leaderboard_consent plain 100 (shop (some 0)) sales _ changed run_changed
  refine ⟨hlisted sampleLog 2 7 [] _ false [shopItemAgain] _ _ [] rfl ⟨shopItemAgain, List.mem_singleton_self _, rfl⟩,
    ?_⟩
  refine hcounts true [shopItem] _ [⟨1, 8, false⟩] ?_ shopItem (List.mem_singleton_self _) fun _ u hu => ?_
  · exact List.mem_append_left _ (by simp [sampleLog])
  · obtain rfl := List.mem_singleton.1 hu
    decide

/-- The merchant opts out, and before that call has cleared the cache it opts in again at time 40 and the cache is read:
the payment of time 5 is counted. -/
theorem old_consent_listed : ∃ s table unsettled,
    run plain 100 (start (shop (some 0)) sales) ([.miss 10 20, .query true, .fill 20] ++
      [.consent 1 7 false 30 .ok, .consent 2 7 true 40 .ok, .hit 10 50]) = some s ∧
    .listed true [shopItem] table unsettled ∈ s.log ∧ consentOf table shopItem.merchantID = some 40 ∧
    shopItem.confirmedSettlements = shopItem.counted.length ∧ ∃ p ∈ shopItem.counted, p.createdAt < 40 := by
  have hend : run plain 100 filled [.consent 1 7 false 30 .ok, .consent 2 7 true 40 .ok, .hit 10 50] =
      some { filled with
        merchants := shop (some 40)
        calls := (((((∅ : AList fun _ : Nat => Bool).insert 1 false).insert 1 true).insert 2 false).insert 2 true)
        unsettled := [⟨2, 7, false⟩, ⟨1, 7, false⟩]
        log := [.listed false [shopItem] (shop (some 0)) [], .consent 1 7 false, .consent 2 7 true,
          .listed true [shopItem] (shop (some 40)) [⟨2, 7, false⟩, ⟨1, 7, false⟩]] } := rfl
  refine ⟨_, shop (some 40), [⟨2, 7, false⟩, ⟨1, 7, false⟩], (run_append _ run_filled).trans hend, ?_, rfl, rfl,
    ⟨7, true, 5, some 6⟩, ?_, ?_⟩
  · simp
  · exact List.mem_cons_self ..
  · decide

end Eth402.Leaderboard
