/-
The rate limiter of the HTTP server (internal/httpapi/server.go: `rateLimiter`). Each client key has a window of one
minute and a count; windows that are over are swept once a minute, and a new key on a full map first evicts another one.
The order in which Go visits the entries of a map is not fixed, so it is an input of each request.
-/
import Eth402.Http.Address
import Mathlib.Data.List.AList
import Mathlib.Data.List.Induction

namespace Eth402.Http

open Lib

/-! ## The limiter -/

/-- In nanoseconds of the monotonic clock, as all times here. -/
def minute : Int := 60000000000

def maxTrackedClients : Nat := 100000

def evictionSample : Nat := 8

/-- `rateWindow`. -/
structure Window where
  started : Int
  count : Nat
  deriving DecidableEq, Repr

abbrev Clients := AList fun _ : String => Window

abbrev Entry := Sigma fun _ : String => Window

/-- `rateLimiter`; `lastSweep` is `none` for the zero time. -/
structure Limiter where
  limit : Int
  trusted : List Prefix
  clients : Clients
  lastSweep : Option Int

/-- `newRateLimiter`. -/
def newRateLimiter (limit : Int) (trusted : List Prefix) : Limiter := ⟨limit, trusted, ∅, none⟩

/-- An order in which a map may be visited. -/
structure Visit where
  order : List Entry → List Entry
  perm : ∀ entries, (order entries).Perm entries

/-- A request as it arrives, with the time the limiter reads and the order in which it would visit the map. -/
structure Arrival where
  path : String
  request : Request
  now : Int
  visit : Visit

def expired (now : Int) (w : Window) : Bool := minute ≤ now - w.started

/-- The map without the windows that are over. -/
def live (now : Int) (clients : Clients) : Clients where
  entries := clients.entries.filter fun e => !expired now e.2
  nodupKeys := clients.nodupKeys.sublist List.filter_sublist

/-- The sweep: at the first request, and when the last one is a minute ago. -/
def sweep (now : Int) (l : Limiter) : Limiter :=
  if l.lastSweep.all fun last => minute ≤ now - last then
    { l with clients := live now l.clients, lastSweep := some now }
  else l

/-- The loop of `evictLocked`: the key it deletes. The empty key stands for "none yet". -/
def evictLoop (now : Int) : List Entry → String → Int → Nat → Option String
  | [], oldestKey, _, _ => if oldestKey ≠ "" then some oldestKey else none
  | ⟨key, window⟩ :: rest, oldestKey, oldestStart, sampled =>
    if expired now window then some key
    else
      let older := oldestKey = "" ∨ window.started < oldestStart
      let oldestKey := if older then key else oldestKey
      let oldestStart := if older then window.started else oldestStart
      if evictionSample ≤ sampled + 1 then if oldestKey ≠ "" then some oldestKey else none
      else evictLoop now rest oldestKey oldestStart (sampled + 1)

/-- `evictLocked`. -/
def evictLocked (now : Int) (visited : List Entry) : Option String := evictLoop now visited "" 0 0

/-- What the limiter decides on a request it counts. -/
structure Verdict where
  key : String
  now : Int
  started : Int
  count : Nat
  allowed : Bool
  evicted : Option String

/-- The paths that are not limited. -/
def Arrival.exempt (a : Arrival) : Bool := a.path = "/health/live" || a.path = "/health/ready"

/-- The window of the key, a new one when there is none or it is over. -/
def currentWindow (now : Int) : Option Window → Window
  | some w => if expired now w then ⟨now, 0⟩ else w
  | none => ⟨now, 0⟩

def deleteKey (clients : Clients) : Option String → Clients
  | some key => clients.erase key
  | none => clients

/-- The critical section of `middleware`. -/
def countRequest (l : Limiter) (key : String) (now : Int) (visit : Visit) : Verdict × Limiter :=
  let l := sweep now l
  let window := l.clients.lookup key
  let evicted :=
    if window = none ∧ maxTrackedClients ≤ l.clients.entries.length then evictLocked now (visit.order l.clients.entries)
    else none
  let w := currentWindow now window
  let count := w.count + 1
  ({ key, now, started := w.started, count, allowed := (count : Int) ≤ l.limit, evicted },
    { l with clients := (deleteKey l.clients evicted).insert key ⟨w.started, count⟩ })

inductive Response
  | next
  | error (status : Nat) (retryAfter code message : String)
  deriving DecidableEq

section Code

variable (net : Netip)

/-- The request's verdict, when it is counted, and the limiter after it. -/
def judge (l : Limiter) (a : Arrival) : Option Verdict × Limiter :=
  if l.limit ≤ 0 ∨ a.exempt = true then (none, l)
  else
    let r := countRequest l (clientAddress net l.trusted a.request) a.now a.visit
    (some r.1, r.2)

/-- `middleware`. -/
def middleware (l : Limiter) (a : Arrival) : Response × Limiter :=
  let r := judge net l a
  (if r.1.all fun v => v.allowed then .next else .error 429 "60" "rate_limited" "request rate limit exceeded", r.2)

/-- The limiter after the requests. -/
def runLimiter (l : Limiter) (arrivals : List Arrival) : Limiter := arrivals.foldl (fun l a => (middleware net l a).2) l

/-- The verdicts on the requests, in order. -/
def verdicts (l : Limiter) : List Arrival → List Verdict
  | [] => []
  | a :: rest => (judge net l a).1.toList ++ verdicts (middleware net l a).2 rest

/-- The requests with their answers, in order. -/
def answers (l : Limiter) : List Arrival → List (Arrival × Response)
  | [] => []
  | a :: rest => (a, (middleware net l a).1) :: answers (middleware net l a).2 rest

end Code

/-! ## What a request does to the map -/

variable {clients : Clients}

theorem lookup_live {now : Int} {key : String} {w : Window} :
    (live now clients).lookup key = some w ↔ clients.lookup key = some w ∧ expired now w = false := by
  have hlive := (live now clients).mem_lookup_iff (a := key) (b := w)
  have hclients := clients.mem_lookup_iff (a := key) (b := w)
  rw [Option.mem_def] at hlive hclients
  rw [hlive, hclients]
  simp [live]

theorem lookup_of_sweep {now : Int} {l : Limiter} {key : String} {w : Window}
    (h : (sweep now l).clients.lookup key = some w) : l.clients.lookup key = some w := by
  unfold sweep at h
  split at h
  · exact (lookup_live.1 h).1
  · exact h

theorem lookup_sweep {now : Int} {l : Limiter} {key : String} {w : Window}
    (h : l.clients.lookup key = some w) (hlive : expired now w = false) :
    (sweep now l).clients.lookup key = some w := by
  unfold sweep
  split
  · exact lookup_live.2 ⟨h, hlive⟩
  · exact h

theorem sweep_limit (now : Int) (l : Limiter) : (sweep now l).limit = l.limit := by
  unfold sweep
  split <;> rfl

theorem sweep_trusted (now : Int) (l : Limiter) : (sweep now l).trusted = l.trusted := by
  unfold sweep
  split <;> rfl

theorem lookup_of_deleteKey {evicted : Option String} {key : String} {w : Window}
    (h : (deleteKey clients evicted).lookup key = some w) : clients.lookup key = some w := by
  cases evicted with
  | none => exact h
  | some k =>
    by_cases hk : key = k
    · subst hk
      rw [deleteKey, AList.lookup_erase] at h
      cases h
    · rwa [deleteKey, AList.lookup_erase_ne hk] at h

theorem lookup_deleteKey {evicted : Option String} {key : String} (h : evicted ≠ some key) :
    (deleteKey clients evicted).lookup key = clients.lookup key := by
  cases evicted with
  | none => rfl
  | some k => exact AList.lookup_erase_ne fun hk => h (hk ▸ rfl)

/-- What counting a request does: the key's own window goes on or a new one begins, the windows of the other keys stay
as they are or go. -/
structure Counted (l l' : Limiter) (v : Verdict) : Prop where
  limit : l'.limit = l.limit
  trusted : l'.trusted = l.trusted
  own : l'.clients.lookup v.key = some ⟨v.started, v.count⟩
  window : (∃ w, l.clients.lookup v.key = some w ∧ expired v.now w = false ∧ v.started = w.started ∧
    v.count = w.count + 1) ∨
    (v.started = v.now ∧ v.count = 1 ∧ ∀ w, l.clients.lookup v.key = some w → expired v.now w = true)
  others : ∀ key w, key ≠ v.key → l'.clients.lookup key = some w → l.clients.lookup key = some w
  gone : ∀ key w, key ≠ v.key → l.clients.lookup key = some w →
    l'.clients.lookup key = some w ∨ expired v.now w = true ∨ v.evicted = some key
  allowed : v.allowed = true ↔ (v.count : Int) ≤ l.limit

theorem currentWindow_cases (now : Int) (o : Option Window) :
    (∃ w, o = some w ∧ expired now w = false ∧ currentWindow now o = w) ∨
      (currentWindow now o = ⟨now, 0⟩ ∧ ∀ w, o = some w → expired now w = true) := by
  cases o with
  | none => exact .inr ⟨rfl, fun w h => nomatch h⟩
  | some w =>
    by_cases h : expired now w = true
    · exact .inr ⟨by rw [currentWindow, if_pos h], fun _ hw => Option.some.inj hw ▸ h⟩
    · exact .inl ⟨w, rfl, by simpa using h, by rw [currentWindow, if_neg h]⟩

theorem countRequest_spec (l : Limiter) (key : String) (now : Int) (visit : Visit) :
    Counted l (countRequest l key now visit).2 (countRequest l key now visit).1 where
  limit := sweep_limit now l
  trusted := sweep_trusted now l
  own := AList.lookup_insert _
  window := by
    rcases currentWindow_cases now ((sweep now l).clients.lookup key) with ⟨w, hlookup, hlive, hw⟩ | ⟨hw, hover⟩
    · refine .inl ⟨w, lookup_of_sweep hlookup, hlive, ?_, ?_⟩ <;> simp only [countRequest, hw]
    · refine .inr ⟨?_, ?_, ?_⟩
      · simp only [countRequest, hw]
      · simp only [countRequest, hw, Nat.zero_add]
      · intro w hlookup
        by_contra hlive
        exact hlive (hover w (lookup_sweep hlookup (Bool.eq_false_iff.2 hlive)))
  others k w hk h := by
    change k ≠ key at hk
    change ((deleteKey _ _).insert key _).lookup k = some w at h
    rw [AList.lookup_insert_ne hk] at h
    exact lookup_of_sweep (lookup_of_deleteKey h)
  gone k w hk h := by
    change k ≠ key at hk
    by_cases hlive : expired now w = true
    · exact .inr (.inl hlive)
    · by_cases hevicted : (countRequest l key now visit).1.evicted = some k
      · exact .inr (.inr hevicted)
      · refine .inl ?_
        change ((deleteKey _ (countRequest l key now visit).1.evicted).insert key _).lookup k = some w
        rw [AList.lookup_insert_ne hk, lookup_deleteKey hevicted]
        exact lookup_sweep h (by simpa using hlive)
  allowed := by
    simp only [countRequest, sweep_limit, decide_eq_true_eq]

theorem middleware_snd (net : Netip) (l : Limiter) (a : Arrival) : (middleware net l a).2 = (judge net l a).2 := rfl

theorem judge_cases (net : Netip) (l : Limiter) (a : Arrival) :
    judge net l a = (none, l) ∨ ∃ v l', judge net l a = (some v, l') ∧ 0 < l.limit ∧ a.exempt = false ∧
      v.key = clientAddress net l.trusted a.request ∧ v.now = a.now ∧ Counted l l' v := by
  unfold judge
  split
  · exact .inl rfl
  · rename_i h
    refine .inr ⟨_, _, rfl, by omega, ?_, rfl, rfl, countRequest_spec l _ a.now a.visit⟩
    exact Bool.eq_false_iff.2 fun hexempt => h (.inr hexempt)

/-! ## Runs -/

theorem runLimiter_snoc (net : Netip) (l : Limiter) (arrivals : List Arrival) (a : Arrival) :
    runLimiter net l (arrivals ++ [a]) = (judge net (runLimiter net l arrivals) a).2 := by
  rw [runLimiter, List.foldl_append, List.foldl_cons, List.foldl_nil, middleware_snd, runLimiter]

theorem verdicts_append (net : Netip) (l : Limiter) (before after : List Arrival) :
    verdicts net l (before ++ after) = verdicts net l before ++ verdicts net (runLimiter net l before) after := by
  induction before generalizing l with
  | nil => simp [verdicts, runLimiter]
  | cons b rest ih =>
    rw [List.cons_append, verdicts, ih, verdicts, List.append_assoc]
    rfl

theorem verdicts_snoc (net : Netip) (l : Limiter) (arrivals : List Arrival) (a : Arrival) :
    verdicts net l (arrivals ++ [a]) =
      verdicts net l arrivals ++ (judge net (runLimiter net l arrivals) a).1.toList := by
  rw [verdicts_append, verdicts, verdicts, List.append_nil]

theorem runLimiter_config (net : Netip) (l : Limiter) (arrivals : List Arrival) :
    (runLimiter net l arrivals).limit = l.limit ∧ (runLimiter net l arrivals).trusted = l.trusted := by
  induction arrivals using List.reverseRecOn with
  | nil => exact ⟨rfl, rfl⟩
  | append_singleton arrivals a ih =>
    rw [runLimiter_snoc]
    rcases judge_cases net (runLimiter net l arrivals) a with h | ⟨v, l', h, -, -, -, -, hcounted⟩
    · rw [h]
      exact ih
    · rw [h]
      exact ⟨hcounted.limit.trans ih.1, hcounted.trusted.trans ih.2⟩

/-- The requests come in the order of the clock. -/
def Monotone (arrivals : List Arrival) : Prop := arrivals.Pairwise fun a b => a.now ≤ b.now

theorem Monotone.of_snoc {arrivals : List Arrival} {a : Arrival} (h : Monotone (arrivals ++ [a])) : Monotone arrivals :=
  (List.pairwise_append.1 h).1

theorem Monotone.le_last {arrivals : List Arrival} {a b : Arrival} (h : Monotone (arrivals ++ [a]))
    (hb : b ∈ arrivals) :
    b.now ≤ a.now :=
  (List.pairwise_append.1 h).2.2 b hb a (List.mem_singleton_self a)

section Refusals

variable (net : Netip)

/-- A request the limiter counts for the key, at or after a moment. -/
def countedSince (trusted : List Prefix) (key : String) (started : Int) (a : Arrival) : Bool :=
  !a.exempt && clientAddress net trusted a.request = key && started ≤ a.now

variable {l₀ : Limiter}

/-- The count of a window is at most the number of requests of its key since it began. -/
theorem count_le_countP (h₀ : l₀.clients = ∅) (arrivals : List Arrival) (hclock : Monotone arrivals) {key : String}
    {w : Window} (hw : (runLimiter net l₀ arrivals).clients.lookup key = some w) :
    (∃ a ∈ arrivals, a.now = w.started) ∧ w.count ≤ arrivals.countP (countedSince net l₀.trusted key w.started) := by
  induction arrivals using List.reverseRecOn generalizing key w with
  | nil =>
    rw [runLimiter, List.foldl_nil, h₀] at hw
    cases hw
  | append_singleton arrivals a ih =>
    have ih := @ih hclock.of_snoc
    rw [runLimiter_snoc] at hw
    rw [List.countP_append, List.countP_singleton]
    have hconfig := (runLimiter_config net l₀ arrivals).2
    -- a window that was there before
    have hbefore : ∀ {key w}, (runLimiter net l₀ arrivals).clients.lookup key = some w →
        (∃ b ∈ arrivals ++ [a], b.now = w.started) ∧
          w.count ≤ arrivals.countP (countedSince net l₀.trusted key w.started) := by
      intro key w hw
      obtain ⟨⟨b, hb, hstart⟩, hcount⟩ := ih hw
      exact ⟨⟨b, List.mem_append_left _ hb, hstart⟩, hcount⟩
    rcases judge_cases net (runLimiter net l₀ arrivals) a with h | ⟨v, l', h, -, hexempt, hkey, hnow, hcounted⟩
    · rw [h] at hw
      obtain ⟨hstart, hcount⟩ := hbefore hw
      exact ⟨hstart, by omega⟩
    · rw [h] at hw
      by_cases hown : key = v.key
      · subst hown
        obtain rfl := Option.some.inj (hcounted.own.symm.trans hw)
        have hmatch : v.started ≤ a.now → countedSince net l₀.trusted v.key v.started a = true := by
          intro hle
          simp only [countedSince, hexempt, hkey, hconfig, Bool.not_false, Bool.true_and, Bool.and_eq_true,
            decide_eq_true_eq]
          exact ⟨trivial, hle⟩
        rcases hcounted.window with ⟨w, hold, -, hstarted, hcount⟩ | ⟨hstarted, hcount, -⟩
        · obtain ⟨⟨b, hb, hb_start⟩, hle⟩ := ih hold
          have hba := hclock.le_last hb
          refine ⟨⟨b, List.mem_append_left _ hb, hb_start.trans hstarted.symm⟩, ?_⟩
          rw [if_pos (hmatch (by omega)), hstarted]
          simp only
          omega
        · refine ⟨⟨a, List.mem_concat_self, by simp only; omega⟩, ?_⟩
          rw [if_pos (hmatch (by omega))]
          simp only
          omega
      · obtain ⟨hstart, hcount⟩ := hbefore (hcounted.others key w hown hw)
        exact ⟨hstart, by omega⟩

/-- A counted request lies in the window it is counted in. -/
theorem Counted.inside {l l' : Limiter} {v : Verdict} (h : Counted l l' v)
    (hstarted : ∀ w, l.clients.lookup v.key = some w → w.started ≤ v.now) :
    v.started ≤ v.now ∧ v.now < v.started + minute := by
  have hminute : 0 < minute := by decide
  rcases h.window with ⟨w, hold, hlive, hw, -⟩ | ⟨hw, -, -⟩
  · have hlive := of_decide_eq_false hlive
    have := hstarted w hold
    omega
  · omega

theorem refused_counted (h₀ : l₀.clients = ∅) (before : List Arrival) (a : Arrival) (hclock : Monotone (before ++ [a]))
    (hrefused : (middleware net (runLimiter net l₀ before) a).1 ≠ .next) :
    ∃ w, (runLimiter net l₀ (before ++ [a])).clients.lookup (clientAddress net l₀.trusted a.request) = some w ∧
      w.started ≤ a.now ∧ a.now < w.started + minute ∧
      l₀.limit < (before ++ [a]).countP
        (countedSince net l₀.trusted (clientAddress net l₀.trusted a.request) w.started) := by
  obtain ⟨hlimit, htrusted⟩ := runLimiter_config net l₀ before
  have hafter := @count_le_countP net l₀ h₀ (before ++ [a]) hclock
  rw [runLimiter_snoc] at hafter ⊢
  rcases judge_cases net (runLimiter net l₀ before) a with h | ⟨v, l', h, -, -, hkey, hnow, hcounted⟩
  · exact absurd (by rw [middleware, h]; rfl) hrefused
  · have hallowed : v.allowed = false := by
      refine Bool.eq_false_iff.2 fun hallowed => hrefused ?_
      simp [middleware, h, hallowed]
    have hover : l₀.limit < v.count := by
      have := mt hcounted.allowed.2 (by simp [hallowed])
      rw [hlimit] at this
      exact not_le.1 this
    have hinside := hcounted.inside fun w hw => by
      obtain ⟨⟨b, hb, hstart⟩, -⟩ := count_le_countP net h₀ before hclock.of_snoc hw
      have := hclock.le_last hb
      omega
    have hkey : v.key = clientAddress net l₀.trusted a.request := hkey.trans (by rw [htrusted])
    rw [h] at hafter ⊢
    rw [← hkey, ← hnow]
    have hcount := (hafter hcounted.own).2
    refine ⟨_, hcounted.own, hinside.1, hinside.2, ?_⟩
    simp only at hcount ⊢
    omega

end Refusals

/-! ## Admissions within a window -/

/-- The verdict lets a request of the key through, less than a minute after the moment. -/
def passesWithin (key : String) (started : Int) (v : Verdict) : Bool :=
  v.key = key && v.allowed && started ≤ v.now && v.now < started + minute

/-- How many requests of the key were let through in the minute after a moment. -/
def passed (key : String) (started : Int) (log : List Verdict) : Nat := log.countP (passesWithin key started)

theorem passed_snoc (key : String) (started : Int) (log : List Verdict) (v : Verdict) :
    passed key started (log ++ [v]) = passed key started log + if passesWithin key started v then 1 else 0 := by
  rw [passed, List.countP_append, List.countP_singleton, passed]

theorem passesWithin_iff {key : String} {started : Int} {v : Verdict} :
    passesWithin key started v = true ↔
      v.key = key ∧ v.allowed = true ∧ started ≤ v.now ∧ v.now < started + minute := by
  simp [passesWithin, and_assoc]

/-- What holds of a key that was not evicted, at any moment from the last request on. -/
structure Windows (limit : Int) (key : String) (t : Int) (log : List Verdict) (l : Limiter) : Prop where
  past : ∀ v ∈ log, v.now ≤ t
  inside : ∀ v ∈ log, v.key = key → v.started ≤ v.now ∧ v.now < v.started + minute
  begun : ∀ w, l.clients.lookup key = some w → w.started ≤ t
  /-- A window is the current one, or it is over. -/
  ended : ∀ v ∈ log, v.key = key →
    (∃ w, l.clients.lookup key = some w ∧ w.started = v.started) ∨ v.started + minute ≤ t
  current : ∀ w, l.clients.lookup key = some w →
    passed key w.started log ≤ w.count ∧ (passed key w.started log : Int) ≤ limit
  all : ∀ v ∈ log, v.key = key → (passed key v.started log : Int) ≤ limit

namespace Windows

variable {limit t : Int} {key : String} {log : List Verdict} {l l' : Limiter} {v : Verdict}

theorem later (h : Windows limit key t log l) {t' : Int} (ht : t ≤ t') : Windows limit key t' log l where
  past u hu := (h.past u hu).trans ht
  inside := h.inside
  begun w hw := (h.begun w hw).trans ht
  ended u hu hkey := (h.ended u hu hkey).imp_right fun hover => hover.trans ht
  current := h.current
  all := h.all

/-- A request of another key. -/
theorem other (h : Windows limit key t log l) (hcounted : Counted l l' v) (hnow : v.now = t) (hkey : v.key ≠ key)
    (hevicted : v.evicted ≠ some key) : Windows limit key t (log ++ [v]) l' := by
  have hpassed : ∀ s, passed key s (log ++ [v]) = passed key s log := by
    intro s
    rw [passed_snoc, if_neg fun hpass => hkey (passesWithin_iff.1 hpass).1, Nat.add_zero]
  have hlog : ∀ u ∈ log ++ [v], u.key = key → u ∈ log := by
    intro u hu huk
    rcases List.mem_append.1 hu with hu | hu
    · exact hu
    · exact absurd (List.mem_singleton.1 hu ▸ huk) hkey
  refine ⟨?_, ?_, ?_, ?_, ?_, ?_⟩
  · intro u hu
    rcases List.mem_append.1 hu with hu | hu
    · exact h.past u hu
    · rw [List.mem_singleton.1 hu, hnow]
  · exact fun u hu huk => h.inside u (hlog u hu huk) huk
  · exact fun w hw => h.begun w (hcounted.others key w (Ne.symm hkey) hw)
  · intro u hu huk
    rcases h.ended u (hlog u hu huk) huk with ⟨w, hw, hstarted⟩ | hover
    · rcases hcounted.gone key w (Ne.symm hkey) hw with hstays | hexpired | hgone
      · exact .inl ⟨w, hstays, hstarted⟩
      · have := of_decide_eq_true hexpired
        exact .inr (by omega)
      · exact absurd hgone hevicted
    · exact .inr hover
  · intro w hw
    rw [hpassed]
    exact h.current w (hcounted.others key w (Ne.symm hkey) hw)
  · intro u hu huk
    rw [hpassed]
    exact h.all u (hlog u hu huk) huk

/-- A request of the key, counted in a window that every earlier request of the key is in, or after. -/
theorem own (h : Windows limit key t log l) (hcounted : Counted l l' v) (hnow : v.now = t) (hkey : v.key = key)
    (hinside : v.started ≤ t ∧ t < v.started + minute)
    (hlog : ∀ u ∈ log, u.key = key → u.started = v.started ∨ u.started + minute ≤ t)
    (hcurrent : passed key v.started (log ++ [v]) ≤ v.count ∧ (passed key v.started (log ++ [v]) : Int) ≤ limit) :
    Windows limit key t (log ++ [v]) l' := by
  have hown : l'.clients.lookup key = some ⟨v.started, v.count⟩ := hkey ▸ hcounted.own
  have hmem : ∀ {u}, u ∈ log ++ [v] → u ∈ log ∨ u = v := fun hu => by simpa using hu
  refine ⟨fun u hu => ?_, fun u hu huk => ?_, fun w hw => ?_, fun u hu huk => ?_, fun w hw => ?_, fun u hu huk => ?_⟩
  · rcases hmem hu with hu | rfl
    · exact h.past u hu
    · exact hnow.le
  · rcases hmem hu with hu | rfl
    · exact h.inside u hu huk
    · omega
  · obtain rfl := Option.some.inj (hown.symm.trans hw)
    exact hinside.1
  · rcases hmem hu with hu | rfl
    · exact (hlog u hu huk).imp_left fun hs => ⟨_, hown, hs.symm⟩
    · exact .inl ⟨_, hown, rfl⟩
  · obtain rfl := Option.some.inj (hown.symm.trans hw)
    exact hcurrent
  · rcases hmem hu with hu | rfl
    · rcases hlog u hu huk with hs | hover
      · rw [hs]
        exact hcurrent.2
      · rw [passed_snoc, if_neg fun hpass => by have := (passesWithin_iff.1 hpass).2.2; omega, Nat.add_zero]
        exact h.all u hu huk
    · exact hcurrent.2

/-- A request of the key, in its current window. -/
theorem goesOn (h : Windows limit key t log l) (hcounted : Counted l l' v) (hlimit : l.limit = limit) (hnow : v.now = t)
    (hkey : v.key = key) {w : Window} (hold : l.clients.lookup key = some w) (hlive : expired v.now w = false)
    (hstarted : v.started = w.started) (hcount : v.count = w.count + 1) : Windows limit key t (log ++ [v]) l' := by
  have hlive := of_decide_eq_false hlive
  have hbegun := h.begun w hold
  refine h.own hcounted hnow hkey (by omega) (fun u hu huk => ?_) ?_
  · refine (h.ended u hu huk).imp_left ?_
    rintro ⟨w', hw', hs⟩
    obtain rfl := Option.some.inj (hold.symm.trans hw')
    exact hs.symm.trans hstarted.symm
  · -- the current window counts at least what it let through
    have hbefore := h.current w hold
    have hallowed := hcounted.allowed
    rw [hstarted, passed_snoc]
    split
    · rename_i hpass
      have := hallowed.1 (passesWithin_iff.1 hpass).2.1
      omega
    · omega

/-- A request of the key that begins a window. -/
theorem begins (h : Windows limit key t log l) (hcounted : Counted l l' v) (hpos : 0 < limit) (hnow : v.now = t)
    (hkey : v.key = key) (hold : ∀ w, l.clients.lookup key = some w → expired v.now w = true)
    (hstarted : v.started = v.now) (hcount : v.count = 1) : Windows limit key t (log ++ [v]) l' := by
  have hminute : 0 < minute := by decide
  -- all earlier windows are over
  have hover : ∀ u ∈ log, u.key = key → u.started + minute ≤ t := by
    intro u hu huk
    rcases h.ended u hu huk with ⟨w, hw, hs⟩ | hover
    · have := of_decide_eq_true (hold w hw)
      omega
    · exact hover
  have hnone : passed key v.started log = 0 := by
    refine List.countP_eq_zero.2 fun u hu hpass => ?_
    obtain ⟨huk, -, hle, -⟩ := passesWithin_iff.1 hpass
    have := hover u hu huk
    have := (h.inside u hu huk).2
    omega
  refine h.own hcounted hnow hkey (by omega) (fun u hu huk => .inr (hover u hu huk)) ?_
  rw [passed_snoc, hnone]
  split <;> omega

end Windows

/-- The windows of a key that was never evicted, along a run. -/
theorem runLimiter_windows (net : Netip) {l₀ : Limiter} (h₀ : l₀.clients = ∅) (key : String) (arrivals : List Arrival)
    (hclock : Monotone arrivals) (hevicted : ∀ v ∈ verdicts net l₀ arrivals, v.evicted ≠ some key) {t : Int}
    (ht : ∀ a ∈ arrivals, a.now ≤ t) :
    Windows l₀.limit key t (verdicts net l₀ arrivals) (runLimiter net l₀ arrivals) := by
  induction arrivals using List.reverseRecOn generalizing t with
  | nil =>
    have hnone : ∀ w, l₀.clients.lookup key ≠ some w := by simp [h₀]
    exact ⟨nofun, nofun, fun w hw => absurd hw (hnone w), nofun, fun w hw => absurd hw (hnone w), nofun⟩
  | append_singleton arrivals a ih =>
    rw [verdicts_snoc] at hevicted ⊢
    rw [runLimiter_snoc]
    have hat := ht a List.mem_concat_self
    have ih := ih hclock.of_snoc (fun v hv => hevicted v (List.mem_append_left _ hv)) fun b hb => hclock.le_last hb
    have hlimit := (runLimiter_config net l₀ arrivals).1
    rcases judge_cases net (runLimiter net l₀ arrivals) a with h | ⟨v, l', h, hpos, -, -, hnow, hcounted⟩
    · simp only [h, Option.toList_none, List.append_nil]
      exact ih.later hat
    · rw [h] at hevicted ⊢
      simp only [Option.toList_some] at hevicted ⊢
      refine Windows.later ?_ hat
      by_cases hkey : v.key = key
      · rcases hcounted.window with ⟨w, hold, hlive, hstarted, hcount⟩ | ⟨hstarted, hcount, hold⟩
        · exact ih.goesOn hcounted hlimit hnow hkey (hkey ▸ hold) hlive hstarted hcount
        · exact ih.begins hcounted (lt_of_lt_of_eq hpos hlimit) hnow hkey (hkey ▸ hold) hstarted hcount
      · exact ih.other hcounted hnow hkey (hevicted v List.mem_concat_self)

/-- A request of the key that was passed on, less than a minute after the moment. -/
def admittedWithin (net : Netip) (trusted : List Prefix) (key : String) (started : Int) (r : Arrival × Response) :
    Bool :=
  countedSince net trusted key started r.1 && r.1.now < started + minute && r.2 = .next

theorem countP_answers (net : Netip) (key : String) (started : Int) (l : Limiter) (hpos : 0 < l.limit)
    (arrivals : List Arrival) :
    (answers net l arrivals).countP (admittedWithin net l.trusted key started) =
      passed key started (verdicts net l arrivals) := by
  induction arrivals generalizing l with
  | nil => rfl
  | cons a rest ih =>
    simp only [answers, verdicts, List.countP_cons, passed, List.countP_append, middleware_snd] at ih ⊢
    by_cases hexempt : a.exempt = true
    · have hjudge : judge net l a = (none, l) := by rw [judge, if_pos (.inr hexempt)]
      rw [hjudge, ih l hpos]
      simp [admittedWithin, countedSince, hexempt]
    · rcases judge_cases net l a with h | ⟨v, l', h, -, -, hkey, hnow, hcounted⟩
      · rw [judge, if_neg (by simp [hexempt, hpos])] at h
        cases h
      · have ih := ih l' (hcounted.limit ▸ hpos)
        rw [hcounted.trusted] at ih
        simp only [h, ih, middleware, Option.all_some, Option.toList_some]
        -- both sides ask for the key, the moment and the decision
        have hsame : admittedWithin net l.trusted key started
            (a, if v.allowed = true then .next else .error 429 "60" "rate_limited" "request rate limit exceeded") =
            passesWithin key started v := by
          rw [Bool.eq_iff_iff, passesWithin_iff, hkey, hnow]
          cases v.allowed <;> simp [admittedWithin, countedSince, hexempt, and_assoc]
        rw [hsame, List.countP_singleton, Nat.add_comm]

theorem verdict_of_lookup (net : Netip) {l₀ : Limiter} (h₀ : l₀.clients = ∅) (arrivals : List Arrival) {key : String}
    {w : Window} (hw : (runLimiter net l₀ arrivals).clients.lookup key = some w) :
    0 < l₀.limit ∧ ∃ v ∈ verdicts net l₀ arrivals, v.key = key ∧ v.started = w.started := by
  induction arrivals using List.reverseRecOn with
  | nil =>
    rw [runLimiter, List.foldl_nil, h₀] at hw
    cases hw
  | append_singleton arrivals a ih =>
    rw [runLimiter_snoc] at hw
    rw [verdicts_snoc]
    have hlimit := (runLimiter_config net l₀ arrivals).1
    rcases judge_cases net (runLimiter net l₀ arrivals) a with h | ⟨v, l', h, hpos, -, -, -, hcounted⟩
    · simp only [h, Option.toList_none, List.append_nil] at hw ⊢
      exact ih hw
    · simp only [h, Option.toList_some] at hw ⊢
      by_cases hkey : key = v.key
      · subst hkey
        obtain rfl := Option.some.inj (hcounted.own.symm.trans hw)
        exact ⟨lt_of_lt_of_eq hpos hlimit, v, by simp, rfl, rfl⟩
      · obtain ⟨hpos, u, hu, hsame⟩ := ih (hcounted.others key w hkey hw)
        exact ⟨hpos, u, List.mem_append_left _ hu, hsame⟩

/-- For every run under a monotone clock: a request is refused only when, with it, more than `limit` requests of its own
key came since the key's window began, less than a minute ago; and of the requests of a key that is never evicted at
most `limit` are passed on in each of the windows it has at any moment of the run. -/
theorem limiter_fair (net : Netip) (limit : Int) (trusted : List Prefix) (arrivals : List Arrival)
    (hclock : Monotone arrivals) :
    (∀ before a after, arrivals = before ++ a :: after →
      (middleware net (runLimiter net (newRateLimiter limit trusted) before) a).1 ≠ .next →
      ∃ w, (runLimiter net (newRateLimiter limit trusted) (before ++ [a])).clients.lookup
          (clientAddress net trusted a.request) = some w ∧
        w.started ≤ a.now ∧ a.now < w.started + minute ∧
        limit < (before ++ [a]).countP (countedSince net trusted (clientAddress net trusted a.request) w.started)) ∧
    ∀ key, (∀ v ∈ verdicts net (newRateLimiter limit trusted) arrivals, v.evicted ≠ some key) →
      ∀ before after w, arrivals = before ++ after →
        (runLimiter net (newRateLimiter limit trusted) before).clients.lookup key = some w →
        ((answers net (newRateLimiter limit trusted) arrivals).countP
          (admittedWithin net trusted key w.started) : Int) ≤ limit := by
  constructor
  · rintro before a after rfl hrefused
    refine @refused_counted net (newRateLimiter limit trusted) rfl before a ?_ hrefused
    rw [List.append_cons] at hclock
    exact (List.pairwise_append.1 hclock).1
  · intro key hevicted before after w hsplit hw
    obtain ⟨hpos, v, hv, hkey, hstarted⟩ := verdict_of_lookup net rfl before hw
    have hv : v ∈ verdicts net (newRateLimiter limit trusted) arrivals := by
      rw [hsplit, verdicts_append]
      exact List.mem_append_left _ hv
    -- any moment after the last request
    obtain ⟨t, ht⟩ : ∃ t, ∀ a ∈ arrivals, a.now ≤ t := by
      refine ⟨((arrivals.map fun a => a.now).max?).getD 0, fun a ha => ?_⟩
      obtain ⟨m, hm⟩ :=
        Option.isSome_iff_exists.1 (List.isSome_max?_of_mem (List.mem_map_of_mem (f := fun a => a.now) ha))
      rw [hm]
      exact (List.max?_eq_some_iff.1 hm).2 _ (List.mem_map_of_mem ha)
    have hall := (runLimiter_windows net rfl key arrivals hclock hevicted ht).all v hv hkey
    rw [hstarted] at hall
    rw [← countP_answers net key w.started _ hpos] at hall
    exact hall

/-- The entries as they are stored. -/
def inOrder : Visit := ⟨id, fun entries => List.Perm.refl entries⟩

/-- A request of each of two clients. -/
def sampleArrivals : List Arrival :=
  [⟨"/v1/verify", ⟨"10.0.0.1", []⟩, 5, inOrder⟩, ⟨"/v1/verify", ⟨"10.0.0.2", []⟩, 6, inOrder⟩]

def sampleArrival : Arrival := ⟨"/v1/verify", ⟨"10.0.0.1", []⟩, 7, inOrder⟩

def sampleKey : String := clientAddress sampleNetip [] ⟨"10.0.0.1", []⟩

/-- With a limit of one, the second request of a client is refused, and one is passed on. -/
theorem second_request_refused :
    (∃ w, (runLimiter sampleNetip (newRateLimiter 1 []) (sampleArrivals ++ [sampleArrival])).clients.lookup sampleKey =
        some w ∧ w.started ≤ 7 ∧ 7 < w.started + minute ∧
      1 < (sampleArrivals ++ [sampleArrival]).countP (countedSince sampleNetip [] sampleKey w.started)) ∧
    (answers sampleNetip (newRateLimiter 1 []) (sampleArrivals ++ [sampleArrival])).countP
      (admittedWithin sampleNetip [] sampleKey 5) ≤ 1 := by
  obtain ⟨hrefusals, hadmissions⟩ := limiter_fair sampleNetip 1 [] (sampleArrivals ++ [sampleArrival])
    (by unfold Monotone; decide)
  constructor
  · exact_mod_cast hrefusals sampleArrivals sampleArrival [] rfl (by decide +kernel)
  · exact_mod_cast hadmissions sampleKey (by decide +kernel) (sampleArrivals ++ [sampleArrival]) [] ⟨5, 2⟩
      (List.append_nil _).symm (by decide +kernel)

/-! ## The number of keys -/

theorem length_entries (clients : Clients) : clients.entries.length = clients.keys.length := by
  rw [AList.keys, List.keys, List.length_map]

/-- The candidate after an entry that is not over: it, or the one before. -/
theorem evictLoop_cons {now : Int} {key : String} {window : Window} (hlive : expired now window = false)
    (hkey : key ≠ "")
    (rest : List Entry) (oldestKey : String) (oldestStart : Int) (sampled : Nat) :
    ∃ k start, k ≠ "" ∧ (k = key ∨ k = oldestKey) ∧
      evictLoop now (⟨key, window⟩ :: rest) oldestKey oldestStart sampled =
      if evictionSample ≤ sampled + 1 then some k else evictLoop now rest k start (sampled + 1) := by
  by_cases older : oldestKey = "" ∨ window.started < oldestStart
  · refine ⟨key, window.started, hkey, .inl rfl, ?_⟩
    simp only [evictLoop, hlive, older, if_true, Bool.false_eq_true, if_false, hkey, ne_eq, not_false_eq_true]
  · have hold : oldestKey ≠ "" := fun h => older (.inl h)
    have hlater : ¬ window.started < oldestStart := fun h => older (.inr h)
    refine ⟨oldestKey, oldestStart, hold, .inr rfl, ?_⟩
    simp only [evictLoop, hlive, hold, hlater, or_self, Bool.false_eq_true, if_false, ne_eq, not_false_eq_true, if_true]

/-- Among entries with keys other than the empty one, eviction finds a key to delete. -/
theorem evictLoop_some (now : Int) (visited : List Entry) (hkeys : ∀ e ∈ visited, e.1 ≠ "") (oldestKey : String)
    (oldestStart : Int) (sampled : Nat) (h : oldestKey ≠ "" ∨ visited ≠ []) :
    ∃ key, evictLoop now visited oldestKey oldestStart sampled = some key ∧ key ≠ "" ∧
      (key = oldestKey ∨ ∃ e ∈ visited, e.1 = key) := by
  induction visited generalizing oldestKey oldestStart sampled with
  | nil =>
    have h : oldestKey ≠ "" := h.resolve_right fun hne => hne rfl
    exact ⟨oldestKey, by rw [evictLoop, if_pos h], h, .inl rfl⟩
  | cons e rest ih =>
    obtain ⟨key, window⟩ := e
    have hkey : key ≠ "" := hkeys ⟨key, window⟩ (List.mem_cons_self ..)
    by_cases hlive : expired now window = true
    · exact ⟨key, by rw [evictLoop, if_pos hlive], hkey, .inr ⟨_, List.mem_cons_self .., rfl⟩⟩
    · obtain ⟨k, start, hk, hfrom, heq⟩ :=
        evictLoop_cons (Bool.eq_false_iff.2 hlive) hkey rest oldestKey oldestStart sampled
      have hfrom : k = oldestKey ∨ ∃ e ∈ (⟨key, window⟩ : Entry) :: rest, e.1 = k := by
        rcases hfrom with rfl | rfl
        · exact .inr ⟨_, List.mem_cons_self .., rfl⟩
        · exact .inl rfl
      rw [heq]
      split
      · exact ⟨k, rfl, hk, hfrom⟩
      · obtain ⟨found, hfound, hne, hmem⟩ :=
          ih (fun e he => hkeys e (List.mem_cons_of_mem _ he)) k start (sampled + 1) (.inl hk)
        refine ⟨found, hfound, hne, ?_⟩
        rcases hmem with rfl | ⟨e, he, heq⟩
        · exact hfrom
        · exact .inr ⟨e, List.mem_cons_of_mem _ he, heq⟩

theorem sweep_sublist (now : Int) (l : Limiter) : (sweep now l).clients.entries.Sublist l.clients.entries := by
  unfold sweep
  split
  · exact List.filter_sublist
  · exact List.Sublist.refl _

/-- The keys that are tracked: not too many, and never the empty one. -/
structure Bounded (l : Limiter) : Prop where
  size : l.clients.entries.length ≤ maxTrackedClients
  keys : ∀ e ∈ l.clients.entries, e.1 ≠ ""

theorem evictLocked_mem (now : Int) (visit : Visit) (hkeys : ∀ e ∈ clients.entries, e.1 ≠ "")
    (hfull : maxTrackedClients ≤ clients.entries.length) :
    ∃ key ∈ clients, evictLocked now (visit.order clients.entries) = some key := by
  have hperm := visit.perm clients.entries
  have hvisited : visit.order clients.entries ≠ [] := by
    intro hnil
    rw [← hperm.length_eq, hnil] at hfull
    exact absurd hfull (by decide)
  obtain ⟨key, hkey, hne, hmem⟩ := evictLoop_some now (visit.order clients.entries)
    (fun e he => hkeys e (hperm.mem_iff.1 he)) "" 0 0 (.inr hvisited)
  obtain ⟨e, he, rfl⟩ := hmem.resolve_left hne
  exact ⟨e.1, AList.mem_keys.2 (List.mem_map_of_mem (hperm.mem_iff.1 he)), hkey⟩

theorem length_erase {key : String} (h : key ∈ clients) :
    (clients.erase key).entries.length + 1 = clients.entries.length := by
  rw [length_entries, length_entries, AList.keys_erase, List.length_erase_of_mem (AList.mem_keys.1 h)]
  have := List.length_pos_of_mem (AList.mem_keys.1 h)
  omega

theorem length_insert_le (clients : Clients) (key : String) (w : Window) :
    (clients.insert key w).entries.length ≤ clients.entries.length + 1 := by
  rw [length_entries, length_entries, AList.keys_insert, List.length_cons]
  have := List.length_erase_le (a := key) (l := clients.keys)
  omega

theorem length_insert_of_mem {key : String} (h : key ∈ clients) (w : Window) :
    (clients.insert key w).entries.length = clients.entries.length := by
  have hpos := List.length_pos_of_mem (AList.mem_keys.1 h)
  rw [length_entries, length_entries, AList.keys_insert, List.length_cons,
    List.length_erase_of_mem (AList.mem_keys.1 h)]
  omega

theorem countRequest_bounded {l : Limiter} (h : Bounded l) {key : String} (hkey : key ≠ "") (now : Int)
    (visit : Visit) :
    Bounded (countRequest l key now visit).2 := by
  have hsweep := sweep_sublist now l
  have hsize : (sweep now l).clients.entries.length ≤ maxTrackedClients := hsweep.length_le.trans h.size
  have hkeys : ∀ e ∈ (sweep now l).clients.entries, e.1 ≠ "" := fun e he => h.keys e (hsweep.subset he)
  refine ⟨?_, ?_⟩
  · show ((deleteKey (sweep now l).clients _).insert key _).entries.length ≤ _
    split
    · rename_i hnew
      obtain ⟨k, hk, hevict⟩ := evictLocked_mem now visit hkeys hnew.2
      have herase := length_erase hk
      rw [hevict]
      exact (length_insert_le _ _ _).trans (by rw [deleteKey]; omega)
    · rename_i hnew
      rw [deleteKey]
      by_cases hmem : key ∈ (sweep now l).clients
      · rw [length_insert_of_mem hmem]
        exact hsize
      · have hroom : ¬ maxTrackedClients ≤ (sweep now l).clients.entries.length :=
          fun hfull => hnew ⟨AList.lookup_eq_none.2 hmem, hfull⟩
        exact (length_insert_le _ _ _).trans (by omega)
  · intro e he
    have hmem : e.1 ∈ (countRequest l key now visit).2.clients := AList.mem_keys.2 (List.mem_map_of_mem he)
    rcases (AList.mem_insert _).1 hmem with heq | hold
    · rw [heq]
      exact hkey
    · obtain ⟨w, hw⟩ := Option.isSome_iff_exists.1 (AList.lookup_isSome.2 hold)
      exact hkeys ⟨e.1, w⟩ (AList.mem_lookup_iff.1 (lookup_of_deleteKey hw))

/-- In every run in which no counted request has the empty client key, the limiter tracks at most `maxTrackedClients`
keys, whatever the order in which the map is visited. -/
theorem tracked_le (net : Netip) (limit : Int) (trusted : List Prefix) (arrivals : List Arrival)
    (hkeys : ∀ a ∈ arrivals, a.exempt = false → clientAddress net trusted a.request ≠ "") :
    (runLimiter net (newRateLimiter limit trusted) arrivals).clients.entries.length ≤ maxTrackedClients := by
  suffices Bounded (runLimiter net (newRateLimiter limit trusted) arrivals) from this.size
  induction arrivals using List.reverseRecOn with
  | nil => exact ⟨Nat.zero_le _, nofun⟩
  | append_singleton arrivals a ih =>
    have ih := ih fun b hb => hkeys b (List.mem_append_left _ hb)
    have htrusted := (runLimiter_config net (newRateLimiter limit trusted) arrivals).2
    rw [runLimiter_snoc, judge]
    split
    · exact ih
    · rename_i h
      refine countRequest_bounded ih ?_ a.now a.visit
      rw [htrusted]
      exact hkeys a List.mem_concat_self
        (Bool.eq_false_iff.2 fun hexempt => h (.inr hexempt))

/-- Two clients with readable addresses are tracked. -/
theorem tracked_le_two :
    (runLimiter sampleNetip (newRateLimiter 1 []) [⟨"/v1/verify", ⟨"10.0.0.1", []⟩, 5, inOrder⟩,
      ⟨"/v1/verify", ⟨"10.0.0.2", []⟩, 7, inOrder⟩]).clients.entries.length ≤ maxTrackedClients :=
  tracked_le sampleNetip 1 [] _ (by decide +kernel)

/-! ## The empty key -/

/-- The last entry is visited in the eighth place. -/
def lastEighth : Visit where
  order entries := entries.dropLast.take 7 ++ entries.getLast?.toList ++ entries.dropLast.drop 7
  perm entries := by
    rcases List.eq_nil_or_concat entries with rfl | ⟨front, e, rfl⟩
    · exact List.Perm.refl _
    · rw [List.concat_eq_append, List.dropLast_concat, List.getLast?_concat, Option.toList_some]
      calc (front.take 7 ++ [e] ++ front.drop 7).Perm (front.take 7 ++ (front.drop 7 ++ [e])) := by
            rw [List.append_assoc]
            exact List.Perm.append_left _ List.perm_append_comm
        _ = front ++ [e] := by rw [← List.append_assoc, List.take_append_drop]

def floodKey (n : Nat) : String := String.ofList (List.replicate n 'x')

/-- The peers of a flood: their addresses cannot be read, and the first is empty. -/
def flood (n : Nat) : Arrival := ⟨"/v1/verify", ⟨floodKey n, []⟩, n, lastEighth⟩

variable {n : Nat}

theorem floodKey_inj {m : Nat} (h : floodKey m = floodKey n) : m = n :=
  List.replicate_left_injective 'x' (String.ofList_injective h)

theorem floodKey_ne {s : String} (h : ∃ c ∈ s.toList, c ≠ 'x') : floodKey n ≠ s := by
  rintro rfl
  obtain ⟨c, hc, hne⟩ := h
  rw [floodKey, String.toList_ofList] at hc
  exact hne (List.eq_of_mem_replicate hc)

theorem clientAddress_floodKey (n : Nat) : clientAddress sampleNetip [] ⟨floodKey n, []⟩ = floodKey n := by
  have htrim : trimSpace (floodKey n) = floodKey n := by
    have hx : isSpace 'x' = false := by decide
    simp [trimSpace, floodKey, hx]
  have hparse : sampleNetip.parseAddr (floodKey n) = none := by
    rw [sampleNetip, List.lookup_eq_none_iff]
    intro e he
    refine bne_iff_ne.2 (floodKey_ne ⟨'0', ?_, by decide⟩)
    simp only [List.mem_cons, List.not_mem_nil, or_false] at he
    rcases he with rfl | rfl | rfl | rfl | rfl | rfl <;> simp
  have hpeer : (sampleNetip.splitHostPort (floodKey n)).getD (floodKey n) = floodKey n := rfl
  simp only [clientAddress, hpeer, htrim, hparse]

/-- The entries after `n` requests of the flood. -/
def floodEntries (n : Nat) : List Entry := (List.range n).reverse.map fun (i : Nat) => ⟨floodKey i, ⟨(i : Int), 1⟩⟩

theorem floodEntries_succ (n : Nat) : floodEntries (n + 1) = ⟨floodKey n, ⟨n, 1⟩⟩ :: floodEntries n := by
  rw [floodEntries, List.range_succ, List.reverse_append, List.map_append]
  rfl

theorem floodEntries_last (n : Nat) : ∃ front, floodEntries (n + 1) = front ++ [⟨"", ⟨0, 1⟩⟩] := by
  rw [floodEntries, List.range_succ_eq_map, List.reverse_cons, List.map_append]
  exact ⟨_, rfl⟩

theorem floodKey_notMem (h : clients.entries = floodEntries n) : floodKey n ∉ clients := by
  intro hmem
  have hkeys : floodKey n ∈ clients.entries.map Sigma.fst := AList.mem_keys.1 hmem
  rw [h, floodEntries, List.map_map] at hkeys
  obtain ⟨i, hi, heq⟩ := List.mem_map.1 hkeys
  have := floodKey_inj heq
  have := List.mem_range.1 (List.mem_reverse.1 hi)
  omega

/-- The eighth entry of the sample is the oldest one and has the empty key, so that nothing is deleted. -/
theorem evictLocked_flood (h : 8 ≤ n) (hn : (n : Int) < minute) :
    evictLocked n (lastEighth.order (floodEntries n)) = none := by
  obtain ⟨m, rfl⟩ : ∃ m, n = m + 8 := ⟨n - 8, by omega⟩
  obtain ⟨front, hfront⟩ := floodEntries_last m
  have hlive : ∀ i : Nat, expired ((m + 8 : Nat) : Int) ⟨i, 1⟩ = false := fun i => decide_eq_false (by simp only; omega)
  have hkey : ∀ i, floodKey (i + 1) ≠ "" := by
    intro i hi
    have := floodKey_inj (n := 0) hi
    omega
  have hentries : floodEntries (m + 8) =
      ([7, 6, 5, 4, 3, 2, 1].map fun i => (⟨floodKey (m + i), ⟨(m + i : Nat), 1⟩⟩ : Entry)) ++ front ++
        [⟨"", ⟨0, 1⟩⟩] := by
    simp only [floodEntries_succ (m + _), List.append_assoc, ← hfront]
    rfl
  have horder : lastEighth.order (floodEntries (m + 8)) =
      ([7, 6, 5, 4, 3, 2, 1].map fun i => (⟨floodKey (m + i), ⟨(m + i : Nat), 1⟩⟩ : Entry)) ++ [⟨"", ⟨0, 1⟩⟩] ++
        front := by
    rw [hentries, lastEighth]
    simp only [List.dropLast_concat, List.getLast?_concat, Option.toList_some]
    rfl
  have hzero : expired ((m + 8 : Nat) : Int) ⟨0, 1⟩ = false := hlive 0
  have holder : ∀ i : Nat, ((m + i : Nat) : Int) < ((m + (i + 1) : Nat) : Int) := by omega
  have hfirst : (0 : Int) < ((m + 1 : Nat) : Int) := by omega
  rw [horder]
  simp only [evictLocked, List.map_cons, List.map_nil, List.cons_append, List.nil_append, evictLoop, hlive, hzero, hkey,
    holder, hfirst, evictionSample, Bool.false_eq_true, if_false, true_or, or_true, if_true, ne_eq, not_true_eq_false,
    not_false_eq_true]
  simp

/-- The limiter after `n` requests of the flood. -/
structure Flooded (n : Nat) (l : Limiter) : Prop where
  limit : l.limit = 1
  trusted : l.trusted = []
  entries : l.clients.entries = floodEntries n
  swept : l.lastSweep = if n = 0 then none else some 0

theorem Flooded.sweep_entries {l : Limiter} (h : Flooded n l) (hn : (n : Int) < minute) :
    (sweep n l).clients.entries = floodEntries n ∧ (sweep n l).lastSweep = some 0 := by
  rw [sweep, h.swept]
  by_cases h0 : n = 0
  · subst h0
    simp only [if_true, Option.all_none]
    refine ⟨?_, rfl⟩
    show l.clients.entries.filter _ = _
    rw [h.entries]
    rfl
  · rw [if_neg h0, Option.all_some, if_neg (by simp only [decide_eq_true_eq]; omega)]
    exact ⟨h.entries, by rw [h.swept, if_neg h0]⟩

/-- A request of the flood adds its key as long as the map is not full, and also when it is. -/
theorem Flooded.next {l : Limiter} (h : Flooded n l) (hn : n ≤ maxTrackedClients) :
    Flooded (n + 1) (judge sampleNetip l (flood n)).2 := by
  have hminute : (n : Int) < minute := by
    have : (maxTrackedClients : Int) < minute := by decide
    omega
  obtain ⟨hentries, hswept⟩ := h.sweep_entries hminute
  have hnew := floodKey_notMem hentries
  have hevicted : (countRequest l (floodKey n) n lastEighth).1.evicted = none := by
    simp only [countRequest]
    split
    · rename_i hfull
      rw [hentries]
      refine evictLocked_flood ?_ hminute
      have : (floodEntries n).length = n := by simp [floodEntries]
      have : 8 ≤ maxTrackedClients := by decide
      have := hentries ▸ hfull.2
      omega
    · rfl
  have hjudge : (judge sampleNetip l (flood n)).2 = (countRequest l (floodKey n) n lastEighth).2 := by
    rw [judge, h.limit, h.trusted, if_neg (by simp [flood, Arrival.exempt])]
    simp only [flood, clientAddress_floodKey]
  rw [hjudge]
  refine ⟨(sweep_limit n l).trans h.limit, (sweep_trusted n l).trans h.trusted, ?_, hswept⟩
  show ((deleteKey (sweep n l).clients (countRequest l (floodKey n) n lastEighth).1.evicted).insert
    (floodKey n) _).entries
    = _
  rw [hevicted, deleteKey, AList.entries_insert_of_notMem hnew, hentries, floodEntries_succ,
    AList.lookup_eq_none.2 hnew]
  rfl

theorem flooded (n : Nat) (hn : n ≤ maxTrackedClients + 1) :
    Flooded n (runLimiter sampleNetip (newRateLimiter 1 []) ((List.range n).map flood)) := by
  induction n with
  | zero => exact ⟨rfl, rfl, rfl, rfl⟩
  | succ n ih =>
    rw [List.range_succ, List.map_append, List.map_singleton, runLimiter_snoc]
    exact (ih (by omega)).next (by omega)

/-- A peer without an address came first and is the oldest entry when the map is full: the next key is tracked besides
all others. -/
theorem tracked_exceeds : ∃ arrivals : List Arrival, Monotone arrivals ∧
    maxTrackedClients < (runLimiter sampleNetip (newRateLimiter 1 []) arrivals).clients.entries.length := by
  refine ⟨(List.range (maxTrackedClients + 1)).map flood, ?_, ?_⟩
  · refine List.pairwise_map.2 (List.pairwise_lt_range.imp fun h => ?_)
    simp only [flood]
    omega
  · rw [(flooded (maxTrackedClients + 1) (le_refl _)).entries, floodEntries, List.length_map, List.length_reverse,
      List.length_range]
    exact Nat.lt_succ_self _

end Eth402.Http
