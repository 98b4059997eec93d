/-
The fair-use counters (internal/store/fairuse.go). A call reads its instance's clock, and its one statement runs some
time later; the statements of all instances run one after the other. A counter belongs to a merchant and to a window of
the grid that all instances share, and pruning keeps every window that a call can still be counted in, as long as no
call runs more than a window after the time it carries.
-/
import Mathlib.Data.List.AList
import Mathlib.Data.List.Induction
import Mathlib.Tactic.Common

namespace Eth402.Store.FairUse

/-! ## The statements -/

/-- `Time.Truncate`, in nanoseconds since the zero time. -/
def truncate (t d : Int) : Int := t - t % d

/-- A `timestamptz` holds microseconds. -/
def column (t : Int) : Int := t / 1000

/-- `merchant_usage`: the requests by merchant and start of the window. -/
abbrev Usage := AList fun _ : Nat × Int => Nat

/-- What becomes of a statement: an answer, a failure, or a failure to answer. -/
inductive Fate
  | ok
  | failed
  | lost
  deriving DecidableEq

/-- `FairUse`. -/
structure Allowance where
  limit : Int
  used : Int
  resetsAt : Int
  exceeded : Bool
  remaining : Int
  deriving DecidableEq

inductive Failure
  | limitAndWindow (limit window : Int)
  | window (window : Int)
  | account
  | prune
  deriving DecidableEq

/-- `CountMerchantRequest`. -/
def countMerchantRequest (u : Usage) (merchantID : Nat) (limit window now : Int) (fate : Fate) :
    Except Failure Allowance × Usage :=
  if limit ≤ 0 ∨ window ≤ 0 then (.error (.limitAndWindow limit window), u)
  else
    let start := truncate now window
    let used := (u.lookup (merchantID, column start)).getD 0 + 1
    let counted := u.insert (merchantID, column start) used
    match fate with
    | .failed => (.error .account, u)
    | .lost => (.error .account, counted)
    | .ok =>
      (.ok { limit, used, resetsAt := start + window, exceeded := limit < used, remaining := max 0 (limit - used) },
        counted)

/-- The rows of windows that begin at the cutoff or later. -/
def keepFrom (cutoff : Int) (u : Usage) : Usage where
  entries := u.entries.filter fun e => cutoff ≤ e.1.2
  nodupKeys := u.nodupKeys.sublist List.filter_sublist

/-- `PruneMerchantUsage`. -/
def pruneMerchantUsage (u : Usage) (window now : Int) (fate : Fate) : Except Failure Nat × Usage :=
  if window ≤ 0 then (.error (.window window), u)
  else
    let kept := keepFrom (column (truncate (now + -2 * window) window)) u
    match fate with
    | .failed => (.error .prune, u)
    | .lost => (.error .prune, kept)
    | .ok => (.ok (u.entries.length - kept.entries.length), kept)

/-! ## Runs -/

inductive Op
  | count (merchantID : Nat)
  | prune
  deriving DecidableEq

/-- A call: the moment at which its instance reads the clock, and the moment at which its statement runs. -/
structure Call where
  caller : Nat
  op : Op
  readAt : Nat
  ranAt : Nat
  fate : Fate
  deriving DecidableEq

section Runs

variable (limit window : Int) (clock : Nat → Nat → Int)

/-- The time the call carries. -/
def Call.now (c : Call) : Int := clock c.caller c.readAt

/-- The counter a call adds to, and what it reports. -/
def perform (u : Usage) (c : Call) : Option (Except Failure Allowance) × Usage :=
  match c.op with
  | .count merchantID =>
    let r := countMerchantRequest u merchantID limit window (c.now clock) c.fate
    (some r.1, r.2)
  | .prune => (none, (pruneMerchantUsage u window (c.now clock) c.fate).2)

/-- The table after the calls. -/
def runUsage (u : Usage) (calls : List Call) : Usage := calls.foldl (fun u c => (perform limit window clock u c).2) u

/-- The calls with what they report. -/
def reports (u : Usage) : List Call → List (Call × Option (Except Failure Allowance))
  | [] => []
  | c :: rest =>
    let r := perform limit window clock u c
    (c, r.1) :: reports r.2 rest

/-- The clocks do not go back and differ by at most a window. -/
structure Clocks : Prop where
  monotone : ∀ i s t, s ≤ t → clock i s ≤ clock i t
  close : ∀ i j t, clock i t ≤ clock j t + window

/-- The statements run in this order, each after its call read the clock. -/
structure Ordered (calls : List Call) : Prop where
  order : calls.Pairwise fun c d => c.ranAt ≤ d.ranAt
  after : ∀ c ∈ calls, c.readAt ≤ c.ranAt

/-- By its own clock, the call is counted at most a window after the time it carries. -/
def Prompt (c : Call) : Prop := c.op ≠ .prune → clock c.caller c.ranAt ≤ c.now clock + window

/-- A request of the merchant in the window that begins at `start`. -/
def requestIn (merchantID : Nat) (start : Int) (c : Call) : Bool :=
  c.op = .count merchantID && truncate (c.now clock) window = start

/-- A request of the merchant in the window that was reported as not exceeded. -/
def passedIn (merchantID : Nat) (start : Int) (r : Call × Option (Except Failure Allowance)) : Bool :=
  requestIn window clock merchantID start r.1 &&
    match r.2 with
    | some (.ok a) => !a.exceeded
    | _ => false

/-- The same, reported as exceeded. -/
def exceededIn (merchantID : Nat) (start : Int) (r : Call × Option (Except Failure Allowance)) : Bool :=
  requestIn window clock merchantID start r.1 &&
    match r.2 with
    | some (.ok a) => a.exceeded
    | _ => false

/-- From the moment on, an instance can still count a request in the window with this start. -/
def Writable (moment : Nat) (start : Int) : Prop :=
  ∃ i readAt ranAt, moment ≤ ranAt ∧ readAt ≤ ranAt ∧ clock i ranAt ≤ clock i readAt + window ∧
    column (truncate (clock i readAt) window) = start

end Runs

/-! ## The grid -/

theorem truncate_mono {d : Int} (hd : 0 < d) {s t : Int} (h : s ≤ t) : truncate s d ≤ truncate t d := by
  have hs := Int.emod_add_mul_ediv s d
  have ht := Int.emod_add_mul_ediv t d
  have := Int.mul_le_mul_of_nonneg_left (Int.ediv_le_ediv hd h) (Int.le_of_lt hd)
  unfold truncate
  omega

theorem column_mono {s t : Int} (h : s ≤ t) : column s ≤ column t := Int.ediv_le_ediv (by decide) h

/-! ## The counters -/

section Counters

variable {limit window : Int} {clock : Nat → Nat → Int}

/-- The call adds one to the counter. -/
def storedIn (limit window : Int) (clock : Nat → Nat → Int) (key : Nat × Int) (c : Call) : Bool :=
  match c.op with
  | .count merchantID =>
    0 < limit && 0 < window && (merchantID, column (truncate (c.now clock) window)) = key && c.fate ≠ .failed
  | .prune => false

theorem Writable.earlier {s t : Nat} {start : Int} (h : Writable window clock t start) (hst : s ≤ t) :
    Writable window clock s start := by
  obtain ⟨i, readAt, ranAt, ht, hrest⟩ := h
  exact ⟨i, readAt, ranAt, Nat.le_trans hst ht, hrest⟩

/-- What can still be written when a call runs is not before the call's cutoff. -/
theorem cutoff_le (hclocks : Clocks window clock) (hwindow : 0 < window) {c : Call} (hc : c.readAt ≤ c.ranAt)
    {start : Int}
    (h : Writable window clock c.ranAt start) :
    column (truncate (c.now clock + -2 * window) window) ≤ start := by
  obtain ⟨i, readAt, ranAt, hran, -, hprompt, rfl⟩ := h
  refine column_mono (truncate_mono hwindow ?_)
  have hread := hclocks.monotone c.caller _ _ hc
  have hskew := hclocks.close c.caller i c.ranAt
  have hlater := hclocks.monotone i _ _ hran
  unfold Call.now
  omega

theorem lookup_keepFrom {cutoff : Int} {u : Usage} {key : Nat × Int} (h : cutoff ≤ key.2) :
    (keepFrom cutoff u).lookup key = u.lookup key := by
  refine Option.ext fun n => ?_
  rw [← Option.mem_def, ← Option.mem_def, AList.mem_lookup_iff, AList.mem_lookup_iff, keepFrom, List.mem_filter]
  simp [h]

/-- A call adds to its own counter, and a prune leaves the counters from its cutoff on. -/
theorem lookup_perform (u : Usage) (c : Call) (key : Nat × Int)
    (hkeep : c.op = .prune → 0 < window → column (truncate (c.now clock + -2 * window) window) ≤ key.2) :
    ((perform limit window clock u c).2.lookup key).getD 0 =
      (u.lookup key).getD 0 + if storedIn limit window clock key c then 1 else 0 := by
  cases hop : c.op with
  | prune =>
    simp only [perform, storedIn, hop, pruneMerchantUsage, Bool.false_eq_true, if_false, Nat.add_zero]
    split
    · rfl
    · rename_i hwindow
      have hkeep := hkeep hop (by omega)
      cases c.fate <;> simp only [lookup_keepFrom hkeep]
  | count merchantID =>
    simp only [perform, storedIn, hop, countMerchantRequest]
    by_cases hpos : limit ≤ 0 ∨ window ≤ 0
    · have hstored : ¬ (0 < limit ∧ 0 < window) := by omega
      rw [if_pos hpos]
      simp [hstored]
    · have hstored : 0 < limit ∧ 0 < window := by omega
      rw [if_neg hpos]
      by_cases hkey : (merchantID, column (truncate (c.now clock) window)) = key
      · subst hkey
        cases c.fate <;> simp [hstored]
      · cases c.fate <;> simp [hstored, hkey, AList.lookup_insert_ne (Ne.symm hkey)]

theorem runUsage_snoc (u : Usage) (calls : List Call) (c : Call) :
    runUsage limit window clock u (calls ++ [c]) =
      (perform limit window clock (runUsage limit window clock u calls) c).2 := by
  rw [runUsage, List.foldl_append, List.foldl_cons, List.foldl_nil, runUsage]

theorem reports_snoc (u : Usage) (calls : List Call) (c : Call) :
    reports limit window clock u (calls ++ [c]) =
      reports limit window clock u calls ++ [(c,
        (perform limit window clock (runUsage limit window clock u calls) c).1)] := by
  induction calls generalizing u with
  | nil => rfl
  | cons d rest ih =>
    rw [List.cons_append, reports, ih, reports, List.cons_append]
    rfl

theorem Ordered.of_snoc {calls : List Call} {c : Call} (h : Ordered (calls ++ [c])) : Ordered calls :=
  ⟨(List.pairwise_append.1 h.order).1, fun d hd => h.after d (List.mem_append_left _ hd)⟩

theorem Ordered.le_last {calls : List Call} {c d : Call} (h : Ordered (calls ++ [c])) (hd : d ∈ calls) :
    d.ranAt ≤ c.ranAt :=
  (List.pairwise_append.1 h.order).2.2 d hd c (List.mem_singleton_self c)

/-- A counter that can still be written holds the number of calls stored in it. -/
theorem lookup_run (limit : Int) (hclocks : Clocks window clock) {calls : List Call} (hordered : Ordered calls)
    {t : Nat}
    (ht : ∀ c ∈ calls, c.ranAt ≤ t) (key : Nat × Int) (hkey : Writable window clock t key.2) :
    ((runUsage limit window clock ∅ calls).lookup key).getD 0 = calls.countP (storedIn limit window clock key) := by
  induction calls using List.reverseRecOn generalizing t with
  | nil => rfl
  | append_singleton calls c ih =>
    have hc : c ∈ calls ++ [c] := List.mem_concat_self
    have hwritable := hkey.earlier (ht c hc)
    rw [runUsage_snoc, lookup_perform, List.countP_append, List.countP_singleton,
      ih hordered.of_snoc (fun d hd => hordered.le_last hd) hwritable]
    intro _ hwindow
    exact cutoff_le hclocks hwindow (hordered.after c hc) hwritable

/-- What a counted call reports: its place among the calls stored in its counter. -/
theorem report_used (hclocks : Clocks window clock) {calls : List Call} {c : Call} (hordered : Ordered (calls ++ [c]))
    (hprompt : Prompt window clock c) {merchantID : Nat} {start : Int}
    (hin : requestIn window clock merchantID start c = true) {a : Allowance}
    (ha : (perform limit window clock (runUsage limit window clock ∅ calls) c).1 = some (.ok a)) :
    storedIn limit window clock (merchantID, column start) c = true ∧
      (a.exceeded = true ↔
        limit < (calls.countP (storedIn limit window clock (merchantID, column start)) + 1 : Nat)) := by
  simp only [requestIn, Bool.and_eq_true, decide_eq_true_eq] at hin
  obtain ⟨hop, rfl⟩ := hin
  have hwritable : Writable window clock c.ranAt (column (truncate (c.now clock) window)) :=
    ⟨c.caller, c.readAt, c.ranAt, le_refl _, hordered.after c List.mem_concat_self,
      hprompt (by rw [hop]; exact nofun), rfl⟩
  have hcount := lookup_run limit hclocks hordered.of_snoc (fun d hd => hordered.le_last hd)
    (merchantID, column (truncate (c.now clock) window)) hwritable
  simp only [perform, hop, countMerchantRequest] at ha
  split at ha
  · cases ha
  · rename_i hpos
    have hpos : 0 < limit ∧ 0 < window := by omega
    cases hfate : c.fate with
    | failed | lost => rw [hfate] at ha; cases ha
    | ok =>
      rw [hfate] at ha
      obtain rfl := Except.ok.inj (Option.some.inj ha)
      refine ⟨by simp [storedIn, hop, hpos, hfate], ?_⟩
      simp only [hcount, decide_eq_true_eq]

/-! ## The allowance -/

/-- What the calls of one window have been told, against the calls stored in its counter. -/
theorem passed_le (limit : Int) (hclocks : Clocks window clock) {calls : List Call} (hordered : Ordered calls)
    (hprompt : ∀ c ∈ calls, Prompt window clock c) (merchantID : Nat) (start : Int) :
    (reports limit window clock ∅ calls).countP (passedIn window clock merchantID start) ≤ limit.toNat ∧
      (reports limit window clock ∅ calls).countP (passedIn window clock merchantID start) ≤
        calls.countP (storedIn limit window clock (merchantID, column start)) ∧
      ∀ r ∈ reports limit window clock ∅ calls, exceededIn window clock merchantID start r = true →
        limit < calls.countP (storedIn limit window clock (merchantID, column start)) := by
  induction calls using List.reverseRecOn with
  | nil => exact ⟨Nat.zero_le _, Nat.le_refl _, nofun⟩
  | append_singleton calls c ih =>
    obtain ⟨hlimit, hstored, hover⟩ := ih hordered.of_snoc fun d hd => hprompt d (List.mem_append_left _ hd)
    have hreport := @report_used limit window clock hclocks calls c hordered
      (hprompt c List.mem_concat_self) merchantID start
    rw [reports_snoc, List.countP_append, List.countP_singleton, List.countP_append, List.countP_singleton]
    refine ⟨?_, ?_, ?_⟩
    · split
      · rename_i hpassed
        simp only [passedIn, Bool.and_eq_true] at hpassed
        obtain ⟨hin, hresult⟩ := hpassed
        split at hresult
        · rename_i a ha
          obtain ⟨-, hexceeded⟩ := hreport hin ha
          have := mt hexceeded.2 (by simpa using hresult)
          omega
        · cases hresult
      · omega
    · split
      · rename_i hpassed
        simp only [passedIn, Bool.and_eq_true] at hpassed
        obtain ⟨hin, hresult⟩ := hpassed
        split at hresult
        · rename_i a ha
          rw [if_pos (hreport hin ha).1]
          omega
        · cases hresult
      · omega
    · intro r hr hexceeded
      rcases List.mem_append.1 hr with hr | hr
      · have := hover r hr hexceeded
        omega
      · rw [List.mem_singleton.1 hr] at hexceeded
        simp only [exceededIn, Bool.and_eq_true] at hexceeded
        obtain ⟨hin, hresult⟩ := hexceeded
        split at hresult
        · rename_i a ha
          obtain ⟨hc, hexceeded⟩ := hreport hin ha
          have := hexceeded.1 hresult
          rw [if_pos hc]
          exact this
        · cases hresult

end Counters

/-- For every run of calls of any number of instances, whose clocks differ by at most a window and whose requests are
counted at most a window after the time they carry: in each window at most `limit` requests of a merchant are reported
as not exceeded, a request after `limit` such ones or after one that was exceeded is reported as exceeded, and a prune
leaves every counter that an instance can still add to. -/
theorem fairUse_exact (limit window : Int) (clock : Nat → Nat → Int) (hclocks : Clocks window clock) (calls : List Call)
    (hordered : Ordered calls) (hprompt : ∀ c ∈ calls, Prompt window clock c) :
    (∀ merchantID start,
      (reports limit window clock ∅ calls).countP (passedIn window clock merchantID start) ≤ limit.toNat) ∧
    (∀ merchantID start before c after a, calls = before ++ c :: after →
      requestIn window clock merchantID start c = true →
      (perform limit window clock (runUsage limit window clock ∅ before) c).1 = some (.ok a) →
      (limit ≤ (reports limit window clock ∅ before).countP (passedIn window clock merchantID start) ∨
        ∃ r ∈ reports limit window clock ∅ before, exceededIn window clock merchantID start r = true) →
      a.exceeded = true) ∧
    ∀ before c after key, calls = before ++ c :: after → c.op = .prune → Writable window clock c.ranAt key.2 →
      (runUsage limit window clock ∅ (before ++ [c])).lookup key =
        (runUsage limit window clock ∅ before).lookup key := by
  refine ⟨fun m start => (passed_le limit hclocks hordered hprompt m start).1, ?_, ?_⟩
  · rintro merchantID start before c after a rfl hin ha hspent
    rw [List.append_cons] at hordered hprompt
    have hordered : Ordered (before ++ [c]) :=
      ⟨(List.pairwise_append.1 hordered.order).1, fun d hd => hordered.after d (List.mem_append_left _ hd)⟩
    obtain ⟨-, hstored, hover⟩ := passed_le limit hclocks hordered.of_snoc
      (fun d hd => hprompt d (List.mem_append_left _ (List.mem_append_left _ hd))) merchantID start
    refine (report_used hclocks hordered (hprompt c (by simp)) hin ha).2.2 ?_
    rcases hspent with hspent | ⟨r, hr, hexceeded⟩
    · omega
    · have := hover r hr hexceeded
      omega
  · rintro before c after key rfl hop hwritable
    rw [runUsage_snoc]
    simp only [perform, hop, pruneMerchantUsage]
    split
    · rfl
    · have hcutoff := cutoff_le hclocks (by omega) (hordered.after c (by simp)) hwritable
      cases c.fate <;> simp only [lookup_keepFrom hcutoff]

/-- One instance with a clock that goes up by a second from moment to moment. -/
def seconds : Nat → Nat → Int := fun _ t => 1000000000 * t

theorem seconds_clocks : Clocks 1000000000 seconds :=
  ⟨fun _ s t h => by unfold seconds; omega, fun _ _ t => by unfold seconds; omega⟩

/-- Two requests at once with a limit of one, and a prune three windows later. -/
theorem fairUse_exact_two :
    (reports 1 1000000000 seconds ∅ [⟨0, .count 7, 0, 0, .ok⟩, ⟨1, .count 7, 0, 0, .ok⟩, ⟨0, .prune, 3, 3, .ok⟩]).countP
      (passedIn 1000000000 seconds 7 0) ≤ 1 :=
  (fairUse_exact 1 1000000000 seconds seconds_clocks
    [⟨0, .count 7, 0, 0, .ok⟩, ⟨1, .count 7, 0, 0, .ok⟩, ⟨0, .prune, 3, 3, .ok⟩]
    ⟨by decide, by decide⟩ (by unfold Prompt; decide)).1 7 0

/-- A request that waits for three windows finds its counter pruned and is let through once more. -/
theorem waiting_request_passes :
    Clocks 1000000000 seconds ∧
    Ordered [⟨0, .count 7, 0, 0, .ok⟩, ⟨0, .prune, 3, 3, .ok⟩, ⟨0, .count 7, 0, 3, .ok⟩] ∧
    (reports 1 1000000000 seconds ∅ [⟨0, .count 7, 0, 0, .ok⟩, ⟨0, .prune, 3, 3, .ok⟩, ⟨0, .count 7, 0, 3, .ok⟩]).countP
      (passedIn 1000000000 seconds 7 0) = 2 :=
  ⟨seconds_clocks, ⟨by decide, by decide⟩, by decide +kernel⟩

end Eth402.Store.FairUse
