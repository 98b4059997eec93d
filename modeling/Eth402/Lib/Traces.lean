/-
Where in a run something happened. `Reads` places the clock readings of a caller, `Met` the databases
it could see, `run_log` the commits. `Ends` is `Safe` with a postcondition: it says how a caller
returns, from its own commits and whether it was told of them, and `Traced.run` carries what is
proved of a caller's code by it to every run.
-/
import Eth402.Lib.Transactions

namespace Eth402.Lib.Relational

variable {S : Schema} {V : Service S}

/-! ## Prefixes of runs -/

theorem World.run_append (s : World V) (chs chs' : List (Choice V)) :
    s.run (chs ++ chs') = (s.run chs).bind fun s' => s'.run chs' := List.foldlM_append

theorem World.run_snoc {s s' : World V} {chs : List (Choice V)} {ch : Choice V} (h : s.run (chs ++ [ch]) = some s') :
    ∃ s₀, s.run chs = some s₀ ∧ s₀.step ch = some s' := by
  rw [run_append] at h
  obtain ⟨s₀, h₀, hlast⟩ := Option.bind_eq_some_iff.1 h
  obtain ⟨s₁, h₁, hs⟩ := Option.bind_eq_some_iff.1 hlast
  exact ⟨s₀, h₀, h₁.trans hs⟩

/-- The step of the run that made a commit. -/
theorem World.run_log {s s' : World V} {chs : List (Choice V)} (hrun : s.run chs = some s') (hlog : s.log = [])
    {l₁ l₂ : List (Commit V)} {e : Commit V} (he : s'.log = l₁ ++ e :: l₂) :
    ∃ before ch after s₁, chs = before ++ ch :: after ∧ s.run (before ++ [ch]) = some s₁ ∧ s₁.log = l₁ ++ [e] := by
  induction chs using List.reverseRecOn generalizing s' l₂ with
  | nil =>
    cases hrun
    rw [hlog] at he
    simp at he
  | append_singleton chs ch ih =>
    obtain ⟨s₀, h₀, hs⟩ := run_snoc hrun
    have earlier : ∀ {l₂}, s₀.log = l₁ ++ e :: l₂ → ∃ before ch' after s₁, chs ++ [ch] = before ++ ch' :: after ∧
        s.run (before ++ [ch']) = some s₁ ∧ s₁.log = l₁ ++ [e] := by
      intro l₂ hl
      obtain ⟨before, ch', after, s₁, hsplit, hrest⟩ := ih h₀ hl
      exact ⟨before, ch', after ++ [ch], s₁, by rw [hsplit]; simp, hrest⟩
    rcases step_commits hs with ⟨-, hl⟩ | ⟨p, tx, r, told, -, -, -, -, -, hl⟩
    · exact earlier (hl ▸ he)
    · rcases List.eq_nil_or_concat l₂ with rfl | ⟨l₂', x, rfl⟩
      · exact ⟨chs, ch, [], s', rfl, hrun, he⟩
      · rw [hl, List.concat_eq_append, ← List.cons_append, ← List.append_assoc] at he
        exact earlier (List.append_inj' he rfl).1

/-! ## What a caller learns -/

/-- In a step of the run the caller read the clock, between its transactions, and it read `t`. -/
def Reads (s : World V) (chs : List (Choice V)) (p : Nat) (t : Int) : Prop :=
  ∃ before inp after s₀ k, chs = before ++ .go p inp :: after ∧ s.run before = some s₀ ∧
    s₀.callers.lookup p = some (.idle (.call .now k)) ∧ inp.time = t

/-- A database the run came through while the caller was there. -/
def Met (s : World V) (chs : List (Choice V)) (p : Nat) (db : Db S) : Prop :=
  ∃ before after s₀ x, chs = before ++ after ∧ s.run before = some s₀ ∧ s₀.callers.lookup p = some x ∧ s₀.db = db

/-- Any clock, where a caller knows the times it has read and the databases it has met in this run. -/
def Discipline.tracing (s : World V) (chs : List (Choice V)) : Discipline S :=
  { Discipline.any S with Read := Reads s chs, Shown := Met s chs }

theorem Inv.run_tracing {sp : Spec V} {db₀ : Db S} {chs : List (Choice V)} (hdb : db₀.Sound)
    (hcode : ∀ p e, Safe (.tracing (.init V db₀) chs) sp p (V.code e) fun _ _ => True) :
    ∀ {before after : List (Choice V)} {s : World V}, chs = before ++ after → (World.init V db₀).run before = some s →
      Inv (.tracing (.init V db₀) chs) sp (fun e => sp.post e.caller e.op e.clock e.before e.work) db₀ s := by
  intro before
  induction before using List.reverseRecOn with
  | nil =>
    intro after s _ hs
    cases hs
    exact .init hdb
  | append_singleton before ch ih =>
    intro after s hsplit hs
    rw [List.append_assoc] at hsplit
    obtain ⟨s₀, h₀, hstep⟩ := World.run_snoc hs
    refine (ih hsplit h₀).step hcode hstep ⟨trivial, fun _ _ _ => trivial, fun {p inp k} hch hl => ?_, fun hl => ?_⟩
      fun e _ hp => hp
    · exact ⟨before, inp, after, s₀, k, hch ▸ hsplit, h₀, hl, rfl⟩
    · exact ⟨before, _, s₀, _, hsplit, h₀, hl, rfl⟩

/-! ## How a caller returns -/

section Ends

variable (D : Discipline S) (sp : Spec V) (p : Nat)

/-- From its commits so far, the caller returns as `Q` allows: a transaction may fail before its commit,
and the caller may be told of a failure after it. -/
def Ends (Q : List (Commit V) → V.Reply → Prop) : List (Commit V) → Handler S V.Reply V.Op → Prop
  | past, .pure r => Q past r
  | past, .call .now k => ∀ t, Ends Q past (k t)
  | past, .call .draw k | past, .call .flip k => ∀ x, Ends Q past (k x)
  | past, .call (.transact op body) k => Ends Q past (k V.fault) ∧ ∀ τ c db, db.Sound →
      Sql.Ok D sp.note p c db τ {} body (fun r => Ends Q past (k r)) fun r _ w =>
        sp.post p op c db w ∧ ∀ told, Ends Q (past ++ [⟨p, op, c, db, w, told⟩]) (k (if told then r else V.fault))

variable {D sp p} {Q Q' : List (Commit V) → V.Reply → Prop}

theorem ends_mono (hq : ∀ past r, Q past r → Q' past r) :
    ∀ {h : Handler S V.Reply V.Op} {past : List (Commit V)}, Ends D sp p Q past h → Ends D sp p Q' past h
  | .pure r, past, h => hq past r h
  | .call .now _, _, h => fun t => ends_mono hq (h t)
  | .call .draw _, _, h | .call .flip _, _, h => fun x => ends_mono hq (h x)
  | .call (.transact _ _) _, _, h => ⟨ends_mono hq h.1, fun τ c db hs => Sql.ok_mono (h.2 τ c db hs)
      (fun _ hr => ends_mono hq hr) fun _ _ _ hr => ⟨hr.1, fun told => ends_mono hq (hr.2 told)⟩⟩

theorem ends_bind {f : V.Reply → Handler S V.Reply V.Op} :
    ∀ {h : Handler S V.Reply V.Op} {past : List (Commit V)},
      Ends D sp p (fun past r => Ends D sp p Q past (f r)) past h → Ends D sp p Q past (h.bind f)
  | .pure _, _, h => h
  | .call .now _, _, h => fun t => ends_bind (h t)
  | .call .draw _, _, h | .call .flip _, _, h => fun x => ends_bind (h x)
  | .call (.transact _ _) _, _, h => ⟨ends_bind h.1, fun τ c db hs => Sql.ok_mono (h.2 τ c db hs)
      (fun _ hr => ends_bind hr) fun _ _ _ hr => ⟨hr.1, fun told => ends_bind (hr.2 told)⟩⟩

theorem safe_of_ends : ∀ {h : Handler S V.Reply V.Op} {past : List (Commit V)}, Ends D sp p Q past h →
    Safe D sp p h fun _ _ => True
  | .pure _, _, _ => trivial
  | .call .now _, _, h => fun t _ => (safe_of_ends (h t)).mono fun _ _ _ => trivial
  | .call .draw _, _, h | .call .flip _, _, h => fun x => safe_of_ends (h x)
  -- what the caller knows of its next steps is that they are safe
  | .call (.transact op body) k, past, h => by
    refine ⟨fun e _ _ => Safe D sp p (k (reply e)) fun _ _ => True, fun e => (fun he _ _ => he),
      fun τ c db hs _ _ _ => ?_,
      fun e => .of_known (fun _ _ he => he) fun he => he.mono fun _ _ _ => trivial, safe_of_ends h.1⟩
    exact Sql.ok_mono (h.2 τ c db hs) (fun _ hr => safe_of_ends hr) fun _ _ _ hr => ⟨hr.1, safe_of_ends (hr.2 true)⟩

end Ends

/-! ## Runs -/

/-- What the caller runs or, in a transaction, began to run. -/
def Caller.code : Caller V → Handler S V.Reply V.Op
  | .idle h => h
  | .busy tx => .call (.transact tx.op tx.whole) tx.next

/-- The commits of the caller. -/
def World.by (s : World V) (p : Nat) : List (Commit V) := s.log.filter fun c => c.caller = p

section Traced

variable (D : Discipline S) (sp : Spec V) (Q : Nat → V.Entry → List (Commit V) → V.Reply → Prop)

/-- A caller that has entered has stopped for ever or returns as its entry allows, and it was told of its
commits unless the acknowledgement was lost. -/
structure Traced (chs : List (Choice V)) (s : World V) : Prop where
  started : ∀ p e, .start p e ∈ chs → (s.callers.lookup p).isSome
  committed : ∀ c ∈ s.log, (s.callers.lookup c.caller).isSome
  untold : ∀ c ∈ s.log, c.told = false → .finish c.caller .lost ∈ chs
  callers : ∀ p e x, .start p e ∈ chs → s.callers.lookup p = some x →
    x = .idle (.pure V.fault) ∨ Ends D sp p (Q p e) (s.by p) x.code

variable {D sp Q} {Y : Commit V → Prop} {db₀ : Db S} {chs : List (Choice V)} {s s' : World V} {ch : Choice V} {p : Nat}
  {x : Caller V}

theorem Traced.moved (h : Traced D sp Q chs s) (hcs : s'.callers = s.callers.insert p x)
    (hch : ∀ q e, ch = .start q e → q = p) {more : List (Commit V)} (hlog : s'.log = s.log ++ more)
    (hmore : ∀ c ∈ more, c.caller = p ∧ (c.told = false → ch = .finish p .lost))
    (hx : ∀ e, .start p e ∈ chs ++ [ch] → x = .idle (.pure V.fault) ∨ Ends D sp p (Q p e) (s'.by p) x.code) :
    Traced D sp Q (chs ++ [ch]) s' := by
  have hthere : ∀ {q}, (s.callers.lookup q).isSome ∨ q = p → (s'.callers.lookup q).isSome := by
    intro q hq
    rw [hcs]
    by_cases he : q = p
    · rw [he, AList.lookup_insert]
      rfl
    · rw [AList.lookup_insert_ne he]
      exact hq.resolve_right he
  have hstart : ∀ {q e}, .start q e ∈ chs ++ [ch] → .start q e ∈ chs ∨ q = p := by
    intro q e he
    rcases List.mem_append.1 he with he | he
    · exact .inl he
    · exact .inr (hch q e (List.mem_singleton.1 he).symm)
  refine ⟨fun q e he => hthere ((hstart he).imp_left (h.started q e)), fun c hc => hthere ?_, fun c hc ht => ?_,
    fun q e y he hq => ?_⟩
  · rw [hlog] at hc
    exact (List.mem_append.1 hc).imp (h.committed c) fun hc => (hmore c hc).1
  · rw [hlog] at hc
    rcases List.mem_append.1 hc with hc | hc
    · exact List.mem_append_left _ (h.untold c hc ht)
    · exact List.mem_append_right _ (List.mem_singleton.2 ((hmore c hc).1 ▸ ((hmore c hc).2 ht).symm))
  · rw [hcs] at hq
    by_cases hqp : q = p
    · subst hqp
      rw [AList.lookup_insert] at hq
      exact Option.some.inj hq ▸ hx e he
    · rw [AList.lookup_insert_ne hqp] at hq
      have hnone : more.filter (fun c => c.caller = q) = [] :=
        List.filter_eq_nil_iff.2 fun c hc => by simpa [(hmore c hc).1] using Ne.symm hqp
      rw [World.by, hlog, List.filter_append, hnone, List.append_nil]
      exact h.callers q e y ((hstart he).resolve_right hqp) hq

theorem Traced.goes (h : Traced D sp Q chs s) (hl : s.callers.lookup p = some x) {y : Caller V}
    (hcs : s'.callers = s.callers.insert p y) (hch : ∀ q e, ch ≠ .start q e) {more : List (Commit V)}
    (hlog : s'.log = s.log ++ more) (hmore : ∀ c ∈ more, c.caller = p ∧ (c.told = false → ch = .finish p .lost))
    (hx : x ≠ .idle (.pure V.fault)) (hy : ∀ e, Ends D sp p (Q p e) (s.by p) x.code →
      Ends D sp p (Q p e) (s.by p ++ more) y.code) : Traced D sp Q (chs ++ [ch]) s' := by
  refine h.moved hcs (fun q e he => absurd he (hch q e)) hlog hmore fun e he => .inr ?_
  have hby : s'.by p = s.by p ++ more := by
    have hall : more.filter (fun c => c.caller = p) = more :=
      List.filter_eq_self.2 fun c hc => decide_eq_true (hmore c hc).1
    rw [World.by, hlog, List.filter_append, hall]
    rfl
  rw [hby]
  refine hy e ((h.callers p e x ?_ hl).resolve_left hx)
  exact (List.mem_append.1 he).resolve_right fun he => hch p e (List.mem_singleton.1 he).symm

theorem Traced.quiet (h : Traced D sp Q chs s) (hl : s.callers.lookup p = some x) {y : Caller V}
    (hcs : s'.callers = s.callers.insert p y) (hch : ∀ q e, ch ≠ .start q e) (hlog : s'.log = s.log)
    (hx : x ≠ .idle (.pure V.fault)) (hy : ∀ e past, Ends D sp p (Q p e) past x.code →
    Ends D sp p (Q p e) past y.code) :
    Traced D sp Q (chs ++ [ch]) s' :=
  h.goes hl hcs hch (hlog.trans (List.append_nil _).symm) nofun hx fun e he => (List.append_nil _).symm ▸ hy e _ he

theorem Traced.step (h : Traced D sp Q chs s) (hi : Inv D sp Y db₀ s)
    (hcode : ∀ p e, Ends D sp p (Q p e) [] (V.code e)) (hs : s.step ch = some s') :
    Traced D sp Q (chs ++ [ch]) s' := by
  cases step_of_step hs with
  | @start p e hl =>
    refine h.moved rfl (fun q e' hch => by cases hch; rfl) (List.append_nil _).symm nofun fun e' he' => .inr ?_
    have hnone : (s.callers.lookup p).isSome = false := by rw [hl]; rfl
    have hby : s.by p = [] := by
      refine List.filter_eq_nil_iff.2 fun c hc hp => ?_
      have := h.committed c hc
      rw [of_decide_eq_true hp, hnone] at this
      cases this
    rcases List.mem_append.1 he' with he' | he'
    · exact absurd (h.started p e' he') (Bool.eq_false_iff.1 hnone)
    · cases List.mem_singleton.1 he'
      exact hby ▸ hcode p e
  | @now p inp k hl => exact h.quiet hl rfl nofun rfl nofun fun e past he => he inp.time
  | @draw p inp k hl => exact h.quiet hl rfl nofun rfl nofun fun e past he => he inp.text
  | @flip p inp k hl => exact h.quiet hl rfl nofun rfl nofun fun e past he => he inp.bit
  | @begin p inp op body k hl | @statement p inp op whole st k w next a w' hl hex =>
    exact h.quiet hl rfl nofun rfl nofun fun e past he => he
  | @commit p tx r told hl hr =>
    refine h.goes hl rfl nofun rfl (fun c hc => ?_) nofun fun e he => ?_
    · obtain rfl := List.mem_singleton.1 hc
      exact ⟨rfl, fun ht => by rw [show told = false from ht]; rfl⟩
    · obtain ⟨K, K', τ₀, τ, -, -, -, -, -, hreach, -, -, -⟩ := hi.callers hl
      rw [hr] at hreach
      exact (hreach.sat (he.2 τ₀ s.clock s.db hi.sound)).1.2 told
  | @rollback p ch tx r hch hl hr =>
    have hstart : ∀ q e, ch ≠ .start q e := by
      rintro q e rfl
      rcases hch with hch | ⟨fate, hch⟩ <;> cases hch
    refine h.quiet hl rfl hstart rfl nofun fun e past he => ?_
    rcases hr with hr | rfl
    · obtain ⟨K, K', τ₀, τ, -, -, -, -, -, hreach, -, -, -⟩ := hi.callers hl
      rw [hr] at hreach
      exact (hreach.sat (he.2 τ₀ s.clock s.db hi.sound)).1
    · exact he.1
  | @crash p x hl =>
    exact h.moved rfl nofun (List.append_nil _).symm nofun fun e he => .inl rfl

/-- What is proved of the code of every entry, over the databases of the run, holds of every caller. -/
theorem Traced.run (hdb : db₀.Sound) (hrun : (World.init V db₀).run chs = some s)
    (hcode : ∀ p e, Ends (.tracing (.init V db₀) chs) sp p (Q p e) [] (V.code e)) :
    Traced (.tracing (.init V db₀) chs) sp Q chs s := by
  have hall : ∀ (before after : List (Choice V)) (s₀ : World V), chs = before ++ after →
      (World.init V db₀).run before = some s₀ → Traced (.tracing (.init V db₀) chs) sp Q before s₀ := by
    intro before
    induction before using List.reverseRecOn with
    | nil =>
      intro after s₀ _ hs
      cases hs
      exact ⟨nofun, nofun, nofun, nofun⟩
    | append_singleton before ch ih =>
      intro after s₀ hsplit hs
      rw [List.append_assoc] at hsplit
      obtain ⟨s₁, h₁, hstep⟩ := World.run_snoc hs
      exact (ih _ s₁ hsplit h₁).step (Inv.run_tracing hdb (fun p e => safe_of_ends (hcode p e)) hsplit h₁) hcode hstep
  exact hall chs [] s (List.append_nil _).symm hrun

end Traced

end Eth402.Lib.Relational
