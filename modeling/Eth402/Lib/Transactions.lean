/-
Any number of callers over one database, each running transactions one after the other, interleaved
statement by statement. A transaction may be rolled back at any statement, its commit may fail or
be acknowledged as failed, and a caller may stop for ever at any point. Each transaction is proved
once, by `Sql.Ok` against the database it commits to, and each caller by `Safe`, which adds what it
knows between its transactions; `Inv.run` then gives, for every run, the list of what was committed
with what each commit was proved to do (`History`).
-/
import Eth402.Lib.Sql

namespace Eth402.Lib.Relational

variable {S : Schema}

/-! ## Callers -/

/-- What a caller does outside its transactions, and a whole transaction. -/
inductive Act (S : Schema) (ρ Op : Type)
  | now | draw | flip
  | transact (op : Op) (body : Stmts S (Except ρ ρ))

@[reducible] def Act.Answer {ρ Op : Type} : Act S ρ Op → Type
  | .now => Int
  | .draw => String
  | .flip => Bool
  | .transact _ _ => ρ

abbrev Handler (S : Schema) (ρ Op : Type) := Prog (Act S ρ Op) Act.Answer ρ

/-- What the callers run. `fault` is the reply when a transaction fails for a reason of its own. -/
structure Service (S : Schema) where
  Reply : Type
  Op : Type
  Entry : Type
  code : Entry → Handler S Reply Op
  fault : Reply

variable {V : Service S}

/-- An open transaction: the body, what is left of it, and what follows the reply. -/
structure Tx (V : Service S) where
  op : V.Op
  whole : Stmts S (Except V.Reply V.Reply)
  rest : Stmts S (Except V.Reply V.Reply)
  work : Work S
  next : V.Reply → Handler S V.Reply V.Op

inductive Caller (V : Service S)
  | idle (h : Handler S V.Reply V.Op)
  | busy (tx : Tx V)

/-- A commit: by whom, of what, when, to which database. -/
structure Commit (V : Service S) where
  caller : Nat
  op : V.Op
  clock : Int
  before : Db S
  work : Work S
  /-- Whether the caller learned of it. -/
  told : Bool

def Commit.after (e : Commit V) : Db S := e.before.puts e.work.puts

structure World (V : Service S) where
  db : Db S
  clock : Int
  minted : Nat
  callers : AList fun _ : Nat => Caller V
  log : List (Commit V)

/-- A world no caller has entered. -/
def World.init (V : Service S) (db : Db S) : World V := ⟨db, 0, 0, ∅, []⟩

/-- What becomes of a commit: it is made and acknowledged, it is not made, or it is made and its
acknowledgement is lost. -/
inductive Fate
  | made | failed | lost

inductive Choice (V : Service S)
  | start (p : Nat) (e : V.Entry)
  | go (p : Nat) (inp : Input)
  | finish (p : Nat) (fate : Fate)
  | abort (p : Nat)
  | crash (p : Nat)

def Choice.caller : Choice V → Nat
  | .start p _ | .go p _ | .finish p _ | .abort p | .crash p => p

namespace World

/-- Another caller holds the row in a conflicting mode. -/
def locked (s : World V) (p : Nat) (k : S.Table × Nat) (m : Mode) : Bool :=
  s.callers.entries.any fun e => decide (e.1 ≠ p) &&
    match e.2 with
    | .busy tx => tx.work.locks.rows.any fun x => decide (x.1 = k) && x.2.conflicts m
    | .idle _ => false

/-- Another caller is about to commit a row with the index entry. -/
def taken (s : World V) (p : Nat) (x : S.Table × S.Slot) : Bool :=
  s.callers.entries.any fun e => decide (e.1 ≠ p) &&
    match e.2 with
    | .busy tx => tx.work.locks.slots.contains x
    | .idle _ => false

/-- The caller goes on outside a transaction. -/
def goOn (s : World V) (p : Nat) (h : Handler S V.Reply V.Op) : World V :=
  { s with callers := s.callers.insert p (.idle h) }

/-- The transaction's rows become everyone's. -/
def commit (s : World V) (p : Nat) (tx : Tx V) (told : Bool) : World V :=
  { s with
    db := s.db.puts tx.work.puts
    log := s.log ++ [⟨p, tx.op, s.clock, s.db, tx.work, told⟩] }

/-- One step: `none` if the caller has to wait or there is nothing of the kind to do. -/
def step (s : World V) : Choice V → Option (World V)
  | .start p e => if (s.callers.lookup p).isNone then some (s.goOn p (V.code e)) else none
  | .go p inp =>
    match s.callers.lookup p with
    | some (.idle (.call .now k)) => some ({ s with clock := inp.time }.goOn p (k inp.time))
    | some (.idle (.call .draw k)) => some (s.goOn p (k inp.text))
    | some (.idle (.call .flip k)) => some (s.goOn p (k inp.bit))
    | some (.idle (.call (.transact op body) k)) =>
      some { s with callers := s.callers.insert p (.busy ⟨op, body, body, {}, k⟩) }
    | some (.busy ⟨op, whole, .call st k, w, next⟩) =>
      (st.exec (s.locked p) (s.taken p) p s.minted inp s.db w).map fun r =>
        { s with
          clock := st.clock s.clock inp
          minted := s.minted + 1
          callers := s.callers.insert p (.busy ⟨op, whole, k r.1, r.2, next⟩) }
    | _ => none
  | .finish p fate =>
    match s.callers.lookup p with
    | some (.busy ⟨op, whole, .pure (.ok r), w, next⟩) =>
      match fate with
      | .made => some ((s.commit p ⟨op, whole, .pure (.ok r), w, next⟩ true).goOn p (next r))
      | .failed => some (s.goOn p (next V.fault))
      | .lost => some ((s.commit p ⟨op, whole, .pure (.ok r), w, next⟩ false).goOn p (next V.fault))
    | some (.busy ⟨_, _, .pure (.error r), _, next⟩) => some (s.goOn p (next r))
    | _ => none
  | .abort p =>
    match s.callers.lookup p with
    | some (.busy tx) => some (s.goOn p (tx.next V.fault))
    | _ => none
  | .crash p => if (s.callers.lookup p).isSome then some (s.goOn p (.pure V.fault)) else none

def run (s : World V) (chs : List (Choice V)) : Option (World V) := chs.foldlM step s

end World

/-- What a step can be. -/
inductive Step (s : World V) : Choice V → World V → Prop
  | start {p e} : s.callers.lookup p = none → Step s (.start p e) (s.goOn p (V.code e))
  | now {p inp k} : s.callers.lookup p = some (.idle (.call .now k)) →
      Step s (.go p inp) ({ s with clock := inp.time }.goOn p (k inp.time))
  | draw {p inp k} : s.callers.lookup p = some (.idle (.call .draw k)) →
      Step s (.go p inp) (s.goOn p (k inp.text))
  | flip {p inp k} : s.callers.lookup p = some (.idle (.call .flip k)) →
      Step s (.go p inp) (s.goOn p (k inp.bit))
  | begin {p inp op body k} : s.callers.lookup p = some (.idle (.call (.transact op body) k)) →
      Step s (.go p inp) { s with callers := s.callers.insert p (.busy ⟨op, body, body, {}, k⟩) }
  | statement {p inp op whole st k w next a w'} :
      s.callers.lookup p = some (.busy ⟨op, whole, .call st k, w, next⟩) →
      st.exec (s.locked p) (s.taken p) p s.minted inp s.db w = some (a, w') →
      Step s (.go p inp)
        { s with
          clock := st.clock s.clock inp
          minted := s.minted + 1
          callers := s.callers.insert p (.busy ⟨op, whole, k a, w', next⟩) }
  | commit {p tx r} (told : Bool) : s.callers.lookup p = some (.busy tx) → tx.rest = .pure (.ok r) →
      Step s (.finish p (if told then .made else .lost))
        ((s.commit p tx told).goOn p (tx.next (if told then r else V.fault)))
  | rollback {p ch tx r} : ch = .abort p ∨ (∃ fate, ch = .finish p fate) → s.callers.lookup p = some (.busy tx) →
      tx.rest = .pure (.error r) ∨ r = V.fault → Step s ch (s.goOn p (tx.next r))
  | crash {p x} : s.callers.lookup p = some x → Step s (.crash p) (s.goOn p (.pure V.fault))

theorem step_of_step {s s' : World V} {ch : Choice V} (h : s.step ch = some s') : Step s ch s' := by
  match ch, h with
  | .start p e, h =>
    simp only [World.step] at h
    split at h
    · rename_i hn
      cases h
      exact .start (Option.isNone_iff_eq_none.1 hn)
    · cases h
  | .go p inp, h =>
    simp only [World.step] at h
    split at h
    · cases h; exact .now ‹_›
    · cases h; exact .draw ‹_›
    · cases h; exact .flip ‹_›
    · cases h; exact .begin ‹_›
    · obtain ⟨⟨a, w'⟩, hex, rfl⟩ := Option.map_eq_some_iff.1 h
      exact .statement ‹_› hex
    · cases h
  | .finish p fate, h =>
    simp only [World.step] at h
    split at h
    · rename_i hl
      split at h
      · cases h; exact .commit true hl rfl
      · cases h; exact .rollback (.inr ⟨_, rfl⟩) hl (.inr rfl)
      · cases h; exact .commit false hl rfl
    · rename_i hl
      cases h
      exact .rollback (.inr ⟨_, rfl⟩) hl (.inl rfl)
    · cases h
  | .abort p, h =>
    simp only [World.step] at h
    split at h
    · rename_i hl
      cases h
      exact .rollback (.inl rfl) hl (.inr rfl)
    · cases h
  | .crash p, h =>
    simp only [World.step] at h
    split at h
    · rename_i hl
      obtain ⟨x, hx⟩ := Option.isSome_iff_exists.1 hl
      cases h
      exact .crash hx
    · cases h

theorem step_commits {s s' : World V} {ch : Choice V} (h : s.step ch = some s') :
    s'.db = s.db ∧ s'.log = s.log ∨ ∃ p tx r told, ch.caller = p ∧ s.callers.lookup p = some (.busy tx) ∧
      tx.rest = .pure (.ok r) ∧ s'.clock = s.clock ∧ s'.db = s.db.puts tx.work.puts ∧
      s'.log = s.log ++ [⟨p, tx.op, s.clock, s.db, tx.work, told⟩] := by
  cases step_of_step h with
  | @commit p tx r told hl hr => exact .inr ⟨p, tx, r, told, rfl, hl, hr, rfl, rfl, rfl⟩
  | _ => exact .inl ⟨rfl, rfl⟩

variable {p : Nat} {tx : Tx V}

theorem World.locked_eq_false {s : World V} {q : Nat} {k : S.Table × Nat} {m m' : Mode}
    (h : s.locked p k m = false) (hq : q ≠ p) (hl : s.callers.lookup q = some (.busy tx))
    (hk : (k, m') ∈ tx.work.locks.rows) : m'.conflicts m = false := by
  have hmem : ⟨q, .busy tx⟩ ∈ s.callers.entries := AList.mem_lookup_iff.1 hl
  have hall := List.any_eq_false.1 h _ hmem
  by_contra hne
  exact hall (by simpa [hq] using ⟨k.1, k.2, m', hk, rfl, by simpa using hne⟩)

theorem World.taken_eq_false {s : World V} {q : Nat} {x : S.Table × S.Slot}
    (h : s.taken p x = false) (hq : q ≠ p) (hl : s.callers.lookup q = some (.busy tx)) :
    x ∉ tx.work.locks.slots := by
  have hmem : ⟨q, .busy tx⟩ ∈ s.callers.entries := AList.mem_lookup_iff.1 hl
  have hall := List.any_eq_false.1 h _ hmem
  intro hx
  exact hall (by simpa [hq] using hx)

/-! ## Specifications -/

/-- What the points and the commits of a service stand for. -/
structure Spec (V : Service S) where
  note : S.Note → Int → Db S → Prop
  post : Nat → V.Op → Int → Db S → Work S → Prop

section Safe

variable (D : Discipline S) (sp : Spec V)

/-- Knowledge that nobody can take away. -/
def Stable (K : Int → Db S → Prop) : Prop :=
  ∀ {c db c' db'}, K c db → D.Later c c' → db.Moves db' → K c' db'

/-- The body, run by a caller that knows `K`, commits only what `post` says and returns knowing
`K'`. -/
def Meets (p : Nat) (op : V.Op) (K : Int → Db S → Prop) (K' : Except V.Reply V.Reply → Int → Db S → Prop)
    (body : Stmts S (Except V.Reply V.Reply)) : Prop :=
  ∀ τ c db, db.Sound → D.Later τ c → K τ db → K c db →
    Sql.Ok D sp.note p c db τ {} body (fun r => K' (.error r) c db) fun r _ w =>
      sp.post p op c db w ∧ K' (.ok r) c (db.puts w.puts)

/-- The reply that follows a commit or a rollback. -/
def reply {ρ : Type} : Except ρ ρ → ρ
  | .ok r => r
  | .error r => r

/-- Every transaction of the handler of caller `p` meets its specification, given what the caller
knows when it begins. -/
def Safe (p : Nat) : Handler S V.Reply V.Op → (Int → Db S → Prop) → Prop
  | .pure _, _ => True
  | .call .now k, K => ∀ t, D.Read p t → Safe p (k t) fun c db => K c db ∧ D.Later t c
  | .call .draw k, K | .call .flip k, K => ∀ x, Safe p (k x) K
  | .call (.transact op body) k, K => ∃ K' : Except V.Reply V.Reply → Int → Db S → Prop,
      (∀ e, Stable D (K' e)) ∧ Meets D sp p op K K' body ∧ (∀ e, Safe p (k (reply e)) (K' e)) ∧
      Safe p (k V.fault) K

variable {D sp}

/-- A caller that knows more is as safe. -/
theorem Safe.mono {K K₁ : Int → Db S → Prop} (hk : ∀ c db, K₁ c db → K c db) :
    ∀ {h : Handler S V.Reply V.Op}, Safe D sp p h K → Safe D sp p h K₁
  | .pure _, _ => trivial
  | .call .now _, h => fun t ht => Safe.mono (fun c db h' => ⟨hk c db h'.1, h'.2⟩) (h t ht)
  | .call .draw _, h | .call .flip _, h => fun x => Safe.mono hk (h x)
  | .call (.transact _ _) _, ⟨K', hK', hmeets, hnext, hfault⟩ =>
    ⟨K', hK', fun τ c db hs hτ h₁ h₂ => hmeets τ c db hs hτ (hk _ _ h₁) (hk _ _ h₂), hnext, Safe.mono hk hfault⟩

/-- A caller that knows what is false is safe. -/
theorem Safe.absurd {K : Int → Db S → Prop} (hk : ∀ c db, ¬ K c db) :
    ∀ (h : Handler S V.Reply V.Op), Safe D sp p h K
  | .pure _ => trivial
  | .call .now k => fun t _ => Safe.absurd (fun c db h => hk c db h.1) (k t)
  | .call .draw k | .call .flip k => fun x => Safe.absurd hk (k x)
  | .call (.transact _ _) k =>
    ⟨fun _ _ _ => False, fun _ => (fun h _ _ => h), fun τ _ db _ _ h _ => (hk τ db h).elim,
      fun e => Safe.absurd (fun _ _ h => h) (k (reply e)), Safe.absurd hk (k V.fault)⟩

/-- What a caller knows that does not depend on the database may be used at once. -/
theorem Safe.of_known {K : Int → Db S → Prop} {P : Prop} {h : Handler S V.Reply V.Op}
    (hp : ∀ c db, K c db → P) (hs : P → Safe D sp p h K) : Safe D sp p h K := by
  by_cases hP : P
  · exact hs hP
  · exact Safe.absurd (fun c db hk => hP (hp c db hk)) h

end Safe

/-! ## Histories -/

/-- The commits of a run from `db₀`, each of them allowed by `Y`. -/
inductive History (Y : Commit V → Prop) (db₀ : Db S) : List (Commit V) → Db S → Prop
  | nil : History Y db₀ [] db₀
  | snoc {l} (e : Commit V) : History Y db₀ l e.before → e.before.Sound → e.before.Moves e.after → Y e →
      History Y db₀ (l ++ [e]) e.after

namespace History

variable {Y : Commit V → Prop} {db₀ db : Db S} {log : List (Commit V)}

/-- What every allowed commit keeps holds at the end. -/
theorem inv (h : History Y db₀ log db) (I : List (Commit V) → Db S → Prop) (h₀ : I [] db₀)
    (hstep : ∀ l e, e.before.Sound → e.before.Moves e.after → Y e → I l e.before → I (l ++ [e]) e.after) :
    I log db := by
  induction h with
  | nil => exact h₀
  | snoc e _ hs hm hy ih => exact hstep _ e hs hm hy ih

/-- Every commit is allowed, and the rows it left are there at the end. -/
theorem mem (h : History Y db₀ log db) {e : Commit V} (he : e ∈ log) :
    Y e ∧ e.before.Sound ∧ e.before.Moves e.after ∧ e.after.Moves db := by
  induction h with
  | nil => cases he
  | snoc e' _ hs hm hy ih =>
    rcases List.mem_append.1 he with he | he
    · obtain ⟨h₁, h₂, h₃, h₄⟩ := ih he
      exact ⟨h₁, h₂, h₃, h₄.trans hm⟩
    · obtain rfl := List.mem_singleton.1 he
      exact ⟨hy, hs, hm, .refl _⟩

/-- The rows a commit left are there when a later one is made. -/
theorem pairwise (h : History Y db₀ log db) : log.Pairwise fun e e' => e.after.Moves e'.before := by
  induction h with
  | nil => exact .nil
  | snoc e' h' _ _ _ ih =>
    refine List.pairwise_append.2 ⟨ih, List.pairwise_singleton _ _, fun e he e'' he' => ?_⟩
    obtain rfl := List.mem_singleton.1 he'
    exact (h'.mem he).2.2.2

/-- The history up to a commit, and the commit. -/
theorem split (h : History Y db₀ log db) : ∀ {l₁ l₂ : List (Commit V)} {e : Commit V}, log = l₁ ++ e :: l₂ →
    History Y db₀ l₁ e.before ∧ Y e ∧ e.before.Sound := by
  induction h with
  | nil => intro l₁ l₂ e h; simp at h
  | snoc e' h' hs _ hy ih =>
    intro l₁ l₂ e he
    rcases List.eq_nil_or_concat l₂ with rfl | ⟨l₂', x, rfl⟩
    · obtain ⟨hl, hx⟩ := List.append_inj' he rfl
      subst hl
      cases hx
      exact ⟨h', hy, hs⟩
    · rw [List.concat_eq_append, ← List.cons_append, ← List.append_assoc] at he
      obtain ⟨rfl, -⟩ := List.append_inj' he rfl
      exact ih rfl

/-- What a commit establishes and the later ones keep holds at the end. -/
theorem since (h : History Y db₀ log db) (I : Db S → Prop) : ∀ {l₁ l₂ : List (Commit V)} {e : Commit V},
    log = l₁ ++ e :: l₂ → I e.after →
    (∀ e' ∈ l₂, e'.before.Sound → e'.before.Moves e'.after → Y e' → I e'.before → I e'.after) → I db := by
  induction h with
  | nil => intro l₁ l₂ e h; simp at h
  | snoc e' h' hs hm hy ih =>
    intro l₁ l₂ e he hi hkeep
    rcases List.eq_nil_or_concat l₂ with rfl | ⟨l₂', x, rfl⟩
    · obtain ⟨hl, hx⟩ := List.append_inj' he rfl
      subst hl
      cases hx
      exact hi
    · rw [List.concat_eq_append, ← List.cons_append, ← List.append_assoc] at he
      obtain ⟨hl, hx⟩ := List.append_inj' he rfl
      subst hl
      cases hx
      refine hkeep e' (by simp) hs hm hy (ih rfl hi fun x hx => hkeep x ?_)
      rw [List.concat_eq_append]
      exact List.mem_append_left _ hx

end History

/-! ## The invariant of runs -/

variable {x : Caller V}

section Inv

variable (D : Discipline S) (sp : Spec V) (Y : Commit V → Prop) (db₀ : Db S)

/-- What holds of a caller between two steps. -/
def Good (p : Nat) (c : Int) (db : Db S) : Caller V → Prop
  | .idle h => ∃ K, Stable D K ∧ K c db ∧ Safe D sp p h K
  | .busy tx => ∃ K K', ∃ τ₀ τ : Int, Stable D K ∧ (∀ e, Stable D (K' e)) ∧ K τ₀ db ∧ D.Later τ₀ c ∧
      D.Later τ c ∧ Reached D p tx.whole τ₀ c db τ tx.work tx.rest ∧ Meets D sp p tx.op K K' tx.whole ∧
      (∀ e, Safe D sp p (tx.next (reply e)) (K' e)) ∧ Safe D sp p (tx.next V.fault) K

structure Inv (s : World V) : Prop where
  sound : s.db.Sound
  apart : ∀ {p q tx tx'}, p ≠ q → s.callers.lookup p = some (.busy tx) →
    s.callers.lookup q = some (.busy tx') → tx.work.locks.Apart tx'.work.locks
  callers : ∀ {p x}, s.callers.lookup p = some x → Good D sp p s.clock s.db x
  history : History Y db₀ s.log s.db
  clocks : ∀ e ∈ s.log, D.Later e.clock s.clock

variable {D sp Y db₀} {s s' : World V} {ch : Choice V}

/-- A caller keeps what it has and knows while others commit. -/
theorem Good.rely {c c' : Int} {db db' : Db S} (h : Good D sp p c db x) (hc : D.Later c c') (hm : db.Moves db')
    (hr : ∀ tx, x = .busy tx → Rely D tx.work.locks c db c' db') : Good D sp p c' db' x := by
  cases x with
  | idle h' =>
    obtain ⟨K, hK, hk, hs⟩ := h
    exact ⟨K, hK, hK hk hc hm, hs⟩
  | busy tx =>
    obtain ⟨K, K', τ₀, τ, hK, hK', hk, h₀, hτ, hreach, hmeets, hs, hf⟩ := h
    exact ⟨K, K', τ₀, τ, hK, hK', hK hk (D.later_refl τ₀) hm, D.later_trans h₀ hc, D.later_trans hτ hc,
      hreach.rely (hr tx rfl), hmeets, hs, hf⟩

/-- One caller moves to `x`; the others see what they may rely on. -/
theorem Inv.moved (h : Inv D sp Y db₀ s) (hcs : s'.callers = s.callers.insert p x)
    (hsound : s'.db.Sound) (hc : D.Later s.clock s'.clock) (hm : s.db.Moves s'.db)
    (hr : ∀ q tx, q ≠ p → s.callers.lookup q = some (.busy tx) →
      Rely D tx.work.locks s.clock s.db s'.clock s'.db)
    (hx : Good D sp p s'.clock s'.db x)
    (hap : ∀ q tx tx', q ≠ p → x = .busy tx → s.callers.lookup q = some (.busy tx') →
      tx.work.locks.Apart tx'.work.locks)
    (hh : History Y db₀ s'.log s'.db) (hcl : ∀ e ∈ s'.log, D.Later e.clock s'.clock) : Inv D sp Y db₀ s' where
  sound := hsound
  clocks := hcl
  apart {q q' tx tx'} hne hq hq' := by
    rw [hcs] at hq hq'
    by_cases e : q = p
    · subst e
      rw [AList.lookup_insert] at hq
      rw [AList.lookup_insert_ne (Ne.symm hne)] at hq'
      exact hap q' tx tx' (Ne.symm hne) (Option.some.inj hq) hq'
    · rw [AList.lookup_insert_ne e] at hq
      by_cases e' : q' = p
      · subst e'
        rw [AList.lookup_insert] at hq'
        exact (hap q tx' tx e (Option.some.inj hq') hq).symm
      · rw [AList.lookup_insert_ne e'] at hq'
        exact h.apart hne hq hq'
  callers {q y} hq := by
    rw [hcs] at hq
    by_cases e : q = p
    · subst e
      rw [AList.lookup_insert] at hq
      exact Option.some.inj hq ▸ hx
    · rw [AList.lookup_insert_ne e] at hq
      exact (h.callers hq).rely hc hm fun tx he => hr q tx e (he ▸ hq)
  history := hh

/-- A caller moves and nothing else does. -/
theorem Inv.alone (h : Inv D sp Y db₀ s) (hx : Good D sp p s.clock s.db x)
    (hap : ∀ q tx tx', q ≠ p → x = .busy tx → s.callers.lookup q = some (.busy tx') →
      tx.work.locks.Apart tx'.work.locks) :
    Inv D sp Y db₀ { s with callers := s.callers.insert p x } :=
  h.moved rfl h.sound (D.later_refl _) (.refl _) (fun _ _ _ _ => .refl ..) hx hap h.history h.clocks

theorem Inv.goOn (h : Inv D sp Y db₀ s) {k : Handler S V.Reply V.Op} {K : Int → Db S → Prop}
    (hK : Stable D K) (hk : K s.clock s.db) (hs : Safe D sp p k K) : Inv D sp Y db₀ (s.goOn p k) :=
  h.alone ⟨K, hK, hk, hs⟩ fun _ _ _ _ he => by cases he

theorem Inv.tick (h : Inv D sp Y db₀ s) {t : Int} (ht : D.Later s.clock t) (hx : Good D sp p t s.db x)
    (hap : ∀ q tx tx', q ≠ p → x = .busy tx → s.callers.lookup q = some (.busy tx') →
      tx.work.locks.Apart tx'.work.locks) {n : Nat} :
    Inv D sp Y db₀ { s with clock := t, minted := n, callers := s.callers.insert p x } :=
  h.moved rfl h.sound ht (.refl _) (fun _ tx _ _ => .tick tx.work.locks s.db ht) hx hap h.history
    fun e he => D.later_trans (h.clocks e he) ht

/-- A transaction that has come to its end commits what it was proved to commit. -/
theorem Inv.post (h : Inv D sp Y db₀ s) {r : V.Reply}
    (hl : s.callers.lookup p = some (.busy tx)) (hr : tx.rest = .pure (.ok r)) :
    sp.post p tx.op s.clock s.db tx.work := by
  obtain ⟨K, K', τ₀, τ, hK, -, hk, h₀, hτ, hreach, hmeets, -, -⟩ := h.callers hl
  have hsat := hmeets τ₀ s.clock s.db h.sound h₀ hk (hK hk h₀ (.refl _))
  rw [hr] at hreach
  exact ((hreach.sat hsat).1).1

theorem Inv.effect (h : Inv D sp Y db₀ s) (hl : s.callers.lookup p = some (.busy tx)) :
    Effect tx.work.locks s.db (s.db.puts tx.work.puts) := by
  obtain ⟨K, K', τ₀, τ, -, -, -, -, -, hreach, -, -, -⟩ := h.callers hl
  exact hreach.effect

theorem Inv.notes (h : Inv D sp Y db₀ s) (hl : s.callers.lookup p = some (.busy tx)) :
    ∀ n ∈ tx.work.notes, sp.note n s.clock s.db := by
  obtain ⟨K, K', τ₀, τ, hK, -, hk, h₀, hτ, hreach, hmeets, -, -⟩ := h.callers hl
  exact (hreach.sat (hmeets τ₀ s.clock s.db h.sound h₀ hk (hK hk h₀ (.refl _)))).2

variable (D) in
/-- The step keeps the discipline: the clock, what other open transactions are spared, the time that
is read and the database that is met. -/
def Fair (s : World V) (ch : Choice V) (s' : World V) : Prop :=
  D.Later s.clock s'.clock ∧ (∀ {q tx k}, q ≠ ch.caller → s.callers.lookup q = some (.busy tx) →
    (k, .update) ∈ tx.work.locks.rows → D.Spares s.clock k s.db s'.db) ∧
  (∀ {p inp k}, ch = .go p inp → s.callers.lookup p = some (.idle (.call .now k)) → D.Read p inp.time) ∧
  ∀ {p x}, s.callers.lookup p = some x → D.Shown p s.db

theorem Inv.step (h : Inv D sp Y db₀ s) (hcode : ∀ p e, Safe D sp p (V.code e) fun _ _ => True)
    (hs : s.step ch = some s') (hfair : Fair D s ch s')
    (hy : ∀ e, s'.log = s.log ++ [e] → sp.post e.caller e.op e.clock e.before e.work → Y e) :
    Inv D sp Y db₀ s' := by
  cases step_of_step hs with
  | start _ => exact h.goOn (fun _ _ _ => trivial) trivial (hcode _ _)
  | @now p inp k hl =>
    obtain ⟨K, hK, hk, hsafe⟩ := h.callers hl
    have hx : Good D sp p inp.time s.db (.idle (k inp.time)) :=
      ⟨_, fun hk hc hm => ⟨hK hk.1 hc hm, D.later_trans hk.2 hc⟩,
        ⟨hK hk hfair.1 (.refl _), D.later_refl _⟩, hsafe inp.time (hfair.2.2.1 rfl hl)⟩
    exact h.tick hfair.1 hx (fun _ _ _ _ he => by cases he)
  | @draw p inp k hl =>
    obtain ⟨K, hK, hk, hsafe⟩ := h.callers hl
    exact h.goOn hK hk (hsafe inp.text)
  | @flip p inp k hl =>
    obtain ⟨K, hK, hk, hsafe⟩ := h.callers hl
    exact h.goOn hK hk (hsafe inp.bit)
  | @begin p inp op body k hl =>
    obtain ⟨K, hK, hk, K', hK', hmeets, hsafe, hfault⟩ := h.callers hl
    refine h.alone ⟨K, K', s.clock, s.clock, hK, hK', hk, D.later_refl _, D.later_refl _, .start, hmeets,
      hsafe, hfault⟩ fun q tx tx' _ he _ => ?_
    cases he
    exact Locks.apart_none _
  | @statement p inp op whole st k w next a w' hl hex =>
    obtain ⟨K, K', τ₀, τ, hK, hK', hk, h₀, hτ, hreach, hmeets, hsafe, hfault⟩ := h.callers hl
    obtain ⟨τ', hτ', hans⟩ := st.answers_of_exec hex h.sound (hfair.2.2.2 hl) hτ hfair.1
    -- the statement is answered at the new clock, which the transaction has come to
    have hx : Good D sp p (st.clock s.clock inp) s.db (.busy ⟨op, whole, k a, w', next⟩) :=
      ⟨K, K', τ₀, τ', hK, hK', hk, D.later_trans h₀ hfair.1, hτ',
        .step (hreach.rely (.tick _ _ hfair.1)) hans, hmeets, hsafe, hfault⟩
    refine h.tick hfair.1 hx fun q tx tx' hq he hl' => ?_
    cases he
    obtain ⟨hrows, hslots⟩ := st.exec_locks hex
    have hap := h.apart (Ne.symm hq) hl hl'
    constructor
    · intro k' m m' hm hm'
      rcases hrows k' m hm with hm | hb
      · exact hap.rows hm hm'
      · have := s.locked_eq_false hb hq hl' hm'
        cases m <;> cases m' <;> simp_all [Mode.conflicts]
    · intro x hx
      rcases hslots x hx with hx | hb
      · exact hap.slots hx
      · exact s.taken_eq_false hb hq hl'
  | @commit p tx r told hl hr =>
    have hpost := h.post hl hr
    obtain ⟨K, K', τ₀, τ, hK, hK', hk, h₀, hτ, hreach, hmeets, hsafe, hfault⟩ := h.callers hl
    have hkc : K s.clock s.db := hK hk h₀ (.refl _)
    have heff := hreach.effect
    rw [hr] at hreach
    have hdone := ((hreach.sat (hmeets τ₀ s.clock s.db h.sound h₀ hk hkc)).1).2
    refine h.moved rfl (heff.sound h.sound) (D.later_refl _) heff.moves ?_ ?_ (fun _ _ _ _ he => by cases he) ?_ ?_
    · intro q tx' hq hl'
      exact heff.rely (h.apart (Ne.symm hq) hl hl') fun k hk => hfair.2.1 hq hl' hk
    · cases told with
      | true => exact ⟨K' (.ok r), hK' _, hdone, hsafe (.ok r)⟩
      | false => exact ⟨K, hK, hK hkc (D.later_refl _) heff.moves, hfault⟩
    · exact .snoc ⟨p, tx.op, s.clock, s.db, tx.work, told⟩ h.history h.sound heff.moves (hy _ rfl hpost)
    · intro e he
      rcases List.mem_append.1 he with he | he
      · exact h.clocks e he
      · obtain rfl := List.mem_singleton.1 he
        exact D.later_refl _
  | @rollback p ch tx r _ hl hr =>
    obtain ⟨K, K', τ₀, τ, hK, hK', hk, h₀, hτ, hreach, hmeets, hsafe, hfault⟩ := h.callers hl
    have hkc : K s.clock s.db := hK hk h₀ (.refl _)
    rcases hr with hr | rfl
    · rw [hr] at hreach
      exact h.goOn (hK' (.error r)) ((hreach.sat (hmeets τ₀ s.clock s.db h.sound h₀ hk hkc)).1) (hsafe (.error r))
    · exact h.goOn hK hkc hfault
  | crash _ => exact h.goOn (K := fun _ _ => True) (fun _ _ _ => trivial) trivial trivial

theorem Inv.init (hdb : db₀.Sound) : Inv D sp Y db₀ (.init V db₀) where
  sound := hdb
  apart _ h _ := absurd h (by simp [World.init])
  callers h := absurd h (by simp [World.init])
  history := .nil
  clocks e he := by cases he

/-- Every step of the run meets `Cond`. -/
def Along (Cond : World V → Choice V → World V → Prop) : World V → List (Choice V) → Prop
  | _, [] => True
  | s, ch :: chs => ∀ s', s.step ch = some s' → Cond s ch s' ∧ Along Cond s' chs

instance Along.decidable {Cond : World V → Choice V → World V → Prop} [∀ s ch s', Decidable (Cond s ch s')] :
    (s : World V) → (chs : List (Choice V)) → Decidable (Along Cond s chs)
  | _, [] => .isTrue trivial
  | s, ch :: chs =>
    match h : s.step ch with
    | none => .isTrue fun s' h' => by rw [h] at h'; cases h'
    | some s₁ =>
      have : Decidable (Along Cond s₁ chs) := Along.decidable s₁ chs
      decidable_of_iff (Cond s ch s₁ ∧ Along Cond s₁ chs)
        ⟨fun hc s' h' => by rw [h] at h'; cases h'; exact hc, fun ha => ha s₁ h⟩

/-- If the steps that meet `Cond` keep the discipline and commit what `Y` allows, every run of
such steps keeps the invariant. -/
theorem Inv.run {Cond : World V → Choice V → World V → Prop}
    (hcode : ∀ p e, Safe D sp p (V.code e) fun _ _ => True)
    (hfair : ∀ {s ch s'}, Inv D sp Y db₀ s → s.step ch = some s' → Cond s ch s' → Fair D s ch s')
    (hy : ∀ {s ch s' e}, Inv D sp Y db₀ s → s.step ch = some s' → Cond s ch s' → s'.log = s.log ++ [e] →
      sp.post e.caller e.op e.clock e.before e.work → Y e) :
    ∀ {chs : List (Choice V)} {s s' : World V}, Inv D sp Y db₀ s → Along Cond s chs → s.run chs = some s' →
      Inv D sp Y db₀ s'
  | [], _, _, h, _, hr => by cases hr; exact h
  | ch :: chs, s, s', h, ha, hr => by
    obtain ⟨s₁, h₁, hr⟩ := Option.bind_eq_some_iff.1 (show (s.step ch).bind (World.run · chs) = some s' from hr)
    obtain ⟨hc, ha⟩ := ha s₁ h₁
    exact run hcode hfair hy (h.step hcode h₁ (hfair h h₁ hc) fun e he hp => hy h h₁ hc he hp) ha hr

theorem Inv.run_any {sp : Spec V} {db₀ : Db S} (hdb : db₀.Sound)
    (hcode : ∀ p e, Safe (.any S) sp p (V.code e) fun _ _ => True) {chs : List (Choice V)} {s : World V}
    (hr : (World.init V db₀).run chs = some s) :
    Inv (.any S) sp (fun e => sp.post e.caller e.op e.clock e.before e.work) db₀ s := by
  have hall : ∀ (chs : List (Choice V)) (s : World V), Along (fun _ _ _ => True) s chs := by
    intro chs
    induction chs with
    | nil => intro _; trivial
    | cons ch chs ih => intro s s' _; exact ⟨trivial, ih s'⟩
  exact Inv.run hcode (fun _ _ _ => ⟨trivial, fun _ _ _ => trivial, fun _ _ => trivial, fun _ => trivial⟩)
    (fun _ _ _ _ hp => hp) (.init hdb) (hall chs _) hr

theorem safe_last {D : Discipline S} {sp : Spec V} {op : V.Op} {K : Int → Db S → Prop}
    {body : Stmts S (Except V.Reply V.Reply)} {g : V.Reply → V.Reply} {E : V.Reply → Prop}
    (h : ∀ τ c db, db.Sound → D.Later τ c → K τ db → K c db →
      Sql.Ok D sp.note p c db τ {} body E fun _ _ w => sp.post p op c db w) :
    Safe D sp p (.call (.transact op body) fun r => .pure (g r)) K :=
  ⟨fun _ _ _ => True, fun _ => (fun _ _ _ => trivial), fun τ c db hd hc hk hk' =>
    Sql.ok_mono (h τ c db hd hc hk hk') (fun _ _ => trivial) fun _ _ _ hp => ⟨hp, trivial⟩, fun _ => trivial, trivial⟩

end Inv

end Eth402.Lib.Relational
