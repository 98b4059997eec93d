/-
Transactions as programs of statements at read committed. A statement that locks a row waits for
its holder and then sees the row as last committed; a plain query sees what is committed when it
runs. `Answers` says which answers are possible seen from the database the transaction commits to:
what was locked still stands there, and what was only read was read from an earlier database that
the others have since moved on from (`Rely`). `wp` is the weakest precondition over those answers,
and `Reached` holds of every open transaction, whatever has been committed around it
(`Reached.rely`), so a body proved by `wp` against one database is proved for every interleaving.
-/
import Eth402.Lib.Relation
import Eth402.Lib.Program

namespace Eth402.Lib.Relational

variable {S : Schema}

/-! ## Statements -/

/-- What a plain query returns. -/
inductive Kind (S : Schema)
  | flag | ids | time
  | row (t : S.Table)
  | pair (t t' : S.Table)

@[reducible] def Kind.Answer : Kind S → Type
  | .flag => Bool
  | .ids => List Nat
  | .time => Option Int
  | .row t => Option (S.Row t)
  | .pair t t' => Option ((Nat × S.Row t) × (Nat × S.Row t'))

/-- An update: the rows it applies to and the change it makes. -/
structure Edit (S : Schema) (t : S.Table) where
  cond : S.Row t → Bool
  change : S.Row t → S.Row t
  legal : ∀ r, cond r = true → S.Legal t r (change r)

/-- A generated identifier, with the caller it was generated for. -/
structure Mint where
  owner : Nat
  serial : Nat
  deriving DecidableEq

/-- Reading the clock, drawing a random text, asking the outside for a yes or no and generating an
identifier; the statements proper; and `note`, which does nothing and records that the program has
come to a point. `lock` is `SELECT … FOR UPDATE` of one row, `hold` locks a number of a table that
need not be there, as an advisory lock does, `update` is an update of one row, which with `skip`
passes over a row that is locked, and `insert` returns the first index entry of the new row that
another row holds, if there is one. -/
inductive Stmt (S : Schema)
  | now | draw | flip | mint
  | note (n : S.Note)
  | query (κ : Kind S) (g : Db S → κ.Answer)
  | lock (t : S.Table) (id : Nat) (cond : S.Row t → Bool)
  | hold (t : S.Table) (id : Nat)
  | update (skip : Bool) (t : S.Table) (id : Nat) (e : Edit S t)
  | insert (t : S.Table) (r : S.Row t)

@[reducible] def Stmt.Answer : Stmt S → Type
  | .now => Int
  | .draw => String
  | .flip => Bool
  | .mint => Mint
  | .note _ | .hold _ _ => Unit
  | .query κ _ => κ.Answer
  | .lock t _ _ | .update _ t _ _ => Option (S.Row t)
  | .insert _ _ => Except S.Slot Nat

/-- A program of statements. -/
abbrev Stmts (S : Schema) (α : Type) := Prog (Stmt S) Stmt.Answer α

/-- A transaction that may give up: the error is the reply after a rollback. -/
abbrev Sql (S : Schema) (ρ α : Type) := ExceptT ρ (Prog (Stmt S) Stmt.Answer) α

/-- What an open transaction holds: its locks, the rows it has written and the points it passed. -/
structure Work (S : Schema) where
  locks : Locks S := .none
  puts : List (Put S) := []
  notes : List S.Note := []

namespace Work

def lock (w : Work S) (k : S.Table × Nat) : Work S := { w with locks := w.locks.row k .update }

def update (w : Work S) (t : S.Table) (id : Nat) (r : S.Row t) : Work S :=
  { w with locks := w.locks.row (t, id) .noKeyUpdate, puts := w.puts ++ [⟨t, id, r⟩] }

def insert (w : Work S) (t : S.Table) (id : Nat) (r : S.Row t) : Work S :=
  { w with locks := w.locks.inserted t id r, puts := w.puts ++ [⟨t, id, r⟩] }

def note (w : Work S) (n : S.Note) : Work S := { w with notes := n :: w.notes }

end Work

/-! ## Execution -/

/-- What the outside supplies to one step. -/
structure Input where
  time : Int := 0
  text : String := ""
  bit : Bool := false
  id : Nat := 0

/-- A row of the table holds the index entry. -/
def Db.holds (db : Db S) (t : S.Table) (s : S.Slot) : Bool :=
  (db.rows t).entries.any fun e => (S.slots t e.2).contains s

variable {t : S.Table}

theorem Db.holds_iff {db : Db S} {s : S.Slot} :
    db.holds t s = true ↔ ∃ id r, db.find t id = some r ∧ s ∈ S.slots t r := by
  simp only [holds, List.any_eq_true, List.contains_iff_mem, find]
  constructor
  · rintro ⟨⟨id, r⟩, hmem, hs⟩
    exact ⟨id, r, AList.mem_lookup_iff.2 hmem, hs⟩
  · rintro ⟨id, r, hr, hs⟩
    exact ⟨⟨id, r⟩, AList.mem_lookup_iff.1 hr, hs⟩

section Exec

variable (busy : S.Table × Nat → Mode → Bool) (taken : S.Table × S.Slot → Bool)

/-- One statement of caller `p`, given the locks of the others: `none` while it has to wait, or
when it fails. -/
def Stmt.exec (p minted : Nat) (inp : Input) (db : Db S) (w : Work S) : (s : Stmt S) → Option (s.Answer × Work S)
  | .now => some (inp.time, w)
  | .draw => some (inp.text, w)
  | .flip => some (inp.bit, w)
  | .mint => some (⟨p, minted⟩, w)
  | .note n => some ((), w.note n)
  | .query _ g => some (g (db.puts w.puts), w)
  | .lock t id cond =>
    match (db.puts w.puts).find t id with
    | none => some (none, w)
    | some r =>
      if cond r then
        if busy (t, id) .update then none else some (some r, w.lock (t, id))
      else some (none, w)
  | .hold t id => if busy (t, id) .update then none else some ((), w.lock (t, id))
  | .update skip t id e =>
    match (db.puts w.puts).find t id with
    | none => some (none, w)
    | some r =>
      if e.cond r then
        if busy (t, id) .noKeyUpdate then
          if skip then some (none, w) else none
        else if S.check t (e.change r) then some (some (e.change r), w.update t id (e.change r))
        else none
      else some (none, w)
  | .insert t r =>
    match (S.slots t r).find? fun s => (db.puts w.puts).holds t s || taken (t, s) with
    | some s => if (db.puts w.puts).holds t s then some (.error s, w) else none
    | none =>
      if ((db.puts w.puts).find t inp.id).isNone && S.check t r
          && (S.parents t r).all (fun k => ((db.puts w.puts).find k.1 k.2).isSome && !busy k .keyShare)
          && !busy (t, inp.id) .update then
        some (.ok inp.id, w.insert t inp.id r)
      else none

/-- A lock was taken only when nobody held one that conflicts, an index entry only when nobody had it. -/
structure Locks.Grown (L L' : Locks S) : Prop where
  rows : ∀ k m, (k, m) ∈ L'.rows → (k, m) ∈ L.rows ∨ busy k m = false
  slots : ∀ x, x ∈ L'.slots → x ∈ L.slots ∨ taken x = false

variable {busy taken} {L : Locks S}

theorem Locks.Grown.refl : Locks.Grown busy taken L L := ⟨fun _ _ => .inl, fun _ => .inl⟩

theorem Locks.Grown.row {k : S.Table × Nat} {m : Mode} (hb : busy k m = false) : L.Grown busy taken (L.row k m) := by
  refine ⟨fun k' m' hk => ?_, fun _ => .inl⟩
  rcases List.mem_cons.1 hk with he | hk
  · cases he; exact .inr hb
  · exact .inl hk

theorem Locks.Grown.inserted {id : Nat} {r : S.Row t} (hrow : busy (t, id) .update = false)
    (hparents : ∀ k ∈ S.parents t r, busy k .keyShare = false) (hslots : ∀ s ∈ S.slots t r, taken (t, s) = false) :
    L.Grown busy taken (L.inserted t id r) := by
  constructor
  · intro k m hk
    rcases List.mem_append.1 hk with hk | hk
    · rcases List.mem_cons.1 hk with he | hk
      · cases he; exact .inr hrow
      · obtain ⟨k', hk', he⟩ := List.mem_map.1 hk
        cases he
        exact .inr (hparents k hk')
    · exact .inl hk
  · intro x hx
    rcases List.mem_append.1 hx with hx | hx
    · obtain ⟨s, hs, rfl⟩ := List.mem_map.1 hx
      exact .inr (hslots s hs)
    · exact .inl hx

variable {p minted : Nat} {inp : Input} {db : Db S} {w w' : Work S} {s : Stmt S} {a : s.Answer}

theorem Stmt.exec_locks (h : s.exec busy taken p minted inp db w = some (a, w')) :
    w.locks.Grown busy taken w'.locks := by
  match s, a, h with
  | .now, _, h | .draw, _, h | .flip, _, h | .mint, _, h | .note _, _, h | .query _ _, _, h => cases h; exact .refl
  | .lock t id cond, a, h =>
    simp only [exec] at h
    split at h
    · cases h; exact .refl
    · split at h
      · split at h
        · cases h
        · rename_i hb
          cases h
          exact .row (by simpa using hb)
      · cases h; exact .refl
  | .hold t id, a, h =>
    simp only [exec] at h
    split at h
    · cases h
    · rename_i hb
      cases h
      exact .row (by simpa using hb)
  | .update skip t id e, a, h =>
    simp only [exec] at h
    split at h
    · cases h; exact .refl
    · split at h
      · split at h
        · split at h
          · cases h; exact .refl
          · cases h
        · rename_i hb
          split at h
          · cases h; exact .row (by simpa using hb)
          · cases h
      · cases h; exact .refl
  | .insert t r, a, h =>
    simp only [exec] at h
    split at h
    · split at h
      · cases h; exact .refl
      · cases h
    · rename_i hfree
      split at h
      · rename_i hok
        cases h
        simp only [Bool.and_eq_true, List.all_eq_true, Bool.not_eq_true'] at hok
        obtain ⟨⟨-, hparents⟩, hrow⟩ := hok
        refine .inserted hrow (fun k hk => (hparents k hk).2) fun s hs => ?_
        have hs := List.find?_eq_none.1 hfree s hs
        simp only [Bool.or_eq_true, not_or, Bool.not_eq_true] at hs
        exact hs.2
      · cases h

/-- The entry is the first one of the row that is held. -/
structure Refused (db : Db S) (t : S.Table) (r : S.Row t) (s : S.Slot) : Prop where
  held : db.holds t s = true
  first : ∃ front back, S.slots t r = front ++ s :: back ∧ ∀ s' ∈ front, db.holds t s' = false

theorem refused_of_find {r : S.Row t} {s : S.Slot}
    (h : (S.slots t r).find? (fun s => db.holds t s || taken (t, s)) = some s) (hs : db.holds t s = true) :
    Refused db t r s := by
  obtain ⟨-, front, back, hslots, hfront⟩ := List.find?_eq_some_iff_append.1 h
  refine ⟨hs, front, back, hslots, fun s' hs' => ?_⟩
  have := hfront s' hs'
  simp only [Bool.not_eq_true', Bool.or_eq_false_iff] at this
  exact this.1

end Exec

/-! ## Answers, seen from the commit -/

section Answers

variable (D : Discipline S) (p : Nat) (c : Int) (db : Db S)

/-- The answers `s` may have got, and what the transaction holds after it, if it is to commit to
`db` at clock `c`. -/
def Stmt.Answers (τ : Int) (w : Work S) : (s : Stmt S) → s.Answer → Int → Work S → Prop
  | .now, t, τ', w' => D.Later τ t ∧ D.Later t c ∧ τ' = t ∧ w' = w
  | .draw, _, τ', w' | .flip, _, τ', w' => τ' = τ ∧ w' = w
  | .mint, m, τ', w' => m.owner = p ∧ τ' = τ ∧ w' = w
  | .note n, _, τ', w' => τ' = τ ∧ w' = w.note n
  | .query _ g, a, τ', w' => ∃ db₀ : Db S, db₀.Sound ∧ D.Later τ τ' ∧ Rely D w.locks τ' db₀ c db ∧
      a = g (db₀.puts w.puts) ∧ w' = w
  | .lock t id cond, some r, τ', w' => (db.puts w.puts).find t id = some r ∧ cond r = true ∧
      τ' = τ ∧ w' = w.lock (t, id)
  | .lock t id cond, none, τ', w' => ∃ db₀ : Db S, db₀.Sound ∧ D.Later τ τ' ∧ Rely D w.locks τ' db₀ c db ∧
      (∀ r, (db₀.puts w.puts).find t id = some r → cond r = false) ∧ w' = w
  | .hold t id, _, τ', w' => τ' = τ ∧ w' = w.lock (t, id)
  | .update _ t id e, some r', τ', w' => (∃ r, (db.puts w.puts).find t id = some r ∧ e.cond r = true ∧
      e.change r = r' ∧ S.check t r' = true) ∧ τ' = τ ∧ w' = w.update t id r'
  | .update skip t id e, none, τ', w' => ∃ db₀ : Db S, db₀.Sound ∧ D.Later τ τ' ∧ Rely D w.locks τ' db₀ c db ∧
      (skip = false → ∀ r, (db₀.puts w.puts).find t id = some r → e.cond r = false) ∧ w' = w
  | .insert t r, .ok id, τ', w' => ((db.puts w.puts).find t id = none ∧ S.check t r = true ∧
      (∀ k ∈ S.parents t r, ((db.puts w.puts).find k.1 k.2).isSome) ∧
      ∀ id' r', (db.puts w.puts).find t id' = some r' → ∀ s ∈ S.slots t r', s ∉ S.slots t r) ∧
      τ' = τ ∧ w' = w.insert t id r
  | .insert t r, .error s, τ', w' => (∃ db₀ : Db S, db₀.Sound ∧ D.Shown p db₀ ∧ Refused (db₀.puts w.puts) t r s) ∧
      τ' = τ ∧ w' = w

variable {D p c db} {τ τ' : Int} {w w' : Work S} {s : Stmt S} {a : s.Answer}

theorem Stmt.Answers.within (h : s.Answers D p c db τ w a τ' w') : w.locks.Within w'.locks := by
  match s, a, h with
  | .now, _, ⟨_, _, _, hw⟩ | .draw, _, ⟨_, hw⟩ | .flip, _, ⟨_, hw⟩ | .mint, _, ⟨_, _, hw⟩ | .note _, _, ⟨_, hw⟩
  | .query _ _, _, ⟨_, _, _, _, _, hw⟩ | .lock _ _ _, none, ⟨_, _, _, _, _, hw⟩
  | .update _ _ _ _, none, ⟨_, _, _, _, _, hw⟩ | .insert _ _, .error _, ⟨_, _, hw⟩ => rw [hw]; exact .refl _
  | .lock _ _ _, some _, ⟨_, _, _, hw⟩ | .hold _ _, _, ⟨_, hw⟩ | .update _ _ _ _, some _, ⟨_, _, hw⟩ =>
    rw [hw]; exact Locks.within_row ..
  | .insert _ _, .ok _, ⟨_, _, hw⟩ => rw [hw]; exact Locks.within_inserted ..

/-- The answer stands when others commit around the locks it left. -/
theorem Stmt.Answers.rely {c' : Int} {db' : Db S} (h : s.Answers D p c db τ w a τ' w')
    (hr : Rely D w'.locks c db c' db') : s.Answers D p c' db' τ w a τ' w' := by
  have hw := hr.mono h.within
  match s, a, h with
  | .now, _, ⟨h₁, h₂, h₃, h₄⟩ => exact ⟨h₁, D.later_trans h₂ hr.later, h₃, h₄⟩
  | .draw, _, h | .flip, _, h | .mint, _, h | .note _, _, h | .hold _ _, _, h | .insert _ _, .error _, h => exact h
  | .query _ _, _, ⟨db₀, hs, h₁, h₂, h₃, h₄⟩ | .lock _ _ _, none, ⟨db₀, hs, h₁, h₂, h₃, h₄⟩
  | .update _ _ _ _, none, ⟨db₀, hs, h₁, h₂, h₃, h₄⟩ => exact ⟨db₀, hs, h₁, h₂.trans hw, h₃, h₄⟩
  | .lock t id _, some _, ⟨h₁, h₂, h₃, h₄⟩ =>
    have hk : w'.locks.Writes (t, id) := h₄ ▸ w.locks.writes_row (t, id) (by decide)
    exact ⟨(hr.same_puts hk w.puts).trans h₁, h₂, h₃, h₄⟩
  | .update _ t id _, some _, ⟨⟨r, h₁, h₂⟩, h₃, h₄⟩ =>
    have hk : w'.locks.Writes (t, id) := h₄ ▸ w.locks.writes_row (t, id) (by decide)
    exact ⟨⟨r, (hr.same_puts hk w.puts).trans h₁, h₂⟩, h₃, h₄⟩
  | .insert t r, .ok id, ⟨⟨h₁, h₂, h₃, h₄⟩, h₅, h₆⟩ =>
    have hk : w'.locks.Writes (t, id) := h₆ ▸ w.locks.writes_inserted t id r
    refine ⟨⟨(hr.same_puts hk w.puts).trans h₁, h₂, fun k hk => hw.isSome_puts w.puts (h₃ k hk), ?_⟩, h₅, h₆⟩
    intro id' r' hr' s hs hs'
    have hm : (t, s) ∈ w'.locks.slots := h₆ ▸ List.mem_append_left _ (List.mem_map_of_mem hs')
    obtain ⟨r₀, h₀, hs₀⟩ := hr.slot_puts w.puts hr' hs hm
    exact h₄ id' r₀ h₀ s hs₀ hs'

/-- The statement keeps the writes under the locks. -/
theorem Stmt.Answers.effect (h : s.Answers D p c db τ w a τ' w')
    (he : Effect w.locks db (db.puts w.puts)) : Effect w'.locks db (db.puts w'.puts) := by
  match s, a, h with
  | .now, _, ⟨_, _, _, hw⟩ | .draw, _, ⟨_, hw⟩ | .flip, _, ⟨_, hw⟩ | .mint, _, ⟨_, _, hw⟩
  | .query _ _, _, ⟨_, _, _, _, _, hw⟩ | .lock _ _ _, none, ⟨_, _, _, _, _, hw⟩
  | .update _ _ _ _, none, ⟨_, _, _, _, _, hw⟩ | .insert _ _, .error _, ⟨_, _, hw⟩ => rwa [hw]
  | .note _, _, ⟨_, hw⟩ => rw [hw]; exact he
  | .lock _ _ _, some _, ⟨_, _, _, hw⟩ | .hold _ _, _, ⟨_, hw⟩ => rw [hw]; exact he.mono (Locks.within_row ..)
  | .update _ _ _ e, some _, ⟨⟨r, h₁, h₂, h₃, h₄⟩, _, hw⟩ =>
    rw [hw]
    show Effect _ db (db.puts (w.puts ++ _))
    rw [Db.puts_snoc]
    exact he.update h₁ (h₃ ▸ e.legal r h₂) h₄ (by decide)
  | .insert _ _, .ok _, ⟨⟨h₁, h₂, h₃, h₄⟩, _, hw⟩ =>
    rw [hw]
    show Effect _ db (db.puts (w.puts ++ _))
    rw [Db.puts_snoc]
    exact he.insert h₁ h₃ h₄ h₂

theorem Stmt.Answers.notes (h : s.Answers D p c db τ w a τ' w') {n : S.Note} (hn : n ∈ w'.notes) :
    n ∈ w.notes ∨ s = .note n := by
  match s, a, h with
  | .now, _, ⟨_, _, _, hw⟩ | .draw, _, ⟨_, hw⟩ | .flip, _, ⟨_, hw⟩ | .mint, _, ⟨_, _, hw⟩
  | .query _ _, _, ⟨_, _, _, _, _, hw⟩ | .lock _ _ _, none, ⟨_, _, _, _, _, hw⟩
  | .update _ _ _ _, none, ⟨_, _, _, _, _, hw⟩ | .insert _ _, .error _, ⟨_, _, hw⟩ => exact .inl (hw ▸ hn)
  | .note _, _, ⟨_, hw⟩ =>
    rw [hw] at hn
    rcases List.mem_cons.1 hn with rfl | hn
    · exact .inr rfl
    · exact .inl hn
  | .lock _ _ _, some _, ⟨_, _, _, hw⟩ | .hold _ _, _, ⟨_, hw⟩ | .update _ _ _ _, some _, ⟨_, _, hw⟩
  | .insert _ _, .ok _, ⟨_, _, hw⟩ => rw [hw] at hn; exact .inl hn

/-- The clock after a step. -/
def Stmt.clock (c : Int) (inp : Input) : Stmt S → Int
  | .now => inp.time
  | _ => c

/-- What a step answers is a possible answer. -/
theorem Stmt.answers_of_exec {busy : S.Table × Nat → Mode → Bool} {taken : S.Table × S.Slot → Bool}
    {minted : Nat} {inp : Input} (h : s.exec busy taken p minted inp db w = some (a, w'))
    (hdb : db.Sound) (hmet : D.Shown p db) (hτ : D.Later τ c) (hc : D.Later c (s.clock c inp)) :
    ∃ τ', D.Later τ' (s.clock c inp) ∧ s.Answers D p (s.clock c inp) db τ w a τ' w' := by
  have here : ∀ {L : Locks S}, Rely D L c db c db := fun {L} => Rely.refl D L c db
  match s, a, h with
  | .now, _, h =>
    cases h
    exact ⟨_, D.later_refl _, D.later_trans hτ hc, D.later_refl _, rfl, rfl⟩
  | .draw, _, h | .flip, _, h | .note _, _, h => cases h; exact ⟨τ, hτ, rfl, rfl⟩
  | .mint, _, h => cases h; exact ⟨τ, hτ, rfl, rfl, rfl⟩
  | .query _ _, _, h => cases h; exact ⟨c, hc, db, hdb, hτ, here, rfl, rfl⟩
  | .lock t id cond, a, h =>
    simp only [exec] at h
    split at h
    · rename_i hn
      cases h
      exact ⟨c, hc, db, hdb, hτ, here, fun r hr => absurd (hn.symm.trans hr) (by simp), rfl⟩
    · rename_i r hr
      split at h
      · rename_i hcond
        split at h
        · cases h
        · cases h; exact ⟨τ, hτ, hr, hcond, rfl, rfl⟩
      · rename_i hcond
        cases h
        refine ⟨c, hc, db, hdb, hτ, here, fun r' hr' => ?_, rfl⟩
        obtain rfl := Option.some.inj (hr.symm.trans hr')
        simpa using hcond
  | .hold t id, a, h =>
    simp only [exec] at h
    split at h
    · cases h
    · cases h; exact ⟨τ, hτ, rfl, rfl⟩
  | .update skip t id e, a, h =>
    simp only [exec] at h
    split at h
    · rename_i hn
      cases h
      exact ⟨c, hc, db, hdb, hτ, here, fun _ r hr => absurd (hn.symm.trans hr) (by simp), rfl⟩
    · rename_i r hr
      split at h
      · rename_i hcond
        split at h
        · split at h
          · rename_i hskip
            cases h
            exact ⟨c, hc, db, hdb, hτ, here, fun hs => absurd (hs.symm.trans hskip) (by simp), rfl⟩
          · cases h
        · split at h
          · rename_i hcheck
            cases h
            exact ⟨τ, hτ, ⟨r, hr, hcond, rfl, hcheck⟩, rfl, rfl⟩
          · cases h
      · rename_i hcond
        cases h
        refine ⟨c, hc, db, hdb, hτ, here, fun _ r' hr' => ?_, rfl⟩
        obtain rfl := Option.some.inj (hr.symm.trans hr')
        simpa using hcond
  | .insert t r, a, h =>
    simp only [exec] at h
    split at h
    · rename_i hfind
      split at h
      · cases h; exact ⟨τ, hτ, ⟨db, hdb, hmet, refused_of_find hfind ‹_›⟩, rfl, rfl⟩
      · cases h
    · rename_i hfree
      split at h
      · rename_i hok
        cases h
        simp only [Bool.and_eq_true, Option.isNone_iff_eq_none, List.all_eq_true] at hok
        obtain ⟨⟨⟨h₁, h₂⟩, h₃⟩, -⟩ := hok
        refine ⟨τ, hτ, ⟨h₁, h₂, fun k hk => (h₃ k hk).1, fun id' r' hr' s hs hs' => ?_⟩, rfl, rfl⟩
        have hheld := Db.holds_iff.2 ⟨id', r', hr', hs⟩
        exact List.find?_eq_none.1 hfree s hs' (by simp [hheld])
      · cases h

end Answers

/-! ## Weakest preconditions -/

section Wp

variable (D : Discipline S) (N : S.Note → Int → Db S → Prop) (p : Nat) (c : Int) (db : Db S)

/-- Where a program says it has come, what it stands for must hold. -/
def Stmt.Asserts : Stmt S → Prop
  | .note n => N n c db
  | _ => True

/-- From what the transaction holds, whatever the answers, the result meets `Q`. -/
def sat {α : Type} : Int → Work S → Stmts S α → (α → Int → Work S → Prop) → Prop
  | τ, w, .pure a, Q => Q a τ w
  | τ, w, .call s k, Q => s.Asserts N c db ∧
      ∀ a τ' w', s.Answers D p c db τ w a τ' w' → sat τ' w' (k a) Q

variable {D N p c db} {α β : Type} {τ τ₀ τ' : Int} {w w' : Work S}

theorem sat_mono {Q Q' : α → Int → Work S → Prop} (hq : ∀ a τ w, Q a τ w → Q' a τ w) :
    ∀ {x : Stmts S α} {τ : Int} {w : Work S}, sat D N p c db τ w x Q → sat D N p c db τ w x Q'
  | .pure a, τ, w, h => hq a τ w h
  | .call _ _, _, _, h => ⟨h.1, fun a τ' w' ha => sat_mono hq (h.2 a τ' w' ha)⟩

theorem sat_bind {Q : β → Int → Work S → Prop} (f : α → Stmts S β) :
    ∀ {x : Stmts S α} {τ : Int} {w : Work S},
      sat D N p c db τ w x (fun a τ' w' => sat D N p c db τ' w' (f a) Q) → sat D N p c db τ w (x.bind f) Q
  | .pure _, _, _, h => h
  | .call _ _, _, _, h => ⟨h.1, fun a τ' w' ha => sat_bind f (h.2 a τ' w' ha)⟩

/-- `b` is what is left of `whole`, begun at `τ₀`, if it is to commit to `db` at `c`. -/
inductive Reached (D : Discipline S) (p : Nat) (whole : Stmts S α) (τ₀ c : Int) (db : Db S) :
    Int → Work S → Stmts S α → Prop
  | start : Reached D p whole τ₀ c db τ₀ {} whole
  | step {τ τ' w w' s k a} : Reached D p whole τ₀ c db τ w (.call s k) →
      s.Answers D p c db τ w a τ' w' → Reached D p whole τ₀ c db τ' w' (k a)

namespace Reached

variable {whole b : Stmts S α}

/-- What others commit does not take back how far a transaction has come. -/
theorem rely (h : Reached D p whole τ₀ c db τ w b) {c' : Int} {db' : Db S}
    (hr : Rely D w.locks c db c' db') : Reached D p whole τ₀ c' db' τ w b := by
  induction h with
  | start => exact .start
  | step _ ha ih => exact .step (ih (hr.mono ha.within)) (ha.rely hr)

theorem effect (h : Reached D p whole τ₀ c db τ w b) : Effect w.locks db (db.puts w.puts) := by
  induction h with
  | start => exact .refl _ db
  | step _ ha ih => exact ha.effect ih

/-- A program proved from its start is proved from where it has come to, and the points it passed
stand. -/
theorem sat {Q : α → Int → Work S → Prop} (h : Reached D p whole τ₀ c db τ w b)
    (hs : Relational.sat D N p c db τ₀ {} whole Q) : Relational.sat D N p c db τ w b Q ∧ ∀ n ∈ w.notes, N n c db := by
  induction h with
  | start => exact ⟨hs, fun n hn => by cases hn⟩
  | step _ ha ih =>
    obtain ⟨⟨hassert, hsat⟩, hnotes⟩ := ih
    refine ⟨hsat _ _ _ ha, fun n hn => ?_⟩
    rcases ha.notes hn with hn | rfl
    · exact hnotes n hn
    · exact hassert

end Reached

end Wp

/-! ## Rules -/

variable {skip : Bool} {e : Edit S t}

namespace Sql

variable {ρ α β : Type} {D : Discipline S} {N : S.Note → Int → Db S → Prop} {p : Nat} {c : Int} {db : Db S}
  {τ : Int} {w : Work S}

/-- One statement. -/
def stmt (s : Stmt S) : Sql S ρ s.Answer := Prog.call s fun a => Prog.pure (.ok a)

/-- Go on only if the condition holds. -/
def guard (ok : Bool) (r : ρ) : Sql S ρ Unit := if ok then pure () else throw r

/-- Whatever the answers, a rollback replies as `E` allows and the result meets `Q`. -/
def Ok (D : Discipline S) (N : S.Note → Int → Db S → Prop) (p : Nat) (c : Int) (db : Db S) (τ : Int)
    (w : Work S) (x : Sql S ρ α) (E : ρ → Prop) (Q : α → Int → Work S → Prop) : Prop :=
  sat D N p c db τ w x fun e τ w =>
    match e with
    | .ok a => Q a τ w
    | .error r => E r

variable {E : ρ → Prop} {Q : β → Int → Work S → Prop} {f : α → Sql S ρ β}

theorem ok_pure {a : β} (h : Q a τ w) : Ok D N p c db τ w (pure a : Sql S ρ β) E Q := h

theorem ok_mono {x : Sql S ρ α} {E' : ρ → Prop} {Q Q' : α → Int → Work S → Prop} (h : Ok D N p c db τ w x E Q)
    (he : ∀ r, E r → E' r) (hq : ∀ a τ w, Q a τ w → Q' a τ w) : Ok D N p c db τ w x E' Q' :=
  sat_mono (fun e τ w h => match e, h with
    | .ok a, h => hq a τ w h
    | .error r, h => he r h) h

theorem ok_bind {x : Sql S ρ α} (h : Ok D N p c db τ w x E fun a τ' w' => Ok D N p c db τ' w' (f a) E Q) :
    Ok D N p c db τ w (x >>= f) E Q :=
  sat_bind _ (sat_mono (fun e _ _ he => match e, he with
    | .ok _, he => he
    | .error _, he => he) h)

theorem ok_stmt {s : Stmt S} {f : s.Answer → Sql S ρ β} (hs : s.Asserts N c db)
    (h : ∀ a τ' w', s.Answers D p c db τ w a τ' w' → Ok D N p c db τ' w' (f a) E Q) :
    Ok D N p c db τ w (stmt s >>= f) E Q := ok_bind ⟨hs, h⟩

theorem ok_guard {b : Bool} {r : ρ} {f : Unit → Sql S ρ β} (hr : b = false → E r)
    (h : b = true → Ok D N p c db τ w (f ()) E Q) : Ok D N p c db τ w (guard b r >>= f) E Q := by
  cases b with
  | true => exact h rfl
  | false => exact hr rfl

theorem ok_now {f : Int → Sql S ρ β}
    (h : ∀ t, D.Later τ t → D.Later t c → Ok D N p c db t w (f t) E Q) :
    Ok D N p c db τ w (stmt .now >>= f) E Q :=
  ok_stmt trivial fun _ _ _ ⟨h₁, h₂, h₃, h₄⟩ => by subst h₃ h₄; exact h _ h₁ h₂

theorem ok_draw {f : String → Sql S ρ β} (h : ∀ x, Ok D N p c db τ w (f x) E Q) :
    Ok D N p c db τ w (stmt .draw >>= f) E Q :=
  ok_stmt trivial fun x _ _ ⟨h₁, h₂⟩ => h₁ ▸ h₂ ▸ h x

theorem ok_flip {f : Bool → Sql S ρ β} (h : ∀ x, Ok D N p c db τ w (f x) E Q) :
    Ok D N p c db τ w (stmt .flip >>= f) E Q :=
  ok_stmt trivial fun x _ _ ⟨h₁, h₂⟩ => h₁ ▸ h₂ ▸ h x

theorem ok_mint {f : Mint → Sql S ρ β} (h : ∀ m, m.owner = p → Ok D N p c db τ w (f m) E Q) :
    Ok D N p c db τ w (stmt .mint >>= f) E Q :=
  ok_stmt trivial fun x _ _ ⟨h₁, h₂, h₃⟩ => h₂ ▸ h₃ ▸ h x h₁

theorem ok_note {n : S.Note} {f : Unit → Sql S ρ β} (hn : N n c db)
    (h : Ok D N p c db τ (w.note n) (f ()) E Q) : Ok D N p c db τ w (stmt (.note n) >>= f) E Q :=
  ok_stmt hn fun _ _ _ ⟨h₁, h₂⟩ => h₁ ▸ h₂ ▸ h

theorem ok_query {κ : Kind S} {g : Db S → κ.Answer} {f : κ.Answer → Sql S ρ β}
    (h : ∀ τ' db₀, db₀.Sound → D.Later τ τ' → Rely D w.locks τ' db₀ c db →
      Ok D N p c db τ' w (f (g (db₀.puts w.puts))) E Q) :
    Ok D N p c db τ w (stmt (.query κ g) >>= f) E Q :=
  ok_stmt trivial fun _ τ' _ ⟨db₀, hs, h₁, h₂, h₃, h₄⟩ => h₃ ▸ h₄ ▸ h τ' db₀ hs h₁ h₂

theorem ok_lock {id : Nat} {cond : S.Row t → Bool} {f : Option (S.Row t) → Sql S ρ β}
    (hsome : ∀ r, (db.puts w.puts).find t id = some r → cond r = true →
      Ok D N p c db τ (w.lock (t, id)) (f (some r)) E Q)
    (hnone : ∀ τ' db₀, db₀.Sound → D.Later τ τ' → Rely D w.locks τ' db₀ c db →
      (∀ r, (db₀.puts w.puts).find t id = some r → cond r = false) → Ok D N p c db τ' w (f none) E Q) :
    Ok D N p c db τ w (stmt (.lock t id cond) >>= f) E Q :=
  ok_stmt trivial fun a τ' _ ha =>
    match a, ha with
    | some r, ⟨h₁, h₂, h₃, h₄⟩ => h₃ ▸ h₄ ▸ hsome r h₁ h₂
    | none, ⟨db₀, hs, h₁, h₂, h₃, h₄⟩ => h₄ ▸ hnone τ' db₀ hs h₁ h₂ h₃

theorem ok_update {id : Nat} {f : Option (S.Row t) → Sql S ρ β}
    (hsome : ∀ r, (db.puts w.puts).find t id = some r → e.cond r = true → S.check t (e.change r) = true →
      Ok D N p c db τ (w.update t id (e.change r)) (f (some (e.change r))) E Q)
    (hnone : ∀ τ' db₀, db₀.Sound → D.Later τ τ' → Rely D w.locks τ' db₀ c db →
      (skip = false → ∀ r, (db₀.puts w.puts).find t id = some r → e.cond r = false) →
      Ok D N p c db τ' w (f none) E Q) :
    Ok D N p c db τ w (stmt (.update skip t id e) >>= f) E Q :=
  ok_stmt trivial fun a τ' _ ha =>
    match a, ha with
    | some _, ⟨⟨r, h₁, h₂, h₃, h₄⟩, h₅, h₆⟩ => by subst h₃ h₅ h₆; exact hsome r h₁ h₂ h₄
    | none, ⟨db₀, hs, h₁, h₂, h₃, h₄⟩ => h₄ ▸ hnone τ' db₀ hs h₁ h₂ h₃

/-- A row that is held and meets the condition is updated. -/
theorem ok_update_held {id : Nat} {r : S.Row t}
    {f : Option (S.Row t) → Sql S ρ β} (hskip : skip = false) (hk : w.locks.Writes (t, id))
    (hr : (db.puts w.puts).find t id = some r) (hc : e.cond r = true) (h : S.check t (e.change r) = true →
      Ok D N p c db τ (w.update t id (e.change r)) (f (some (e.change r))) E Q) :
    Ok D N p c db τ w (stmt (.update skip t id e) >>= f) E Q := by
  refine ok_update (fun r' hr' _ hcheck => ?_) fun τ' db₀ _ _ hrely hno => ?_
  · obtain rfl := Option.some.inj (hr.symm.trans hr')
    exact h hcheck
  · have hr₀ := (hrely.same_puts hk w.puts).symm.trans hr
    exact absurd (hc.symm.trans (hno hskip r hr₀)) (by simp)

theorem ok_hold {id : Nat} {f : Unit → Sql S ρ β} (h : Ok D N p c db τ (w.lock (t, id)) (f ()) E Q) :
    Ok D N p c db τ w (stmt (.hold t id) >>= f) E Q :=
  ok_stmt trivial fun _ _ _ ⟨h₁, h₂⟩ => h₁ ▸ h₂ ▸ h

theorem ok_insert {r : S.Row t} {f : Except S.Slot Nat → Sql S ρ β}
    (hnew : ∀ id, (db.puts w.puts).find t id = none → S.check t r = true →
      (∀ k ∈ S.parents t r, ((db.puts w.puts).find k.1 k.2).isSome) →
      (∀ id' r', (db.puts w.puts).find t id' = some r' → ∀ s ∈ S.slots t r', s ∉ S.slots t r) →
      Ok D N p c db τ (w.insert t id r) (f (.ok id)) E Q)
    (hheld : ∀ s db₀, db₀.Sound → D.Shown p db₀ → Refused (db₀.puts w.puts) t r s →
    Ok D N p c db τ w (f (.error s)) E Q) :
    Ok D N p c db τ w (stmt (.insert t r) >>= f) E Q :=
  ok_stmt trivial fun a _ _ ha =>
    match a, ha with
    | .ok id, ⟨⟨h₁, h₂, h₃, h₄⟩, h₅, h₆⟩ => h₅ ▸ h₆ ▸ hnew id h₁ h₂ h₃ h₄
    | .error s, ⟨⟨db₀, h₁, h₂, h₃⟩, h₄, h₅⟩ => h₄ ▸ h₅ ▸ hheld s db₀ h₁ h₂ h₃

/-! ### Statements over several rows

A statement that names its rows by a condition takes their numbers from one look at the database and
then locks them one by one, looking at the condition again. -/

/-- Lock the first row that still meets the condition. -/
def lockFirst (t : S.Table) (cond : S.Row t → Bool) : List Nat → Sql S ρ (Option (Nat × S.Row t))
  | [] => pure none
  | id :: ids => do
    match ← stmt (.lock t id cond) with
    | some r => pure (some (id, r))
    | none => lockFirst t cond ids

/-- Update the first row that can be. -/
def updateFirst (skip : Bool) (t : S.Table) (e : Edit S t) : List Nat → Sql S ρ (Option (Nat × S.Row t))
  | [] => pure none
  | id :: ids => do
    match ← stmt (.update skip t id e) with
    | some r => pure (some (id, r))
    | none => updateFirst skip t e ids

/-- Update rows, up to a limit. -/
def updateUpTo (skip : Bool) (t : S.Table) (e : Edit S t) : Nat → List Nat → Sql S ρ Unit
  | _, [] | 0, _ :: _ => pure ()
  | n + 1, id :: ids => do
    match ← stmt (.update skip t id e) with
    | some _ => updateUpTo skip t e n ids
    | none => updateUpTo skip t e (n + 1) ids

/-- Update each of the rows. -/
def updateEach (t : S.Table) (e : Edit S t) : List Nat → Sql S ρ Unit
  | [] => pure ()
  | id :: ids => do
    let _ ← stmt (.update false t id e)
    updateEach t e ids

theorem ok_lockFirst {cond : S.Row t → Bool} {Q : Option (Nat × S.Row t) → Int → Work S → Prop} :
    ∀ (ids : List Nat) {τ : Int},
      (∀ τ' id r, D.Later τ τ' → (db.puts w.puts).find t id = some r → cond r = true →
        Q (some (id, r)) τ' (w.lock (t, id))) →
      (∀ τ', D.Later τ τ' → Q none τ' w) → Ok D N p c db τ w (lockFirst t cond ids : Sql S ρ _) E Q
  | [], τ, _, hnone => hnone τ (D.later_refl τ)
  | id :: ids, τ, hsome, hnone => by
    refine ok_lock (fun r hr hc => ?_) fun τ' db₀ _ hτ _ _ => ?_
    · exact hsome τ id r (D.later_refl τ) hr hc
    · exact ok_lockFirst ids (fun τ₁ id r h₁ => hsome τ₁ id r (D.later_trans hτ h₁))
        fun τ₁ h₁ => hnone τ₁ (D.later_trans hτ h₁)

theorem ok_updateFirst {Q : Option (Nat × S.Row t) → Int → Work S → Prop} :
    ∀ (ids : List Nat) {τ : Int},
      (∀ τ' id r, (db.puts w.puts).find t id = some r → e.cond r = true → S.check t (e.change r) = true →
        Q (some (id, e.change r)) τ' (w.update t id (e.change r))) →
      (∀ τ', Q none τ' w) → Ok D N p c db τ w (updateFirst skip t e ids : Sql S ρ _) E Q
  | [], τ, _, hnone => hnone τ
  | id :: ids, τ, hsome, hnone => by
    refine ok_update (fun r hr hc hk => ?_) fun τ' db₀ _ _ _ _ => ?_
    · exact hsome τ id r hr hc hk
    · exact ok_updateFirst ids hsome hnone

theorem ok_updateUpTo (I : Work S → Prop)
    (hsome : ∀ {id w r}, I w → (db.puts w.puts).find t id = some r → e.cond r = true →
      S.check t (e.change r) = true → I (w.update t id (e.change r))) :
    ∀ (n : Nat) (ids : List Nat) {τ : Int} {w : Work S}, I w →
      Ok D N p c db τ w (updateUpTo skip t e n ids : Sql S ρ Unit) E fun _ _ w => I w
  | _, [], _, _, h => by cases ‹Nat› <;> exact h
  | 0, _ :: _, _, _, h => h
  | n + 1, id :: ids, τ, w, h => by
    refine ok_update (fun r hr hc hk => ?_) fun τ' db₀ _ _ _ _ => ?_
    · exact ok_updateUpTo I hsome n ids (hsome h hr hc hk)
    · exact ok_updateUpTo I hsome (n + 1) ids h

/-- The invariant is over the rows still to come. -/
theorem ok_updateEach (I : List Nat → Work S → Prop)
    (hsome : ∀ {id ids w r}, I (id :: ids) w → (db.puts w.puts).find t id = some r → e.cond r = true →
      S.check t (e.change r) = true → I ids (w.update t id (e.change r)))
    (hnone : ∀ {id ids τ' w db₀}, I (id :: ids) w → db₀.Sound → Rely D w.locks τ' db₀ c db →
      (∀ r, (db₀.puts w.puts).find t id = some r → e.cond r = false) → I ids w) :
    ∀ (ids : List Nat) {τ : Int} {w : Work S}, I ids w →
      Ok D N p c db τ w (updateEach t e ids : Sql S ρ Unit) E fun _ _ w => I [] w
  | [], _, _, h => h
  | id :: ids, τ, w, h => by
    refine ok_update (fun r hr hc hk => ?_) (fun τ' db₀ hs _ hrely hno => ?_)
    · exact ok_updateEach I hsome hnone ids (hsome h hr hc hk)
    · exact ok_updateEach I hsome hnone ids (hnone h hs hrely (hno rfl))

end Sql

end Eth402.Lib.Relational
