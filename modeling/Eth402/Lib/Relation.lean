/-
Tables with row locks, as transactions at read committed use them. A schema says what the rows
are, which entries of unique indexes they hold, which rows they refer to and how they may change;
`Rely` is what a transaction that holds locks may count on while others commit, and `Effect` what
a transaction does to the tables when it commits under its own locks. Two transactions whose locks
are compatible stand in that relation (`Effect.rely`).
-/
import Mathlib.Data.List.AList
import Mathlib.Data.List.Induction
import Mathlib.Logic.Function.Basic
import Mathlib.Tactic.Common

namespace Eth402.Lib.Relational

/-- Tables of rows under numbers. `slots` are the entries a row holds in the unique indexes of its
table, `parents` the rows its foreign keys name, `check` the table's check constraints and `Legal`
the changes the updates of this schema make. -/
structure Schema where
  Table : Type
  Row : Table → Type
  Slot : Type
  Note : Type
  [decTable : DecidableEq Table]
  [decSlot : DecidableEq Slot]
  slots : (t : Table) → Row t → List Slot
  parents : (t : Table) → Row t → List (Table × Nat)
  check : (t : Table) → Row t → Bool
  Legal : (t : Table) → Row t → Row t → Prop
  legal_refl : ∀ {t} (r : Row t), Legal t r r
  legal_trans : ∀ {t} {a b c : Row t}, Legal t a b → Legal t b c → Legal t a c
  legal_parents : ∀ {t} {a b : Row t}, Legal t a b → parents t b ⊆ parents t a
  legal_slots : ∀ {t} {a b : Row t}, Legal t a b → slots t b ⊆ slots t a

attribute [instance] Schema.decTable Schema.decSlot

variable {S : Schema}

/-- The rows of every table. -/
structure Db (S : Schema) where
  rows : (t : S.Table) → AList fun _ : Nat => S.Row t

/-- One row written. -/
structure Put (S : Schema) where
  table : S.Table
  id : Nat
  row : S.Row table

variable {ws : List (Put S)}

namespace Db

def find (db : Db S) (t : S.Table) (id : Nat) : Option (S.Row t) := (db.rows t).lookup id

def put (db : Db S) (w : Put S) : Db S where
  rows := Function.update db.rows w.table ((db.rows w.table).insert w.id w.row)

def puts (db : Db S) (ws : List (Put S)) : Db S := ws.foldl put db

@[simp] theorem puts_nil (db : Db S) : db.puts [] = db := rfl

@[simp] theorem puts_cons (db : Db S) (w : Put S) (ws : List (Put S)) :
    db.puts (w :: ws) = (db.put w).puts ws := rfl

theorem puts_append (db : Db S) (ws ws' : List (Put S)) : db.puts (ws ++ ws') = (db.puts ws).puts ws' :=
  List.foldl_append

@[simp] theorem puts_snoc (db : Db S) (ws : List (Put S)) (w : Put S) :
    db.puts (ws ++ [w]) = (db.puts ws).put w := puts_append db ws [w]

@[simp] theorem find_put_self (db : Db S) (t : S.Table) (id : Nat) (r : S.Row t) :
    (db.put ⟨t, id, r⟩).find t id = some r := by
  simp [find, put]

theorem find_put_ne {db : Db S} {w : Put S} {t : S.Table} {id : Nat} (h : (t, id) ≠ (w.table, w.id)) :
    (db.put w).find t id = db.find t id := by
  by_cases ht : t = w.table
  · subst ht
    have hid : id ≠ w.id := fun he => h (by rw [he])
    simp [find, put, AList.lookup_insert_ne hid]
  · simp [find, put, Function.update_of_ne ht]

@[simp] theorem find_put_table {db : Db S} {w : Put S} {t : S.Table} {id : Nat} (h : t ≠ w.table) :
    (db.put w).find t id = db.find t id :=
  find_put_ne fun he => h (congrArg Prod.fst he)

@[simp] theorem find_put_id {db : Db S} {t : S.Table} {i id : Nat} {r : S.Row t} (h : id ≠ i) :
    (db.put ⟨t, i, r⟩).find t id = db.find t id :=
  find_put_ne fun he => h (congrArg Prod.snd he)

theorem find_put (db : Db S) (t : S.Table) (i id : Nat) (r : S.Row t) :
    (db.put ⟨t, i, r⟩).find t id = if id = i then some r else db.find t id := by
  by_cases h : id = i
  · subst h; simp
  · rw [if_neg h, find_put_id h]

theorem find_puts_cases (t : S.Table) (id : Nat) : ∀ (ws : List (Put S)) (db : Db S),
    (db.puts ws).find t id = db.find t id ∨ ∃ r, (db.puts ws).find t id = some r ∧ ⟨t, id, r⟩ ∈ ws
  | [], _ => .inl rfl
  | w :: ws, db => by
    rcases find_puts_cases t id ws (db.put w) with h | ⟨r, h, hw⟩
    · by_cases he : (t, id) = (w.table, w.id)
      · obtain ⟨t', i, r⟩ := w
        obtain ⟨rfl, rfl⟩ := Prod.mk.injEq .. ▸ he
        exact .inr ⟨r, h.trans (find_put_self ..), List.mem_cons_self ..⟩
      · exact .inl (h.trans (find_put_ne he))
    · exact .inr ⟨r, h, List.mem_cons_of_mem _ hw⟩

theorem find_puts_of_mem (db : Db S) {t : S.Table} {id : Nat} {r : S.Row t} (h : ⟨t, id, r⟩ ∈ ws) :
    ∃ r', (db.puts ws).find t id = some r' ∧ ⟨t, id, r'⟩ ∈ ws := by
  induction ws using List.reverseRecOn with
  | nil => cases h
  | append_singleton ws w ih =>
    by_cases he : (t, id) = (w.table, w.id)
    · obtain ⟨t', i, r₁⟩ := w
      obtain ⟨rfl, rfl⟩ := Prod.mk.injEq .. ▸ he
      exact ⟨r₁, by simp, by simp⟩
    · rcases List.mem_append.1 h with h | h
      · obtain ⟨r', hr', hmem⟩ := ih h
        exact ⟨r', by rw [puts_snoc, find_put_ne he, hr'], List.mem_append_left _ hmem⟩
      · exact absurd (List.mem_singleton.1 h ▸ rfl) he

/-- What writes leave at a row does not depend on the database, unless they leave it alone. -/
theorem find_puts_either (t : S.Table) (id : Nat) (ws : List (Put S)) :
    (∀ db : Db S, (db.puts ws).find t id = db.find t id) ∨
      ∃ r, ∀ db : Db S, (db.puts ws).find t id = some r := by
  induction ws using List.reverseRecOn with
  | nil => exact .inl fun _ => rfl
  | append_singleton ws w ih =>
    by_cases he : (t, id) = (w.table, w.id)
    · obtain ⟨t', i, r⟩ := w
      obtain ⟨rfl, rfl⟩ := Prod.mk.injEq .. ▸ he
      exact .inr ⟨r, fun db => by rw [puts_snoc, find_put_self]⟩
    · simpa only [puts_snoc, find_put_ne he] using ih

theorem find_puts_table {t : S.Table} {id : Nat} {db : Db S} (h : ∀ w ∈ ws, w.table ≠ t) :
    (db.puts ws).find t id = db.find t id := by
  rcases find_puts_cases t id ws db with hs | ⟨r, -, hw⟩
  · exact hs
  · exact absurd rfl (h _ hw)

/-- The table is as it was. -/
def Same (db : Db S) (t : S.Table) (db' : Db S) : Prop := ∀ id, db'.find t id = db.find t id

/-- One row of the table has been written. -/
def Sets (db : Db S) (t : S.Table) (i : Nat) (r : S.Row t) (db' : Db S) : Prop :=
  ∀ id, db'.find t id = if id = i then some r else db.find t id

theorem same_puts {t : S.Table} (db : Db S) (h : ∀ w ∈ ws, w.table ≠ t) : Same db t (db.puts ws) :=
  fun _ => find_puts_table h

section Sets

variable {t : S.Table} {i id : Nat} {r r' : S.Row t} {db db' : Db S}

theorem Sets.at (h : Sets db t i r db') : db'.find t i = some r := (h i).trans (if_pos rfl)

theorem Sets.cases (h : Sets db t i r db') (hr : db'.find t id = some r') :
    id = i ∧ r' = r ∨ id ≠ i ∧ db.find t id = some r' := by
  rw [h id] at hr
  split at hr
  · rename_i he
    exact .inl ⟨he, (Option.some.inj hr).symm⟩
  · rename_i he
    exact .inr ⟨he, hr⟩

end Sets

/-- Foreign keys name rows that are there, an entry of a unique index belongs to one row, and
every row passes its checks. -/
structure Sound (db : Db S) : Prop where
  parents : ∀ {t id r}, db.find t id = some r → ∀ k ∈ S.parents t r, (db.find k.1 k.2).isSome
  unique : ∀ {t id id' r r' s}, db.find t id = some r → db.find t id' = some r' →
    s ∈ S.slots t r → s ∈ S.slots t r' → id = id'
  checked : ∀ {t id r}, db.find t id = some r → S.check t r = true

theorem isSome_put {db : Db S} {w : Put S} {t : S.Table} {id : Nat} (h : (db.find t id).isSome) :
    ((db.put w).find t id).isSome := by
  by_cases he : (t, id) = (w.table, w.id)
  · obtain ⟨t', i, r⟩ := w
    obtain ⟨rfl, rfl⟩ := Prod.mk.injEq .. ▸ he
    simp
  · rwa [find_put_ne he]

theorem Sound.update {db : Db S} (h : db.Sound) {t : S.Table} {id : Nat} {r r' : S.Row t}
    (hr : db.find t id = some r) (hl : S.Legal t r r') (hc : S.check t r' = true) :
    (db.put ⟨t, id, r'⟩).Sound := by
  -- a row found after the update is the new version of one found before
  have back : ∀ {t₁ id₁ r₁}, (db.put ⟨t, id, r'⟩).find t₁ id₁ = some r₁ →
      ∃ r₀, db.find t₁ id₁ = some r₀ ∧ S.Legal t₁ r₀ r₁ ∧ S.check t₁ r₁ = true := by
    intro t₁ id₁ r₁ h₁
    by_cases he : (t₁, id₁) = (t, id)
    · obtain ⟨rfl, rfl⟩ := Prod.mk.injEq .. ▸ he
      rw [find_put_self] at h₁
      cases h₁
      exact ⟨r, hr, hl, hc⟩
    · rw [find_put_ne he] at h₁
      exact ⟨r₁, h₁, S.legal_refl r₁, h.checked h₁⟩
  constructor
  · intro t₁ id₁ r₁ h₁ k hk
    obtain ⟨r₀, h₀, hl₀, -⟩ := back h₁
    exact isSome_put (h.parents h₀ k (S.legal_parents hl₀ hk))
  · intro t₁ id₁ id₂ r₁ r₂ s h₁ h₂ hs₁ hs₂
    obtain ⟨a₁, ha₁, hl₁, -⟩ := back h₁
    obtain ⟨a₂, ha₂, hl₂, -⟩ := back h₂
    exact h.unique ha₁ ha₂ (S.legal_slots hl₁ hs₁) (S.legal_slots hl₂ hs₂)
  · intro t₁ id₁ r₁ h₁
    obtain ⟨-, -, -, hc₁⟩ := back h₁
    exact hc₁

theorem Sound.insert {db : Db S} (h : db.Sound) {t : S.Table} {id : Nat} {r : S.Row t}
    (hid : db.find t id = none) (hp : ∀ k ∈ S.parents t r, (db.find k.1 k.2).isSome)
    (hs : ∀ id' r', db.find t id' = some r' → ∀ s ∈ S.slots t r', s ∉ S.slots t r)
    (hc : S.check t r = true) : (db.put ⟨t, id, r⟩).Sound := by
  constructor
  · intro t₁ id₁ r₁ h₁ k hk
    refine isSome_put ?_
    by_cases he : (t₁, id₁) = (t, id)
    · obtain ⟨rfl, rfl⟩ := Prod.mk.injEq .. ▸ he
      rw [find_put_self] at h₁
      cases h₁
      exact hp k hk
    · rw [find_put_ne he] at h₁
      exact h.parents h₁ k hk
  · intro t₁ id₁ id₂ r₁ r₂ s h₁ h₂ hs₁ hs₂
    by_cases ht : t₁ = t
    · subst ht
      rw [find_put] at h₁ h₂
      split at h₁ <;> split at h₂
      · rename_i e₁ e₂; exact e₁.trans e₂.symm
      · cases h₁; exact absurd hs₁ (hs _ _ h₂ s hs₂)
      · cases h₂; exact absurd hs₂ (hs _ _ h₁ s hs₁)
      · exact h.unique h₁ h₂ hs₁ hs₂
    · rw [find_put_table ht] at h₁ h₂
      exact h.unique h₁ h₂ hs₁ hs₂
  · intro t₁ id₁ r₁ h₁
    by_cases he : (t₁, id₁) = (t, id)
    · obtain ⟨rfl, rfl⟩ := Prod.mk.injEq .. ▸ he
      rw [find_put_self] at h₁
      cases h₁
      exact hc
    · rw [find_put_ne he] at h₁
      exact h.checked h₁

/-- Every row is still there, by a legal change. -/
def Moves (db db' : Db S) : Prop :=
  ∀ t id r, db.find t id = some r → ∃ r', db'.find t id = some r' ∧ S.Legal t r r'

theorem Moves.refl (db : Db S) : db.Moves db := fun _ _ r h => ⟨r, h, S.legal_refl r⟩

theorem Moves.trans {db db₁ db₂ : Db S} (h : db.Moves db₁) (h' : db₁.Moves db₂) : db.Moves db₂ := by
  intro t id r hr
  obtain ⟨r₁, h₁, l₁⟩ := h t id r hr
  obtain ⟨r₂, h₂, l₂⟩ := h' t id r₁ h₁
  exact ⟨r₂, h₂, S.legal_trans l₁ l₂⟩

end Db

/-! ## Locks -/

/-- The row locks this kind of code takes: the one of a foreign key check, the one of an update
that leaves the key alone, and the one of `SELECT … FOR UPDATE`. -/
inductive Mode
  | keyShare | noKeyUpdate | update
  deriving DecidableEq

/-- The conflict table of PostgreSQL, restricted to these three. -/
def Mode.conflicts : Mode → Mode → Bool
  | .update, _ | _, .update | .noKeyUpdate, .noKeyUpdate => true
  | _, _ => false

@[simp] theorem Mode.update_conflicts (m : Mode) : Mode.update.conflicts m = true := by cases m <;> rfl

theorem Mode.conflicts_of_write {m m' : Mode} (h : m ≠ .keyShare) (h' : m' ≠ .keyShare) : m.conflicts m' = true := by
  cases m <;> cases m' <;> simp_all [conflicts]

/-- Row locks, and index entries of rows not yet committed. -/
structure Locks (S : Schema) where
  rows : List ((S.Table × Nat) × Mode)
  slots : List (S.Table × S.Slot)

variable {L' : Locks S} {k : S.Table × Nat}

namespace Locks

def none : Locks S := ⟨[], []⟩

/-- Lock a row. -/
def row (L : Locks S) (k : S.Table × Nat) (m : Mode) : Locks S := { L with rows := (k, m) :: L.rows }

/-- The locks of an insert: the new row, its parents and its index entries. -/
def inserted (L : Locks S) (t : S.Table) (id : Nat) (r : S.Row t) : Locks S where
  rows := ((t, id), .update) :: ((S.parents t r).map fun k => (k, .keyShare)) ++ L.rows
  slots := ((S.slots t r).map fun s => (t, s)) ++ L.slots

/-- The row may be changed under these locks. -/
def Writes (L : Locks S) (k : S.Table × Nat) : Prop := ∃ m, m ≠ .keyShare ∧ (k, m) ∈ L.rows

/-- The second locks contain the first. -/
def Within (L L' : Locks S) : Prop := L.rows ⊆ L'.rows ∧ L.slots ⊆ L'.slots

theorem Within.refl (L : Locks S) : L.Within L := ⟨fun _ h => h, fun _ h => h⟩

theorem Within.trans {L L₁ L₂ : Locks S} (h : L.Within L₁) (h' : L₁.Within L₂) : L.Within L₂ :=
  ⟨fun _ hx => h'.1 (h.1 hx), fun _ hx => h'.2 (h.2 hx)⟩

theorem within_row (L : Locks S) (k : S.Table × Nat) (m : Mode) : L.Within (L.row k m) :=
  ⟨fun _ h => List.mem_cons_of_mem _ h, fun _ h => h⟩

theorem within_inserted (L : Locks S) (t : S.Table) (id : Nat) (r : S.Row t) : L.Within (L.inserted t id r) :=
  ⟨fun _ h => List.mem_append_right _ h, fun _ h => List.mem_append_right _ h⟩

theorem Writes.mono {L : Locks S} (h : L.Within L') : L.Writes k → L'.Writes k
  | ⟨m, hm, hk⟩ => ⟨m, hm, h.1 hk⟩

theorem writes_row (L : Locks S) (k : S.Table × Nat) {m : Mode} (hm : m ≠ .keyShare) : (L.row k m).Writes k :=
  ⟨m, hm, List.mem_cons_self ..⟩

theorem writes_inserted (L : Locks S) (t : S.Table) (id : Nat) (r : S.Row t) : (L.inserted t id r).Writes (t, id) :=
  ⟨.update, by decide, List.mem_cons_self ..⟩

/-- No row locked in conflicting modes, no index entry taken twice. -/
structure Apart (L L' : Locks S) : Prop where
  rows : ∀ {k m m'}, (k, m) ∈ L.rows → (k, m') ∈ L'.rows → m.conflicts m' = false
  slots : ∀ {x}, x ∈ L.slots → x ∉ L'.slots

theorem apart_none (L : Locks S) : none.Apart L where
  rows h := absurd h List.not_mem_nil
  slots h := absurd h List.not_mem_nil

theorem Apart.symm {L : Locks S} (h : L.Apart L') : L'.Apart L where
  rows {k m m'} hm hm' := by
    have := h.rows hm' hm
    cases m <;> cases m' <;> simp_all [Mode.conflicts]
  slots hx hx' := h.slots hx' hx

/-- What one may write, the other has not locked for writing. -/
theorem Apart.writes {L : Locks S} (h : L.Apart L') (hk : L.Writes k) : ¬ L'.Writes k := by
  obtain ⟨m, hm, hk⟩ := hk
  rintro ⟨m', hm', hk'⟩
  exact Bool.noConfusion ((h.rows hk hk').symm.trans (Mode.conflicts_of_write hm hm'))

/-- A row held for update is held by nobody else. -/
theorem Apart.alone {L : Locks S} (h : L.Apart L') (hk : (k, .update) ∈ L.rows) (m : Mode) :
    (k, m) ∉ L'.rows := fun hm => Bool.noConfusion ((h.rows hk hm).symm.trans (m.update_conflicts))

end Locks

/-! ## Interference -/

/-- What the runs under study promise beyond the locks: how the clock moves, which times a caller
reads between its transactions, which databases it meets, and what a commit at a given time spares of
the rows around one that another transaction holds for update. -/
structure Discipline (S : Schema) where
  Later : Int → Int → Prop
  Read : Nat → Int → Prop := fun _ _ => True
  Shown : Nat → Db S → Prop := fun _ _ => True
  Spares : Int → S.Table × Nat → Db S → Db S → Prop
  later_refl : ∀ c, Later c c
  later_trans : ∀ {a b c}, Later a b → Later b c → Later a c
  spares_refl : ∀ c k db, Spares c k db db
  spares_trans : ∀ {c c' k db db₁ db₂}, Spares c k db db₁ → Later c c' → Spares c' k db₁ db₂ →
    Spares c k db db₂

/-- Any clock, and nothing spared that the locks do not protect. -/
def Discipline.any (S : Schema) : Discipline S where
  Later _ _ := True
  Spares _ _ _ _ := True
  later_refl _ := trivial
  later_trans _ _ := trivial
  spares_refl _ _ _ := trivial
  spares_trans _ _ _ := trivial

/-- What others may have done, from `db` at clock `c` to `db'` at clock `c'`, while a transaction
held the locks `L`: the rows it may write are as they were, no new row is one it has locked, refers
to one it holds for update or takes an index entry of its own new rows, and every row has changed
legally. -/
structure Rely (D : Discipline S) (L : Locks S) (c : Int) (db : Db S) (c' : Int) (db' : Db S) : Prop where
  later : D.Later c c'
  same : ∀ {t id}, L.Writes (t, id) → db'.find t id = db.find t id
  fresh : ∀ {t id r}, db.find t id = .none → db'.find t id = some r → (∀ m, ((t, id), m) ∉ L.rows) ∧
    (∀ k ∈ S.parents t r, (k, .update) ∉ L.rows) ∧ ∀ s ∈ S.slots t r, (t, s) ∉ L.slots
  moves : db.Moves db'
  spares : ∀ {k}, (k, .update) ∈ L.rows → D.Spares c k db db'

namespace Rely

variable {D : Discipline S} {L : Locks S} {c c₁ c₂ : Int} {db db₁ db₂ : Db S}

theorem refl (D : Discipline S) (L : Locks S) (c : Int) (db : Db S) : Rely D L c db c db where
  later := D.later_refl c
  same _ := rfl
  fresh h h' := absurd (h.symm.trans h') (by simp)
  moves := .refl db
  spares _ := D.spares_refl c _ db

theorem tick (L : Locks S) (db : Db S) (h : D.Later c c₁) : Rely D L c db c₁ db :=
  { refl D L c db with later := h }

theorem trans (h : Rely D L c db c₁ db₁) (h' : Rely D L c₁ db₁ c₂ db₂) : Rely D L c db c₂ db₂ where
  later := D.later_trans h.later h'.later
  same hk := (h'.same hk).trans (h.same hk)
  fresh {t id r} hn hr := by
    cases h₁ : db₁.find t id with
    | none => exact h'.fresh h₁ hr
    | some r₁ =>
      obtain ⟨r', hr', hl⟩ := h'.moves t id r₁ h₁
      obtain rfl : r' = r := Option.some.inj (hr'.symm.trans hr)
      obtain ⟨hi, hp, hs⟩ := h.fresh hn h₁
      exact ⟨hi, fun k hk => hp k (S.legal_parents hl hk), fun s hs' => hs s (S.legal_slots hl hs')⟩
  moves := h.moves.trans h'.moves
  spares hk := D.spares_trans (h.spares hk) h.later (h'.spares hk)

theorem mono (h : Rely D L c db c₁ db₁) (hw : L'.Within L) : Rely D L' c db c₁ db₁ where
  later := h.later
  same hk := h.same (hk.mono hw)
  fresh hn hr := ⟨fun m hm => (h.fresh hn hr).1 m (hw.1 hm), fun k hk hm => (h.fresh hn hr).2.1 k hk (hw.1 hm),
    fun s hs hm => (h.fresh hn hr).2.2 s hs (hw.2 hm)⟩
  moves := h.moves
  spares hk := h.spares (hw.1 hk)

/-- A row held for writing, seen through the transaction's own writes. -/
theorem same_puts (h : Rely D L c db c₁ db₁) {t : S.Table} {id : Nat} (hk : L.Writes (t, id))
    (ws : List (Put S)) : (db₁.puts ws).find t id = (db.puts ws).find t id := by
  rcases Db.find_puts_either t id ws with he | ⟨r, he⟩
  · rw [he, he, h.same hk]
  · rw [he, he]

theorem isSome_puts (h : Rely D L c db c₁ db₁) {t : S.Table} {id : Nat} (ws : List (Put S))
    (hr : ((db.puts ws).find t id).isSome) : ((db₁.puts ws).find t id).isSome := by
  rcases Db.find_puts_either t id ws with he | ⟨r, he⟩
  · rw [he] at hr ⊢
    obtain ⟨r, hr⟩ := Option.isSome_iff_exists.1 hr
    obtain ⟨r', hr', -⟩ := h.moves t id r hr
    rw [hr']; rfl
  · rw [he]; rfl

/-- A row that holds an index entry of ours was there with it before. -/
theorem slot_puts (h : Rely D L c db c₁ db₁) {t : S.Table} {id : Nat} {r : S.Row t} {s : S.Slot}
    (ws : List (Put S)) (hr : (db₁.puts ws).find t id = some r) (hs : s ∈ S.slots t r)
    (hm : (t, s) ∈ L.slots) : ∃ r₀, (db.puts ws).find t id = some r₀ ∧ s ∈ S.slots t r₀ := by
  rcases Db.find_puts_either t id ws with he | ⟨r', he⟩
  · rw [he] at hr
    cases h₀ : db.find t id with
    | none => exact absurd hm ((h.fresh h₀ hr).2.2 s hs)
    | some r₀ =>
      obtain ⟨r', hr', hl⟩ := h.moves t id r₀ h₀
      obtain rfl := Option.some.inj (hr'.symm.trans hr)
      exact ⟨r₀, (he db).trans h₀, S.legal_slots hl hs⟩
  · exact ⟨r, (he db).trans ((he db₁).symm.trans hr), hs⟩

/-- A row that refers to a row held for update was there before. -/
theorem child (h : Rely D L c db c₁ db₁) {t : S.Table} {id : Nat} {r : S.Row t}
    (hr : db₁.find t id = some r) {k : S.Table × Nat} (hk : k ∈ S.parents t r)
    (hm : (k, .update) ∈ L.rows) : ∃ r₀, db.find t id = some r₀ ∧ S.Legal t r₀ r := by
  cases h₀ : db.find t id with
  | none => exact absurd hm ((h.fresh h₀ hr).2.1 k hk)
  | some r₀ =>
    obtain ⟨r', hr', hl⟩ := h.moves t id r₀ h₀
    exact ⟨r₀, rfl, Option.some.inj (hr'.symm.trans hr) ▸ hl⟩

/-- A row that is there and locked was there when it was locked. -/
theorem there (h : Rely D L c db c₁ db₁) {t : S.Table} {id : Nat} {m : Mode} (hm : ((t, id), m) ∈ L.rows)
    {r : S.Row t} (hr : db₁.find t id = some r) : ∃ r₀, db.find t id = some r₀ ∧ S.Legal t r₀ r := by
  cases h₀ : db.find t id with
  | none => exact absurd hm ((h.fresh h₀ hr).1 m)
  | some r₀ =>
    obtain ⟨r', hr', hl⟩ := h.moves t id r₀ h₀
    exact ⟨r₀, rfl, Option.some.inj (hr'.symm.trans hr) ▸ hl⟩

end Rely

/-- What a transaction that held the locks `L` has made of the tables when it commits. -/
structure Effect (L : Locks S) (db db' : Db S) : Prop where
  writes : ∀ t id, db'.find t id = db.find t id ∨ L.Writes (t, id)
  moves : db.Moves db'
  fresh : ∀ {t id r}, db.find t id = .none → db'.find t id = some r → ((t, id), .update) ∈ L.rows ∧
    (∀ k ∈ S.parents t r, ∃ m, (k, m) ∈ L.rows) ∧ ∀ s ∈ S.slots t r, (t, s) ∈ L.slots
  sound : db.Sound → db'.Sound

namespace Effect

variable {L : Locks S} {db db' : Db S}

theorem refl (L : Locks S) (db : Db S) : Effect L db db where
  writes _ _ := .inl rfl
  moves := .refl db
  fresh h h' := absurd (h.symm.trans h') (by simp)
  sound h := h

theorem mono (h : Effect L db db') (hw : L.Within L') : Effect L' db db' where
  writes t id := (h.writes t id).imp_right (.mono hw)
  moves := h.moves
  fresh hn hr := ⟨hw.1 (h.fresh hn hr).1, fun k hk => ((h.fresh hn hr).2.1 k hk).imp fun _ hm => hw.1 hm,
    fun s hs => hw.2 ((h.fresh hn hr).2.2 s hs)⟩
  sound := h.sound

theorem update (h : Effect L db db') {t : S.Table} {id : Nat} {r r' : S.Row t}
    (hr : db'.find t id = some r) (hl : S.Legal t r r') (hc : S.check t r' = true) {m : Mode}
    (hm : m ≠ .keyShare) : Effect (L.row (t, id) m) db (db'.put ⟨t, id, r'⟩) where
  writes t₁ id₁ := by
    by_cases he : (t₁, id₁) = (t, id)
    · rw [he]; exact .inr (L.writes_row (t, id) hm)
    · rw [Db.find_put_ne he]
      exact (h.writes t₁ id₁).imp_right (.mono (L.within_row (t, id) m))
  moves t₁ id₁ r₀ h₀ := by
    obtain ⟨r₁, h₁, hl₁⟩ := h.moves t₁ id₁ r₀ h₀
    by_cases he : (t₁, id₁) = (t, id)
    · obtain ⟨rfl, rfl⟩ := Prod.mk.injEq .. ▸ he
      obtain rfl : r₁ = r := Option.some.inj (h₁.symm.trans hr)
      exact ⟨r', Db.find_put_self .., S.legal_trans hl₁ hl⟩
    · exact ⟨r₁, (Db.find_put_ne he).trans h₁, hl₁⟩
  fresh {t₁ id₁ r₁} hn hr₁ := by
    have hw := L.within_row (t, id) m
    by_cases he : (t₁, id₁) = (t, id)
    · -- the row is one this transaction had inserted
      obtain ⟨rfl, rfl⟩ := Prod.mk.injEq .. ▸ he
      rw [Db.find_put_self] at hr₁
      obtain rfl := Option.some.inj hr₁
      obtain ⟨hi, hp, hs⟩ := (h.mono hw).fresh hn hr
      exact ⟨hi, fun k hk => hp k (S.legal_parents hl hk), fun s hs' => hs s (S.legal_slots hl hs')⟩
    · rw [Db.find_put_ne he] at hr₁
      exact (h.mono hw).fresh hn hr₁
  sound hs := (h.sound hs).update hr hl hc

theorem insert (h : Effect L db db') {t : S.Table} {id : Nat} {r : S.Row t}
    (hid : db'.find t id = .none) (hp : ∀ k ∈ S.parents t r, (db'.find k.1 k.2).isSome)
    (hs : ∀ id' r', db'.find t id' = some r' → ∀ s ∈ S.slots t r', s ∉ S.slots t r)
    (hc : S.check t r = true) : Effect (L.inserted t id r) db (db'.put ⟨t, id, r⟩) where
  writes t₁ id₁ := by
    by_cases he : (t₁, id₁) = (t, id)
    · rw [he]; exact .inr (L.writes_inserted t id r)
    · rw [Db.find_put_ne he]
      exact (h.writes t₁ id₁).imp_right (.mono (L.within_inserted t id r))
  moves t₁ id₁ r₀ h₀ := by
    obtain ⟨r₁, h₁, hl₁⟩ := h.moves t₁ id₁ r₀ h₀
    have he : (t₁, id₁) ≠ (t, id) := by
      intro he
      obtain ⟨rfl, rfl⟩ := Prod.mk.injEq .. ▸ he
      exact absurd (h₁.symm.trans hid) (by simp)
    exact ⟨r₁, (Db.find_put_ne he).trans h₁, hl₁⟩
  fresh {t₁ id₁ r₁} hn hr₁ := by
    by_cases he : (t₁, id₁) = (t, id)
    · obtain ⟨rfl, rfl⟩ := Prod.mk.injEq .. ▸ he
      rw [Db.find_put_self] at hr₁
      obtain rfl := Option.some.inj hr₁
      refine ⟨List.mem_append_left _ (List.mem_cons_self ..), fun k hk => ⟨.keyShare, ?_⟩, fun s hs' => ?_⟩
      · exact List.mem_append_left _ (List.mem_cons_of_mem _ (List.mem_map_of_mem hk))
      · exact List.mem_append_left _ (List.mem_map_of_mem hs')
    · rw [Db.find_put_ne he] at hr₁
      exact (h.mono (L.within_inserted t id r)).fresh hn hr₁
  sound hd := (h.sound hd).insert hid hp hs hc

/-- To a transaction with compatible locks, the commit is one of the things it may rely on. -/
theorem rely {D : Discipline S} {c : Int} (h : Effect L db db') (ha : L.Apart L')
    (hs : ∀ k, (k, .update) ∈ L'.rows → D.Spares c k db db') : Rely D L' c db c db' where
  later := D.later_refl c
  same {t id} hk := (h.writes t id).resolve_right fun hw => ha.writes hw hk
  fresh hn hr := by
    obtain ⟨hi, hp, hsl⟩ := h.fresh hn hr
    refine ⟨fun m hm => ha.alone hi m hm, fun k hk hm => ?_, fun s hk => ha.slots (hsl s hk)⟩
    obtain ⟨m, hm'⟩ := hp k hk
    exact ha.symm.alone hm m hm'
  moves := h.moves
  spares hk := hs _ hk

end Effect

end Eth402.Lib.Relational
