/-
A pool of processes over one shared state. Each process runs a program; a scheduler picks at
every step who makes its next call, and each call is one atomic step on the shared state. A
process may be started at any time, may stop for ever between any two of its calls, and the
shared state may also be moved from outside. A run is the list of the scheduler's choices.

If every program keeps a discipline `J` (`Prog.wp`), every call of every run is allowed by `J`
given what its own process called before; so an invariant of the shared state and the log is
shown by looking at one allowed call at a time (`Kept.step_inv`).
-/
import Eth402.Lib.Program

namespace Eth402.Lib

variable {C : Type} {R : C → Type}

/-- What a pool runs on: how one call acts on the shared state in a given environment, how the
outside may move it, and the program behind each entry point. -/
structure Machine (C : Type) (R : C → Type) where
  State : Type
  Env : Type
  Move : Type
  Entry : Type
  Out : Type
  perform : State → Env → (c : C) → R c × State
  outside : State → Move → State
  code : Entry → Prog C R Out

/-- A process: the entry point it was started at and what is left to run; `none` once it has
stopped between two calls. -/
structure Proc (M : Machine C R) where
  entry : M.Entry
  rest : Option (Prog C R M.Out)

/-- The shared state, the processes by number, and the calls made so far with the number of the
process that made each one. -/
structure Config (M : Machine C R) where
  shared : M.State
  procs : List (Proc M)
  log : List (Nat × Event C R)

/-- One choice of the scheduler. -/
inductive Choice (M : Machine C R)
  | start (e : M.Entry)
  | run (pid : Nat) (env : M.Env)
  | crash (pid : Nat)
  | outside (m : M.Move)

/-- The calls of process `pid`. -/
def own (pid : Nat) (log : List (Nat × Event C R)) : List (Event C R) :=
  log.filterMap fun x => if x.1 = pid then some x.2 else none

@[simp] theorem own_nil (pid : Nat) : own pid ([] : List (Nat × Event C R)) = [] := rfl

@[simp] theorem own_snoc_self (pid : Nat) (log : List (Nat × Event C R)) (e : Event C R) :
    own pid (log ++ [(pid, e)]) = own pid log ++ [e] := by simp [own]

variable {pid n : Nat}

theorem own_snoc_ne (h : n ≠ pid) (log : List (Nat × Event C R)) (e : Event C R) :
    own pid (log ++ [(n, e)]) = own pid log := by simp [own, h]

variable {log : List (Nat × Event C R)}

theorem mem_own {e : Event C R} : e ∈ own pid log ↔ (pid, e) ∈ log := by
  unfold own
  rw [List.mem_filterMap]
  constructor
  · rintro ⟨⟨n, e'⟩, hm, h⟩
    split at h
    · rename_i hn
      cases h
      simp only at hn
      subst hn
      exact hm
    · cases h
  · intro h; exact ⟨(pid, e), h, by simp⟩

theorem own_getLast {e : Event C R} (h : (own pid log).getLast? = some e) :
    ∃ l₁ l₂, log = l₁ ++ (pid, e) :: l₂ ∧ own pid log = own pid l₁ ++ [e] := by
  induction log using List.reverseRecOn with
  | nil => cases h
  | append_singleton log x ih =>
    obtain ⟨n, e'⟩ := x
    by_cases hn : n = pid
    · subst hn
      rw [own_snoc_self, List.getLast?_concat] at h
      cases h
      exact ⟨log, [], rfl, own_snoc_self ..⟩
    · rw [own_snoc_ne hn] at h ⊢
      obtain ⟨l₁, l₂, rfl, hown⟩ := ih h
      exact ⟨l₁, l₂ ++ [(n, e')], by simp, hown⟩

variable {M : Machine C R}

/-- The pool with no process yet. -/
def Config.init (s : M.State) : Config M := ⟨s, [], []⟩

/-- One step. A choice that names no process with a call left changes nothing. -/
def Config.step (c : Config M) : Choice M → Config M
  | .start e => { c with procs := c.procs ++ [⟨e, some (M.code e)⟩] }
  | .run pid env =>
    match c.procs[pid]? with
    | some ⟨e, some (.call q k)⟩ =>
      let r := M.perform c.shared env q
      { shared := r.2, procs := c.procs.set pid ⟨e, some (k r.1)⟩, log := c.log ++ [(pid, ⟨q, r.1⟩)] }
    | _ => c
  | .crash pid =>
    match c.procs[pid]? with
    | some p => { c with procs := c.procs.set pid ⟨p.entry, none⟩ }
    | none => c
  | .outside m => { c with shared := M.outside c.shared m }

/-- A run: the choices one after the other. -/
def Config.exec (c : Config M) (chs : List (Choice M)) : Config M := chs.foldl Config.step c

@[simp] theorem exec_nil (c : Config M) : c.exec [] = c := rfl

@[simp] theorem exec_cons (c : Config M) (ch : Choice M) (chs : List (Choice M)) :
    c.exec (ch :: chs) = (c.step ch).exec chs := rfl

theorem exec_append (c : Config M) (l₁ l₂ : List (Choice M)) :
    c.exec (l₁ ++ l₂) = (c.exec l₁).exec l₂ := List.foldl_append

theorem exec_snoc (c : Config M) (l : List (Choice M)) (ch : Choice M) :
    c.exec (l ++ [ch]) = (c.exec l).step ch := by rw [exec_append]; rfl

/-- What a process returned. -/
def Config.returned (c : Config M) (pid : Nat) (e : M.Entry) (out : M.Out) : Prop :=
  c.procs[pid]? = some ⟨e, some (.pure out)⟩

/-- The result of process `pid`, once it has one. -/
def Config.output (c : Config M) (pid : Nat) : Option M.Out :=
  match c.procs[pid]? with
  | some ⟨_, some (.pure out)⟩ => some out
  | _ => none

/-- The entry points a run starts, in order. -/
def started (chs : List (Choice M)) : List M.Entry :=
  chs.filterMap fun
    | .start e => some e
    | _ => none

/-! ## What a step can be -/

/-- A step either makes the next call of one process, or makes no call and leaves the log. -/
theorem step_cases (c : Config M) (ch : Choice M) :
    (∃ pid env e q k, ch = .run pid env ∧ c.procs[pid]? = some ⟨e, some (.call q k)⟩ ∧
      c.step ch = ⟨(M.perform c.shared env q).2,
        c.procs.set pid ⟨e, some (k (M.perform c.shared env q).1)⟩,
        c.log ++ [(pid, ⟨q, (M.perform c.shared env q).1⟩)]⟩) ∨
    ((c.step ch).log = c.log ∧
      ((c.step ch).shared = c.shared ∨ ∃ m, ch = .outside m ∧ (c.step ch).shared = M.outside c.shared m)) := by
  cases ch with
  | start e => exact .inr ⟨rfl, .inl rfl⟩
  | outside m => exact .inr ⟨rfl, .inr ⟨m, rfl, rfl⟩⟩
  | crash pid =>
    refine .inr ?_
    simp only [Config.step]
    split <;> exact ⟨rfl, .inl rfl⟩
  | run pid env =>
    simp only [Config.step]
    split
    · rename_i e q k h
      exact .inl ⟨pid, env, e, q, k, rfl, h, rfl⟩
    · exact .inr ⟨rfl, .inl rfl⟩

variable {e : M.Entry} {c : Config M}

/-- The step that makes the next call of a process. -/
theorem step_run {q : C} {k : R q → Prog C R M.Out} (h : c.procs[pid]? = some ⟨e, some (.call q k)⟩) (env : M.Env) :
    (c.step (.run pid env)).shared = (M.perform c.shared env q).2 := by
  simp only [Config.step, h]

theorem log_step (c : Config M) (ch : Choice M) : c.log <+: (c.step ch).log := by
  rcases step_cases c ch with ⟨pid, env, e, q, k, -, -, hs⟩ | ⟨hl, -⟩
  · rw [hs]; exact List.prefix_append ..
  · rw [hl]

theorem log_exec (c : Config M) (chs : List (Choice M)) : c.log <+: (c.exec chs).log := by
  induction chs generalizing c with
  | nil => exact List.prefix_refl _
  | cons ch chs ih => exact (log_step c ch).trans (ih _)

/-- A process keeps the entry point it was started at, and processes are numbered as they are started. -/
theorem entries_exec (c : Config M) (chs : List (Choice M)) :
    (c.exec chs).procs.map (·.entry) = c.procs.map (·.entry) ++ started chs := by
  have set_entry : ∀ (l : List (Proc M)) (pid : Nat) (p : Proc M) (rest : Option (Prog C R M.Out)),
      l[pid]? = some p → (l.set pid ⟨p.entry, rest⟩).map (·.entry) = l.map (·.entry) := by
    intro l pid p rest hp
    rw [List.map_set]
    refine List.ext_getElem? fun n => ?_
    rw [List.getElem?_set]
    split
    · rename_i hn
      subst hn
      obtain ⟨hlt, rfl⟩ := List.getElem?_eq_some_iff.1 hp
      simp [hlt]
    · rfl
  induction chs generalizing c with
  | nil => simp [started]
  | cons ch chs ih =>
    rw [exec_cons, ih]
    cases ch with
    | start e => simp [Config.step, started]
    | outside m => rfl
    | crash pid =>
      simp only [Config.step]
      split
      · rename_i p hp
        rw [set_entry c.procs pid p none hp]; rfl
      · rfl
    | run pid env =>
      simp only [Config.step]
      split
      · rename_i e q k hp
        rw [set_entry c.procs pid ⟨e, some (.call q k)⟩ _ hp]; rfl
      · rfl

/-- The entry point of process `n`. -/
def Config.entryOf (c : Config M) (n : Nat) : Option M.Entry := c.procs[n]?.map (·.entry)

theorem entryOf_step (hn : n < c.procs.length) (ch : Choice M) : (c.step ch).entryOf n = c.entryOf n := by
  have h := entries_exec c [ch]
  unfold Config.entryOf
  rw [← List.getElem?_map, ← List.getElem?_map, show (c.step ch).procs.map (·.entry) = _ from h,
    List.getElem?_append_left (by rw [List.length_map]; exact hn)]

theorem entryOf_start (c : Config M) (e : M.Entry) : (c.step (.start e)).entryOf c.procs.length = some e := by
  simp [Config.entryOf, Config.step]

theorem lt_of_entryOf (h : c.entryOf n = some e) : n < c.procs.length := by
  obtain ⟨p, hp, -⟩ := Option.map_eq_some_iff.1 h
  exact (List.getElem?_eq_some_iff.1 hp).1

theorem entryOf_step_cases {ch : Choice M} (h : (c.step ch).entryOf n = some e) :
    n < c.procs.length ∨ n = c.procs.length ∧ ch = .start e := by
  by_cases hn : n < c.procs.length
  · exact .inl hn
  · have hlen := lt_of_entryOf h
    cases ch with
    | start e' =>
      have hn' : n = c.procs.length := by
        simp only [Config.step, List.length_append, List.length_singleton] at hlen
        omega
      subst hn'
      rw [entryOf_start] at h
      cases h
      exact .inr ⟨rfl, rfl⟩
    | outside m => exact absurd hlen hn
    | crash m | run m env =>
      simp only [Config.step] at hlen
      split at hlen
      · rw [List.length_set] at hlen; exact absurd hlen hn
      · exact absurd hlen hn

/-- The processes of a run from the empty pool are those it started. -/
theorem entryOf_init_exec (s : M.State) (chs : List (Choice M)) (n : Nat) :
    ((Config.init s).exec chs).entryOf n = (started chs)[n]? := by
  unfold Config.entryOf
  rw [← List.getElem?_map, entries_exec]
  rfl

/-- Process `n` has a call left to make. -/
def Config.Running (c : Config M) (n : Nat) : Prop := ∃ e q k, c.procs[n]? = some ⟨e, some (.call q k)⟩

instance (c : Config M) (n : Nat) : Decidable (c.Running n) :=
  match h : c.procs[n]? with
  | some ⟨e, some (.call q k)⟩ => .isTrue ⟨e, q, k, h⟩
  | some ⟨_, some (.pure _)⟩ | some ⟨_, none⟩ | none => .isFalse fun ⟨_, _, _, h'⟩ => by rw [h] at h'; cases h'

theorem lt_of_running (h : c.Running n) : n < c.procs.length := by
  obtain ⟨e, q, k, hp⟩ := h
  exact (List.getElem?_eq_some_iff.1 hp).1

/-- What stands in a list after one element was replaced. -/
theorem getElem?_set_some {α : Type} {l : List α} {i : Nat} {a x : α} (h : (l.set i a)[n]? = some x) :
    i = n ∧ x = a ∨ i ≠ n ∧ l[n]? = some x := by
  rw [List.getElem?_set] at h
  split at h
  · split at h
    · exact .inl ⟨‹_›, (Option.some.inj h).symm⟩
    · cases h
  · exact .inr ⟨‹_›, h⟩

/-- A process that has no call left never makes one again. -/
theorem stopped_step (hn : n < c.procs.length) (h : ¬ c.Running n) (ch : Choice M) : ¬ (c.step ch).Running n := by
  rintro ⟨e, q, k, hp⟩
  apply h
  cases ch with
  | start e' =>
    simp only [Config.step, List.getElem?_append_left hn] at hp
    exact ⟨e, q, k, hp⟩
  | outside m => exact ⟨e, q, k, hp⟩
  | crash m =>
    simp only [Config.step] at hp
    split at hp
    · rcases getElem?_set_some hp with ⟨-, hp⟩ | ⟨-, hp⟩
      · cases hp
      · exact ⟨e, q, k, hp⟩
    · exact ⟨e, q, k, hp⟩
  | run m env =>
    simp only [Config.step] at hp
    split at hp
    · rename_i e' q' k' hq
      rcases getElem?_set_some hp with ⟨rfl, -⟩ | ⟨-, hp⟩
      · exact ⟨e', q', k', hq⟩
      · exact ⟨e, q, k, hp⟩
    · exact ⟨e, q, k, hp⟩

variable {chs : List (Choice M)}

/-- A process returned what it put out, from the entry point the run started it at. -/
theorem returned_of_output {s : M.State} {out : M.Out}
    (he : (started chs)[pid]? = some e) (ho : ((Config.init s).exec chs).output pid = some out) :
    ((Config.init s).exec chs).returned pid e out := by
  have hentry : (((Config.init s).exec chs).procs.map (·.entry))[pid]? = some e := by
    rw [entries_exec]; exact he
  unfold Config.output at ho
  split at ho
  · rename_i e' out' hp
    cases ho
    rw [List.getElem?_map, hp] at hentry
    cases hentry
    exact hp
  · cases ho

theorem not_returned_of_output (ho : c.output pid = none) (e : M.Entry) (out : M.Out) : ¬ c.returned pid e out := by
  intro h
  unfold Config.output at ho
  rw [h] at ho
  cases ho

/-! ## The discipline of every run -/

/-- Every call of `evs` was allowed by `J` after those before it. -/
def Disciplined (J : List (Event C R) → C → Prop) (evs : List (Event C R)) : Prop :=
  ∀ a x b, evs = a ++ x :: b → J a x.call

theorem Disciplined.snoc {J : List (Event C R) → C → Prop} {evs : List (Event C R)} (h : Disciplined J evs)
    {e : Event C R} (he : J evs e.call) : Disciplined J (evs ++ [e]) := by
  intro a x b hab
  rcases List.eq_nil_or_concat b with rfl | ⟨b', y, rfl⟩
  · obtain ⟨rfl, hx⟩ := List.append_inj' hab rfl
    cases hx
    exact he
  · rw [List.concat_eq_append, ← List.cons_append, ← List.append_assoc] at hab
    exact h a x b' (List.append_inj' hab rfl).1

/-- Every process still meets the discipline of its entry point from the calls it has made, all of
which were allowed, and the log names only processes that exist. -/
structure Kept (J : M.Entry → List (Event C R) → C → Prop) (Q : M.Entry → List (Event C R) → M.Out → Prop)
    (c : Config M) : Prop where
  wp : ∀ pid e p, c.procs[pid]? = some ⟨e, some p⟩ → Prog.wp (J e) (own pid c.log) p (Q e)
  past : ∀ pid p, c.procs[pid]? = some p → Disciplined (J p.entry) (own pid c.log)
  pids : ∀ x ∈ c.log, x.1 < c.procs.length

variable {J : M.Entry → List (Event C R) → C → Prop} {Q : M.Entry → List (Event C R) → M.Out → Prop}

theorem Kept.init (s : M.State) : Kept (M := M) J Q (Config.init s) :=
  ⟨fun pid e p h => by simp [Config.init] at h, fun pid p h => by simp [Config.init] at h,
    by simp [Config.init]⟩

theorem own_fresh (h : ∀ x ∈ log, x.1 < n) : own n log = [] := by
  unfold own
  rw [List.filterMap_eq_nil_iff]
  intro x hx
  have := h x hx
  rw [if_neg (by omega)]

theorem Kept.start (hcode : ∀ e, Prog.wp (J e) [] (M.code e) (Q e)) (h : Kept J Q c) (e : M.Entry) :
    Kept J Q (c.step (.start e)) := by
  have hnew : own c.procs.length c.log = [] := own_fresh h.pids
  have hget : ∀ (pid : Nat) (p : Proc M), (c.step (.start e)).procs[pid]? = some p →
      c.procs[pid]? = some p ∨ pid = c.procs.length ∧ p = ⟨e, some (M.code e)⟩ := by
    intro pid p hp
    simp only [Config.step, List.getElem?_append] at hp
    split at hp
    · exact .inl hp
    · rw [List.getElem?_singleton] at hp
      split at hp
      · cases hp; exact .inr ⟨by omega, rfl⟩
      · cases hp
  refine ⟨fun pid e' p hp => ?_, fun pid p hp => ?_, fun x hx => ?_⟩
  · rcases hget pid _ hp with hold | ⟨rfl, hnew'⟩
    · exact h.wp pid e' p hold
    · cases hnew'
      simp only [Config.step, hnew]
      exact hcode e
  · rcases hget pid p hp with hp | ⟨rfl, rfl⟩
    · exact h.past pid p hp
    · intro a x b hab
      simp only [Config.step, hnew] at hab
      cases a <;> cases hab
  · have := h.pids x hx
    simp only [Config.step, List.length_append, List.length_singleton]
    omega

theorem Kept.crash (h : Kept J Q c) (pid : Nat) : Kept J Q (c.step (.crash pid)) := by
  simp only [Config.step]
  split
  · rename_i p₀ hp₀
    refine ⟨fun n e p hp => ?_, fun n p hp => ?_, fun x hx => by simpa using h.pids x hx⟩
    · rcases getElem?_set_some hp with ⟨-, hp⟩ | ⟨-, hp⟩
      · cases hp
      · exact h.wp n e p hp
    · rcases getElem?_set_some hp with ⟨rfl, rfl⟩ | ⟨-, hp⟩
      · exact h.past pid p₀ hp₀
      · exact h.past n p hp
  · exact h

theorem Kept.run (h : Kept J Q c) (pid : Nat) (env : M.Env) : Kept J Q (c.step (.run pid env)) := by
  simp only [Config.step]
  split
  · rename_i e q k hq
    have hlen : pid < c.procs.length := by rw [List.getElem?_eq_some_iff] at hq; exact hq.1
    have hw := (Prog.wp_call q k (Q e)).1 (h.wp pid e _ hq)
    refine ⟨fun n e' p hp => ?_, fun n p hp => ?_, fun x hx => ?_⟩
    · rcases getElem?_set_some hp with ⟨rfl, hp'⟩ | ⟨hn, hp⟩
      · cases hp'
        simp only [own_snoc_self]
        exact hw.2 _
      · rw [own_snoc_ne hn]
        exact h.wp n e' p hp
    · rcases getElem?_set_some hp with ⟨rfl, rfl⟩ | ⟨hn, hp⟩
      · simp only [own_snoc_self]
        exact (h.past pid _ hq).snoc hw.1
      · rw [own_snoc_ne hn]
        exact h.past n p hp
    · simp only [List.length_set]
      rcases List.mem_append.1 hx with hx | hx
      · exact h.pids x hx
      · simp only [List.mem_singleton] at hx; subst hx; exact hlen
  · exact h

theorem Kept.step (hcode : ∀ e, Prog.wp (J e) [] (M.code e) (Q e)) (h : Kept J Q c) (ch : Choice M) :
    Kept J Q (c.step ch) := by
  cases ch with
  | start e => exact h.start hcode e
  | run pid env => exact h.run pid env
  | crash pid => exact h.crash pid
  | outside m => exact ⟨h.wp, h.past, h.pids⟩

theorem Kept.exec (hcode : ∀ e, Prog.wp (J e) [] (M.code e) (Q e)) (h : Kept J Q c) (chs : List (Choice M)) :
    Kept J Q (c.exec chs) := by
  induction chs generalizing c with
  | nil => exact h
  | cons ch chs ih => exact ih (h.step hcode ch)

/-- A process that returned met its postcondition. -/
theorem Kept.post (h : Kept J Q c) {out : M.Out} (hr : c.returned pid e out) :
    Q e (own pid c.log) out := h.wp pid e _ hr

/-- A process that returns at a step made its last call there, unless it was started there and made none. -/
theorem Kept.returns_at (h : Kept J Q c) {ch : Choice M} {out : M.Out}
    (hnot : ∀ e out, ¬ c.returned pid e out) (hr : (c.step ch).returned pid e out) :
    (∃ env q, ch = .run pid env ∧ (c.step ch).shared = (M.perform c.shared env q).2 ∧
      (c.step ch).log = c.log ++ [(pid, ⟨q, (M.perform c.shared env q).1⟩)]) ∨ own pid (c.step ch).log = [] := by
  cases ch with
  | start e' =>
    change (c.procs ++ [⟨e', some (M.code e')⟩])[pid]? = some ⟨e, some (.pure out)⟩ at hr
    by_cases hlt : pid < c.procs.length
    · rw [List.getElem?_append_left hlt] at hr
      exact (hnot e out hr).elim
    · exact .inr (own_fresh fun x hx => Nat.lt_of_lt_of_le (h.pids x hx) (Nat.le_of_not_lt hlt))
  | outside m => exact (hnot e out hr).elim
  | crash n =>
    simp only [Config.step, Config.returned] at hr
    split at hr
    · rcases getElem?_set_some hr with ⟨-, hr⟩ | ⟨-, hr⟩
      · cases hr
      · exact (hnot e out hr).elim
    · exact (hnot e out hr).elim
  | run n env =>
    simp only [Config.step, Config.returned] at hr ⊢
    split at hr
    · rename_i e' q k hp
      rcases getElem?_set_some hr with ⟨rfl, -⟩ | ⟨-, hr⟩
      · exact .inl ⟨env, q, rfl, rfl, rfl⟩
      · exact (hnot e out hr).elim
    · exact (hnot e out hr).elim

/-! ## Invariants of runs -/

/-- `P` holds of every choice of the run where it is made. -/
def Along (P : Config M → Choice M → Prop) : Config M → List (Choice M) → Prop
  | _, [] => True
  | c, ch :: chs => P c ch ∧ Along P (c.step ch) chs

theorem along_append {P : Config M → Choice M → Prop} {l₁ l₂ : List (Choice M)} :
    Along P c (l₁ ++ l₂) ↔ Along P c l₁ ∧ Along P (c.exec l₁) l₂ := by
  induction l₁ generalizing c with
  | nil => simp [Along]
  | cons ch l₁ ih => simp [Along, ih, and_assoc]

theorem along_of_forall {P : Config M → Choice M → Prop} (h : ∀ c ch, P c ch) (c : Config M) (chs : List (Choice M)) :
    Along P c chs := by
  induction chs generalizing c with
  | nil => trivial
  | cons ch chs ih => exact ⟨h c ch, ih _⟩

instance Along.decidable {P : Config M → Choice M → Prop} [∀ c ch, Decidable (P c ch)] :
    (c : Config M) → (chs : List (Choice M)) → Decidable (Along P c chs)
  | _, [] => .isTrue trivial
  | c, ch :: chs =>
    have := Along.decidable (P := P) (c.step ch) chs
    inferInstanceAs (Decidable (P c ch ∧ Along P (c.step ch) chs))

/-- What holds of the call a process makes next, if it has one left. -/
def NextCall (P : C → Prop) : Option (Proc M) → Prop
  | some ⟨_, some (.call q _)⟩ => P q
  | _ => True

instance NextCall.decidable {P : C → Prop} [∀ q, Decidable (P q)] : (p : Option (Proc M)) → Decidable (NextCall P p)
  | some ⟨_, some (.call q _)⟩ => inferInstanceAs (Decidable (P q))
  | some ⟨_, some (.pure _)⟩ | some ⟨_, none⟩ | none => .isTrue trivial

/-- What an observer notes of the shared state, step by step. -/
def observed {β : Type} (note : M.State → M.State → List β) : Config M → List (Choice M) → List β
  | _, [] => []
  | c, ch :: chs => note c.shared (c.step ch).shared ++ observed note (c.step ch) chs

theorem observed_snoc {β : Type} (note : M.State → M.State → List β) (c : Config M) (chs : List (Choice M))
    (ch : Choice M) : observed note c (chs ++ [ch]) =
      observed note c chs ++ note (c.exec chs).shared ((c.exec chs).step ch).shared := by
  induction chs generalizing c with
  | nil => simp [observed]
  | cons x chs ih => simp [observed, ih, List.append_assoc]

/-- What `f` notes of the choices of a run, each where it is made. -/
def noted {β : Type} (f : Config M → Choice M → Option β) : Config M → List (Choice M) → List β
  | _, [] => []
  | c, ch :: chs => (f c ch).toList ++ noted f (c.step ch) chs

theorem mem_noted {β : Type} {f : Config M → Choice M → Option β} {b : β} (h : b ∈ noted f c chs) :
    ∃ before ch rest, chs = before ++ ch :: rest ∧ f (c.exec before) ch = some b := by
  induction chs generalizing c with
  | nil => cases h
  | cons ch chs ih =>
    rcases List.mem_append.1 h with h | h
    · exact ⟨[], ch, chs, rfl, Option.mem_toList.1 h⟩
    · obtain ⟨before, x, rest, rfl, hb⟩ := ih h
      exact ⟨ch :: before, x, rest, rfl, hb⟩

/-- Every step of the run that makes a call meets `P` at the shared state and the log it starts
from. -/
def CallsAlong (P : M.State → List (Nat × Event C R) → Nat → M.Env → C → Prop) : Config M → List (Choice M) → Prop :=
  Along fun c ch => ∀ pid env e q k, ch = .run pid env → c.procs[pid]? = some ⟨e, some (.call q k)⟩ →
    P c.shared c.log pid env q

/-- A test carried out along a run, on every call and the state, the log and the process it is made with. -/
def testCalls (b : M.State → List (Nat × Event C R) → Nat → C → Bool) : Config M → List (Choice M) → Bool
  | _, [] => true
  | c, .run pid env :: chs =>
    (match c.procs[pid]? with
      | some ⟨_, some (.call q _)⟩ => b c.shared c.log pid q
      | _ => true) && testCalls b (c.step (.run pid env)) chs
  | c, ch :: chs => testCalls b (c.step ch) chs

theorem CallsAlong.of_test {b : M.State → List (Nat × Event C R) → Nat → C → Bool} (h : testCalls b c chs = true) :
    CallsAlong (fun s log pid _ q => b s log pid q = true) c chs := by
  induction chs generalizing c with
  | nil => trivial
  | cons ch chs ih =>
    cases ch with
    | run pid env =>
      simp only [testCalls, Bool.and_eq_true] at h
      refine ⟨fun pid' env' e q k hch hq => ?_, ih h.2⟩
      cases hch
      have hb := h.1
      rw [hq] at hb
      exact hb
    | start e | crash pid | outside m => exact ⟨fun _ _ _ _ _ hch => (by cases hch), ih h⟩

/-- A test of the shared state and the call, passed by every call of the run. -/
def Passes (b : M.State → C → Bool) : Config M → List (Choice M) → Prop :=
  CallsAlong fun s _ _ _ q => b s q = true

/-- The test carried out along a run. -/
def passes (b : M.State → C → Bool) : Config M → List (Choice M) → Bool := testCalls fun s _ _ q => b s q

theorem Passes.of_test {b : M.State → C → Bool} (h : passes b c chs = true) : Passes b c chs := CallsAlong.of_test h

/-- An invariant of the shared state and the log: it is enough that every allowed call keeps it,
and every move from outside. -/
theorem Kept.step_inv {I : M.State → List (Nat × Event C R) → Prop} (h : Kept J Q c) (ch : Choice M)
    (hcall : ∀ pid env q e k, ch = .run pid env → c.procs[pid]? = some ⟨e, some (.call q k)⟩ →
      J e (own pid c.log) q → Disciplined (J e) (own pid c.log) →
      I (M.perform c.shared env q).2 (c.log ++ [(pid, ⟨q, (M.perform c.shared env q).1⟩)]))
    (hout : ∀ m, ch = .outside m → I (M.outside c.shared m) c.log) (hi : I c.shared c.log) :
    I (c.step ch).shared (c.step ch).log := by
  rcases step_cases c ch with ⟨pid, env, e, q, k, rfl, hq, hs⟩ | ⟨hl, hsh | ⟨m, rfl, hsh⟩⟩
  · rw [hs]
    exact hcall pid env q e k rfl hq (h.wp pid e _ hq).1 (h.past pid _ hq)
  · rw [hl, hsh]; exact hi
  · rw [hl, hsh]; exact hout m rfl

/-- The invariant rule for whole runs, over the calls that meet `P`. -/
theorem Kept.exec_inv (hcode : ∀ e, Prog.wp (J e) [] (M.code e) (Q e))
    {P : M.State → List (Nat × Event C R) → Nat → M.Env → C → Prop} {V : M.State → M.Move → Prop}
    {I : M.State → List (Nat × Event C R) → Prop}
    (hcall : ∀ s log pid env q e, I s log → J e (own pid log) q → Disciplined (J e) (own pid log) →
      P s log pid env q → I (M.perform s env q).2 (log ++ [(pid, ⟨q, (M.perform s env q).1⟩)]))
    (hout : ∀ s log m, I s log → V s m → I (M.outside s m) log) (h : Kept J Q c) (hi : I c.shared c.log)
    (hP : CallsAlong P c chs) (hV : Along (fun c ch => ∀ m, ch = .outside m → V c.shared m) c chs) :
    I (c.exec chs).shared (c.exec chs).log := by
  induction chs generalizing c with
  | nil => exact hi
  | cons ch chs ih =>
    refine ih (h.step hcode ch) ?_ hP.2 hV.2
    exact h.step_inv ch
      (fun pid env q e k hch hp hj hd => hcall _ _ pid env q e hi hj hd (hP.1 pid env e q k hch hp))
      (fun m hm => hout _ _ m hi (hV.1 m hm)) hi

/-! ## Where a logged call was made -/

/-- Every call of the log was made at a prefix of the run: there the log held what precedes the
call, the call was allowed, and it was answered and acted as `perform` says. -/
theorem made_at (hcode : ∀ e, Prog.wp (J e) [] (M.code e) (Q e)) (hk : Kept J Q c)
    {l₁ l₂ : List (Nat × Event C R)} {e : Event C R} (hl : (c.exec chs).log = c.log ++ (l₁ ++ (pid, e) :: l₂)) :
    ∃ chs₁ env chs₂ en k, chs = chs₁ ++ .run pid env :: chs₂ ∧ (c.exec chs₁).log = c.log ++ l₁ ∧
      (c.exec chs₁).procs[pid]? = some ⟨en, some (.call e.call k)⟩ ∧
      J en (own pid (c.log ++ l₁)) e.call ∧ Disciplined (J en) (own pid (c.log ++ l₁)) ∧
      (M.perform (c.exec chs₁).shared env e.call).1 = e.answer ∧
      (c.exec (chs₁ ++ [.run pid env])).shared = (M.perform (c.exec chs₁).shared env e.call).2 ∧
      (c.exec (chs₁ ++ [.run pid env])).log = c.log ++ (l₁ ++ [(pid, e)]) := by
  induction chs using List.reverseRecOn generalizing l₂ with
  | nil =>
    have := congrArg List.length hl
    simp at this
  | append_singleton chs ch ih =>
    rw [exec_snoc] at hl
    have hkept := hk.exec hcode chs
    rcases step_cases (c.exec chs) ch with ⟨n, env, en, q, k, rfl, hq, hs⟩ | ⟨hlog, _⟩
    · rw [hs] at hl
      simp only at hl
      rcases List.eq_nil_or_concat l₂ with rfl | ⟨l₃, x, rfl⟩
      · -- the last call of the log is the one this step makes
        rw [← List.append_assoc] at hl
        obtain ⟨hpre, hlast⟩ := List.append_inj' hl rfl
        cases hlast
        refine ⟨chs, env, [], en, k, rfl, hpre, hq, hpre ▸ (hkept.wp pid en _ hq).1,
          hpre ▸ hkept.past pid _ hq, rfl, ?_, ?_⟩
        · rw [exec_snoc, hs]
        · rw [exec_snoc, hs]; simp [hpre]
      · have hl' : (c.exec chs).log = c.log ++ (l₁ ++ (pid, e) :: l₃) := by
          rw [List.concat_eq_append, ← List.cons_append, ← List.append_assoc l₁, ← List.append_assoc c.log] at hl
          exact (List.append_inj' hl rfl).1
        obtain ⟨chs₁, env', chs₂, en', k', rfl, rest⟩ := ih hl'
        exact ⟨chs₁, env', chs₂ ++ [.run n env], en', k', by simp, rest⟩
    · rw [hlog] at hl
      obtain ⟨chs₁, env', chs₂, en', k', rfl, rest⟩ := ih hl
      exact ⟨chs₁, env', chs₂ ++ [ch], en', k', by simp, rest⟩

end Eth402.Lib
