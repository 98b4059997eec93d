/-
Tables as lists of rows: the update of the rows a condition selects, how it meets the usual operations
on lists, and the scan of result rows that may fail.
-/
import Mathlib.Data.List.Basic
import Mathlib.Data.List.Nodup
import Mathlib.Tactic.Common

namespace Eth402.Lib

variable {α β : Type}

/-- The rows `w` selects are changed by `f`, the others stay. -/
def mapIf (w : α → Bool) (f : α → α) (l : List α) : List α := l.map fun r => if w r then f r else r

variable {w : α → Bool} {f : α → α} {l : List α}

theorem mem_mapIf {x : α} : x ∈ mapIf w f l ↔ (∃ r ∈ l, w r = true ∧ f r = x) ∨ (x ∈ l ∧ w x = false) := by
  simp only [mapIf, List.mem_map]
  constructor
  · rintro ⟨r, hr, h⟩
    by_cases hw : w r = true
    · rw [if_pos hw] at h; exact .inl ⟨r, hr, hw, h⟩
    · rw [if_neg hw] at h; subst h; exact .inr ⟨hr, by simpa using hw⟩
  · rintro (⟨r, hr, hw, h⟩ | ⟨hx, hw⟩)
    · exact ⟨r, hr, by rw [if_pos hw, h]⟩
    · exact ⟨x, hx, by simp [hw]⟩

theorem mapIf_of_false (h : ∀ r ∈ l, w r = false) : mapIf w f l = l := by
  unfold mapIf
  conv => rhs; rw [← List.map_id l]
  exact List.map_congr_left fun r hr => by simp [h r hr]

/-- Every row of `xs` lives on in `ys`, as one that `R` relates to it. -/
def LiveOn (R : α → α → Prop) (xs ys : List α) : Prop := ∀ x ∈ xs, ∃ y ∈ ys, R x y

section LiveOn

variable {R : α → α → Prop} {xs ys zs : List α}

theorem LiveOn.refl (hR : ∀ x, R x x) (xs : List α) : LiveOn R xs xs := fun x hx => ⟨x, hx, hR x⟩

theorem LiveOn.trans (hR : ∀ {x y z}, R x y → R y z → R x z) (h₁ : LiveOn R xs ys) (h₂ : LiveOn R ys zs) :
    LiveOn R xs zs := fun x hx => by
  obtain ⟨y, hy, hxy⟩ := h₁ x hx
  obtain ⟨z, hz, hyz⟩ := h₂ y hy
  exact ⟨z, hz, hR hxy hyz⟩

theorem LiveOn.snoc (h : LiveOn R xs ys) (new : α) : LiveOn R xs (ys ++ [new]) := fun x hx => by
  obtain ⟨y, hy, hxy⟩ := h x hx
  exact ⟨y, List.mem_append_left _ hy, hxy⟩

theorem LiveOn.mapIf (hR : ∀ x, R x x) (hf : ∀ r ∈ l, w r = true → R r (f r)) : LiveOn R l (mapIf w f l) := by
  intro r hr
  by_cases hw : w r = true
  · exact ⟨f r, mem_mapIf.2 (.inl ⟨r, hr, hw, rfl⟩), hf r hr hw⟩
  · exact ⟨r, mem_mapIf.2 (.inr ⟨hr, by simpa using hw⟩), hR r⟩

end LiveOn

theorem mapIf_append (w : α → Bool) (f : α → α) (l₁ l₂ : List α) :
    mapIf w f (l₁ ++ l₂) = mapIf w f l₁ ++ mapIf w f l₂ := List.map_append

variable {k : α → β}

theorem map_mapIf_of_keeps (h : ∀ r, w r = true → k (f r) = k r) (l : List α) : (mapIf w f l).map k = l.map k := by
  rw [mapIf, List.map_map]
  refine List.map_congr_left fun r _ => ?_
  by_cases hw : w r = true
  · simp [hw, h r hw]
  · simp [hw]

theorem filterMap_mapIf_of_keeps {k : α → Option β} (h : ∀ r, w r = true → k (f r) = k r) (l : List α) :
    (mapIf w f l).filterMap k = l.filterMap k := by
  rw [mapIf, List.filterMap_map]
  refine List.filterMap_congr fun r _ => ?_
  by_cases hw : w r = true
  · simp [hw, h r hw]
  · simp [hw]

theorem filter_mapIf {q : α → Bool} (h : ∀ r, w r = true → q (f r) = q r) (l : List α) :
    (mapIf w f l).filter q = mapIf w f (l.filter q) := by
  induction l with
  | nil => rfl
  | cons r l ih =>
    have hq : q (if w r then f r else r) = q r := by
      by_cases hw : w r = true
      · rw [if_pos hw]; exact h r hw
      · rw [if_neg hw]
    change List.filter q ((if w r then f r else r) :: mapIf w f l) = _
    by_cases hr : q r = true
    · rw [List.filter_cons_of_pos (by rw [hq]; exact hr), List.filter_cons_of_pos hr, ih]; rfl
    · rw [List.filter_cons_of_neg (by rw [hq]; exact hr), List.filter_cons_of_neg hr, ih]

/-- An update seen through an abstraction of the rows. -/
theorem map_mapIf {w' : β → Bool} {f' : β → β}
    (hw : ∀ r ∈ l, w r = w' (k r)) (hf : ∀ r ∈ l, w r = true → k (f r) = f' (k r)) :
    (mapIf w f l).map k = mapIf w' f' (l.map k) := by
  simp only [mapIf, List.map_map]
  refine List.map_congr_left fun r hr => ?_
  by_cases h : w r = true
  · simp [← hw r hr, h, hf r hr h]
  · simp [← hw r hr, h]

theorem eq_of_key (h : (l.map k).Nodup) {a b : α} (ha : a ∈ l) (hb : b ∈ l) (hk : k a = k b) :
    a = b := List.inj_on_of_nodup_map h ha hb hk

theorem eq_singleton_of_key (h : (l.map k).Nodup) {x : α} (hx : x ∈ l) (hall : ∀ y ∈ l, k y = k x) : l = [x] := by
  match l with
  | [] => cases hx
  | [y] => rw [List.mem_singleton.1 hx]
  | y :: z :: rest =>
    have hyz : k y = k z := (hall y (by simp)).trans (hall z (by simp)).symm
    simp [hyz] at h

theorem filter_eq_singleton_of_key (h : (l.map k).Nodup) {x : α} (hx : x ∈ l)
    (hw : w x = true) (hall : ∀ y ∈ l, w y = true → k y = k x) : l.filter w = [x] := by
  refine eq_singleton_of_key (k := k) (h.sublist (List.filter_sublist.map k)) (List.mem_filter.2 ⟨hx, hw⟩) fun y hy =>
    ?_
  obtain ⟨hy, hwy⟩ := List.mem_filter.1 hy
  exact hall y hy hwy

theorem eq_of_partialKey {k : α → Option β} (h : (l.filterMap k).Nodup) {a b : α} {x : β} (ha : a ∈ l)
    (hb : b ∈ l) (hka : k a = some x) (hkb : k b = some x) : a = b := by
  induction l with
  | nil => cases ha
  | cons y l ih =>
    -- the key of the first row is no key of a later one
    have first : k y = some x → ∀ z ∈ l, k z ≠ some x := fun hy z hz hkz => by
      rw [List.filterMap_cons_some hy] at h
      exact (List.nodup_cons.1 h).1 (List.mem_filterMap.2 ⟨z, hz, hkz⟩)
    have rest : (l.filterMap k).Nodup := (List.Sublist.filterMap k (List.sublist_cons_self y l)).nodup h
    rcases List.mem_cons.1 ha with rfl | hal
    · rcases List.mem_cons.1 hb with rfl | hbl
      · rfl
      · exact absurd hkb (first hka b hbl)
    · rcases List.mem_cons.1 hb with rfl | hbl
      · exact absurd hka (first hkb a hal)
      · exact ih rest hal hbl

theorem exists_of_countP_one (h : l.countP w = 1) : ∃ r ∈ l, w r = true :=
  List.countP_pos_iff.1 (by omega)

theorem countP_key_le_one [DecidableEq β] (h : (l.map k).Nodup) (x : β) (S : α → Bool) :
    l.countP (fun r => decide (k r = x) && S r) ≤ 1 := by
  have hle : l.countP (fun r => decide (k r = x) && S r) ≤ (l.map k).count x := by
    rw [List.count, List.countP_map]
    refine List.countP_mono_left fun r _ hr => ?_
    simp only [Bool.and_eq_true, decide_eq_true_eq] at hr
    simp [hr.1]
  exact Nat.le_trans hle (List.nodup_iff_count_le_one.1 h x)

theorem find?_key [DecidableEq β] (h : (l.map k).Nodup) {a : α} (ha : a ∈ l) :
    l.find? (fun r => decide (k r = k a)) = some a := by
  cases hf : l.find? (fun r => decide (k r = k a)) with
  | none =>
    have := List.find?_eq_none.1 hf a ha
    simp at this
  | some b =>
    have hb := List.find?_some hf
    simp only [decide_eq_true_eq] at hb
    rw [eq_of_key h (List.mem_of_find?_eq_some hf) ha hb]

theorem filterMap_eq_singleton {γ : Type} (h : (l.map k).Nodup) {g : α → Option γ} {a : α}
    {b : γ} (ha : a ∈ l) (hga : g a = some b) (hg : ∀ x ∈ l, k x ≠ k a → g x = none) : l.filterMap g = [b] := by
  induction l with
  | nil => cases ha
  | cons y l ih =>
    rw [List.map_cons, List.nodup_cons] at h
    rcases List.mem_cons.1 ha with rfl | hal
    · rw [List.filterMap_cons_some hga, List.filterMap_eq_nil_iff.2]
      intro x hx
      refine hg x (List.mem_cons_of_mem _ hx) fun hk => h.1 ?_
      exact List.mem_map.2 ⟨x, hx, hk⟩
    · have hne : k y ≠ k a := fun hk => h.1 (List.mem_map.2 ⟨a, hal, hk.symm⟩)
      rw [List.filterMap_cons_none (hg y (List.mem_cons_self ..) hne)]
      exact ih h.2 hal fun x hx => hg x (List.mem_cons_of_mem _ hx)

/-! ## Scans -/

section Scan

variable {ε : Type}

/-- A check that was passed. -/
theorem ite_error_ok {c : Prop} [Decidable c] {e : ε} {x : Except ε α} {a : α}
    (h : (if c then .error e else x) = .ok a) : ¬ c ∧ x = .ok a := by
  by_cases hc : c
  · rw [if_pos hc] at h; cases h
  · rw [if_neg hc] at h; exact ⟨hc, h⟩

theorem except_bind_ok {x : Except ε α} {f : α → Except ε β} {b : β} (h : (x >>= f) = .ok b) :
    ∃ a, x = .ok a ∧ f a = .ok b := by
  cases x with
  | error e => cases h
  | ok a => exact ⟨a, rfl, h⟩

theorem except_mapError_ok {ε' : Type} {f : ε → ε'} {x : Except ε α} {a : α} (h : x.mapError f = .ok a) :
    x = .ok a := by
  cases x with
  | error e => cases h
  | ok a' => cases h; rfl

theorem toOption_ok {r : Except ε α} {a : α} : r.toOption = some a ↔ r = .ok a := by
  cases r <;> simp [Except.toOption]

theorem mem_of_mapM_ok {f : α → Except ε β} {y : β} : ∀ {xs : List α} {ys : List β}, xs.mapM f = .ok ys → y ∈ ys →
    ∃ x ∈ xs, f x = .ok y
  | [], ys, h, hy => by cases h; cases hy
  | x :: xs, ys, h, hy => by
    rw [List.mapM_cons] at h
    obtain ⟨y₀, hy₀, h⟩ := except_bind_ok h
    obtain ⟨ys₀, hys, h⟩ := except_bind_ok h
    cases h
    rcases List.mem_cons.1 hy with rfl | hy
    · exact ⟨x, List.mem_cons_self .., hy₀⟩
    · obtain ⟨x', hx', hf⟩ := mem_of_mapM_ok hys hy
      exact ⟨x', List.mem_cons_of_mem _ hx', hf⟩

theorem mapM_total {f : α → Except ε β} : ∀ {xs : List α}, (∀ x ∈ xs, ∃ y, f x = .ok y) →
    ∃ ys, xs.mapM f = .ok ys ∧ ∀ x ∈ xs, ∃ y ∈ ys, f x = .ok y
  | [], _ => ⟨[], rfl, fun _ h => by cases h⟩
  | x :: xs, h => by
    obtain ⟨y, hy⟩ := h x (List.mem_cons_self ..)
    obtain ⟨ys, hys, hall⟩ := mapM_total fun x' hx' => h x' (List.mem_cons_of_mem _ hx')
    refine ⟨y :: ys, by rw [List.mapM_cons, hy, hys]; rfl, fun x' hx' => ?_⟩
    rcases List.mem_cons.1 hx' with rfl | hx'
    · exact ⟨y, List.mem_cons_self .., hy⟩
    · obtain ⟨y', hy', hf⟩ := hall x' hx'
      exact ⟨y', List.mem_cons_of_mem _ hy', hf⟩

end Scan

theorem exists_of_forall₂ {γ : Type} {R : α → γ → Prop} {xs : List α} {ys : List γ} (h : List.Forall₂ R xs ys) {x : α}
    (hx : x ∈ xs) : ∃ y ∈ ys, R x y := by
  induction h with
  | nil => cases hx
  | cons hr hrest ih =>
    rcases List.mem_cons.1 hx with rfl | hx
    · exact ⟨_, List.mem_cons_self .., hr⟩
    · obtain ⟨y, hy, hxy⟩ := ih hx
      exact ⟨y, List.mem_cons_of_mem _ hy, hxy⟩

end Eth402.Lib
