/-
  ClusterGate.Lib.Table — tables of rows by primary key.

  A table lists its rows in the order they were inserted, and carries the proof that
  no key occurs twice. `get?` reads a row by its key; `mapRows` is an update of any
  number of rows (which rows, and how, the function decides from the key), `filter` a
  delete. Every operation is known by what `get?` answers after it, and what a query
  (`find?`, `any`) answers is said through `get?` too, so nothing outside this module
  looks at the list. `Changes` says row by row how a table may differ from an earlier one.
-/

import Mathlib.Data.List.Nodup

namespace ClusterGate.Lib

structure Table (κ α : Type) where
  rows : List (κ × α)
  nodup : (rows.map Prod.fst).Nodup

namespace Table

variable {κ α : Type}

def empty : Table κ α := ⟨[], List.nodup_nil⟩

def mapRows (f : κ → α → α) (t : Table κ α) : Table κ α :=
  ⟨t.rows.map fun r => (r.1, f r.1 r.2), by simpa [Function.comp_def] using t.nodup⟩

/-- The table of what `f` makes of the rows. -/
def mapTo {β : Type} (f : α → β) (t : Table κ α) : Table κ β :=
  ⟨t.rows.map fun r => (r.1, f r.2), by simpa [Function.comp_def] using t.nodup⟩

def filter (p : κ → α → Bool) (t : Table κ α) : Table κ α :=
  ⟨t.rows.filter fun r => p r.1 r.2, t.nodup.sublist (List.filter_sublist.map _)⟩

/-- The first row that satisfies `p`, with its key. -/
def find? (p : κ → α → Bool) (t : Table κ α) : Option (κ × α) := t.rows.find? fun r => p r.1 r.2

def any (p : κ → α → Bool) (t : Table κ α) : Bool := t.rows.any fun r => p r.1 r.2

def size (t : Table κ α) : Nat := t.rows.length

def count (p : κ → α → Bool) (t : Table κ α) : Nat := t.rows.countP fun r => p r.1 r.2

variable [DecidableEq κ]

def get? (t : Table κ α) (k : κ) : Option α := (t.rows.find? fun r => r.1 = k).map Prod.snd

/-- A new row. A row whose key is taken is not inserted. -/
def insert (k : κ) (a : α) (t : Table κ α) : Table κ α :=
  if h : k ∈ t.rows.map Prod.fst then t else ⟨t.rows ++ [(k, a)], by
    simp only [List.map_append, List.map_cons, List.map_nil]
    exact t.nodup.append (List.nodup_singleton k) (by simpa using h)⟩

/-- The row of `k`, rewritten. -/
def modify (k : κ) (f : α → α) (t : Table κ α) : Table κ α := t.mapRows fun k' a => if k' = k then f a else a

/-- The row of `k`, new or in place of the one there is. -/
def upsert (k : κ) (a : α) (t : Table κ α) : Table κ α :=
  match t.get? k with
  | none => t.insert k a
  | some _ => t.modify k fun _ => a

def erase (k : κ) (t : Table κ α) : Table κ α := t.filter fun k' _ => k' ≠ k

/-! ## Reading a table -/

theorem mem_rows_iff {t : Table κ α} {k : κ} {a : α} : (k, a) ∈ t.rows ↔ t.get? k = some a := by
  unfold get?
  constructor
  · intro hm
    have hs := (List.find?_isSome (p := fun r : κ × α => decide (r.1 = k))).2 ⟨(k, a), hm, by simp⟩
    obtain ⟨⟨k', b⟩, hf⟩ := Option.isSome_iff_exists.1 hs
    obtain rfl : k' = k := by simpa using List.find?_some hf
    have := List.inj_on_of_nodup_map t.nodup (List.mem_of_find?_eq_some hf) hm rfl
    rw [hf, this]; rfl
  · intro hg
    obtain ⟨⟨k', b⟩, hf, rfl⟩ := Option.map_eq_some_iff.1 hg
    obtain rfl : k' = k := by simpa using List.find?_some hf
    exact List.mem_of_find?_eq_some hf

theorem get?_eq_none {t : Table κ α} {k : κ} : t.get? k = none ↔ ∀ a, (k, a) ∉ t.rows := by
  rw [Option.eq_none_iff_forall_ne_some]
  exact forall_congr' fun a => not_congr mem_rows_iff.symm

theorem any_iff {t : Table κ α} {p : κ → α → Bool} : t.any p = true ↔ ∃ k a, t.get? k = some a ∧ p k a = true := by
  simp only [any, List.any_eq_true, Prod.exists]
  exact exists_congr fun k => exists_congr fun a => and_congr mem_rows_iff Iff.rfl

theorem any_eq_false {t : Table κ α} {p : κ → α → Bool} :
    t.any p = false ↔ ∀ k a, t.get? k = some a → p k a = false := by
  rw [← Bool.not_eq_true, any_iff]
  push Not
  simp

theorem find?_some {t : Table κ α} {p : κ → α → Bool} {k : κ} {a : α} (h : t.find? p = some (k, a)) :
    t.get? k = some a ∧ p k a = true :=
  ⟨mem_rows_iff.1 (List.mem_of_find?_eq_some h), List.find?_some (p := fun r : κ × α => p r.1 r.2) h⟩

theorem find?_none {t : Table κ α} {p : κ → α → Bool} (h : t.find? p = none) {k : κ} {a : α} (ha : t.get? k = some a) :
    p k a = false :=
  Bool.eq_false_iff.2 (List.find?_eq_none.1 h (k, a) (mem_rows_iff.2 ha))

/-! ## What an operation leaves -/

@[simp] theorem get?_empty (k : κ) : (empty : Table κ α).get? k = none := rfl

@[simp] theorem get?_mapRows (f : κ → α → α) (t : Table κ α) (k : κ) :
    (t.mapRows f).get? k = (t.get? k).map (f k) := by
  obtain ⟨rows, nodup⟩ := t
  simp only [get?, mapRows]
  clear nodup
  induction rows with
  | nil => rfl
  | cons r rows ih =>
    by_cases h : r.1 = k
    · subst h; simp
    · simp only [List.map_cons, List.find?_cons, h, decide_false]
      exact ih

@[simp] theorem get?_mapTo {β : Type} (f : α → β) (t : Table κ α) (k : κ) : (t.mapTo f).get? k = (t.get? k).map f := by
  obtain ⟨rows, nodup⟩ := t
  simp only [get?, mapTo]
  clear nodup
  induction rows with
  | nil => rfl
  | cons r rows ih =>
    by_cases h : r.1 = k
    · simp [h]
    · simp only [List.map_cons, List.find?_cons, h, decide_false]
      exact ih

@[simp] theorem get?_filter (p : κ → α → Bool) (t : Table κ α) (k : κ) :
    (t.filter p).get? k = (t.get? k).filter (p k) := by
  ext a
  rw [← mem_rows_iff, Option.filter_eq_some_iff, ← mem_rows_iff]
  simp [filter]

theorem get?_insert {t : Table κ α} {k : κ} (h : t.get? k = none) (a : α) (k' : κ) :
    (t.insert k a).get? k' = if k' = k then some a else t.get? k' := by
  have hk : k ∉ t.rows.map Prod.fst := by
    simp only [List.mem_map, Prod.exists, exists_and_right, exists_eq_right, not_exists]
    exact get?_eq_none.1 h
  ext b
  rw [← mem_rows_iff]
  simp only [insert, hk, dite_false, List.mem_append, List.mem_singleton, Prod.mk.injEq]
  split
  · subst_vars
    simp only [Option.some.injEq, mem_rows_iff, h]
    simp [eq_comm]
  · simp_all [mem_rows_iff]

@[simp] theorem get?_modify (k : κ) (f : α → α) (t : Table κ α) (k' : κ) :
    (t.modify k f).get? k' = if k' = k then (t.get? k).map f else t.get? k' := by
  simp only [modify, get?_mapRows]
  split
  · subst_vars; rfl
  · simp

@[simp] theorem get?_erase (k : κ) (t : Table κ α) (k' : κ) :
    (t.erase k).get? k' = if k' = k then none else t.get? k' := by
  simp only [erase, get?_filter]
  split
  · subst_vars; cases t.get? k' <;> simp
  · cases t.get? k' <;> simp_all

@[simp] theorem get?_upsert (k : κ) (a : α) (t : Table κ α) (k' : κ) :
    (t.upsert k a).get? k' = if k' = k then some a else t.get? k' := by
  unfold upsert
  cases hk : t.get? k with
  | none => exact get?_insert hk a k'
  | some b =>
    dsimp only
    rw [get?_modify, hk]
    rfl

/-- A row that satisfies `p` after one row is rewritten: another one, or the new one. -/
theorem any_modify {p : κ → α → Bool} {k : κ} {f : α → α} {t : Table κ α} :
    (t.modify k f).any p = true ↔
      (∃ k' a, k' ≠ k ∧ t.get? k' = some a ∧ p k' a = true) ∨ ∃ a, t.get? k = some a ∧ p k (f a) = true := by
  rw [any_iff]
  constructor
  · rintro ⟨k', b, hb, hp⟩
    rw [get?_modify] at hb
    by_cases hk : k' = k
    · rw [if_pos hk] at hb
      obtain ⟨a, ha, rfl⟩ := Option.map_eq_some_iff.1 hb
      exact .inr ⟨a, ha, hk ▸ hp⟩
    · rw [if_neg hk] at hb
      exact .inl ⟨k', b, hk, hb, hp⟩
  · rintro (⟨k', a, hk, ha, hp⟩ | ⟨a, ha, hp⟩)
    · exact ⟨k', a, by rw [get?_modify, if_neg hk, ha], hp⟩
    · exact ⟨k, f a, by rw [get?_modify, if_pos rfl, ha]; rfl, hp⟩

theorem modify_modify (k : κ) (f g : α → α) (t : Table κ α) : (t.modify k f).modify k g = t.modify k (g ∘ f) := by
  unfold modify mapRows
  congr 1
  rw [List.map_map]
  refine List.map_congr_left fun r _ => ?_
  by_cases h : r.1 = k
  · simp [h]
  · simp [h]

/-! ## The rows an operation leaves in place -/

theorem rows_modify (k : κ) (f : α → α) (t : Table κ α) :
    (t.modify k f).rows = t.rows.map fun r => (r.1, if r.1 = k then f r.2 else r.2) := rfl

theorem upsert_of_some {t : Table κ α} {k : κ} {a : α} (h : t.get? k = some a) (b : α) :
    t.upsert k b = t.modify k fun _ => b := by
  unfold upsert
  rw [h]

/-- Rows that neither leave nor come are left by an erasure as they stood. -/
theorem rows_filter_erase {p : κ × α → Bool} {k : κ} (hp : ∀ a, p (k, a) = false) (t : Table κ α) :
    (t.erase k).rows.filter p = t.rows.filter p := by
  simp only [erase, filter, List.filter_filter]
  apply List.filter_congr
  rintro ⟨k', a⟩ -
  by_cases hk : k' = k
  · subst hk
    simp [hp]
  · simp [hk]

theorem rows_filter_upsert {p : κ × α → Bool} {k : κ} (hp : ∀ a, p (k, a) = false) (b : α) (t : Table κ α) :
    (t.upsert k b).rows.filter p = t.rows.filter p := by
  unfold upsert
  split
  · unfold insert
    split
    · rfl
    · simp [hp]
  · rw [rows_modify, List.filter_map]
    have hfun : (p ∘ fun r : κ × α => (r.1, if r.1 = k then b else r.2)) = p := by
      funext ⟨k', a⟩
      by_cases hk : k' = k
      · subst hk
        simp [hp]
      · simp [hk]
    rw [hfun]
    conv_rhs => rw [← List.map_id (t.rows.filter p)]
    apply List.map_congr_left
    rintro ⟨k', a⟩ hr
    have hk : k' ≠ k := by
      rintro rfl
      have := (List.mem_filter.1 hr).2
      rw [hp] at this
      cases this
    simp [hk]

/-- A key has one row at most. -/
theorem rows_filter_key (t : Table κ α) (k : κ) :
    (t.rows.filter fun r => r.1 = k) = (t.get? k).toList.map fun a => (k, a) := by
  obtain ⟨rows, nodup⟩ := t
  unfold get?
  induction rows with
  | nil => rfl
  | cons r rows ih =>
    rw [List.map_cons, List.nodup_cons] at nodup
    by_cases hk : r.1 = k
    · have hrest : (rows.filter fun r => decide (r.1 = k)) = [] := by
        rw [List.filter_eq_nil_iff]
        intro a ha hak
        exact nodup.1 (List.mem_map.2 ⟨a, ha, (of_decide_eq_true hak).trans hk.symm⟩)
      rw [List.filter_cons_of_pos (by simpa using hk), hrest, List.find?_cons_of_pos (by simpa using hk), ← hk]
      rfl
    · rw [List.filter_cons_of_neg (by simpa using hk), List.find?_cons_of_neg (by simpa using hk)]
      exact ih nodup.2

/-! ## How a table may differ from an earlier one -/

/-- Row by row: one that stays is the same or changed by `R`, a new one satisfies `C`, and
    one that is gone satisfied `D`. -/
def Changes (R : κ → α → α → Prop) (C D : κ → α → Prop) (t t' : Table κ α) : Prop :=
  ∀ k, match t.get? k, t'.get? k with
    | none, none => True
    | none, some b => C k b
    | some a, none => D k a
    | some a, some b => b = a ∨ R k a b

section Changes

variable {R R' : κ → α → α → Prop} {C C' D D' : κ → α → Prop} {t t' t'' : Table κ α}

theorem Changes.refl (t : Table κ α) : Changes R C D t t := by
  intro k
  cases t.get? k with
  | none => trivial
  | some a => exact Or.inl rfl

theorem Changes.mono (h : Changes R C D t t') (hR : ∀ k a b, t.get? k = some a → R k a b → R' k a b)
    (hC : ∀ k b, t.get? k = none → C k b → C' k b) (hD : ∀ k a, t.get? k = some a → D k a → D' k a) :
    Changes R' C' D' t t' := by
  intro k
  have hk := h k
  revert hk
  cases ht : t.get? k with
  | none =>
    cases t'.get? k with
    | none => exact fun _ => trivial
    | some b => exact hC k b ht
  | some a =>
    cases t'.get? k with
    | none => exact hD k a ht
    | some b => exact Or.imp_right (hR k a b ht)

/-- Changes one after another, when what the second does to a row changed or made by the
    first is again one of the kinds. -/
theorem Changes.trans (h : Changes R C D t t') (h' : Changes R C D t' t'')
    (hR : ∀ k a b c, R k a b → R k b c → R k a c) (hC : ∀ k b c, C k b → R k b c → C k c)
    (hD : ∀ k a b, R k a b → D k b → D k a) (hDC : ∀ k a c, D k a → C k c → R k a c) :
    Changes R C D t t'' := by
  intro k
  have h₁ := h k
  have h₂ := h' k
  revert h₁ h₂
  cases t.get? k with
  | none =>
    cases t'.get? k with
    | none =>
      cases t''.get? k with
      | none => exact fun _ _ => trivial
      | some c => exact fun _ hc => hc
    | some b =>
      cases t''.get? k with
      | none => exact fun _ _ => trivial
      | some c =>
        rintro hb (rfl | hr)
        · exact hb
        · exact hC k b c hb hr
  | some a =>
    cases t'.get? k with
    | none =>
      cases t''.get? k with
      | none => exact fun hd _ => hd
      | some c => exact fun hd hc => Or.inr (hDC k a c hd hc)
    | some b =>
      cases t''.get? k with
      | none =>
        rintro (rfl | hr) hd
        · exact hd
        · exact hD k a b hr hd
      | some c =>
        rintro (rfl | hr) (rfl | hr')
        · exact Or.inl rfl
        · exact Or.inr hr'
        · exact Or.inr hr
        · exact Or.inr (hR k a b c hr hr')

theorem Changes.some (h : Changes R C D t t') {k : κ} {a b : α} (ha : t.get? k = .some a) (hb : t'.get? k = .some b) :
    b = a ∨ R k a b := by
  have hk := h k
  rw [ha, hb] at hk
  exact hk

theorem Changes.gone (h : Changes R C D t t') {k : κ} {a : α} (ha : t.get? k = .some a) (hb : t'.get? k = none) :
    D k a := by
  have hk := h k
  rw [ha, hb] at hk
  exact hk

theorem Changes.new (h : Changes R C D t t') {k : κ} {b : α} (ha : t.get? k = none) (hb : t'.get? k = .some b) :
    C k b := by
  have hk := h k
  rw [ha, hb] at hk
  exact hk

/-- Where nothing is removed, what is not there afterwards was not there before. -/
theorem Changes.absent (h : Changes R C (fun _ _ => False) t t') {k : κ} (hk : t'.get? k = none) : t.get? k = none := by
  cases ht : t.get? k with
  | none => rfl
  | some a => exact (h.gone ht hk).elim

/-- Rows with a property that nothing touches are the same before and after. -/
theorem Changes.untouched (h : Changes R C D t t') {P : α → Prop} (hC : ∀ k b, C k b → ¬ P b)
    (hR : ∀ k a b, t.get? k = .some a → R k a b → b = a ∨ ¬ P a ∧ ¬ P b) (hD : ∀ k a, D k a → ¬ P a) {k : κ} {a : α}
    (hp : P a) : t'.get? k = .some a ↔ t.get? k = .some a := by
  constructor
  · intro hb
    cases ha : t.get? k with
    | none => exact absurd hp (hC k a (h.new ha hb))
    | some a₀ =>
      rcases h.some ha hb with rfl | hr
      · rfl
      · rcases hR k a₀ a ha hr with rfl | ⟨-, hn⟩
        · rfl
        · exact absurd hp hn
  · intro ha
    cases hb : t'.get? k with
    | none => exact absurd hp (hD k a (h.gone ha hb))
    | some b =>
      rcases h.some ha hb with rfl | hr
      · rfl
      · rcases hR k a b ha hr with rfl | ⟨hn, -⟩
        · rfl
        · exact absurd hp hn

/-- A row that was still the same is changed. -/
theorem Changes.modify (h : Changes R C D t t') {k : κ} {a : α} {f : α → α} (ht : t.get? k = .some a)
    (ht' : t'.get? k = .some a) (hR : R k a (f a)) : Changes R C D t (t'.modify k f) := by
  intro k'
  rw [get?_modify]
  by_cases hk : k' = k
  · subst hk
    rw [if_pos rfl, ht', ht]
    exact Or.inr hR
  · rw [if_neg hk]
    exact h k'

/-- A row is added that was not there before. -/
theorem Changes.insert (h : Changes R C D t t') {k : κ} {b : α} (ht : t.get? k = none) (ht' : t'.get? k = none)
    (hC : C k b) : Changes R C D t (t'.insert k b) := by
  intro k'
  rw [get?_insert ht']
  by_cases hk : k' = k
  · subst hk
    rw [if_pos rfl, ht]
    exact hC
  · rw [if_neg hk]
    exact h k'

theorem changes_mapRows {f : κ → α → α} (h : ∀ k a, t.get? k = .some a → f k a = a ∨ R k a (f k a)) :
    Changes R C D t (t.mapRows f) := by
  intro k
  rw [get?_mapRows]
  cases ht : t.get? k with
  | none => trivial
  | some a => exact h k a ht

theorem changes_filter {p : κ → α → Bool} (h : ∀ k a, t.get? k = .some a → p k a = false → D k a) :
    Changes R C D t (t.filter p) := by
  intro k
  rw [get?_filter]
  cases ht : t.get? k with
  | none => trivial
  | some a =>
    cases hp : p k a with
    | false =>
      rw [Option.filter_some, hp]
      exact h k a ht hp
    | true =>
      rw [Option.filter_some, hp]
      exact Or.inl rfl

end Changes

end Table

end ClusterGate.Lib
