/-
  ClusterGate.Lib.TwoRuns — two runs side by side, from states that may differ only as a
  relation says.

  `Act.Alike R V x y s t` says that `x` from `s` and `y` from `t` end alike: both return,
  with values related by `V`, or both throw the same error, and they leave states related
  by `R`. The rules follow the shape of the computations, so that what two runs of a
  handler may differ in is assembled from what its steps may. `Table.Alike S` relates two
  tables with the same keys in the same order.
  - `Act.alike_bind`, `Act.alike_forM`, `Act.alike_atomic`: the rules that carry an argument.
  - `Act.Alike.outcome_iff`: when two runs that end alike have the same outcome.
  - `Table.map_eq_iff`: when two related lists of rows are shown alike.
-/

import ClusterGate.Lib.Act
import ClusterGate.Lib.Table
import Mathlib.Data.List.Sort
import Mathlib.Data.List.Forall2

namespace ClusterGate.Lib

/-! ## Lists and tables -/

/-- Sorting by keys that agree keeps two lists related. -/
theorem forall₂_orderedInsert {α β : Type} {S : α → β → Prop} {r : α → α → Prop} {q : β → β → Prop} [DecidableRel r]
    [DecidableRel q] (hr : ∀ a a' b b', S a b → S a' b' → (r a a' ↔ q b b')) {a : α} {b : β} (hab : S a b) {l : List α}
    {l' : List β} (h : List.Forall₂ S l l') : List.Forall₂ S (l.orderedInsert r a) (l'.orderedInsert q b) := by
  induction h with
  | nil => exact .cons hab .nil
  | @cons x y xs ys hxy hrest ih =>
    by_cases hax : r a x
    · have hby : q b y := (hr a x b y hab hxy).1 hax
      rw [List.orderedInsert, List.orderedInsert, if_pos hax, if_pos hby]
      exact .cons hab (.cons hxy hrest)
    · have hby : ¬q b y := fun h => hax ((hr a x b y hab hxy).2 h)
      rw [List.orderedInsert, List.orderedInsert, if_neg hax, if_neg hby]
      exact .cons hxy ih

theorem forall₂_insertionSort {α β : Type} {S : α → β → Prop} {r : α → α → Prop} {q : β → β → Prop} [DecidableRel r]
    [DecidableRel q] (hr : ∀ a a' b b', S a b → S a' b' → (r a a' ↔ q b b')) {l : List α} {l' : List β}
    (h : List.Forall₂ S l l') : List.Forall₂ S (l.insertionSort r) (l'.insertionSort q) := by
  induction h with
  | nil => exact .nil
  | cons hxy _ ih => exact forall₂_orderedInsert hr hxy ih

namespace Table

variable {κ α : Type} {S : α → α → Prop} {t t' : Table κ α}

/-- Two rows of one key. -/
def Beside (S : α → α → Prop) (x y : κ × α) : Prop := x.1 = y.1 ∧ S x.2 y.2

/-- The same keys in the same order, with related rows. -/
def Alike (S : α → α → Prop) (t t' : Table κ α) : Prop := List.Forall₂ (Beside S) t.rows t'.rows

theorem Alike.refl (hS : ∀ a, S a a) (t : Table κ α) : Alike S t t := List.forall₂_same.2 fun x _ => ⟨rfl, hS x.2⟩

theorem Alike.mono {S' : α → α → Prop} (h : Alike S t t') (hS : ∀ a b, S a b → S' a b) : Alike S' t t' :=
  List.Forall₂.imp (fun _ _ hxy => ⟨hxy.1, hS _ _ hxy.2⟩) h

theorem Alike.symm (h : Alike S t t') (hS : ∀ a b, S a b → S b a) : Alike S t' t :=
  List.Forall₂.flip (List.Forall₂.imp (fun _ _ hxy => ⟨hxy.1.symm, hS _ _ hxy.2⟩) h)

theorem Alike.any {p q : κ → α → Bool} (h : Alike S t t') (hp : ∀ k a b, S a b → p k a = q k b) : t.any p = t'.any q := by
  unfold Alike at h
  unfold Table.any
  generalize t.rows = l at h
  generalize t'.rows = l' at h
  induction h with
  | nil => rfl
  | @cons x y xs ys hxy hrest ih =>
    obtain ⟨k, a⟩ := x
    obtain ⟨k', b⟩ := y
    obtain ⟨rfl, hab⟩ := hxy
    rw [List.any_cons, List.any_cons, ih, hp k a b hab]

theorem alike_find? {p q : κ × α → Bool} {l l' : List (κ × α)} (h : List.Forall₂ (Beside S) l l')
    (hp : ∀ x y, Beside S x y → p x = q y) : Option.Rel (Beside S) (l.find? p) (l'.find? q) := by
  induction h with
  | nil => exact .none
  | @cons x y xs ys hxy hrest ih =>
    have hpq := hp x y hxy
    by_cases hx : p x = true
    · rw [List.find?_cons_of_pos hx, List.find?_cons_of_pos (hpq ▸ hx)]
      exact .some hxy
    · rw [List.find?_cons_of_neg hx, List.find?_cons_of_neg (hpq ▸ hx)]
      exact ih

theorem Alike.find? {p q : κ → α → Bool} (h : Alike S t t') (hp : ∀ k a b, S a b → p k a = q k b) :
    Option.Rel (Beside S) (t.find? p) (t'.find? q) := by
  refine alike_find? h fun x y hxy => ?_
  rw [hxy.1]
  exact hp _ _ _ hxy.2

theorem Alike.filter {p q : κ → α → Bool} (h : Alike S t t') (hp : ∀ k a b, S a b → p k a = q k b) :
    Alike S (t.filter p) (t'.filter q) := by
  refine List.rel_filter (fun x y hxy => ?_) h
  show p x.1 x.2 = true ↔ q y.1 y.2 = true
  rw [hxy.1, hp _ _ _ hxy.2]

theorem Alike.mapRows {f g : κ → α → α} (h : Alike S t t') (hf : ∀ k a b, S a b → S (f k a) (g k b)) :
    Alike S (t.mapRows f) (t'.mapRows g) := by
  unfold Alike at h ⊢
  unfold Table.mapRows
  rw [List.forall₂_map_left_iff, List.forall₂_map_right_iff]
  exact List.Forall₂.imp (fun x y hxy => ⟨hxy.1, by rw [hxy.1]; exact hf _ _ _ hxy.2⟩) h

variable [DecidableEq κ]

theorem Alike.get? (h : Alike S t t') (k : κ) : Option.Rel S (t.get? k) (t'.get? k) := by
  unfold Table.get?
  have hfind := alike_find? (p := fun r => decide (r.1 = k)) (q := fun r => decide (r.1 = k)) h
    fun x y hxy => by rw [hxy.1]
  cases hx : t.rows.find? fun r => decide (r.1 = k) with
  | none =>
    rw [hx] at hfind
    generalize t'.rows.find? (fun r => decide (r.1 = k)) = o at hfind
    cases hfind
    exact .none
  | some x =>
    rw [hx] at hfind
    generalize t'.rows.find? (fun r => decide (r.1 = k)) = o at hfind
    cases hfind with
    | some hxy => exact .some hxy.2

theorem Alike.modify {k : κ} {f g : α → α} (h : Alike S t t') (hf : ∀ a b, S a b → S (f a) (g b)) :
    Alike S (t.modify k f) (t'.modify k g) := by
  refine h.mapRows fun k' a b hab => ?_
  by_cases e : k' = k
  · rw [if_pos e, if_pos e]
    exact hf a b hab
  · rw [if_neg e, if_neg e]
    exact hab

omit [DecidableEq κ] in
theorem Alike.keys (h : Alike S t t') : t.rows.map Prod.fst = t'.rows.map Prod.fst := by
  unfold Alike at h
  generalize t.rows = l at h
  generalize t'.rows = l' at h
  induction h with
  | nil => rfl
  | cons hxy _ ih => rw [List.map_cons, List.map_cons, hxy.1, ih]

theorem Alike.insert {k : κ} {a b : α} (h : Alike S t t') (hab : S a b) : Alike S (t.insert k a) (t'.insert k b) := by
  have hkeys := h.keys
  unfold Table.insert
  by_cases hk : k ∈ t.rows.map Prod.fst
  · have hk' : k ∈ t'.rows.map Prod.fst := hkeys ▸ hk
    rw [dif_pos hk, dif_pos hk']
    exact h
  · have hk' : k ∉ t'.rows.map Prod.fst := hkeys ▸ hk
    rw [dif_neg hk, dif_neg hk']
    exact List.rel_append h (.cons ⟨rfl, hab⟩ .nil)

/-- Two related lists of rows are shown alike when each row of the first is shown like the
    row of its key. -/
theorem map_eq_iff {β : Type} {l l' : List (κ × α)} {f : κ × α → β} {P : κ → α → α → Prop}
    (hl : List.Forall₂ (Beside S) l l') (ht : ∀ x ∈ l', x ∈ t'.rows)
    (hP : ∀ k a b, S a b → (f (k, a) = f (k, b) ↔ P k a b)) :
    l.map f = l'.map f ↔ ∀ k a b, (k, a) ∈ l → t'.get? k = some b → P k a b := by
  induction hl with
  | nil => exact ⟨fun _ _ _ _ hm => (List.not_mem_nil hm).elim, fun _ => rfl⟩
  | @cons x y xs ys hxy hrest ih =>
    obtain ⟨k₀, a₀⟩ := x
    obtain ⟨k₁, b₀⟩ := y
    obtain ⟨rfl, hab⟩ := hxy
    have hy : t'.get? k₀ = some b₀ := mem_rows_iff.1 (ht (k₀, b₀) (by simp))
    rw [List.map_cons, List.map_cons, List.cons.injEq, ih fun x hx => ht x (by simp [hx]), hP k₀ a₀ b₀ hab]
    constructor
    · intro h k a b hm hb
      rcases List.mem_cons.1 hm with he | hm
      · cases he
        obtain rfl : b₀ = b := Option.some.inj (hy.symm.trans hb)
        exact h.1
      · exact h.2 k a b hm hb
    · intro h
      exact ⟨h k₀ a₀ b₀ (by simp) hy, fun k a b hm hb => h k a b (by simp [hm]) hb⟩

end Table

/-! ## Computations -/

namespace Act

variable {σ ε α β γ δ : Type} {R : σ → σ → Prop} {V : α → β → Prop} {s t : σ}

def Alike (R : σ → σ → Prop) (V : α → β → Prop) (x : Act σ ε α) (y : Act σ ε β) (s t : σ) : Prop :=
  match x s, y t with
  | (.ok a, s'), (.ok b, t') => V a b ∧ R s' t'
  | (.error e, s'), (.error f, t') => e = f ∧ R s' t'
  | _, _ => False

theorem Alike.mono {V' : α → β → Prop} {x : Act σ ε α} {y : Act σ ε β} (h : Alike R V x y s t)
    (hV : ∀ a b, V a b → V' a b) : Alike R V' x y s t := by
  unfold Alike at h ⊢
  split at h
  · exact ⟨hV _ _ h.1, h.2⟩
  · exact h
  · exact h.elim

theorem alike_pure {a : α} {b : β} (hR : R s t) (hV : V a b) : Alike R V (pure a : Act σ ε α) (pure b) s t := ⟨hV, hR⟩

theorem alike_throw {e : ε} (hR : R s t) : Alike R V (throw e : Act σ ε α) (throw e : Act σ ε β) s t := ⟨rfl, hR⟩

theorem alike_modify {f g : σ → σ} (h : R (f s) (g t)) : Alike R Eq (modify f : Act σ ε Unit) (modify g) s t := ⟨rfl, h⟩

theorem alike_bind {U : γ → δ → Prop} {x : Act σ ε γ} {y : Act σ ε δ} {f : γ → Act σ ε α} {g : δ → Act σ ε β}
    (h : Alike R U x y s t) (hf : ∀ a b s' t', U a b → R s' t' → Alike R V (f a) (g b) s' t') :
    Alike R V (x >>= f) (y >>= g) s t := by
  unfold Alike at h ⊢
  rw [bind_run, bind_run]
  generalize x s = p at h
  generalize y t = q at h
  rcases p with ⟨_ | a, s'⟩ <;> rcases q with ⟨_ | b, t'⟩
  · exact h
  · exact h.elim
  · exact h.elim
  · exact hf a b s' t' h.1 h.2

/-- Reading the states and going on. -/
theorem alike_read_bind {f g : σ → Act σ ε α} {V : α → α → Prop} (h : Alike R V (f s) (g t) s t) :
    Alike R V (read >>= f) (read >>= g) s t := h

theorem alike_require {c c' : Prop} [Decidable c] [Decidable c'] {e : ε} (hc : c ↔ c') (hR : R s t) :
    Alike R (fun _ _ => c) (require c e) (require c' e) s t := by
  by_cases h : c
  · rw [require, require, if_pos h, if_pos (hc.1 h)]
    exact alike_pure hR h
  · rw [require, require, if_neg h, if_neg fun h' => h (hc.2 h')]
    exact alike_throw hR

theorem alike_ite {c c' : Prop} [Decidable c] [Decidable c'] {x x' : Act σ ε α} {y y' : Act σ ε β} (hc : c ↔ c')
    (hx : c → Alike R V x y s t) (hx' : ¬c → Alike R V x' y' s t) :
    Alike R V (if c then x else x') (if c' then y else y') s t := by
  by_cases h : c
  · rw [if_pos h, if_pos (hc.1 h)]
    exact hx h
  · rw [if_neg h, if_neg fun h' => h (hc.2 h')]
    exact hx' h

theorem alike_when {c c' : Prop} [Decidable c] [Decidable c'] {x y : Act σ ε Unit} (hc : c ↔ c') (hR : R s t)
    (hx : c → Alike R (fun _ _ => True) x y s t) : Alike R (fun _ _ => True) (when c x) (when c' y) s t :=
  alike_ite hc hx fun _ => alike_pure hR trivial

theorem alike_orThrow {o : Option α} {p : Option β} {e : ε} (h : Option.Rel V o p) (hR : R s t) :
    Alike R (fun a b => V a b ∧ o = some a ∧ p = some b) (orThrow o e) (orThrow p e) s t := by
  cases h with
  | none => exact alike_throw hR
  | some hab => exact alike_pure hR ⟨hab, rfl, rfl⟩

/-- Two outcomes with related values, or the same error. -/
def SameOutcome (V : α → β → Prop) : Except ε α → Except ε β → Prop
  | .ok a, .ok b => V a b
  | .error e, .error f => e = f
  | _, _ => False

theorem alike_ofExcept {x : Except ε α} {y : Except ε β} (h : SameOutcome V x y) (hR : R s t) :
    Alike R (fun a b => V a b ∧ x = .ok a ∧ y = .ok b) (ofExcept x) (ofExcept y) s t := by
  cases x with
  | error e =>
    cases y with
    | error f => exact ⟨h, hR⟩
    | ok b => exact h.elim
  | ok a =>
    cases y with
    | error f => exact h.elim
    | ok b => exact ⟨⟨h, rfl, rfl⟩, hR⟩

/-- An outcome both runs share. -/
theorem alike_ofExcept_same {x : Except ε α} (hR : R s t) :
    Alike R (fun a b => a = b ∧ x = .ok a) (ofExcept x) (ofExcept x) s t := by
  cases x with
  | error e => exact ⟨rfl, hR⟩
  | ok a => exact ⟨⟨rfl, rfl⟩, hR⟩

theorem alike_atomic {x : Act σ ε α} {y : Act σ ε β} (h : Alike R V x y s t) (hR : R s t) :
    Alike R V (atomic x) (atomic y) s t := by
  unfold Alike at h ⊢
  unfold atomic
  generalize x s = p at h
  generalize y t = q at h
  rcases p with ⟨_ | a, s'⟩ <;> rcases q with ⟨_ | b, t'⟩
  · exact ⟨h.1, hR⟩
  · exact h
  · exact h
  · exact h

theorem alike_attempt {x : Act σ ε α} {y : Act σ ε β} (h : Alike R V x y s t) :
    Alike R (SameOutcome V) (attempt x) (attempt y) s t := by
  unfold Alike at h ⊢
  unfold attempt
  generalize x s = p at h
  generalize y t = q at h
  rcases p with ⟨_ | a, s'⟩ <;> rcases q with ⟨_ | b, t'⟩
  · exact h
  · exact h.elim
  · exact h.elim
  · exact h

/-- Two loops over related lists. -/
theorem alike_forM {U : γ → δ → Prop} {f : γ → Act σ ε PUnit} {g : δ → Act σ ε PUnit} {l : List γ} {l' : List δ}
    (hl : List.Forall₂ U l l')
    (h : ∀ a b s t, a ∈ l → b ∈ l' → U a b → R s t → Alike R (fun _ _ => True) (f a) (g b) s t) :
    ∀ s t, R s t → Alike R (fun _ _ => True) (l.forM f) (l'.forM g) s t := by
  induction hl with
  | nil => exact fun s t hR => alike_pure hR trivial
  | @cons x y xs ys hxy _ ih =>
    intro s t hR
    show Alike R _ (f x >>= fun _ => xs.forM f) (g y >>= fun _ => ys.forM g) s t
    refine alike_bind (h x y s t (by simp) (by simp) hxy hR) fun _ _ s' t' _ hR' => ?_
    exact ih (fun a b s t ha hb => h a b s t (by simp [ha]) (by simp [hb])) s' t' hR'

/-- Two runs that end alike have the same outcome when what they return is the same. -/
theorem Alike.outcome_iff {V : α → α → Prop} {x y : Act σ ε α} (h : Alike R V x y s t) :
    (x s).1 = (y t).1 ↔ ∀ a b, (x s).1 = .ok a → (y t).1 = .ok b → V a b → a = b := by
  unfold Alike at h
  generalize x s = p at h
  generalize y t = q at h
  rcases p with ⟨e | a, s'⟩ <;> rcases q with ⟨f | b, t'⟩
  · exact ⟨fun _ _ _ ha => (by cases ha), fun _ => congrArg Except.error h.1⟩
  · exact h.elim
  · exact h.elim
  · constructor
    · intro he a' b' ha hb _
      cases ha
      cases hb
      exact Except.ok.inj he
    · intro hab
      exact congrArg Except.ok (hab a b rfl rfl h.1)

theorem Alike.outcome_eq {x y : Act σ ε α} (h : Alike R Eq x y s t) : (x s).1 = (y t).1 :=
  h.outcome_iff.2 fun _ _ _ _ hab => hab

/-- Going on from two runs that end alike has the same outcome when it does from every two
    values they may return. -/
theorem Alike.outcome_bind_iff {U : γ → δ → Prop} {x : Act σ ε γ} {y : Act σ ε δ} {f : γ → Act σ ε α} {g : δ → Act σ ε α}
    (h : Alike R U x y s t) :
    ((x >>= f) s).1 = ((y >>= g) t).1 ↔
      ∀ a b s' t', x s = (.ok a, s') → y t = (.ok b, t') → U a b → R s' t' → (f a s').1 = (g b t').1 := by
  rw [bind_run, bind_run]
  unfold Alike at h
  generalize x s = p at h
  generalize y t = q at h
  rcases p with ⟨e | a, s'⟩ <;> rcases q with ⟨e' | b, t'⟩
  · exact ⟨fun _ _ _ _ _ ha => (by cases ha), fun _ => congrArg Except.error h.1⟩
  · exact h.elim
  · exact h.elim
  · constructor
    · intro he a' b' s'' t'' ha hb _ _
      cases ha
      cases hb
      exact he
    · exact fun hall => hall a b s' t' rfl rfl h.1 h.2

/-- What is made of a value tells two outcomes apart when it tells the values apart. -/
theorem outcome_map_iff {f : α → β} (hf : Function.Injective f) (x y : Act σ ε α) :
    ((x >>= fun a => pure (f a)) s).1 = ((y >>= fun a => pure (f a)) t).1 ↔ (x s).1 = (y t).1 := by
  rw [bind_run, bind_run]
  generalize x s = p
  generalize y t = q
  rcases p with ⟨e | a, s'⟩ <;> rcases q with ⟨g | b, t'⟩
  · show Except.error e = Except.error g ↔ _
    rw [Except.error.injEq, Except.error.injEq]
  · exact ⟨fun h => (by cases h), fun h => (by cases h)⟩
  · exact ⟨fun h => (by cases h), fun h => (by cases h)⟩
  · show Except.ok (f a) = Except.ok (f b) ↔ _
    rw [Except.ok.injEq, Except.ok.injEq]
    exact hf.eq_iff

end Act

end ClusterGate.Lib
