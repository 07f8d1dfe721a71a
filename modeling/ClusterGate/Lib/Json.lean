/-
  ClusterGate.Lib.Json — JSON values as a program of the source language holds them.

  Numbers are exact (`Rat`); an object lists its members in order, and equality of
  objects is equality of the lists, as it is for the texts `JSON.stringify` gives them.
-/

import Mathlib.Data.List.Forall2
import ClusterGate.Lib.Text

namespace ClusterGate.Lib

/-- A list of results that are all there, one for each. -/
theorem mapM_some_iff {α β : Type} {f : α → Option β} {xs : List α} {ys : List β} :
    xs.mapM f = some ys ↔ List.Forall₂ (fun x y => f x = some y) xs ys := by
  induction xs generalizing ys with
  | nil =>
    rw [List.mapM_nil, List.forall₂_nil_left_iff]
    exact ⟨fun h => (Option.some.inj h).symm, fun h => congrArg some h.symm⟩
  | cons x xs ih =>
    simp only [List.mapM_cons, Option.bind_eq_bind, Option.bind_eq_some_iff, Option.pure_def, Option.some.injEq]
    rw [List.forall₂_cons_left_iff]
    constructor
    · intro h
      obtain ⟨y, hy, zs, hzs, rfl⟩ := h
      exact ⟨y, zs, hy, ih.1 hzs, rfl⟩
    · intro h
      obtain ⟨y, zs, hy, hzs, rfl⟩ := h
      exact ⟨y, hy, zs, ih.2 hzs, rfl⟩

theorem mapM_some_map {α β : Type} {f : α → Option β} {g : α → β} {xs : List α} :
    xs.mapM f = some (xs.map g) ↔ ∀ x ∈ xs, f x = some (g x) := by
  rw [mapM_some_iff, List.forall₂_map_right_iff, List.forall₂_same]

theorem mapM_none_iff {α β : Type} {f : α → Option β} {xs : List α} : xs.mapM f = none ↔ ∃ x ∈ xs, f x = none := by
  induction xs with
  | nil => simp
  | cons x xs ih =>
    simp only [List.mapM_cons, Option.bind_eq_bind, Option.bind_eq_none_iff, Option.pure_def, reduceCtorEq, imp_false,
      List.mem_cons, exists_eq_or_imp]
    rw [← ih]
    cases f x with
    | none => simp
    | some y => simp [Option.eq_none_iff_forall_ne_some]

/-- The same of results that may be errors. -/
theorem mapM_ok_iff {α β ε : Type} {f : α → Except ε β} {xs : List α} {ys : List β} :
    xs.mapM f = .ok ys ↔ List.Forall₂ (fun x y => f x = .ok y) xs ys := by
  induction xs generalizing ys with
  | nil =>
    rw [List.mapM_nil, List.forall₂_nil_left_iff]
    exact ⟨fun h => (Except.ok.inj h).symm, fun h => congrArg Except.ok h.symm⟩
  | cons x xs ih =>
    rw [List.mapM_cons, List.forall₂_cons_left_iff]
    cases hx : f x with
    | error e =>
      refine iff_of_false (fun h => by cases h) ?_
      rintro ⟨y, _, hy, -⟩
      cases hy
    | ok y =>
      cases hxs : xs.mapM f with
      | error e =>
        refine iff_of_false (fun h => by cases h) ?_
        rintro ⟨_, zs, -, hzs, -⟩
        rw [ih.2 hzs] at hxs
        cases hxs
      | ok zs =>
        have hrest := ih.1 hxs
        constructor
        · intro h
          cases h
          exact ⟨y, zs, rfl, hrest, rfl⟩
        · rintro ⟨y', zs', hy, hzs, rfl⟩
          obtain rfl : y = y' := Except.ok.inj hy
          obtain rfl : zs = zs' := Except.ok.inj (hxs.symm.trans (ih.2 hzs))
          rfl

/-- Each element of the second list is related to one of the first. -/
theorem forall₂_right {α β : Type} {R : α → β → Prop} {xs : List α} {ys : List β} (h : List.Forall₂ R xs ys) {y : β}
    (hy : y ∈ ys) : ∃ x ∈ xs, R x y := by
  induction h with
  | nil => cases hy
  | cons hxy hrest ih =>
    rcases List.mem_cons.1 hy with rfl | hy
    · exact ⟨_, List.mem_cons_self .., hxy⟩
    · obtain ⟨x, hx, hr⟩ := ih hy
      exact ⟨x, List.mem_cons_of_mem _ hx, hr⟩

theorem forall₂_at {α β : Type} {R : α → β → Prop} {xs : List α} {ys : List β} (h : List.Forall₂ R xs ys) {i : Nat} {x : α}
    (hx : xs[i]? = some x) : ∃ y, ys[i]? = some y ∧ R x y := by
  induction h generalizing i with
  | nil => cases hx
  | cons hxy hrest ih =>
    cases i with
    | zero => exact ⟨_, rfl, Option.some.inj hx ▸ hxy⟩
    | succ i => exact ih hx

theorem forall₂_exists {α β : Type} {R : α → β → Prop} {xs : List α} (h : ∀ x ∈ xs, ∃ y, R x y) :
    ∃ ys, List.Forall₂ R xs ys := by
  induction xs with
  | nil => exact ⟨[], .nil⟩
  | cons x xs ih =>
    obtain ⟨y, hy⟩ := h x (List.mem_cons_self ..)
    obtain ⟨ys, hys⟩ := ih fun x hx => h x (List.mem_cons_of_mem _ hx)
    exact ⟨y :: ys, .cons hy hys⟩

theorem forall₂_mem {α β : Type} {R : α → β → Prop} {xs : List α} {ys : List β} (h : List.Forall₂ R xs ys) :
    List.Forall₂ (fun x y => x ∈ xs ∧ R x y) xs ys := by
  induction h with
  | nil => exact .nil
  | cons hxy hrest ih =>
    exact .cons ⟨List.mem_cons_self .., hxy⟩ (ih.imp fun x y h => ⟨List.mem_cons_of_mem _ h.1, h.2⟩)

inductive Json
  | null
  | bool (b : Bool)
  | num (q : Rat)
  | str (s : String)
  | arr (xs : List Json)
  | obj (kvs : List (String × Json))

namespace Json

/-! ## Equality is decidable -/

mutual
def decEq : (a b : Json) → Decidable (a = b)
  | .null, .null => isTrue rfl
  | .bool a, .bool b => decidable_of_iff (a = b) (by simp)
  | .num a, .num b => decidable_of_iff (a = b) (by simp)
  | .str a, .str b => decidable_of_iff (a = b) (by simp)
  | .arr a, .arr b => @decidable_of_iff _ (a = b) (by simp) (decEqList a b)
  | .obj a, .obj b => @decidable_of_iff _ (a = b) (by simp) (decEqMembers a b)
  | .null, .bool _ | .null, .num _ | .null, .str _ | .null, .arr _ | .null, .obj _
  | .bool _, .null | .bool _, .num _ | .bool _, .str _ | .bool _, .arr _ | .bool _, .obj _
  | .num _, .null | .num _, .bool _ | .num _, .str _ | .num _, .arr _ | .num _, .obj _
  | .str _, .null | .str _, .bool _ | .str _, .num _ | .str _, .arr _ | .str _, .obj _
  | .arr _, .null | .arr _, .bool _ | .arr _, .num _ | .arr _, .str _ | .arr _, .obj _
  | .obj _, .null | .obj _, .bool _ | .obj _, .num _ | .obj _, .str _ | .obj _, .arr _ => isFalse (by simp)

def decEqList : (a b : List Json) → Decidable (a = b)
  | [], [] => isTrue rfl
  | [], _ :: _ | _ :: _, [] => isFalse (by simp)
  | a :: as, b :: bs =>
    @decidable_of_iff _ (a = b ∧ as = bs) (by simp) (@instDecidableAnd _ _ (decEq a b) (decEqList as bs))

def decEqMembers : (a b : List (String × Json)) → Decidable (a = b)
  | [], [] => isTrue rfl
  | [], _ :: _ | _ :: _, [] => isFalse (by simp)
  | (k, a) :: as, (l, b) :: bs =>
    @decidable_of_iff _ (k = l ∧ a = b ∧ as = bs) (by simp [and_assoc])
      (@instDecidableAnd _ _ _ (@instDecidableAnd _ _ (decEq a b) (decEqMembers as bs)))
end

instance : DecidableEq Json := decEq

instance : Inhabited Json := ⟨.null⟩

/-! ## Reading a value -/

/-- The value of a member, if the value is an object that has it. -/
def get? (j : Json) (key : String) : Option Json := match j with
  | .obj kvs => (kvs.find? fun p => p.1 = key).map Prod.snd
  | _ => none

/-- Whether `if (value)` goes on. -/
def truthy : Json → Bool
  | .null => false
  | .bool b => b
  | .num q => q ≠ 0
  | .str s => s ≠ ""
  | .arr _ | .obj _ => true

def isStr : Json → Bool
  | .str _ => true
  | _ => false

def str? : Json → Option String
  | .str s => some s
  | _ => none

/-- The integer a number is. -/
def int? : Json → Option Int
  | .num q => if q.den = 1 then some q.num else none
  | _ => none

def strList? : Json → Option (List String)
  | .arr xs => xs.mapM str?
  | _ => none

def ofStrList (xs : List String) : Json := .arr (xs.map .str)

/-- `Number(String(v))` of an array's only element. -/
def elemNumber? : Json → Option Rat
  | .num q => some q
  | .str s => Text.toNumber? s
  | .null | .arr [] => some 0
  | .arr [v] => v.elemNumber?
  | _ => none

/-- `Number(v)`, where that is finite. -/
def toNumber? : Json → Option Rat
  | .num q => some q
  | .bool b => some (if b then 1 else 0)
  | .str s => Text.toNumber? s
  | .null | .arr [] => some 0
  | .arr [v] => v.elemNumber?
  | _ => none

@[simp] theorem truthy_str (s : String) : (Json.str s).truthy = true ↔ s ≠ "" := by simp [truthy]

@[simp] theorem strList?_ofStrList (xs : List String) : (ofStrList xs).strList? = some xs := by
  simp only [strList?, ofStrList]
  rw [mapM_some_iff, List.forall₂_map_left_iff, List.forall₂_same]
  intro x _
  rfl

theorem str?_some {j : Json} {s : String} (h : j.str? = some s) : j = .str s := by
  cases j <;> simp_all [str?]

theorem isStr_iff {j : Json} : j.isStr = true ↔ ∃ s, j = .str s := by
  cases j <;> simp [isStr]

end Json

end ClusterGate.Lib
