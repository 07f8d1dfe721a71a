/-
  ClusterGate.Lib.Collate — texts in the order of their UTF-16 code units, and a query
  that answers in descending order.

  A text comes after its proper prefixes (`collate_prefix`), and of two that part at
  some character, the first of them below the surrogates, the one with the lesser
  character comes first (`collate_branch`). The first row of a descending query that
  passes a test is the last in the order among all that pass (`find?_descending`).
-/

import Mathlib.Data.List.Lex
import Mathlib.Data.List.Sort

namespace ClusterGate.Lib

/-- The code units of a character. -/
def unitsOf (c : Char) : List Nat :=
  if c.toNat < 0x10000 then [c.toNat]
  else [0xD800 + (c.toNat - 0x10000) / 0x400, 0xDC00 + (c.toNat - 0x10000) % 0x400]

def units (cs : List Char) : List Nat := cs.flatMap unitsOf

theorem units_cons (c : Char) (cs : List Char) : units (c :: cs) = unitsOf c ++ units cs := rfl

theorem units_append (a b : List Char) : units (a ++ b) = units a ++ units b := List.flatMap_append

/-- The first unit of a character is the character itself or a surrogate. -/
theorem unitsOf_head (c : Char) :
    ∃ u us, unitsOf c = u :: us ∧ (u = c.toNat ∨ 0xD800 ≤ u ∧ 0x10000 ≤ c.toNat) := by
  unfold unitsOf
  by_cases h : c.toNat < 0x10000
  · exact ⟨c.toNat, [], by rw [if_pos h], .inl rfl⟩
  · rw [if_neg h]
    exact ⟨_, _, rfl, .inr ⟨by omega, by omega⟩⟩

theorem collate_prefix {a : List Char} (c : Char) (t : List Char) : units a < units (a ++ c :: t) := by
  obtain ⟨u, us, hu, -⟩ := unitsOf_head c
  rw [units_append, units_cons, hu]
  have h : units a ++ [] < units a ++ (u :: us ++ units t) := List.append_left_lt (List.nil_lt_cons u _)
  rwa [List.append_nil] at h

theorem collate_branch (p x y : List Char) {c d : Char} (hc : c.toNat < 0xD800) (h : c.toNat < d.toNat) :
    units (p ++ c :: x) < units (p ++ d :: y) := by
  have hunit : unitsOf c = [c.toNat] := by
    unfold unitsOf
    rw [if_pos (by omega)]
  obtain ⟨u, us, hu, hd⟩ := unitsOf_head d
  have hlt : c.toNat < u := by
    rcases hd with hd | ⟨hd, -⟩
    · omega
    · omega
  rw [units_append, units_append, units_cons, units_cons, hunit, hu]
  exact List.append_left_lt (List.cons_lt_cons_iff.2 (.inl hlt))

/-! ## Descending queries -/

variable {α : Type}

/-- At or after in the order of a key. -/
def AtOrAfter (key : α → List Nat) (a b : α) : Prop := key b ≤ key a

instance (key : α → List Nat) : DecidableRel (AtOrAfter key) := fun a b => inferInstanceAs (Decidable (key b ≤ key a))

instance (key : α → List Nat) : IsTrans α (AtOrAfter key) := ⟨fun _ _ _ hab hbc => le_trans hbc hab⟩

instance (key : α → List Nat) : Std.Total (AtOrAfter key) := ⟨fun _ _ => le_total _ _⟩

/-- `orderBy: { key: 'desc' }`. -/
def descending (key : α → List Nat) (rows : List α) : List α := rows.insertionSort (AtOrAfter key)

theorem mem_descending {key : α → List Nat} {rows : List α} {a : α} : a ∈ descending key rows ↔ a ∈ rows :=
  List.mem_insertionSort _

theorem descending_pairwise (key : α → List Nat) (rows : List α) : (descending key rows).Pairwise (AtOrAfter key) :=
  List.pairwise_insertionSort _ rows

theorem find?_pairwise {R : α → α → Prop} {p : α → Bool} {rows : List α} {m : α} (hr : rows.Pairwise R)
    (hm : rows.find? p = some m) {r : α} (hmem : r ∈ rows) (hp : p r = true) : r = m ∨ R m r := by
  induction rows with
  | nil => cases hm
  | cons a rows ih =>
    obtain ⟨ha, hrest⟩ := List.pairwise_cons.1 hr
    by_cases hpa : p a = true
    · rw [List.find?_cons_of_pos hpa] at hm
      injection hm with hm
      subst hm
      rcases List.mem_cons.1 hmem with hmem | hmem
      · exact .inl hmem
      · exact .inr (ha r hmem)
    · rw [List.find?_cons_of_neg hpa] at hm
      rcases List.mem_cons.1 hmem with hmem | hmem
      · exact absurd (hmem ▸ hp) hpa
      · exact ih hrest hm hmem

/-- The first row that passes comes after every other that does in the order. -/
theorem find?_descending {key : α → List Nat} {p : α → Bool} {rows : List α} {m : α}
    (hm : (descending key rows).find? p = some m) {r : α} (hmem : r ∈ rows) (hp : p r = true) : ¬key m < key r := by
  rcases find?_pairwise (descending_pairwise key rows) hm (mem_descending.2 hmem) hp with h | h
  · rw [h]
    exact List.lt_irrefl _
  · exact not_lt_of_ge h

end ClusterGate.Lib
