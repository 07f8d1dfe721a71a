/-
  ClusterGate.Lib.Paging — a table read page by page, by offset.

  Each page is a query of its own. The rows come in the order of a key, the greatest first,
  and rows of one key come in any order, which may be another one at each query.
  - `take_perm`: two listings begin with the same rows, up to a place where the key changes.
  - `paged_perm_iff`: the pages hold every row once, however the queries arrange them, exactly if
    the key changes at every boundary of two pages.
-/

import Mathlib.Data.List.Nodup
import Mathlib.Order.Lattice
import Mathlib.Tactic.Choose

namespace ClusterGate.Lib.Paging

variable {α τ : Type} [LinearOrder τ] (key : α → τ)

/-- What a query may return of the rows. -/
structure Lists (rows l : List α) : Prop where
  perm : l.Perm rows
  sorted : l.Pairwise fun a b => key b ≤ key a

/-- A way to list any rows. -/
structure Listing where
  arrange : List α → List α
  lists : ∀ rows, Lists key rows (arrange rows)

/-- Page `k` of pages of `n` rows, counted from zero. -/
def page (n k : Nat) (l : List α) : List α := (l.drop (k * n)).take n

/-- The first `m` pages, each of a listing of its own. -/
def paged (n m : Nat) (listing : Nat → List α) : List α := (List.range m).flatMap fun k => page n k (listing k)

/-- At no boundary do a page's last row and the next one's first have one key. -/
def NoTieAcross (n : Nat) (rows : List α) : Prop :=
  ∀ l, Lists key rows l → ∀ k a b, l[(k + 1) * n - 1]? = some a → l[(k + 1) * n]? = some b → key a ≠ key b

variable {key} {rows l l' : List α}

/-- The keys come in one order. -/
theorem keys_eq (h : Lists key rows l) (h' : Lists key rows l') : l.map key = l'.map key := by
  have hsorted : (l.map key).Pairwise fun a b => b ≤ a := List.pairwise_map.2 h.sorted
  have hsorted' : (l'.map key).Pairwise fun a b => b ≤ a := List.pairwise_map.2 h'.sorted
  refine List.Perm.eq_of_pairwise ?_ hsorted hsorted' ((h.perm.trans h'.perm.symm).map key)
  intro a b _ _ hba hab
  exact le_antisymm hab hba

/-- What stands before a place where the key changes has the greater keys. -/
theorem take_eq_filter (h : Lists key rows l) {p : Nat} {b : α} (hb : l[p]? = some b)
    (hbefore : ∀ a ∈ l.take p, key b < key a) : l.take p = l.filter fun a => decide (key b < key a) := by
  have hafter : ∀ a ∈ l.drop p, ¬key b < key a := by
    intro a ha
    obtain ⟨i, hi, rfl⟩ := List.mem_iff_getElem.1 ha
    obtain ⟨hp, rfl⟩ := List.getElem?_eq_some_iff.1 hb
    rw [List.getElem_drop]
    rcases Nat.eq_zero_or_pos i with rfl | hpos
    · simp
    · exact not_lt.2 (List.pairwise_iff_getElem.1 h.sorted p (p + i) hp _ (by omega))
  conv_rhs => rw [← List.take_append_drop p l]
  rw [List.filter_append, List.filter_eq_self.2 (by simpa using hbefore), List.filter_eq_nil_iff.2 (by simpa using hafter),
    List.append_nil]

theorem before_lt (h : Lists key rows l) {p : Nat} {a b : α} (ha : l[p]? = some a) (hb : l[p + 1]? = some b)
    (hab : key a ≠ key b) : ∀ c ∈ l.take (p + 1), key b < key c := by
  intro c hc
  obtain ⟨i, hi, rfl⟩ := List.mem_iff_getElem.1 hc
  obtain ⟨hp, rfl⟩ := List.getElem?_eq_some_iff.1 ha
  obtain ⟨hp', rfl⟩ := List.getElem?_eq_some_iff.1 hb
  have hlt : key l[p + 1] < key l[p] :=
    lt_of_le_of_ne (List.pairwise_iff_getElem.1 h.sorted p (p + 1) hp hp' (by omega)) (Ne.symm hab)
  have hip : i < p + 1 := by
    rw [List.length_take] at hi
    omega
  rw [List.getElem_take]
  rcases Nat.lt_or_ge i p with hip' | hip'
  · exact lt_of_lt_of_le hlt (List.pairwise_iff_getElem.1 h.sorted i p (by omega) hp hip')
  · obtain rfl : i = p := by omega
    exact hlt

/-- Two listings begin alike, up to a place where the key changes. -/
theorem take_perm (h : Lists key rows l) (h' : Lists key rows l') {p : Nat}
    (hp : ∀ a b, l[p]? = some a → l[p + 1]? = some b → key a ≠ key b) : (l.take (p + 1)).Perm (l'.take (p + 1)) := by
  have hkeys := keys_eq h h'
  have hlength : l.length = l'.length := (h.perm.trans h'.perm.symm).length_eq
  rcases Nat.lt_or_ge (p + 1) l.length with hlt | hge
  · have hlt' : p + 1 < l'.length := hlength ▸ hlt
    have hlow' : p < l'.length := by omega
    have hkey : ∀ i (hi : i < l.length) (hi' : i < l'.length), key l[i] = key l'[i] := by
      intro i hi hi'
      have hat : (l.map key)[i]? = (l'.map key)[i]? := by rw [hkeys]
      simpa [hi, hi'] using hat
    have hne := hp l[p] l[p + 1] (List.getElem?_eq_getElem (by omega)) (List.getElem?_eq_getElem hlt)
    have hne' : key l'[p] ≠ key l'[p + 1] := by
      rw [← hkey p (by omega), ← hkey (p + 1) hlt]
      exact hne
    rw [take_eq_filter h (List.getElem?_eq_getElem hlt)
        (before_lt h (List.getElem?_eq_getElem (by omega)) (List.getElem?_eq_getElem hlt) hne),
      take_eq_filter h' (List.getElem?_eq_getElem hlt')
        (before_lt h' (List.getElem?_eq_getElem hlow') (List.getElem?_eq_getElem hlt') hne'),
      ← hkey (p + 1) hlt]
    exact (h.perm.trans h'.perm.symm).filter _
  · rw [List.take_of_length_le hge, List.take_of_length_le (hlength ▸ hge)]
    exact h.perm.trans h'.perm.symm

theorem take_page (n k : Nat) (l : List α) : l.take ((k + 1) * n) = l.take (k * n) ++ page n k l := by
  rw [Nat.succ_mul, List.take_add, page]

theorem paged_succ (n m : Nat) (listing : Nat → List α) :
    paged n (m + 1) listing = paged n m listing ++ page n m (listing m) := by
  simp [paged, List.range_succ]

theorem take_boundary {n : Nat} (hn : 0 < n) (hties : NoTieAcross key n rows) (h : Lists key rows l)
    (h' : Lists key rows l') (k : Nat) : (l.take (k * n)).Perm (l'.take (k * n)) := by
  cases k with
  | zero => simp
  | succ k =>
    have hpos : 0 < (k + 1) * n := Nat.mul_pos (Nat.succ_pos k) hn
    have hsucc : (k + 1) * n - 1 + 1 = (k + 1) * n := by omega
    have hperm := take_perm h h' (p := (k + 1) * n - 1) (by rw [hsucc]; exact hties l h k)
    rwa [hsucc] at hperm

/-- Without ties at the boundaries the pages of different listings are the same rows. -/
theorem paged_perm_take {n : Nat} (hn : 0 < n) (hties : NoTieAcross key n rows) (h : Lists key rows l)
    {listing : Nat → List α} (hlisting : ∀ k, Lists key rows (listing k)) (m : Nat) :
    (paged n m listing).Perm (l.take (m * n)) := by
  induction m with
  | zero => simp [paged]
  | succ m ih =>
    rw [paged_succ, take_page]
    refine ih.append ?_
    have hwhole := take_boundary hn hties (hlisting m) h (m + 1)
    rw [take_page, take_page] at hwhole
    have hbefore := take_boundary hn hties h (hlisting m) m
    exact (List.perm_append_left_iff _).1 (hwhole.trans (hbefore.append_right _))

/-- Two neighbours with one key may change places. -/
theorem lists_swap {pre post : List α} {a b : α} (h : Lists key rows (pre ++ a :: b :: post)) (hab : key a = key b) :
    Lists key rows (pre ++ b :: a :: post) := by
  refine ⟨(List.Perm.append_left pre (List.Perm.swap a b post)).trans h.perm, ?_⟩
  have hs := h.sorted
  simp only [List.pairwise_append, List.pairwise_cons, List.mem_cons, forall_eq_or_imp] at hs ⊢
  obtain ⟨hpre, ⟨⟨-, hapost⟩, hbpost, hpost⟩, hacross⟩ := hs
  refine ⟨hpre, ⟨⟨hab.le, hbpost⟩, hapost, hpost⟩, ?_⟩
  intro c hc
  obtain ⟨hca, hcb, hcpost⟩ := hacross c hc
  exact ⟨hcb, hca, hcpost⟩

theorem mem_page {n k p : Nat} {a : α} (ha : l[p]? = some a) (hlo : k * n ≤ p) (hhi : p < (k + 1) * n) : a ∈ page n k l := by
  refine List.mem_iff_getElem?.2 ⟨p - k * n, ?_⟩
  rw [Nat.succ_mul] at hhi
  rw [page, List.getElem?_take_of_lt (by omega), List.getElem?_drop, show k * n + (p - k * n) = p by omega, ha]

theorem paged_perm_iff {n m : Nat} (hn : 0 < n) (hrows : rows.Nodup) (hm : rows.length ≤ m * n) (hlists : ∃ l, Lists key rows l) :
    (∀ listing : Nat → List α, (∀ k, Lists key rows (listing k)) → (paged n m listing).Perm rows) ↔
      NoTieAcross key n rows := by
  constructor
  · intro hall l hl k a b ha hb hab
    -- The pages up to this one from `l`, the others with the two rows exchanged.
    obtain ⟨hpa, rfl⟩ := List.getElem?_eq_some_iff.1 ha
    obtain ⟨hpb, rfl⟩ := List.getElem?_eq_some_iff.1 hb
    have hpos : 0 < (k + 1) * n := Nat.mul_pos (Nat.succ_pos k) hn
    have hsplit : l = l.take ((k + 1) * n - 1) ++ l[(k + 1) * n - 1] :: l[(k + 1) * n] :: l.drop ((k + 1) * n + 1) := by
      conv_lhs => rw [← List.take_append_drop ((k + 1) * n - 1) l]
      rw [List.drop_eq_getElem_cons hpa, show (k + 1) * n - 1 + 1 = (k + 1) * n by omega, List.drop_eq_getElem_cons hpb]
    have hswap := lists_swap (hsplit ▸ hl) hab
    have hkm : k + 1 < m := by
      have hlt : (k + 1) * n < m * n := Nat.lt_of_lt_of_le hpb (hl.perm.length_eq ▸ hm)
      exact Nat.lt_of_mul_lt_mul_right hlt
    have hperm := hall (fun j => if j ≤ k then l else l.take ((k + 1) * n - 1) ++
      l[(k + 1) * n] :: l[(k + 1) * n - 1] :: l.drop ((k + 1) * n + 1)) (by
        intro j
        split
        · exact hl
        · exact hswap)
    have hnodup := (hperm.nodup_iff.2 hrows)
    rw [paged, List.nodup_flatMap] at hnodup
    have hdisjoint := List.pairwise_iff_getElem.1 hnodup.2 k (k + 1) (by rw [List.length_range]; omega)
      (by rw [List.length_range]; omega) (by omega)
    simp only [List.getElem_range, Function.onFun, Nat.le_refl, if_true, Nat.not_succ_le_self, if_false] at hdisjoint
    refine hdisjoint (mem_page ha (by rw [Nat.succ_mul]; omega) (by omega)) (mem_page (p := (k + 1) * n) ?_ (Nat.le_refl _) ?_)
    · rw [List.getElem?_append_right (by rw [List.length_take]; omega), List.length_take,
        show (k + 1) * n - min ((k + 1) * n - 1) l.length = 1 by omega]
      rfl
    · rw [Nat.succ_mul (k + 1)]
      omega
  · intro hties listing hlisting
    obtain ⟨l, hl⟩ := hlists
    have hperm := paged_perm_take hn hties hl hlisting m
    rw [List.take_of_length_le (by rw [hl.perm.length_eq]; exact hm)] at hperm
    exact hperm.trans hl.perm

/-! ## Ways to list -/

/-- By merging. -/
def Listing.merged : Listing key where
  arrange rows := rows.mergeSort fun a b => decide (key b ≤ key a)
  lists rows := by
    refine ⟨List.mergeSort_perm rows _, ?_⟩
    have hsorted := @List.pairwise_mergeSort α (fun a b => decide (key b ≤ key a))
      (fun a b c hab hbc => by simpa using le_trans (of_decide_eq_true hbc) (of_decide_eq_true hab))
      (fun a b => by simpa using le_total (key b) (key a)) rows
    exact hsorted.imp of_decide_eq_true

open Classical in
/-- Any listing of the rows is one of the ways. -/
theorem exists_listing (h : Lists key rows l) : ∃ L : Listing key, L.arrange rows = l := by
  refine ⟨⟨fun rows' => if rows' = rows then l else (Listing.merged : Listing key).arrange rows', ?_⟩, if_pos rfl⟩
  intro rows'
  split
  · rename_i heq
    rw [heq]
    exact h
  · exact Listing.merged.lists rows'

theorem browsed_perm_iff {n m : Nat} (hn : 0 < n) (hrows : rows.Nodup) (hm : rows.length ≤ m * n) :
    (∀ listing : Nat → Listing key, (paged n m fun k => (listing k).arrange rows).Perm rows) ↔ NoTieAcross key n rows := by
  rw [← paged_perm_iff hn hrows hm ⟨_, Listing.merged.lists rows⟩]
  constructor
  · intro h listing hlisting
    choose way hway using fun k => exists_listing (hlisting k)
    have hperm := h way
    rwa [funext hway] at hperm
  · exact fun h listing => h _ fun k => (listing k).lists rows

/-- Rows with keys of their own meet nowhere. -/
theorem noTieAcross_of_nodup {n : Nat} (hn : 0 < n) (h : (rows.map key).Nodup) : NoTieAcross key n rows := by
  intro l hl k a b ha hb hab
  have hnodup : (l.map key).Nodup := ((hl.perm.map key).nodup_iff).2 h
  have hpos : 0 < (k + 1) * n := Nat.mul_pos (Nat.succ_pos k) hn
  have ha' : (l.map key)[(k + 1) * n - 1]? = some (key a) := by rw [List.getElem?_map, ha]; rfl
  have hb' : (l.map key)[(k + 1) * n]? = some (key a) := by rw [List.getElem?_map, hb, hab]; rfl
  have hlt := (List.getElem?_eq_some_iff.1 ha').1
  have hsame := (List.nodup_iff_getElem?_ne_getElem?.1 hnodup) ((k + 1) * n - 1) ((k + 1) * n) (by omega)
    (List.getElem?_eq_some_iff.1 hb').1
  exact hsame (ha'.trans hb'.symm)

end ClusterGate.Lib.Paging
