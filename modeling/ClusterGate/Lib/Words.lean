/-
  ClusterGate.Lib.Words — the words of a list: its longest runs of elements of one kind.

  Words are joined by one separator that is of no word.
  - `words_join`: the words of joined words are these words.
  - `take_join`: a beginning of joined words is joined words again, or some of the words
    with a separator behind them.
-/

import Mathlib.Data.List.Basic

namespace ClusterGate.Lib

section Words

variable {α : Type}

/-- An element goes to the word behind it where that word begins with the next element. -/
def words (isWord : α → Bool) : List α → List (List α)
  | [] => []
  | c :: cs =>
    if isWord c then
      if cs.head?.any isWord then (words isWord cs).modifyHead (c :: ·) else [c] :: words isWord cs
    else words isWord cs

def joinWords (sep : α) (ws : List (List α)) : List α := [sep].intercalate ws

@[simp] theorem joinWords_nil (sep : α) : joinWords sep [] = [] := rfl
@[simp] theorem joinWords_one (sep : α) (w : List α) : joinWords sep [w] = w := by simp [joinWords, List.intercalate]
theorem joinWords_cons (sep : α) (w v : List α) (ws : List (List α)) :
    joinWords sep (w :: v :: ws) = w ++ sep :: joinWords sep (v :: ws) := by
  simp [joinWords, List.intercalate]

variable {isWord : α → Bool} {sep : α}

theorem words_skip {c : α} (hc : isWord c = false) (cs : List α) : words isWord (c :: cs) = words isWord cs := by
  simp [words, hc]

/-- A list that begins with an element of a word has a word. -/
theorem words_of_head {cs : List α} (h : cs.head?.any isWord = true) :
    ∃ w ws, words isWord cs = w :: ws := by
  induction cs with
  | nil => cases h
  | cons c cs ih =>
    have hc : isWord c = true := by simpa using h
    by_cases hnext : cs.head?.any isWord = true
    · obtain ⟨w, ws, hws⟩ := ih hnext
      exact ⟨c :: w, ws, by simp [words, hc, hnext, hws]⟩
    · exact ⟨[c], words isWord cs, by simp [words, hc, hnext]⟩

theorem mem_words {cs w : List α} (h : w ∈ words isWord cs) : w ≠ [] ∧ ∀ c ∈ w, isWord c = true := by
  induction cs generalizing w with
  | nil => cases h
  | cons c cs ih =>
    by_cases hc : isWord c = true
    · by_cases hnext : cs.head?.any isWord = true
      · obtain ⟨v, ws, hws⟩ := words_of_head hnext
        have hmem : w = c :: v ∨ w ∈ ws := by simpa [words, hc, hnext, hws] using h
        rcases hmem with rfl | hmem
        · have hv := ih (w := v) (by simp [hws])
          exact ⟨by simp, by simpa [hc] using hv.2⟩
        · exact ih (by simp [hws, hmem])
      · have hmem : w = [c] ∨ w ∈ words isWord cs := by simpa [words, hc, hnext] using h
        rcases hmem with rfl | hmem
        · exact ⟨by simp, by simpa using hc⟩
        · exact ih hmem
    · rw [words_skip (by simpa using hc)] at h
      exact ih h

/-- A word in front of a separator is a word of its own. -/
theorem words_append_sep (hsep : isWord sep = false) {w : List α} (hne : w ≠ []) (hw : ∀ c ∈ w, isWord c = true)
    (rest : List α) : words isWord (w ++ sep :: rest) = w :: words isWord rest := by
  induction w with
  | nil => exact absurd rfl hne
  | cons c w ih =>
    have hc : isWord c = true := hw c (by simp)
    cases w with
    | nil => simp [words, hc, hsep]
    | cons d w =>
      have hrest := ih (by simp) fun e he => hw e (by simp [he])
      have hd : isWord d = true := hw d (by simp)
      rw [List.cons_append, words, if_pos hc, if_pos (by simpa using hd), hrest]
      rfl

theorem words_word {w : List α} (hne : w ≠ []) (hw : ∀ c ∈ w, isWord c = true) : words isWord w = [w] := by
  induction w with
  | nil => exact absurd rfl hne
  | cons c w ih =>
    have hc : isWord c = true := hw c (by simp)
    cases w with
    | nil => simp [words, hc]
    | cons d w =>
      have hrest := ih (by simp) fun e he => hw e (by simp [he])
      have hd : isWord d = true := hw d (by simp)
      rw [words, if_pos hc, if_pos (by simpa using hd), hrest]
      rfl

theorem words_join (hsep : isWord sep = false) {ws : List (List α)}
    (h : ∀ w ∈ ws, w ≠ [] ∧ ∀ c ∈ w, isWord c = true) : words isWord (joinWords sep ws) = ws := by
  induction ws with
  | nil => rfl
  | cons w ws ih =>
    obtain ⟨hne, hw⟩ := h w (by simp)
    cases ws with
    | nil => rw [joinWords_one, words_word hne hw]
    | cons v ws => rw [joinWords_cons, words_append_sep hsep hne hw, ih fun x hx => h x (List.mem_cons_of_mem _ hx)]

/-- Joined words begin with an element of a word, and end with one. -/
theorem join_head (sep : α) {ws : List (List α)} (hne : ws ≠ []) (h : ∀ w ∈ ws, w ≠ [] ∧ ∀ c ∈ w, isWord c = true) :
    ∃ c cs, joinWords sep ws = c :: cs ∧ isWord c = true := by
  obtain ⟨w, ws, rfl⟩ := List.exists_cons_of_ne_nil hne
  obtain ⟨hwne, hw⟩ := h w (by simp)
  obtain ⟨c, cs, rfl⟩ := List.exists_cons_of_ne_nil hwne
  have hc := hw c (by simp)
  cases ws with
  | nil => exact ⟨c, cs, joinWords_one sep _, hc⟩
  | cons v ws => exact ⟨c, _, joinWords_cons sep _ v ws, hc⟩

theorem join_last (sep : α) {ws : List (List α)} (hne : ws ≠ []) (h : ∀ w ∈ ws, w ≠ [] ∧ ∀ c ∈ w, isWord c = true) :
    ∃ cs c, joinWords sep ws = cs ++ [c] ∧ isWord c = true := by
  induction ws with
  | nil => exact absurd rfl hne
  | cons w ws ih =>
    cases ws with
    | nil =>
      obtain ⟨hwne, hw⟩ := h w (by simp)
      refine ⟨w.dropLast, w.getLast hwne, ?_, hw _ (List.getLast_mem hwne)⟩
      rw [joinWords_one, List.dropLast_append_getLast]
    | cons v ws =>
      obtain ⟨cs, c, hjoin, hc⟩ := ih (by simp) fun x hx => h x (List.mem_cons_of_mem _ hx)
      refine ⟨w ++ sep :: cs, c, ?_, hc⟩
      rw [joinWords_cons, hjoin, List.append_assoc, List.cons_append]

/-- Some of the words come first, and a separator behind them. -/
theorem join_take (sep : α) {ws : List (List α)} {m : Nat} (hm : 0 < m) (hlt : m < ws.length) :
    ∃ rest, joinWords sep ws = joinWords sep (ws.take m) ++ sep :: rest := by
  induction m generalizing ws with
  | zero => cases hm
  | succ m ih =>
    match ws with
    | [] => cases hlt
    | [_] => simp at hlt
    | w :: v :: ws =>
      rw [joinWords_cons, List.take_succ_cons]
      cases m with
      | zero => exact ⟨joinWords sep (v :: ws), by simp⟩
      | succ m =>
        have hrestlt : m + 1 < (v :: ws).length := by simpa using hlt
        obtain ⟨rest, hrest⟩ := ih (Nat.succ_pos m) hrestlt
        refine ⟨rest, ?_⟩
        rw [hrest, List.take_succ_cons, joinWords_cons, List.append_assoc, List.cons_append]

/-- Cut after `n`: inside or behind a word, or behind the separator after some words. -/
theorem take_join (sep : α) {ws : List (List α)} (hne : ws ≠ []) (h : ∀ w ∈ ws, w ≠ [] ∧ ∀ c ∈ w, isWord c = true) {n : Nat}
    (hn : 0 < n) :
    (∃ vs, vs ≠ [] ∧ (∀ v ∈ vs, v ≠ [] ∧ ∀ c ∈ v, isWord c = true) ∧ (joinWords sep ws).take n = joinWords sep vs) ∨
      ∃ m, 0 < m ∧ m < ws.length ∧ (joinWords sep (ws.take m)).length + 1 = n := by
  induction ws generalizing n with
  | nil => exact absurd rfl hne
  | cons w ws ih =>
    obtain ⟨hwne, hw⟩ := h w (by simp)
    have inside : n ≤ w.length → ∀ rest, ∃ vs, vs ≠ [] ∧ (∀ v ∈ vs, v ≠ [] ∧ ∀ c ∈ v, isWord c = true) ∧
        (w ++ rest).take n = joinWords sep vs := by
      intro hle rest
      refine ⟨[w.take n], by simp, ?_, ?_⟩
      · intro v hv
        rw [List.mem_singleton.1 hv]
        refine ⟨?_, fun c hc => hw c (List.mem_of_mem_take hc)⟩
        rw [ne_eq, List.take_eq_nil_iff]
        rintro (h0 | hnil)
        · omega
        · exact hwne hnil
      · rw [joinWords_one, List.take_append_of_le_length hle]
    cases ws with
    | nil =>
      refine .inl ?_
      rcases Nat.le_or_ge n w.length with hle | hge
      · simpa using inside hle []
      · refine ⟨[w], by simp, h, ?_⟩
        rw [joinWords_one, List.take_of_length_le hge]
    | cons v ws =>
      rw [joinWords_cons]
      rcases Nat.le_or_ge n w.length with hle | hge
      · exact .inl (inside hle _)
      obtain ⟨k, rfl⟩ := Nat.exists_eq_add_of_le hge
      rw [List.take_length_add_append]
      match k with
      | 0 => exact .inl (by simpa using inside (Nat.le_refl _) [])
      | 1 => exact .inr ⟨1, by omega, by simp, by simp⟩
      | k + 2 =>
        rcases ih (by simp) (fun x hx => h x (List.mem_cons_of_mem _ hx)) (Nat.succ_pos k) with
          ⟨vs, hvne, hvs, htake⟩ | ⟨m, hm, hlt, hlen⟩
        · obtain ⟨u, us, rfl⟩ := List.exists_cons_of_ne_nil hvne
          refine .inl ⟨w :: u :: us, by simp, ?_, ?_⟩
          · intro x hx
            rcases List.mem_cons.1 hx with rfl | hx
            · exact ⟨hwne, hw⟩
            · exact hvs x hx
          · rw [List.take_succ_cons, htake, joinWords_cons]
        · obtain ⟨m, rfl⟩ : ∃ m', m = m' + 1 := ⟨m - 1, by omega⟩
          refine .inr ⟨m + 2, by omega, by simpa using hlt, ?_⟩
          rw [List.take_succ_cons] at hlen
          rw [List.take_succ_cons, List.take_succ_cons, joinWords_cons, List.length_append, List.length_cons]
          omega

end Words

end ClusterGate.Lib
