/-
  ClusterGate.Lib.Lines — a text read line by line, as it comes in pieces.

  The reader keeps what stands behind the last separator; with the next piece it has the
  lines that are finished by it.
  - `splitOn_more`: what is added to a text goes on with its last line.
  - `feed_lines`: the lines that were read and what is kept are those of the whole text.
-/

import Mathlib.Data.List.Basic

namespace ClusterGate.Lib.Lines

variable {α : Type} [BEq α] (sep : α)

/-- What is added to a text goes on with its last line. -/
theorem splitOn_more {xs last : List α} {done : List (List α)} (h : xs.splitOn sep = done ++ [last]) (more : List α) :
    (xs ++ more).splitOn sep = done ++ (last ++ more).splitOn sep := by
  induction xs generalizing done last with
  | nil =>
    rw [List.splitOn_nil] at h
    obtain ⟨rfl, hlast⟩ := List.append_eq_singleton_iff.1 h.symm |>.resolve_right (by simp)
    obtain rfl := (List.cons.inj hlast).1
    rfl
  | cons x xs ih =>
    rw [List.splitOn_cons_eq_if_modifyHead] at h
    rw [List.cons_append, List.splitOn_cons_eq_if_modifyHead]
    obtain ⟨first, rest, hlines⟩ := List.exists_cons_of_ne_nil (List.splitOn_ne_nil sep xs)
    by_cases hx : (x == sep) = true
    · rw [if_pos hx] at h ⊢
      cases done with
      | nil =>
        rw [hlines] at h
        cases h
      | cons d done =>
        obtain ⟨rfl, hrest⟩ := List.cons.inj h
        rw [ih hrest, List.cons_append]
    · rw [if_neg hx, hlines, List.modifyHead_cons] at h
      rw [if_neg hx]
      cases done with
      | nil =>
        obtain ⟨rfl, rfl⟩ := List.cons.inj h
        have hwhole := @ih first [] hlines
        rw [hwhole, List.nil_append, List.nil_append, List.cons_append, List.splitOn_cons_eq_if_modifyHead, if_neg hx]
      | cons d done =>
        obtain ⟨rfl, rfl⟩ := List.cons.inj h
        have hwhole := @ih last (first :: done) hlines
        rw [hwhole]
        rfl

/-- The lines that are finished with a piece, and what is kept. -/
def feed (buffer piece : List α) : List (List α) × List α :=
  let lines := (buffer ++ piece).splitOn sep
  (lines.dropLast, lines.getLast?.getD [])

theorem feed_lines {text buffer : List α} {done : List (List α)} (h : text.splitOn sep = done ++ [buffer]) (piece : List α) :
    (text ++ piece).splitOn sep = (done ++ (feed sep buffer piece).1) ++ [(feed sep buffer piece).2] := by
  have hne := List.splitOn_ne_nil sep (buffer ++ piece)
  have hfeed : (buffer ++ piece).splitOn sep = (feed sep buffer piece).1 ++ [(feed sep buffer piece).2] := by
    rw [feed, List.getLast?_eq_some_getLast hne, Option.getD_some, List.dropLast_concat_getLast hne]
  rw [splitOn_more sep h, hfeed, List.append_assoc]

end ClusterGate.Lib.Lines
