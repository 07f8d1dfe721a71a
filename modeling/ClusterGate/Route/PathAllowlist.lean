/-
  ClusterGate.Route.PathAllowlist — the patterns of a route's path allowlist
  (`lib/pathAllowlist.ts`): how an entered pattern is normalised and what makes it
  invalid.
  - `normalizePathPattern_valid`: a valid pattern's normal form is valid and normal.
-/

import ClusterGate.Lib.Text
import Mathlib.Data.List.Nodup

namespace ClusterGate

open Lib Lib.Text

def PATH_ALLOWLIST_MAX_ENTRIES : Nat := 100
def PATH_ALLOWLIST_MAX_LENGTH : Nat := 500

/-- The normal form's characters: one slash, and the rest without slashes at its end. -/
def normalChars (cs : List Char) : List Char :=
  match cs with
  | '/' :: tail => '/' :: tail.rdropWhile (· = '/')
  | cs => '/' :: cs.rdropWhile (· = '/')

/-- Leading slash, no trailing slash. -/
def normalizePathPattern (pattern : String) : String := String.ofList (normalChars (trim pattern).toList)

/-- The message for an invalid pattern, if it is one. -/
def validatePathPattern (pattern : String) : Option String :=
  let p := normalizePathPattern pattern
  let segments := split (slice p 1) '/'
  if utf16Length p > PATH_ALLOWLIST_MAX_LENGTH then some "Path pattern is too long"
  else if p.toList.any fun c => isSpace c || c = '?' || c = '#' || c = '\\' then
    some "Path pattern must not contain whitespace, ?, # or \\"
  else if p ≠ "/" ∧ "" ∈ segments then some "Path pattern must not contain empty segments (//)"
  else segments.findSome? fun seg =>
    if seg = "." ∨ seg = ".." then some "Path pattern must not contain . or .. segments"
    else if includes seg "*" ∧ seg ≠ "*" then some "Use * only as a whole segment, e.g. /api/*"
    else none

/-- `Array.from(new Set(list))`: the first of each. -/
def dedupe {α : Type} [DecidableEq α] : List α → List α
  | [] => []
  | x :: xs => x :: (dedupe xs).filter (· ≠ x)

section Dedupe

variable {α : Type} [DecidableEq α]

theorem mem_dedupe {x : α} {xs : List α} : x ∈ dedupe xs ↔ x ∈ xs := by
  induction xs with
  | nil => rfl
  | cons y ys ih =>
    simp only [dedupe, List.mem_cons, List.mem_filter, ih, decide_eq_true_eq]
    by_cases h : x = y <;> simp [h]

theorem nodup_dedupe (xs : List α) : (dedupe xs).Nodup := by
  induction xs with
  | nil => exact List.nodup_nil
  | cons y ys ih => exact List.nodup_cons.2 ⟨by simp, ih.filter _⟩

theorem dedupe_of_nodup {xs : List α} (h : xs.Nodup) : dedupe xs = xs := by
  induction xs with
  | nil => rfl
  | cons y ys ih =>
    obtain ⟨hy, hys⟩ := List.nodup_cons.1 h
    simp only [dedupe, ih hys, List.cons.injEq, true_and, List.filter_eq_self, decide_eq_true_eq]
    exact fun z hz e => hy (e ▸ hz)

theorem length_dedupe_le (xs : List α) : (dedupe xs).length ≤ xs.length := by
  induction xs with
  | nil => exact Nat.le_refl _
  | cons y ys ih =>
    have := List.length_filter_le (· ≠ y) (dedupe ys)
    simp only [dedupe, List.length_cons]
    omega

end Dedupe

/-! ## Normal forms -/

theorem trim_of_noSpace {s : String} (h : ∀ c ∈ s.toList, isSpace c = false) : trim s = s := by
  unfold trim
  have hd : s.toList.dropWhile isSpace = s.toList := by
    cases hs : s.toList with
    | nil => rfl
    | cons c cs => rw [List.dropWhile_cons_of_neg]; simpa using h c (by simp [hs])
  rw [hd, List.rdropWhile_eq_self_iff.2 (fun hne => by simpa using h _ (List.getLast_mem hne))]
  exact String.ofList_toList

theorem normalChars_eq (cs : List Char) : ∃ t : List Char, normalChars cs = '/' :: t.rdropWhile (· = '/') := by
  unfold normalChars
  split <;> exact ⟨_, rfl⟩

theorem normalChars_normal (cs : List Char) : normalChars (normalChars cs) = normalChars cs := by
  obtain ⟨t, ht⟩ := normalChars_eq cs
  rw [ht]
  exact congrArg ('/' :: ·) (List.rdropWhile_idempotent _ t)

/-- A valid pattern's normal form has no blanks. -/
theorem validatePathPattern_clean {pattern : String} (h : validatePathPattern pattern = none) :
    ∀ c ∈ (normalizePathPattern pattern).toList, isSpace c = false := by
  unfold validatePathPattern at h
  simp only at h
  split at h
  · cases h
  · split at h
    · cases h
    · rename_i hn
      intro c hc
      by_contra hs
      exact hn (List.any_eq_true.2 ⟨c, hc, by simp_all⟩)

/-- A valid pattern's normal form is valid, normal and free of blanks at its ends. -/
theorem normalizePathPattern_valid {pattern : String} (h : validatePathPattern pattern = none) :
    trim (normalizePathPattern pattern) = normalizePathPattern pattern ∧
      normalizePathPattern (normalizePathPattern pattern) = normalizePathPattern pattern ∧
      validatePathPattern (normalizePathPattern pattern) = none := by
  have ht := trim_of_noSpace (validatePathPattern_clean h)
  have hn : normalizePathPattern (normalizePathPattern pattern) = normalizePathPattern pattern := by
    conv_lhs => rw [normalizePathPattern, ht]
    simp only [normalizePathPattern, String.toList_ofList, normalChars_normal]
  refine ⟨ht, hn, ?_⟩
  simp only [validatePathPattern, hn]
  exact h

end ClusterGate
