/-
  ClusterGate.Lib.UrlQuery — which query a web URL's text has.

  The parser finds it behind the text's first question mark, unless a hash comes before, and
  a query that is put behind a text without either is the query of the whole.
  - `read_query`: the query is read from the text as it stands, wherever its authority ends.
  - `query_behind`, `query_absent`, `query_hashed`: with a query put behind it, with none, and
    behind a hash.
-/

import ClusterGate.Lib.FormUrlencoded

namespace ClusterGate.Lib.Url

open FormUrlencoded (QueryChar)
open UrlRecord

/-- A character before a text's query. -/
theorem readQuery_front {front : List Char} (h : ∀ c ∈ front, endsPath c = false) (special : Bool) (rest : List Char) :
    readQuery special (front ++ rest) = readQuery special rest := by
  unfold readQuery
  rw [List.dropWhile_append_of_pos fun c hc => by rw [h c hc]; rfl]

theorem schemeChar_front {c : Char} (h : isSchemeChar c = true) : endsPath c = false := by
  rw [Bool.eq_false_iff]
  intro he
  simp only [endsPath, Bool.or_eq_true, decide_eq_true_eq] at he
  rcases he with rfl | rfl
  · exact absurd h (by decide)
  · exact absurd h (by decide)

theorem slash_front {c : Char} (h : isSlash c = true) : endsPath c = false := by
  rw [Bool.eq_false_iff]
  intro he
  simp only [endsPath, Bool.or_eq_true, decide_eq_true_eq] at he
  rcases he with rfl | rfl
  · exact absurd h (by decide)
  · exact absurd h (by decide)

/-- The text of a web URL up to its path, and what the parser reads behind it. -/
theorem read_web {H : HostParser} {cs : List Char} {u : UrlRecord} (h : UrlRecord.readChars H none cs = some u)
    (hw : (defaultPort u.scheme).isSome = true) :
    ∃ front rest, strip cs = front ++ rest ∧ (∀ c ∈ front, endsPath c = false) ∧ u.query = readQuery true rest ∧
      u.path = .segments (startPath true false rest) := by
  unfold UrlRecord.readChars at h
  cases hs : splitScheme (strip cs) with
  | none => rw [hs] at h; cases h
  | some p =>
    obtain ⟨scheme, rest⟩ := p
    rw [hs] at h
    dsimp only at h
    obtain ⟨name, htext, hname, -⟩ := splitScheme_eq hs
    unfold UrlRecord.readAbsolute at h
    split at h
    · exact absurd (readFile_scheme h) (web_not_file hw)
    split at h
    · rename_i hweb
      obtain ⟨hp, -, rfl⟩ := Option.map_eq_some_iff.1 h
      have hslashes := List.takeWhile_append_dropWhile (p := isSlash) (l := rest)
      have hauth := List.takeWhile_append_dropWhile (p := fun c => !endsAuthority (isSpecial scheme) c) (l := rest.dropWhile isSlash)
      refine ⟨name ++ ':' :: (rest.takeWhile isSlash ++
        (rest.dropWhile isSlash).takeWhile fun c => !endsAuthority (isSpecial scheme) c),
        (rest.dropWhile isSlash).dropWhile fun c => !endsAuthority (isSpecial scheme) c, ?_, ?_, ?_, ?_⟩
      · rw [htext, List.append_assoc, List.cons_append, List.append_assoc, hauth, hslashes]
      · intro c hc
        rcases List.mem_append.1 hc with hc | hc
        · exact schemeChar_front (hname.2 c hc)
        rcases List.mem_cons.1 hc with rfl | hc
        · decide
        rcases List.mem_append.1 hc with hc | hc
        · exact slash_front (List.mem_takeWhile_imp hc)
        · have hc' := List.mem_takeWhile_imp (p := fun c => !endsAuthority (isSpecial scheme) c) hc
          rw [Bool.not_eq_true'] at hc'
          simp only [endsAuthority, Bool.or_eq_false_iff] at hc'
          rw [endsPath, hc'.1.1.2, hc'.1.2]
          rfl
      · show readQuery (isSpecial scheme) _ = _
        rw [web_special hweb]
      · show UrlPath.segments (startPath (isSpecial scheme) false _) = _
        rw [web_special hweb]
    · rename_i hweb
      exfalso
      split at h
      · rw [readAuthority_scheme h] at hw
        exact hweb hw
      · injection h with h
        rw [← h] at hw
        exact hweb hw
      · injection h with h
        rw [← h] at hw
        exact hweb hw

/-- The query is read from the text as it stands. -/
theorem read_query {H : HostParser} {cs : List Char} {u : UrlRecord} (h : UrlRecord.readChars H none cs = some u)
    (hw : (defaultPort u.scheme).isSome = true) : u.query = readQuery true (strip cs) := by
  obtain ⟨front, rest, htext, hfront, hquery, -⟩ := read_web h hw
  rw [hquery, htext, readQuery_front hfront]

/-! ## A query put behind -/

/-- Nothing is trimmed off a text in front of a query. -/
theorem strip_behind (cut : List Char) {q : List Char} (hq : ∀ c ∈ q, QueryChar c) :
    strip (cut ++ '?' :: q) = lead cut ++ '?' :: q := by
  have hclean : ∀ c ∈ '?' :: q, isC0OrSpace c = false := by
    intro c hc
    rcases List.mem_cons.1 hc with rfl | hc
    · decide
    · exact (hq c hc).2
  have hkept : ('?' :: q).filter kept = '?' :: q := by
    rw [List.filter_eq_self]
    intro c hc
    by_contra hdropped
    have hblank := blank_of_dropped (Bool.eq_false_iff.2 hdropped)
    rw [hclean c hc] at hblank
    cases hblank
  have hlead : lead (cut ++ '?' :: q) = lead cut ++ '?' :: q := by
    have hdrop : (cut ++ '?' :: q).dropWhile isC0OrSpace = cut.dropWhile isC0OrSpace ++ '?' :: q := by
      rw [List.dropWhile_append]
      split
      · rename_i hnil
        rw [List.isEmpty_iff.1 hnil, List.dropWhile_cons_of_neg (by decide), List.nil_append]
      · rfl
    rw [lead, hdrop, List.filter_append, hkept]
    rfl
  rw [strip_eq, hlead, ← List.append_nil (lead cut ++ '?' :: q), trail_append, List.append_nil]
  · exact List.append_nil _
  · intro c hc
    rw [List.getLast?_append_of_ne_nil _ (by simp)] at hc
    exact hclean c (List.mem_of_getLast? hc)

theorem lead_subset {cs : List Char} {c : Char} (h : c ∈ lead cs) : c ∈ cs :=
  (List.dropWhile_suffix _).subset (List.mem_of_mem_filter h)

theorem strip_subset {cs : List Char} {c : Char} (h : c ∈ strip cs) : c ∈ cs := by
  rw [strip_eq] at h
  exact lead_subset ((trail_of _).subset h)

section Behind

variable {H : HostParser} {cut q : List Char} {u : UrlRecord}

theorem not_endsPath {c : Char} (hq : c ≠ '?') (hh : c ≠ '#') : endsPath c = false := by
  rw [endsPath, decide_eq_false hq, decide_eq_false hh]
  rfl

theorem query_behind (hq : ∀ c ∈ q, QueryChar c) (hquestion : '?' ∉ cut) (hhash : '#' ∉ cut)
    (h : UrlRecord.readChars H none (cut ++ '?' :: q) = some u) (hw : (defaultPort u.scheme).isSome = true) :
    u.query = some q := by
  have hfront : ∀ c ∈ lead cut, endsPath c = false := by
    intro c hc
    refine not_endsPath ?_ ?_
    · rintro rfl
      exact hquestion (lead_subset hc)
    · rintro rfl
      exact hhash (lead_subset hc)
  rw [read_query h hw, strip_behind cut hq, readQuery_front hfront]
  have hno : ∀ c ∈ q, decide (c ≠ '#') = true := by
    intro c hc
    rw [decide_eq_true_eq]
    rintro rfl
    exact absurd (hq _ hc).1 (by decide)
  unfold readQuery
  rw [List.dropWhile_cons_of_neg (by decide)]
  show some (percentEncode inSpecialQuerySet (q.takeWhile fun c => decide (c ≠ '#'))) = some q
  rw [List.takeWhile_eq_self_iff.2 hno, percentEncode_self fun c hc => (hq c hc).1]

/-- A text without a question mark has no query. -/
theorem query_absent (hquestion : '?' ∉ cut) (h : UrlRecord.readChars H none cut = some u)
    (hw : (defaultPort u.scheme).isSome = true) : u.query = none := by
  rw [read_query h hw]
  unfold readQuery
  split
  · rename_i q hq
    have hmem : '?' ∈ strip cut := (List.dropWhile_suffix _).subset (hq ▸ List.mem_cons_self)
    exact absurd (strip_subset hmem) hquestion
  · rfl

/-- Nor has one behind a hash. -/
theorem query_hashed (hq : ∀ c ∈ q, QueryChar c) (hquestion : '?' ∉ cut) (hhash : '#' ∈ cut)
    (h : UrlRecord.readChars H none (cut ++ '?' :: q) = some u) (hw : (defaultPort u.scheme).isSome = true) :
    u.query = none := by
  have hlead : '#' ∈ lead cut := by
    refine List.mem_filter.2 ⟨?_, by decide⟩
    rw [← List.takeWhile_append_dropWhile (p := isC0OrSpace) (l := cut)] at hhash
    rcases List.mem_append.1 hhash with hhash | hhash
    · exact absurd (List.mem_takeWhile_imp hhash) (by decide)
    · exact hhash
  obtain ⟨xs, ys, htext, hfirst⟩ := List.eq_append_cons_of_mem hlead
  have hfront : ∀ c ∈ xs, endsPath c = false := by
    intro c hc
    refine not_endsPath ?_ ?_
    · rintro rfl
      exact hquestion (lead_subset (htext ▸ List.mem_append_left _ hc))
    · rintro rfl
      exact hfirst hc
  rw [read_query h hw, strip_behind cut hq, htext, List.append_assoc, readQuery_front hfront]
  rfl

end Behind

end ClusterGate.Lib.Url
