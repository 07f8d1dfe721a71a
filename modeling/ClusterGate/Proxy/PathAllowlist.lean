/-
  ClusterGate.Proxy.PathAllowlist — which sub-paths a route's path allowlist lets through
  (`lib/pathAllowlist.ts`: `isPathAllowed` and what it calls).

  A sub-path is read as its decoded segments if it has any reading at all (`Reads`): no
  empty segment but one behind a trailing slash, every escape in order, and no segment
  that decodes to a dot segment or to something with a slash or a backslash. A pattern is
  meant to denote segments one by one, a segment written `*` any one of them, and as the
  last segment any number (`Denotes`).
  - `requestSegments_iff`: the code's segments are the reading.
  - `matchesPattern_iff`: the code's matching is the denotation, but of the pattern's
    decoded segments.

  As built the asterisk is looked for after decoding, so `%2A` in a pattern is one too:
  - `path_allowlist_exact`: a list decides as it was written exactly when no pattern lets
    a sub-path through by such a segment alone, and is not empty.
  - `an_encoded_asterisk_is_a_wildcard`: `/public/%2A` lets `/public/secret` through.
-/

import ClusterGate.Lib.Json
import ClusterGate.Lib.Percent
import ClusterGate.Route.PathAllowlist

namespace ClusterGate

open Lib Lib.Text

def safeDecode (segment : String) : Option String := Percent.decodeURIComponent segment

/-- A raw segment's decoded value, if it is one that can be judged. -/
def requestSegment (seg : String) : Option String :=
  if seg = "" then none
  else (safeDecode seg).bind fun decoded =>
    if decoded = "." ∨ decoded = ".." then none
    else if includes decoded "/" ∨ includes decoded "\\" then none
    else some decoded

/-- The segments of a sub-path, unless it is ambiguous to an upstream. -/
def requestSegments (subPath : String) : Option (List String) :=
  if startsWith subPath "/" = false then none
  else if includes subPath "\\" then none
  else
    let raw := split (slice subPath 1) '/'
    (if raw.getLast? = some "" then raw.dropLast else raw).mapM requestSegment

/-- A pattern's segments as they are written. -/
def writtenSegments (pattern : String) : List String :=
  let p := normalizePathPattern pattern
  if p = "/" then [] else split (slice p 1) '/'

/-- A pattern's segment, decoded; what does not decode stands for itself. -/
def decodedSegment (seg : String) : String := (safeDecode seg).getD seg

def patternSegments (pattern : String) : List String := (writtenSegments pattern).map decodedSegment

def matchesPattern (segments pattern : List String) : Bool :=
  let trailingWildcard := pattern.getLast? = some "*"
  let fixed := if trailingWildcard then pattern.dropLast else pattern
  if if trailingWildcard then segments.length < fixed.length else segments.length ≠ fixed.length then false
  else (fixed.zip segments).all fun p => p.1 = "*" || p.1 = p.2

def isPathAllowed (subPath : String) (allowlist : List String) : Bool :=
  if allowlist = [] then true
  else match requestSegments (if subPath = "" then "/" else subPath) with
    | none => false
    | some segments => allowlist.any fun entry =>
        validatePathPattern entry = none && matchesPattern segments (patternSegments entry)

/-! ## Readings of a sub-path -/

/-- `s` is what the raw segment stands for, and no upstream can take it for a path. -/
def SegmentReads (raw : List Char) (s : String) : Prop :=
  safeDecode (String.ofList raw) = some s ∧ s ≠ "." ∧ s ≠ ".." ∧ '/' ∉ s.toList ∧ '\\' ∉ s.toList

/-- A slash, and the raw segments between slashes, with one more behind them or not. -/
def Reads (subPath : String) (segments : List String) : Prop :=
  ∃ raw : List (List Char),
    (subPath.toList = '/' :: ['/'].intercalate raw ∨
      raw ≠ [] ∧ subPath.toList = '/' :: (['/'].intercalate raw ++ ['/'])) ∧
    (∀ r ∈ raw, r ≠ [] ∧ '/' ∉ r) ∧ List.Forall₂ SegmentReads raw segments

theorem requestSegment_iff {raw : List Char} {s : String} :
    requestSegment (String.ofList raw) = some s ↔ raw ≠ [] ∧ SegmentReads raw s := by
  have hempty : String.ofList raw = "" ↔ raw = [] := by
    rw [← String.toList_inj, String.toList_ofList]
    rfl
  unfold requestSegment SegmentReads
  by_cases hr : raw = []
  · rw [if_pos (hempty.2 hr)]
    simp [hr]
  · rw [if_neg (fun h => hr (hempty.1 h))]
    simp only [Option.bind_eq_some_iff, hr, not_false_eq_true, ne_eq, true_and]
    constructor
    · intro h
      obtain ⟨d, hd, h⟩ := h
      by_cases h1 : d = "." ∨ d = ".."
      · rw [if_pos h1] at h
        cases h
      by_cases h2 : includes d "/" = true ∨ includes d "\\" = true
      · rw [if_neg h1, if_pos h2] at h
        cases h
      · rw [if_neg h1, if_neg h2] at h
        injection h with h
        subst h
        rw [includes_char (c := '/') rfl, includes_char (c := '\\') rfl] at h2
        exact ⟨hd, fun e => h1 (.inl e), fun e => h1 (.inr e), fun e => h2 (.inl e), fun e => h2 (.inr e)⟩
    · intro h
      obtain ⟨hd, h1, h2, h3, h4⟩ := h
      refine ⟨s, hd, ?_⟩
      have hdots : ¬(s = "." ∨ s = "..") := fun e => e.elim h1 h2
      have hslashes : ¬(includes s "/" = true ∨ includes s "\\" = true) := by
        rw [includes_char (c := '/') rfl, includes_char (c := '\\') rfl]
        exact fun e => e.elim h3 h4
      rw [if_neg hdots, if_neg hslashes]

/-- A raw segment with a backslash has no reading. -/
theorem SegmentReads.no_backslash {raw : List Char} {s : String} (h : SegmentReads raw s) : '\\' ∉ raw := by
  intro hm
  refine h.2.2.2.2 (Percent.decode_keeps (by decide) (by decide) h.1 ?_)
  rw [String.toList_ofList]
  exact hm

/-- The parts between slashes, without an empty one at the end. -/
def slashParts (t : List Char) : List (List Char) :=
  if (t.splitOn '/').getLast? = some [] then (t.splitOn '/').dropLast else t.splitOn '/'

theorem intercalate_concat_nil {raw : List (List Char)} (h : raw ≠ []) :
    ['/'].intercalate (raw ++ [[]]) = ['/'].intercalate raw ++ ['/'] := by
  induction raw with
  | nil => exact absurd rfl h
  | cons r raw ih =>
    cases raw with
    | nil => simp [List.intercalate]
    | cons q raw =>
      have hih := ih (by simp)
      simp only [List.cons_append, List.intercalate_cons_cons, List.append_assoc] at hih ⊢
      rw [hih]

theorem slashParts_iff {t : List Char} {raw : List (List Char)} :
    (slashParts t = raw ∧ ∀ r ∈ raw, r ≠ []) ↔
      (t = ['/'].intercalate raw ∨ raw ≠ [] ∧ t = ['/'].intercalate raw ++ ['/']) ∧ ∀ r ∈ raw, r ≠ [] ∧ '/' ∉ r := by
  constructor
  · intro h
    obtain ⟨hparts, hne⟩ := h
    have hjoin : ['/'].intercalate (t.splitOn '/') = t := List.intercalate_splitOn '/'
    unfold slashParts at hparts
    by_cases hlast : (t.splitOn '/').getLast? = some []
    · rw [if_pos hlast] at hparts
      have hconcat : t.splitOn '/' = raw ++ [[]] := by rw [← hparts, List.dropLast_append_getLast? [] hlast]
      refine ⟨?_, fun r hr => ⟨hne r hr, not_mem_splitOn r (by rw [hconcat]; exact List.mem_append_left _ hr)⟩⟩
      by_cases hraw : raw = []
      · left
        rw [← hjoin, hconcat, hraw]
        rfl
      · right
        exact ⟨hraw, by rw [← intercalate_concat_nil hraw, ← hconcat, hjoin]⟩
    · rw [if_neg hlast] at hparts
      exact ⟨.inl (by rw [← hparts, hjoin]), fun r hr => ⟨hne r hr, not_mem_splitOn r (hparts ▸ hr)⟩⟩
  · intro h
    obtain ⟨ht, hr⟩ := h
    refine ⟨?_, fun r hm => (hr r hm).1⟩
    have hslash : ∀ r ∈ raw, '/' ∉ r := fun r hm => (hr r hm).2
    unfold slashParts
    rcases ht with rfl | ⟨hraw, rfl⟩
    · by_cases hraw : raw = []
      · subst hraw
        rfl
      · rw [List.splitOn_intercalate '/' hslash hraw, if_neg]
        intro hlast
        exact (hr [] (List.mem_of_getLast? hlast)).1 rfl
    · have hslash' : ∀ r ∈ raw ++ [[]], '/' ∉ r := by
        intro r hm
        rcases List.mem_append.1 hm with hm | hm
        · exact hslash r hm
        · rw [List.mem_singleton.1 hm]
          simp
      rw [← intercalate_concat_nil hraw, List.splitOn_intercalate '/' hslash' (by simp)]
      simp

/-- The segments of a sub-path that starts with a slash, before they are decoded. -/
theorem requestParts {subPath : String} {t : List Char} (ht : subPath.toList = '/' :: t) :
    (if (split (slice subPath 1) '/').getLast? = some "" then (split (slice subPath 1) '/').dropLast
      else split (slice subPath 1) '/') = (slashParts t).map String.ofList := by
  have hslice : split (slice subPath 1) '/' = (t.splitOn '/').map String.ofList := by
    rw [split, slice, String.toList_ofList, ht]
    rfl
  have hempty : ∀ l : List Char, String.ofList l = "" ↔ l = [] := fun l => by
    rw [← String.toList_inj, String.toList_ofList]
    rfl
  rw [hslice, slashParts, List.getLast?_map]
  by_cases hl : (t.splitOn '/').getLast? = some []
  · rw [hl, if_pos rfl, if_pos (by rfl), List.map_dropLast]
  · rw [if_neg hl, if_neg]
    intro h
    obtain ⟨l, hl', he⟩ := Option.map_eq_some_iff.1 h
    rw [hl', (hempty l).1 he] at hl
    exact hl rfl

theorem segments_read {raw : List (List Char)} {segments : List String} :
    (raw.map String.ofList).mapM requestSegment = some segments ↔
      (∀ r ∈ raw, r ≠ []) ∧ List.Forall₂ SegmentReads raw segments := by
  rw [mapM_some_iff, List.forall₂_map_left_iff]
  simp only [requestSegment_iff]
  exact List.forall₂_and_left raw segments

theorem reads_no_backslash {raw : List (List Char)} {segments : List String} (h : List.Forall₂ SegmentReads raw segments) :
    ∀ r ∈ raw, '\\' ∉ r := by
  induction h with
  | nil => simp
  | cons hr _ ih =>
    intro r hm
    rcases List.mem_cons.1 hm with rfl | hm
    · exact hr.no_backslash
    · exact ih r hm

theorem requestSegments_iff {subPath : String} {segments : List String} :
    requestSegments subPath = some segments ↔ Reads subPath segments := by
  unfold requestSegments
  constructor
  · intro h
    by_cases hs : startsWith subPath "/" = false
    · rw [if_pos hs] at h
      cases h
    by_cases hb : includes subPath "\\" = true
    · rw [if_neg hs, if_pos hb] at h
      cases h
    rw [if_neg hs, if_neg hb] at h
    obtain ⟨t, ht⟩ : ∃ t, subPath.toList = '/' :: t := by
      rw [Bool.not_eq_false] at hs
      obtain ⟨t, ht⟩ := List.isPrefixOf_iff_prefix.1 hs
      exact ⟨t, ht.symm⟩
    dsimp only at h
    rw [requestParts ht, segments_read] at h
    obtain ⟨htext, hne⟩ := slashParts_iff.1 ⟨rfl, h.1⟩
    refine ⟨slashParts t, ?_, hne, h.2⟩
    rw [ht]
    rcases htext with htext | ⟨hraw, htext⟩
    · exact .inl (congrArg _ htext)
    · exact .inr ⟨hraw, congrArg _ htext⟩
  · intro h
    obtain ⟨raw, htext, hraw, hreads⟩ := h
    obtain ⟨t, ht, htext⟩ : ∃ t, subPath.toList = '/' :: t ∧
        (t = ['/'].intercalate raw ∨ raw ≠ [] ∧ t = ['/'].intercalate raw ++ ['/']) := by
      rcases htext with htext | ⟨hne, htext⟩
      · exact ⟨_, htext, .inl rfl⟩
      · exact ⟨_, htext, .inr ⟨hne, rfl⟩⟩
    have hs : ¬startsWith subPath "/" = false := by
      rw [Bool.not_eq_false]
      exact List.isPrefixOf_iff_prefix.2 ⟨t, ht.symm⟩
    obtain ⟨hparts', hne⟩ := slashParts_iff.2 ⟨htext, hraw⟩
    have hb : ¬includes subPath "\\" = true := by
      rw [includes_char (c := '\\') rfl, ht]
      intro hm
      rcases List.mem_cons.1 hm with hm | hm
      · cases hm
      have hin : '\\' ∈ ['/'].intercalate raw := by
        rcases htext with rfl | ⟨-, rfl⟩
        · exact hm
        · rcases List.mem_append.1 hm with hm | hm
          · exact hm
          · exact absurd (List.mem_singleton.1 hm) (by decide)
      rcases mem_intercalate hin with hx | ⟨r, hr, hx⟩
      · exact absurd hx (by decide)
      · exact reads_no_backslash hreads r hr hx
    rw [if_neg hs, if_neg hb]
    dsimp only
    rw [requestParts ht, segments_read, hparts']
    exact ⟨hne, hreads⟩

/-! ## What a pattern denotes -/

/-- A segment of a pattern: any segment, or one. -/
inductive Part
  | any
  | exactly (s : String)
  deriving DecidableEq

inductive Denotes : List Part → List String → Prop
  | done : Denotes [] []
  /-- At the end: whatever is left. -/
  | rest (segments : List String) : Denotes [.any] segments
  | one {p : Part} {ps : List Part} {segments : List String} (s : String) :
      Denotes (p :: ps) segments → Denotes (.any :: p :: ps) (s :: segments)
  | same {ps : List Part} {segments : List String} (s : String) :
      Denotes ps segments → Denotes (.exactly s :: ps) (s :: segments)

/-- An asterisk as it is written. -/
def writtenPart (seg : String) : Part := if seg = "*" then .any else .exactly (decodedSegment seg)

/-- The part a decoded segment is taken for. -/
def partOf (d : String) : Part := if d = "*" then .any else .exactly d

theorem matchesPattern_single (segments : List String) (d : String) :
    matchesPattern segments [d] = (d = "*" || decide (segments = [d])) := by
  by_cases hd : d = "*"
  · subst hd
    simp [matchesPattern]
  · match segments with
    | [] => simp [matchesPattern, hd]
    | [s] => simp [matchesPattern, hd, eq_comm]
    | _ :: _ :: _ => simp [matchesPattern, hd]

/-- Before the last segment of a pattern, one segment is matched by one. -/
theorem matchesPattern_cons (segments : List String) (d e : String) (ds : List String) :
    matchesPattern segments (d :: e :: ds) = match segments with
      | [] => false
      | s :: segments => (d = "*" || decide (d = s)) && matchesPattern segments (e :: ds) := by
  have hlast : (d :: e :: ds).getLast? = (e :: ds).getLast? := List.getLast?_cons_cons
  unfold matchesPattern
  rw [hlast]
  by_cases hw : (e :: ds).getLast? = some "*"
  · cases segments with
    | nil => simp [hw]
    | cons s segments => simpa [hw] using Bool.and_left_comm _ _ _
  · cases segments with
    | nil => simp [hw]
    | cons s segments => simpa [hw] using Bool.and_left_comm _ _ _

theorem denotes_single (segments : List String) (p : Part) :
    Denotes [p] segments ↔ p = .any ∨ ∃ s, p = .exactly s ∧ segments = [s] := by
  constructor
  · intro h
    cases h with
    | rest => exact .inl rfl
    | same s h =>
      cases h
      exact .inr ⟨s, rfl, rfl⟩
  · intro h
    rcases h with rfl | ⟨s, rfl, rfl⟩
    · exact .rest segments
    · exact .same s .done

theorem denotes_cons (segments : List String) (p q : Part) (ps : List Part) :
    Denotes (p :: q :: ps) segments ↔
      ∃ s rest, segments = s :: rest ∧ (p = .any ∨ p = .exactly s) ∧ Denotes (q :: ps) rest := by
  constructor
  · intro h
    cases h with
    | one s h => exact ⟨s, _, rfl, .inl rfl, h⟩
    | same s h => exact ⟨s, _, rfl, .inr rfl, h⟩
  · intro h
    obtain ⟨s, rest, rfl, hp, h⟩ := h
    rcases hp with rfl | rfl
    · exact .one s h
    · exact .same s h

theorem partOf_any (d : String) : partOf d = .any ↔ d = "*" := by
  unfold partOf
  by_cases hd : d = "*"
  · simp [hd]
  · simp [hd]

theorem partOf_exactly (d s : String) : partOf d = .exactly s ↔ d ≠ "*" ∧ d = s := by
  unfold partOf
  by_cases hd : d = "*"
  · simp [hd]
  · simp [hd]

theorem matchesPattern_iff (segments ds : List String) :
    matchesPattern segments ds = true ↔ Denotes (ds.map partOf) segments := by
  induction ds generalizing segments with
  | nil =>
    cases segments with
    | nil => exact iff_of_true rfl .done
    | cons s segments => exact iff_of_false (by simp [matchesPattern]) (by intro h; cases h)
  | cons d ds ih =>
    cases ds with
    | nil =>
      rw [matchesPattern_single, List.map_singleton, denotes_single, partOf_any, Bool.or_eq_true, decide_eq_true_eq,
        decide_eq_true_eq]
      by_cases hd : d = "*"
      · simp [hd]
      · simp [hd, partOf_exactly]
    | cons e ds =>
      rw [matchesPattern_cons, List.map_cons, List.map_cons, denotes_cons]
      cases segments with
      | nil => simp
      | cons s segments =>
        have hih := ih segments
        rw [List.map_cons] at hih
        simp only [Bool.and_eq_true, Bool.or_eq_true, decide_eq_true_eq, hih, partOf_any, partOf_exactly,
          List.cons.injEq]
        by_cases hd : d = "*"
        · simp [hd]
        · simp [hd]

/-! ## A whole list -/

/-- An empty sub-path is the base itself. -/
def orBase (subPath : String) : String := if subPath = "" then "/" else subPath

/-- The sub-path has a reading, and some pattern denotes its segments as it is written. -/
def AllowedAsWritten (subPath : String) (allowlist : List String) : Prop :=
  ∃ segments, Reads (orBase subPath) segments ∧
    ∃ p ∈ allowlist, Denotes ((writtenSegments p).map writtenPart) segments

/-- There is a pattern; and if the sub-path has a reading, some pattern denotes it as it is
    written, or none does with its segments that only decode to an asterisk taken for one. -/
def Undisguised (subPath : String) (allowlist : List String) : Prop :=
  allowlist ≠ [] ∧ ∀ segments, Reads (orBase subPath) segments →
    (∃ p ∈ allowlist, Denotes ((writtenSegments p).map writtenPart) segments) ∨
      ∀ p ∈ allowlist, ¬Denotes ((patternSegments p).map partOf) segments

theorem writtenPart_any (seg : String) : writtenPart seg = .any ↔ seg = "*" := by
  unfold writtenPart
  by_cases h : seg = "*"
  · simp [h]
  · simp [h]

theorem writtenPart_exactly (seg s : String) : writtenPart seg = .exactly s ↔ seg ≠ "*" ∧ decodedSegment seg = s := by
  unfold writtenPart
  by_cases h : seg = "*"
  · simp [h]
  · simp [h]

theorem decodedSegment_asterisk : decodedSegment "*" = "*" := by decide

/-- What a part stands for as it is written, it stands for after decoding. -/
theorem writtenPart_partOf {seg s : String} (h : writtenPart seg = .any ∨ writtenPart seg = .exactly s) :
    partOf (decodedSegment seg) = .any ∨ partOf (decodedSegment seg) = .exactly s := by
  rcases h with h | h
  · rw [(writtenPart_any seg).1 h, decodedSegment_asterisk]
    exact .inl rfl
  · obtain ⟨-, hd⟩ := (writtenPart_exactly seg s).1 h
    by_cases ha : decodedSegment seg = "*"
    · exact .inl ((partOf_any _).2 ha)
    · exact .inr ((partOf_exactly _ _).2 ⟨ha, hd⟩)

/-- Decoding takes nothing away from what a pattern denotes. -/
theorem denotes_decoded {ws segments : List String} (h : Denotes (ws.map writtenPart) segments) :
    Denotes ((ws.map decodedSegment).map partOf) segments := by
  induction ws generalizing segments with
  | nil => exact h
  | cons w ws ih =>
    cases ws with
    | nil =>
      simp only [List.map_cons, List.map_nil, denotes_single] at h ⊢
      rcases h with h | ⟨s, h, rfl⟩
      · rw [(writtenPart_any w).1 h, decodedSegment_asterisk]
        exact .inl rfl
      · rcases writtenPart_partOf (.inr h) with h | h
        · exact .inl h
        · exact .inr ⟨s, h, rfl⟩
    | cons v ws =>
      simp only [List.map_cons, denotes_cons] at h ⊢
      obtain ⟨s, rest, rfl, hp, h⟩ := h
      exact ⟨s, rest, rfl, writtenPart_partOf hp, ih h⟩

theorem isPathAllowed_iff {subPath : String} {allowlist : List String} (hne : allowlist ≠ [])
    (hv : ∀ p ∈ allowlist, validatePathPattern p = none) :
    isPathAllowed subPath allowlist = true ↔
      ∃ segments, Reads (orBase subPath) segments ∧
        ∃ p ∈ allowlist, Denotes ((patternSegments p).map partOf) segments := by
  have hany : ∀ segments, (allowlist.any fun entry =>
      validatePathPattern entry = none && matchesPattern segments (patternSegments entry)) = true ↔
        ∃ p ∈ allowlist, Denotes ((patternSegments p).map partOf) segments := by
    intro segments
    rw [List.any_eq_true]
    refine exists_congr fun p => and_congr_right fun hp => ?_
    rw [Bool.and_eq_true, matchesPattern_iff]
    simp [hv p hp]
  unfold isPathAllowed
  rw [if_neg hne]
  show (match requestSegments (orBase subPath) with
    | none => false
    | some segments => allowlist.any fun entry =>
        validatePathPattern entry = none && matchesPattern segments (patternSegments entry)) = true ↔ _
  simp only [← requestSegments_iff]
  cases hs : requestSegments (orBase subPath) with
  | none => simp
  | some segments => simpa using hany segments

theorem path_allowlist_exact (subPath : String) (allowlist : List String)
    (hv : ∀ p ∈ allowlist, validatePathPattern p = none) :
    (isPathAllowed subPath allowlist = true ↔ AllowedAsWritten subPath allowlist) ↔ Undisguised subPath allowlist := by
  have hunique : ∀ {s t}, Reads (orBase subPath) s → Reads (orBase subPath) t → s = t := by
    intro s t hs ht
    rw [← requestSegments_iff] at hs ht
    exact Option.some.inj (hs.symm.trans ht)
  by_cases hne : allowlist = []
  · -- no pattern: everything is let through
    subst hne
    simp [isPathAllowed, AllowedAsWritten, Undisguised]
  rw [isPathAllowed_iff hne hv]
  constructor
  · intro h
    refine ⟨hne, ?_⟩
    intro segments hs
    by_cases hw : ∃ p ∈ allowlist, Denotes ((writtenSegments p).map writtenPart) segments
    · exact .inl hw
    · right
      intro p hp hd
      obtain ⟨t, ht, hw'⟩ := h.1 ⟨segments, hs, p, hp, hd⟩
      rw [hunique ht hs] at hw'
      exact hw hw'
  · intro h
    constructor
    · intro hcode
      obtain ⟨segments, hs, p, hp, hd⟩ := hcode
      rcases h.2 segments hs with hw | hno
      · exact ⟨segments, hs, hw⟩
      · exact absurd hd (hno p hp)
    · intro hspec
      obtain ⟨segments, hs, p, hp, hd⟩ := hspec
      exact ⟨segments, hs, p, hp, denotes_decoded hd⟩

theorem path_allowlist_exact_models :
    validatePathPattern "/v1/models/*" = none ∧
      ((isPathAllowed "/v1/models/a" ["/v1/models/*"] = true ↔ AllowedAsWritten "/v1/models/a" ["/v1/models/*"]) ↔
        Undisguised "/v1/models/a" ["/v1/models/*"]) := by
  have hv : validatePathPattern "/v1/models/*" = none := by decide +kernel
  refine ⟨hv, path_allowlist_exact "/v1/models/a" ["/v1/models/*"] ?_⟩
  intro p hp
  rw [List.mem_singleton.1 hp]
  exact hv

theorem an_encoded_asterisk_is_a_wildcard :
    ¬∀ (subPath : String) (allowlist : List String), (∀ p ∈ allowlist, validatePathPattern p = none) →
      (isPathAllowed subPath allowlist = true ↔ AllowedAsWritten subPath allowlist) := by
  intro h
  have hv : ∀ p ∈ ["/public/%2A"], validatePathPattern p = none := by decide +kernel
  have hin : isPathAllowed "/public/secret" ["/public/%2A"] = true := by decide +kernel
  obtain ⟨segments, hs, p, hp, hd⟩ := (h "/public/secret" ["/public/%2A"] hv).1 hin
  rw [List.mem_singleton] at hp
  have hsegments : requestSegments (orBase "/public/secret") = some ["public", "secret"] := by decide +kernel
  rw [← requestSegments_iff, hsegments] at hs
  injection hs with hs
  have hparts : (writtenSegments "/public/%2A").map writtenPart = [.exactly "public", .exactly "*"] := by decide +kernel
  rw [hp, hparts, ← hs, denotes_cons] at hd
  obtain ⟨s, rest, hrest, -, hd⟩ := hd
  injection hrest with _ hrest
  rw [← hrest, denotes_single] at hd
  rcases hd with hd | ⟨t, ht, hd⟩
  · cases hd
  · injection ht with ht
    rw [← ht] at hd
    exact absurd hd (by decide)

end ClusterGate
