/-
  ClusterGate.Templates.Entries — lists of entered paths: what the schemas make of them, and what
  the gateway lets through by them.

  A schema of paths takes a list of texts exactly if each is an entry it knows and their number is
  right, and puts out their normal forms, each once. The gateway judges a list by its entries, so
  neither their spelling nor their order nor their repetitions matter to it.
  - `pathsLeaf_iff`: what a schema of paths takes, and what it puts out.
  - `Curated`: a list that comes out as it is; `curated_entries`: what a schema puts out is one;
    `curated_of_plain`: a list of paths whose characters tell it.
  - `allowed_entries`: the gateway judges the entered list and what is put out alike.
  - `allowed_append`: two lists together let through what either does, unless one is empty.
-/

import ClusterGate.Proxy.PathAllowlist
import ClusterGate.Route.Schema

namespace ClusterGate

open Lib Lib.Zod

/-- The normal form of an entered path. -/
def entered (text : String) : String := normalizePathPattern (Text.trim text)

/-- A path the schemas take. -/
def Enterable (text : String) : Prop := Text.trim text ≠ "" ∧ validatePathPattern (Text.trim text) = none

/-- The schema of a list of paths, with checks of its length. -/
def pathsLeaf (checks : List ((List Json → Bool) × Option String)) : Leaf := transform (array pathPattern checks) dedupeJson

/-! ## What a schema makes of a list -/

theorem pathPattern_iff {v w : Json} :
    pathPattern v = .ok w ↔ ∃ text, v = .str text ∧ Enterable text ∧ w = .str (entered text) := by
  cases v with
  | str s =>
    simp only [pathPattern, Enterable, ← patternIssues_eq_nil, Json.str.injEq, exists_eq_left']
    split_ifs with h
    · exact ⟨fun heq => ⟨h, (Except.ok.inj heq).symm⟩, fun heq => by rw [heq.2]; rfl⟩
    · exact iff_of_false (fun heq => by cases heq) fun heq => h heq.1
  | _ =>
    refine iff_of_false (fun heq => by cases heq) fun h => ?_
    obtain ⟨text, heq, -⟩ := h
    cases heq

theorem mapM_pathPattern {xs ys : List Json} :
    (xs.mapM fun x => (pathPattern x).toOption) = some ys ↔
      ∃ texts : List String, xs = texts.map .str ∧ (∀ text ∈ texts, Enterable text) ∧ ys = texts.map fun text => .str (entered text) := by
  rw [mapM_some_iff]
  constructor
  · intro h
    induction h with
    | nil => exact ⟨[], rfl, List.forall_mem_nil _, rfl⟩
    | cons hx _ ih =>
      obtain ⟨texts, rfl, htexts, rfl⟩ := ih
      obtain ⟨text, rfl, htext, rfl⟩ := pathPattern_iff.1 (toOption_some.1 hx)
      exact ⟨text :: texts, rfl, List.forall_mem_cons.2 ⟨htext, htexts⟩, rfl⟩
  · intro h
    obtain ⟨texts, rfl, htexts, rfl⟩ := h
    rw [List.forall₂_map_left_iff, List.forall₂_map_right_iff, List.forall₂_same]
    exact fun text htext => toOption_some.2 (pathPattern_iff.2 ⟨text, rfl, htexts text htext, rfl⟩)

theorem dedupe_map {α β : Type} [DecidableEq α] [DecidableEq β] {f : α → β} (hf : Function.Injective f) (xs : List α) :
    dedupe (xs.map f) = (dedupe xs).map f := by
  induction xs with
  | nil => rfl
  | cons x xs ih =>
    rw [List.map_cons, dedupe, dedupe, ih, List.map_cons, List.filter_map]
    congr 2
    refine List.filter_congr fun y _ => ?_
    simp [hf.eq_iff]

/-- What a schema of paths takes, and what it puts out. -/
theorem pathsLeaf_iff {checks : List ((List Json → Bool) × Option String)} {v w : Json} :
    pathsLeaf checks v = .ok w ↔ ∃ texts : List String, v = .ofStrList texts ∧ (∀ text ∈ texts, Enterable text) ∧
      (∀ c ∈ checks, c.1 (texts.map fun text => .str (entered text)) = true) ∧ w = .ofStrList (dedupe (texts.map entered)) := by
  have hout : ∀ texts : List String, dedupeJson (.arr (texts.map fun text => .str (entered text))) =
      .ofStrList (dedupe (texts.map entered)) := by
    intro texts
    rw [dedupeJson, Json.ofStrList, ← dedupe_map (fun _ _ h => Json.str.inj h), List.map_map]
    rfl
  constructor
  · intro h
    cases ha : array pathPattern checks v with
    | error e =>
      rw [pathsLeaf, transform, ha] at h
      cases h
    | ok u =>
      rw [pathsLeaf, transform, ha] at h
      obtain ⟨xs, ys, rfl, rfl, hm, hc⟩ := array_ok ha
      obtain ⟨texts, rfl, htexts, rfl⟩ := mapM_pathPattern.1 hm
      exact ⟨texts, rfl, htexts, hc, (Except.ok.inj h).symm.trans (hout texts)⟩
  · intro h
    obtain ⟨texts, rfl, htexts, hc, rfl⟩ := h
    rw [pathsLeaf, transform, Json.ofStrList, array_of_mapM (mapM_pathPattern.2 ⟨texts, rfl, htexts, rfl⟩) hc, ← hout]
    rfl

theorem ofStrList_injective {xs ys : List String} (h : Json.ofStrList xs = Json.ofStrList ys) : xs = ys := by
  have hread := congrArg Json.strList? h
  rw [Json.strList?_ofStrList, Json.strList?_ofStrList] at hread
  exact Option.some.inj hread

/-! ## Lists that come out as they are -/

/-- A list of paths in normal form, each once, of a length that every schema takes. -/
structure Curated (paths : List String) : Prop where
  nonempty : paths ≠ []
  short : paths.length ≤ PATH_ALLOWLIST_MAX_ENTRIES
  nodup : paths.Nodup
  valid : ∀ p ∈ paths, validatePathPattern p = none
  normal : ∀ p ∈ paths, normalizePathPattern p = p

theorem curated_iff {paths : List String} : Curated paths ↔ paths ≠ [] ∧ paths.length ≤ PATH_ALLOWLIST_MAX_ENTRIES ∧
    paths.Nodup ∧ ∀ p ∈ paths, validatePathPattern p = none ∧ normalizePathPattern p = p :=
  ⟨fun h => ⟨h.nonempty, h.short, h.nodup, fun p hp => ⟨h.valid p hp, h.normal p hp⟩⟩,
    fun h => ⟨h.1, h.2.1, h.2.2.1, fun p hp => (h.2.2.2 p hp).1, fun p hp => (h.2.2.2 p hp).2⟩⟩

instance {paths : List String} : Decidable (Curated paths) := decidable_of_iff _ curated_iff.symm

theorem utf16Length_le (s : String) : Text.utf16Length s ≤ 2 * s.toList.length := by
  unfold Text.utf16Length
  induction s.toList with
  | nil => exact Nat.le_refl 0
  | cons c cs ih =>
    rw [List.map_cons, List.sum_cons, List.length_cons]
    split_ifs <;> omega

theorem split_slice (s : String) : Text.split (Text.slice s 1) '/' = ((s.toList.drop 1).splitOn '/').map String.ofList := by
  rw [Text.split, Text.slice, String.toList_ofList]

/-- What the characters of a path tell: it is valid and in normal form. -/
structure PlainPath (cs : List Char) : Prop where
  short : cs.length ≤ 100
  normal : normalChars cs = cs
  clean : ∀ c ∈ cs, Text.isSpace c = false ∧ c ≠ '?' ∧ c ≠ '#' ∧ c ≠ '\\'
  segments : ∀ seg ∈ (cs.drop 1).splitOn '/', seg ≠ [] ∧ seg ≠ ['.'] ∧ seg ≠ ['.', '.'] ∧ ('*' ∈ seg → seg = ['*'])

instance {cs : List Char} : Decidable (PlainPath cs) :=
  -- the search may find an instance that goes through every character there is
  haveI : Decidable (∀ c ∈ cs, Text.isSpace c = false ∧ c ≠ '?' ∧ c ≠ '#' ∧ c ≠ '\\') := List.decidableBAll _ cs
  decidable_of_iff (cs.length ≤ 100 ∧ normalChars cs = cs ∧
      (∀ c ∈ cs, Text.isSpace c = false ∧ c ≠ '?' ∧ c ≠ '#' ∧ c ≠ '\\') ∧
      ∀ seg ∈ (cs.drop 1).splitOn '/', seg ≠ [] ∧ seg ≠ ['.'] ∧ seg ≠ ['.', '.'] ∧ ('*' ∈ seg → seg = ['*']))
    ⟨fun h => ⟨h.1, h.2.1, h.2.2.1, h.2.2.2⟩, fun h => ⟨h.short, h.normal, h.clean, h.segments⟩⟩

namespace PlainPath

variable {p : String}

theorem normalized (h : PlainPath p.toList) : normalizePathPattern p = p := by
  rw [normalizePathPattern, Text.trim_clean fun c hc => (h.clean c hc).1, h.normal, String.ofList_toList]

theorem validated (h : PlainPath p.toList) : validatePathPattern p = none := by
  have hshort : ¬ Text.utf16Length p > PATH_ALLOWLIST_MAX_LENGTH := by
    have hp := utf16Length_le p
    have hc := h.short
    unfold PATH_ALLOWLIST_MAX_LENGTH
    omega
  have hclean : ¬ p.toList.any (fun c => Text.isSpace c || c = '?' || c = '#' || c = '\\') = true := by
    intro hany
    obtain ⟨c, hc, hbad⟩ := List.any_eq_true.1 hany
    obtain ⟨hspace, hquery, hhash, hback⟩ := h.clean c hc
    simp [hspace, hquery, hhash, hback] at hbad
  have hsegments : ∀ seg ∈ Text.split (Text.slice p 1) '/', ∃ cs, seg = String.ofList cs ∧ cs ≠ [] ∧ cs ≠ ['.'] ∧
      cs ≠ ['.', '.'] ∧ ('*' ∈ cs → cs = ['*']) := by
    intro seg hseg
    rw [split_slice] at hseg
    obtain ⟨cs, hcs, rfl⟩ := List.mem_map.1 hseg
    exact ⟨cs, rfl, h.segments cs hcs⟩
  have hfull : ¬ (p ≠ "/" ∧ "" ∈ Text.split (Text.slice p 1) '/') := by
    rintro ⟨-, hempty⟩
    obtain ⟨cs, hcs, hne, -⟩ := hsegments _ hempty
    exact hne (String.ofList_injective hcs.symm)
  simp only [validatePathPattern, h.normalized]
  rw [if_neg hshort, if_neg hclean, if_neg hfull, List.findSome?_eq_none_iff]
  intro seg hseg
  obtain ⟨cs, rfl, -, hdot, hdots, hstar⟩ := hsegments seg hseg
  have hnotDots : ¬ (String.ofList cs = "." ∨ String.ofList cs = "..") := by
    rintro (he | he)
    · exact hdot (String.ofList_injective he)
    · exact hdots (String.ofList_injective he)
  have hnotStar : ¬ (Text.includes (String.ofList cs) "*" = true ∧ String.ofList cs ≠ "*") := by
    rintro ⟨hmem, hne⟩
    rw [Text.includes_char (c := '*') rfl, String.toList_ofList] at hmem
    exact hne (congrArg String.ofList (hstar hmem))
  rw [if_neg hnotDots, if_neg hnotStar]

end PlainPath

theorem curated_of_plain {paths : List String} (hne : paths ≠ []) (hshort : paths.length ≤ PATH_ALLOWLIST_MAX_ENTRIES)
    (hnodup : paths.Nodup) (hplain : ∀ p ∈ paths, PlainPath p.toList) : Curated paths :=
  ⟨hne, hshort, hnodup, fun p hp => (hplain p hp).validated, fun p hp => (hplain p hp).normalized⟩

namespace Curated

variable {paths : List String}

theorem trimmed (h : Curated paths) {p : String} (hp : p ∈ paths) : Text.trim p = p := by
  have hclean := (normalizePathPattern_valid (h.valid p hp)).1
  rwa [h.normal p hp] at hclean

theorem entered (h : Curated paths) {p : String} (hp : p ∈ paths) : ClusterGate.entered p = p := by
  rw [ClusterGate.entered, h.trimmed hp, h.normal p hp]

theorem clean (h : Curated paths) {p : String} (hp : p ∈ paths) : ∀ c ∈ p.toList, Text.isSpace c = false := by
  have hclean := validatePathPattern_clean (h.valid p hp)
  rwa [h.normal p hp] at hclean

theorem ne_empty (h : Curated paths) {p : String} (hp : p ∈ paths) : p ≠ "" := by
  rw [← h.normal p hp]
  exact normalizePathPattern_ne p

theorem enterable (h : Curated paths) {p : String} (hp : p ∈ paths) : Enterable p := by
  rw [Enterable, h.trimmed hp]
  exact ⟨h.ne_empty hp, h.valid p hp⟩

theorem map_entered (h : Curated paths) : paths.map ClusterGate.entered = paths :=
  (List.map_congr_left fun _ hp => h.entered hp).trans (List.map_id _)

/-- The route's own schema takes it as it is. -/
theorem stored (h : Curated paths) : pathAllowlistLeaf (.ofStrList paths) = .ok (.ofStrList paths) := by
  refine pathsLeaf_iff.2 ⟨paths, rfl, fun p hp => h.enterable hp, ?_, ?_⟩
  · intro c hc
    rw [List.mem_singleton.1 hc]
    simpa using h.short
  · rw [h.map_entered, dedupe_of_nodup h.nodup]

end Curated

theorem curated_entries {texts : List String} (hne : texts ≠ []) (hlen : texts.length ≤ PATH_ALLOWLIST_MAX_ENTRIES)
    (h : ∀ text ∈ texts, Enterable text) : Curated (dedupe (texts.map entered)) := by
  have hentry : ∀ p ∈ dedupe (texts.map entered), ∃ text ∈ texts, entered text = p := fun p hp =>
    List.mem_map.1 (mem_dedupe.1 hp)
  refine ⟨fun hnil => ?_, ?_, nodup_dedupe _, fun p hp => ?_, fun p hp => ?_⟩
  · obtain ⟨text, rest, rfl⟩ := List.exists_cons_of_ne_nil hne
    have hmem : entered text ∈ dedupe ((text :: rest).map entered) := mem_dedupe.2 List.mem_cons_self
    rw [hnil] at hmem
    cases hmem
  · have hle := length_dedupe_le (texts.map entered)
    rw [List.length_map] at hle
    exact hle.trans hlen
  · obtain ⟨text, htext, rfl⟩ := hentry p hp
    exact (normalizePathPattern_valid (h text htext).2).2.2
  · obtain ⟨text, htext, rfl⟩ := hentry p hp
    exact (normalizePathPattern_valid (h text htext).2).2.1

/-! ## What the gateway lets through -/

section Allowed

variable {subPath : String} {xs ys : List String}

/-- The entry lets a request with these segments through. -/
def admits (segments : List String) (p : String) : Bool :=
  validatePathPattern p = none && matchesPattern segments (patternSegments p)

theorem isPathAllowed_of_ne (h : xs ≠ []) (subPath : String) : isPathAllowed subPath xs =
    (match requestSegments (if subPath = "" then "/" else subPath) with
      | none => false
      | some segments => xs.any (admits segments)) := by
  unfold isPathAllowed
  rw [if_neg h]
  rfl

/-- Two lists with the same normal forms are judged alike. -/
theorem allowed_congr (hx : xs ≠ []) (hy : ys ≠ []) (h : ∀ segments, xs.any (admits segments) = ys.any (admits segments)) :
    isPathAllowed subPath xs = isPathAllowed subPath ys := by
  rw [isPathAllowed_of_ne hx, isPathAllowed_of_ne hy]
  cases requestSegments (if subPath = "" then "/" else subPath) with
  | none => rfl
  | some segments => exact h segments

theorem allowed_append (hx : xs ≠ []) (hy : ys ≠ []) :
    isPathAllowed subPath (xs ++ ys) = (isPathAllowed subPath xs || isPathAllowed subPath ys) := by
  have hxy : xs ++ ys ≠ [] := List.append_ne_nil_of_left_ne_nil hx ys
  rw [isPathAllowed_of_ne hx, isPathAllowed_of_ne hy, isPathAllowed_of_ne hxy]
  cases requestSegments (if subPath = "" then "/" else subPath) with
  | none => rfl
  | some segments => exact List.any_append

theorem admits_entered {text : String} (h : Enterable text) (segments : List String) :
    admits segments (entered text) = admits segments text := by
  obtain ⟨-, hnormal, hvalid⟩ := normalizePathPattern_valid h.2
  have hsame : normalizePathPattern (entered text) = normalizePathPattern text := by
    rw [entered, hnormal, normalizePathPattern, normalizePathPattern, Text.trim_trim]
  have hv : validatePathPattern (entered text) = validatePathPattern text := by
    simp only [validatePathPattern, hsame]
  have hp : patternSegments (entered text) = patternSegments text := by
    simp only [patternSegments, writtenSegments, hsame]
  rw [admits, admits, hv, hp]

theorem any_dedupe {α : Type} [DecidableEq α] (p : α → Bool) (xs : List α) : (dedupe xs).any p = xs.any p := by
  rw [Bool.eq_iff_iff, List.any_eq_true, List.any_eq_true]
  exact exists_congr fun x => and_congr_left fun _ => mem_dedupe

theorem dedupe_ne_nil {α : Type} [DecidableEq α] {xs : List α} (h : xs ≠ []) : dedupe xs ≠ [] := by
  obtain ⟨x, xs, rfl⟩ := List.exists_cons_of_ne_nil h
  exact List.cons_ne_nil _ _

/-- The gateway judges what is put out as what was entered. -/
theorem allowed_entries (hx : xs ≠ []) (h : ∀ text ∈ xs, Enterable text) :
    isPathAllowed subPath (dedupe (xs.map entered)) = isPathAllowed subPath xs := by
  have hmap : xs.map entered ≠ [] := fun hnil => hx (List.map_eq_nil_iff.1 hnil)
  refine allowed_congr (dedupe_ne_nil hmap) hx fun segments => ?_
  rw [any_dedupe, List.any_map, Bool.eq_iff_iff, List.any_eq_true, List.any_eq_true]
  refine exists_congr fun text => and_congr_right fun htext => ?_
  rw [Function.comp_apply, admits_entered (h text htext)]

theorem allowed_dedupe (hx : xs ≠ []) : isPathAllowed subPath (dedupe xs) = isPathAllowed subPath xs :=
  allowed_congr (dedupe_ne_nil hx) hx fun segments => any_dedupe (admits segments) xs

end Allowed

end ClusterGate
