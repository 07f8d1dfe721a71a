/-
  ClusterGate.Update.Version — version texts, as the update check reads and compares them
  (`services/updateService.ts`), and as versions are ordered.

  The numbers of a version become doubles, and a patch with a pre-release or a build behind
  it no number, which nothing exceeds. Tags are sorted by their doubles, the greatest first,
  the sort being stable.
  - `isNewer_iff`: the comparison of a running version with a release tag.
  - `latest_iff`: the tag that is taken is the first of the greatest.
  - `newer_small`: below 2^53, and without a suffix, doubles compare as numbers do.
-/

import ClusterGate.Lib.Number
import Mathlib.Data.List.Sort
import Mathlib.Data.Prod.Lex
import Mathlib.Algebra.Order.Ring.Nat
import Mathlib.Algebra.Order.Ring.WithTop
import Mathlib.Data.Nat.Cast.Order.Basic

namespace ClusterGate.Update

open Lib

/-! ## Texts -/

/-- `v.replace(/^v/, '')` -/
def clean (v : String) : String := if Text.startsWith v "v" then Text.slice v 1 else v

def parts (v : String) : List String := Text.split (clean v) '.'

/-- `Number(part)` of a part of a version, which is digits, or digits with a pre-release or a
    build behind them and then no number. -/
def numberOf (part : String) : Number :=
  match Text.digits? part with
  | some n => Number.double n
  | none => .nan

/-- `/^v?\d+\.\d+\.\d+$/` -/
def isSemverTag (t : String) : Bool :=
  match parts t with
  | [major, minor, patch] => (Text.digits? major).isSome && (Text.digits? minor).isSome && (Text.digits? patch).isSome
  | _ => false

structure SemverTag where
  tag : String
  major : Number
  minor : Number
  patch : Number
  deriving DecidableEq

def semverTag (t : String) : SemverTag :=
  let numbers := (parts t).map numberOf
  ⟨t, numbers.getD 0 .nan, numbers.getD 1 .nan, numbers.getD 2 .nan⟩

/-- The sign of `b - a`. -/
def descending (a b : Number) : Ordering := if a.less b then .gt else if b.less a then .lt else .eq

def compareTags (a b : SemverTag) : Ordering :=
  if !a.major.equals b.major then descending a.major b.major
  else if !a.minor.equals b.minor then descending a.minor b.minor
  else descending a.patch b.patch

def findLatestSemverTag (tags : List String) : Option String :=
  let semverTags := ((tags.filter isSemverTag).map semverTag).insertionSort fun a b => compareTags a b ≠ .gt
  semverTags.head?.map (·.tag)

/-- A number of a version, where there is one. -/
structure Parsed where
  major : Option Number
  minor : Option Number
  patch : Option Number

def parse (v : String) : Parsed :=
  let numbers := (parts v).map numberOf
  ⟨numbers[0]?, numbers[1]?, numbers[2]?⟩

def sameNumber : Option Number → Option Number → Bool
  | some a, some b => a.equals b
  | none, none => true
  | _, _ => false

def exceeds : Option Number → Option Number → Bool
  | some a, some b => b.less a
  | _, _ => false

def isNewerVersion (localVersion remote : String) : Bool :=
  let l := parse localVersion
  let r := parse remote
  if !sameNumber r.major l.major then exceeds r.major l.major
  else if !sameNumber r.minor l.minor then exceeds r.minor l.minor
  else exceeds r.patch l.patch

/-! ## Versions -/

structure Release where
  major : Nat
  minor : Nat
  patch : Nat
  deriving DecidableEq

/-- An identifier of a pre-release. -/
inductive Identifier where
  | number (n : Nat)
  | text (s : String)
  deriving DecidableEq

structure Version where
  release : Release
  pre : List Identifier
  /-- Something stands behind the patch: a pre-release, or a build. -/
  suffixed : Bool
  deriving DecidableEq

def release? (t : String) : Option Release :=
  match parts t with
  | [major, minor, patch] => do return ⟨← Text.digits? major, ← Text.digits? minor, ← Text.digits? patch⟩
  | _ => none

def identifiers (cs : List Char) : List Identifier :=
  (Text.split (String.ofList cs) '.').map fun part => match Text.digits? part with
    | some n => .number n
    | none => .text part

/-- What stands behind the patch. -/
def suffixOf (patch : String) (rest : List String) : List Char :=
  patch.toList.dropWhile Char.isDigit ++ rest.flatMap fun part => '.' :: part.toList

def version? (v : String) : Option Version :=
  match parts v with
  | major :: minor :: patch :: rest => do
    let release : Release :=
      ⟨← Text.digits? major, ← Text.digits? minor, ← Text.digits? (String.ofList (patch.toList.takeWhile Char.isDigit))⟩
    match suffixOf patch rest with
    | [] => some ⟨release, [], false⟩
    | '-' :: text => some ⟨release, identifiers (text.takeWhile (· ≠ '+')), true⟩
    | '+' :: _ => some ⟨release, [], true⟩
    | _ => none
  | _ => none

def Release.Older (a b : Release) : Prop :=
  a.major < b.major ∨ a.major = b.major ∧ (a.minor < b.minor ∨ a.minor = b.minor ∧ a.patch < b.patch)

def Identifier.older : Identifier → Identifier → Bool
  | .number m, .number n => m < n
  | .number _, .text _ => true
  | .text _, .number _ => false
  | .text s, .text t => s < t

/-- Identifiers are compared one by one, and more of them are the later. -/
def identifiersOlder : List Identifier → List Identifier → Bool
  | _, [] => false
  | [], _ :: _ => true
  | a :: as, b :: bs => a.older b || (a == b && identifiersOlder as bs)

/-- A pre-release comes before its release. -/
def preOlder : List Identifier → List Identifier → Bool
  | [], _ => false
  | _ :: _, [] => true
  | a :: as, b :: bs => identifiersOlder (a :: as) (b :: bs)

def Older (a b : Version) : Prop := a.release.Older b.release ∨ a.release = b.release ∧ preOlder a.pre b.pre = true

instance (a b : Release) : Decidable (a.Older b) := inferInstanceAs (Decidable (_ ∨ _))
instance (a b : Version) : Decidable (Older a b) := inferInstanceAs (Decidable (_ ∨ _))

def Release.version (r : Release) : Version := ⟨r, [], false⟩

/-! ## Doubles -/

/-- A number as a double, infinity being the greatest. -/
def size (n : Nat) : WithTop Nat := if Number.overflow ≤ Number.nearest n then ⊤ else (Number.nearest n : Nat)

theorem double_nat (n : Nat) :
    Number.double n = if Number.overflow ≤ Number.nearest n then .infinite false else .int (Number.nearest n) := by
  have hnot : ¬(n : Int) < 0 := by omega
  simp [Number.double, hnot]

theorem less_double (m n : Nat) : (Number.double m).less (Number.double n) = decide (size m < size n) := by
  rw [double_nat, double_nat, size, size]
  split <;> split <;> simp [Number.less]

theorem equals_double (m n : Nat) : (Number.double m).equals (Number.double n) = decide (size m = size n) := by
  rw [double_nat, double_nat, size, size, Bool.eq_iff_iff, decide_eq_true_eq]
  split <;> split <;> simp [Number.equals]

theorem size_small {n : Nat} (h : n < 2 ^ 53) : size n = (n : Nat) := by
  have hpow : 2 ^ 53 ≤ Number.overflow := Nat.pow_le_pow_right (by decide) (by decide)
  rw [size, Number.nearest_small h, if_neg (by omega)]

attribute [irreducible] size

/-- The doubles of a release, compared one by one. -/
def doubles (r : Release) : WithTop Nat ×ₗ (WithTop Nat ×ₗ WithTop Nat) :=
  toLex (size r.major, toLex (size r.minor, size r.patch))

theorem doubles_lt_iff {a b : Release} : doubles a < doubles b ↔
    size a.major < size b.major ∨ size a.major = size b.major ∧
      (size a.minor < size b.minor ∨ size a.minor = size b.minor ∧ size a.patch < size b.patch) := by
  rw [doubles, doubles, Prod.Lex.toLex_lt_toLex, Prod.Lex.toLex_lt_toLex]

/-! ## Tags -/

theorem release_parts {t : String} {r : Release} (h : release? t = some r) :
    ∃ major minor patch, parts t = [major, minor, patch] ∧ Text.digits? major = some r.major ∧
      Text.digits? minor = some r.minor ∧ Text.digits? patch = some r.patch := by
  rw [release?] at h
  split at h
  · rename_i major minor patch hparts
    cases hmajor : Text.digits? major <;> cases hminor : Text.digits? minor <;> cases hpatch : Text.digits? patch <;>
      simp [hmajor, hminor, hpatch] at h
    subst h
    exact ⟨major, minor, patch, hparts, hmajor, hminor, hpatch⟩
  · cases h

theorem isSemverTag_iff {t : String} : isSemverTag t = true ↔ ∃ r, release? t = some r := by
  rw [isSemverTag, release?]
  split
  · rename_i major minor patch hparts
    cases hmajor : Text.digits? major <;> cases hminor : Text.digits? minor <;> cases hpatch : Text.digits? patch <;> simp
  · simp

theorem semverTag_release {t : String} {r : Release} (h : release? t = some r) :
    semverTag t = ⟨t, .double r.major, .double r.minor, .double r.patch⟩ := by
  obtain ⟨major, minor, patch, hparts, hmajor, hminor, hpatch⟩ := release_parts h
  simp [semverTag, hparts, numberOf, hmajor, hminor, hpatch]

theorem descending_double (m n : Nat) : descending (.double m) (.double n) = .gt ↔ size m < size n := by
  rw [descending, less_double, less_double]
  by_cases h : size m < size n
  · simp [h]
  · by_cases h' : size n < size m <;> simp [h, h']

theorem compare_step (x y : Number) (rest : Ordering) :
    (if !x.equals y then descending x y else rest) = .gt ↔
      (x.equals y = false ∧ descending x y = .gt) ∨ (x.equals y = true ∧ rest = .gt) := by
  cases x.equals y <;> simp

theorem differ_lt {p q : WithTop Nat} : (p ≠ q ∧ p < q) ↔ p < q := ⟨fun h => h.2, fun h => ⟨h.ne, h⟩⟩

/-- The sort puts one tag behind another exactly if its doubles are smaller. -/
theorem compareTags_iff {s t : String} {a b : Release} (ha : release? s = some a) (hb : release? t = some b) :
    compareTags (semverTag s) (semverTag t) = .gt ↔ doubles a < doubles b := by
  rw [semverTag_release ha, semverTag_release hb, doubles_lt_iff, compareTags, compare_step, compare_step]
  simp only [equals_double, descending_double, decide_eq_false_iff_not, decide_eq_true_eq, ← ne_eq, differ_lt]

/-! ## The latest tag -/

def doublesOf (t : String) : WithTop Nat ×ₗ (WithTop Nat ×ₗ WithTop Nat) := doubles ((release? t).getD ⟨0, 0, 0⟩)

/-- The first of the release tags that no other exceeds. -/
def Leads (tags : List String) (t : String) : Prop :=
  ∃ before after, tags.filter isSemverTag = before ++ t :: after ∧ (∀ b ∈ before, doublesOf b < doublesOf t) ∧
    ∀ b ∈ after, doublesOf b ≤ doublesOf t

theorem head_insertionSort {α : Type} (r : α → α → Prop) [DecidableRel r] (a : α) (l : List α) :
    (List.insertionSort r (a :: l)).head? = some (match (List.insertionSort r l).head? with
      | none => a
      | some b => if r a b then a else b) := by
  rw [List.insertionSort_cons]
  cases List.insertionSort r l with
  | nil => rfl
  | cons b bs =>
    rw [List.orderedInsert]
    split <;> simp_all

theorem compareTags_doublesOf {s t : String} (hs : isSemverTag s = true) (ht : isSemverTag t = true) :
    compareTags (semverTag s) (semverTag t) = .gt ↔ doublesOf s < doublesOf t := by
  obtain ⟨a, ha⟩ := isSemverTag_iff.1 hs
  obtain ⟨b, hb⟩ := isSemverTag_iff.1 ht
  rw [compareTags_iff ha hb, doublesOf, doublesOf, ha, hb]
  rfl

theorem head_leads {ts : List String} (hts : ∀ t ∈ ts, isSemverTag t = true) {x : SemverTag}
    (h : ((ts.map semverTag).insertionSort fun a b => compareTags a b ≠ .gt).head? = some x) :
    ∃ t before after, x = semverTag t ∧ ts = before ++ t :: after ∧ (∀ b ∈ before, doublesOf b < doublesOf t) ∧
      ∀ b ∈ after, doublesOf b ≤ doublesOf t := by
  induction ts generalizing x with
  | nil => cases h
  | cons a ts ih =>
    have ha : isSemverTag a = true := hts a List.mem_cons_self
    rw [List.map_cons, head_insertionSort] at h
    cases hrest : ((ts.map semverTag).insertionSort fun a b => compareTags a b ≠ .gt).head? with
    | none =>
      rw [hrest] at h
      have hnil : ts = [] := by
        rw [List.head?_eq_none_iff] at hrest
        have hlength := congrArg List.length hrest
        rw [List.length_insertionSort, List.length_map] at hlength
        exact List.length_eq_zero_iff.1 hlength
      exact ⟨a, [], [], (Option.some.inj h).symm, by rw [hnil]; rfl, by simp, by simp⟩
    | some y =>
      rw [hrest] at h
      obtain ⟨t, before, after, rfl, hsplit, hbefore, hafter⟩ := ih (fun t ht => hts t (List.mem_cons_of_mem _ ht)) hrest
      have ht : isSemverTag t = true := hts t (List.mem_cons_of_mem _ (by rw [hsplit]; simp))
      dsimp only at h
      split at h
      · rename_i hfirst
        have hle : doublesOf t ≤ doublesOf a := not_lt.1 fun hlt => hfirst ((compareTags_doublesOf ha ht).2 hlt)
        refine ⟨a, [], ts, (Option.some.inj h).symm, rfl, by simp, fun b hb => ?_⟩
        rw [hsplit, List.mem_append, List.mem_cons] at hb
        rcases hb with hb | rfl | hb
        · exact (hbefore b hb).le.trans hle
        · exact hle
        · exact (hafter b hb).trans hle
      · rename_i hlater
        have hlt : doublesOf a < doublesOf t := (compareTags_doublesOf ha ht).1 (not_not.1 hlater)
        refine ⟨t, a :: before, after, (Option.some.inj h).symm, by rw [hsplit]; rfl, fun b hb => ?_, hafter⟩
        rcases List.mem_cons.1 hb with rfl | hb
        · exact hlt
        · exact hbefore b hb

theorem semverTag_tag (t : String) : (semverTag t).tag = t := rfl

/-- The tag that is taken leads. -/
theorem latest_leads {tags : List String} {t : String} (h : findLatestSemverTag tags = some t) : Leads tags t := by
  rw [findLatestSemverTag, Option.map_eq_some_iff] at h
  obtain ⟨x, hx, htag⟩ := h
  obtain ⟨u, before, after, rfl, hsplit⟩ := head_leads (fun t ht => (List.mem_filter.1 ht).2) hx
  rw [semverTag_tag] at htag
  rw [← htag]
  exact ⟨before, after, hsplit⟩

theorem latest_none_iff {tags : List String} : findLatestSemverTag tags = none ↔ ∀ t ∈ tags, isSemverTag t = false := by
  rw [findLatestSemverTag, Option.map_eq_none_iff, List.head?_eq_none_iff, ← List.length_eq_zero_iff,
    List.length_insertionSort, List.length_map, List.length_eq_zero_iff, List.filter_eq_nil_iff]
  simp

theorem leads_unique {tags : List String} {t u : String} (ht : Leads tags t) (hu : Leads tags u) : t = u := by
  obtain ⟨before, after, hsplit, hbefore, hafter⟩ := ht
  obtain ⟨before', after', hsplit', hbefore', hafter'⟩ := hu
  rw [hsplit] at hsplit'
  rcases List.append_eq_append_iff.1 hsplit' with ⟨mid, rfl, hrest⟩ | ⟨mid, rfl, hrest⟩
  · cases mid with
    | nil => exact (List.cons_eq_cons.1 hrest).1
    | cons x mid =>
      obtain ⟨rfl, rfl⟩ := List.cons_eq_cons.1 hrest
      exact absurd (hbefore' t (by simp)) (not_lt.2 (hafter u (by simp)))
  · cases mid with
    | nil => exact (List.cons_eq_cons.1 hrest).1.symm
    | cons x mid =>
      obtain ⟨rfl, rfl⟩ := List.cons_eq_cons.1 hrest
      exact absurd (hbefore u (by simp)) (not_lt.2 (hafter' t (by simp)))

theorem latest_iff {tags : List String} {t : String} : findLatestSemverTag tags = some t ↔ Leads tags t := by
  constructor
  · exact latest_leads
  · intro h
    cases hlatest : findLatestSemverTag tags with
    | some u => rw [leads_unique (latest_leads hlatest) h]
    | none =>
      obtain ⟨before, after, hsplit, -⟩ := h
      have hmem : t ∈ tags.filter isSemverTag := by rw [hsplit]; simp
      obtain ⟨htag, hsemver⟩ := List.mem_filter.1 hmem
      rw [latest_none_iff.1 hlatest t htag] at hsemver
      cases hsemver

theorem Leads.greatest {tags : List String} {t u : String} (h : Leads tags t) (hu : u ∈ tags) (hsemver : isSemverTag u = true) :
    doublesOf u ≤ doublesOf t := by
  obtain ⟨before, after, hsplit, hbefore, hafter⟩ := h
  have hmem : u ∈ tags.filter isSemverTag := List.mem_filter.2 ⟨hu, hsemver⟩
  rw [hsplit, List.mem_append, List.mem_cons] at hmem
  rcases hmem with hmem | rfl | hmem
  · exact (hbefore u hmem).le
  · exact le_rfl
  · exact hafter u hmem

theorem Leads.mem {tags : List String} {t : String} (h : Leads tags t) : t ∈ tags ∧ isSemverTag t = true := by
  obtain ⟨before, after, hsplit, -⟩ := h
  have hmem : t ∈ tags.filter isSemverTag := by rw [hsplit]; simp
  exact List.mem_filter.1 hmem

/-! ## A running version and a tag -/

theorem digits_takeWhile {s : String} {n : Nat} (h : Text.digits? s = some n) : s.toList.dropWhile Char.isDigit = [] := by
  rw [Text.digits?] at h
  split at h
  · rename_i hdigits
    rw [List.dropWhile_eq_nil_iff]
    exact List.all_eq_true.1 hdigits.2
  · cases h

theorem patch_plain {patch : String} {rest : List String} (h : suffixOf patch rest = []) :
    String.ofList (patch.toList.takeWhile Char.isDigit) = patch := by
  have hdrop : patch.toList.dropWhile Char.isDigit = [] := (List.append_eq_nil_iff.1 h).1
  have hall := List.takeWhile_append_dropWhile (p := Char.isDigit) (l := patch.toList)
  rw [hdrop, List.append_nil] at hall
  rw [hall, String.ofList_toList]

theorem patch_suffixed {patch : String} {rest : List String} {c : Char} {text : List Char}
    (h : suffixOf patch rest = c :: text) (hc : c ≠ '.') : Text.digits? patch = none := by
  cases hdigits : Text.digits? patch with
  | none => rfl
  | some n =>
    rw [suffixOf, digits_takeWhile hdigits, List.nil_append] at h
    cases rest with
    | nil => cases h
    | cons part rest => exact absurd (List.cons_eq_cons.1 h).1.symm hc

/-- The parts of a version, and what they are as numbers. -/
theorem version_parts {v : String} {w : Version} (h : version? v = some w) :
    ∃ major minor patch rest, parts v = major :: minor :: patch :: rest ∧ numberOf major = .double w.release.major ∧
      numberOf minor = .double w.release.minor ∧
      numberOf patch = if w.suffixed then .nan else .double w.release.patch := by
  rw [version?] at h
  split at h
  · rename_i major minor patch rest hparts
    refine ⟨major, minor, patch, rest, hparts, ?_⟩
    cases hmajor : Text.digits? major with
    | none => simp [hmajor] at h
    | some m =>
      cases hminor : Text.digits? minor with
      | none => simp [hmajor, hminor] at h
      | some n =>
        cases hpatch : Text.digits? (String.ofList (patch.toList.takeWhile Char.isDigit)) with
        | none => simp [hmajor, hminor, hpatch] at h
        | some p =>
          simp only [hmajor, hminor, hpatch, Option.bind_eq_bind, Option.bind_some] at h
          split at h
          · rename_i hsuffix
            rw [patch_plain hsuffix] at hpatch
            cases h
            simp [numberOf, hmajor, hminor, hpatch]
          · rename_i text hsuffix
            cases h
            simp [numberOf, hmajor, hminor, patch_suffixed hsuffix (by decide)]
          · rename_i text hsuffix
            cases h
            simp [numberOf, hmajor, hminor, patch_suffixed hsuffix (by decide)]
          · cases h
  · cases h

/-- A release exceeds a running version in doubles. Nothing exceeds a patch with a suffix. -/
def NewerInDoubles (w : Version) (r : Release) : Prop :=
  size w.release.major < size r.major ∨ size w.release.major = size r.major ∧
    (size w.release.minor < size r.minor ∨ size w.release.minor = size r.minor ∧
      w.suffixed = false ∧ size w.release.patch < size r.patch)

theorem newer_step (x y : Option Number) (rest : Bool) :
    (if !sameNumber x y then exceeds x y else rest) = true ↔
      (sameNumber x y = false ∧ exceeds x y = true) ∨ (sameNumber x y = true ∧ rest = true) := by
  cases sameNumber x y <;> simp

theorem isNewer_iff {v t : String} {w : Version} {r : Release} (hv : version? v = some w) (ht : release? t = some r) :
    isNewerVersion v t = true ↔ NewerInDoubles w r := by
  obtain ⟨major, minor, patch, rest, hparts, hmajor, hminor, hpatch⟩ := version_parts hv
  obtain ⟨major', minor', patch', hparts', hmajor', hminor', hpatch'⟩ := release_parts ht
  have hlocal : parse v = ⟨some (.double w.release.major), some (.double w.release.minor),
      some (if w.suffixed then .nan else .double w.release.patch)⟩ := by
    simp [parse, hparts, hmajor, hminor, hpatch]
  have hremote : parse t = ⟨some (.double r.major), some (.double r.minor), some (.double r.patch)⟩ := by
    simp [parse, hparts', numberOf, hmajor', hminor', hpatch']
  have hlast : (if w.suffixed then Number.nan else Number.double w.release.patch).less (Number.double r.patch) = true ↔
      w.suffixed = false ∧ size w.release.patch < size r.patch := by
    cases w.suffixed with
    | true => simp [Number.less]
    | false => simp [less_double]
  rw [isNewerVersion, newer_step, newer_step, hlocal, hremote]
  simp only [sameNumber, exceeds, hlast, equals_double, less_double, decide_eq_false_iff_not, decide_eq_true_eq, NewerInDoubles, ← ne_eq,
    eq_comm (a := size r.major), eq_comm (a := size r.minor), differ_lt]

/-- With a release, every one that is not smaller exceeds a version. -/
theorem newer_mono {w : Version} {r r' : Release} (h : doubles r ≤ doubles r') (hr : NewerInDoubles w r) :
    NewerInDoubles w r' := by
  rcases h.eq_or_lt with heq | hlt
  · obtain ⟨hmajor, hrest⟩ := Prod.mk.inj (toLex_inj.1 heq)
    obtain ⟨hminor, hpatch⟩ := Prod.mk.inj (toLex_inj.1 hrest)
    rwa [NewerInDoubles, ← hmajor, ← hminor, ← hpatch]
  · rcases doubles_lt_iff.1 hlt with hmajor | ⟨hmajor, hlt⟩
    · rcases hr with hnew | ⟨hsame, -⟩
      · exact .inl (hnew.trans hmajor)
      · exact .inl (hsame.trans_lt hmajor)
    · rcases hr with hnew | ⟨hsame, hnew⟩
      · exact .inl (hnew.trans_eq hmajor)
      · refine .inr ⟨hsame.trans hmajor, ?_⟩
        rcases hlt with hminor | ⟨hminor, hpatch⟩
        · rcases hnew with hnew | ⟨hsame, -⟩
          · exact .inl (hnew.trans hminor)
          · exact .inl (hsame.trans_lt hminor)
        · rcases hnew with hnew | ⟨hsame, hplain, hnew⟩
          · exact .inl (hnew.trans_eq hminor)
          · exact .inr ⟨hsame.trans hminor, hplain, hnew.trans hpatch⟩

/-- Below 2^53, and without a suffix, doubles say what numbers do. -/
theorem newer_small {w : Version} {r : Release} (hplain : w.suffixed = false) (hpre : w.pre = [])
    (hw : w.release.major < 2 ^ 53 ∧ w.release.minor < 2 ^ 53 ∧ w.release.patch < 2 ^ 53)
    (hr : r.major < 2 ^ 53 ∧ r.minor < 2 ^ 53 ∧ r.patch < 2 ^ 53) : NewerInDoubles w r ↔ Older w r.version := by
  rw [NewerInDoubles, size_small hw.1, size_small hw.2.1, size_small hw.2.2, size_small hr.1, size_small hr.2.1,
    size_small hr.2.2, Older, hpre]
  simp [hplain, Release.Older, preOlder, Release.version]

theorem version_of_release {t : String} {r : Release} (h : release? t = some r) : version? t = some r.version := by
  obtain ⟨major, minor, patch, hparts, hmajor, hminor, hpatch⟩ := release_parts h
  have hsuffix : suffixOf patch [] = [] := by
    rw [suffixOf, digits_takeWhile hpatch]
    rfl
  simp [version?, hparts, hmajor, hminor, patch_plain hsuffix, hpatch, hsuffix, Release.version]

end ClusterGate.Update
