/-
  ClusterGate.Proxy.OwnCookies — which cookies of a request an upstream is sent
  (`lib/cookies.ts`: `stripClusterGateCookies`; `lib/clientToken.ts`: `countSessionCookies`).

  Both cut the header at its semicolons and read a part's name up to its first equals sign.
  What is sent is put together from trimmed parts, so that it is cut into these again.
  - `splitOn_joined`: the parts come back, all but the first behind a blank.
  - `cookies_stripped`: the parts with a foreign name are sent, and no others; doing it again
    changes nothing, and no session cookie is counted in it.
-/

import ClusterGate.Proxy.UpstreamHeaders

namespace ClusterGate

open Lib Lib.Text Lib.SetCookie

/-! ## The parts of a Cookie header -/

/-- What stands before the first equals sign, without white space. -/
def cookieNameOf (part : List Char) : List Char := trimBy isSpace (upTo '=' part)

/-- A name that starts with `cg_`, in any casing. -/
def isOwnName : List Char → Bool
  | c :: g :: u :: _ => (c = 'c' || c = 'C') && (g = 'g' || g = 'G') && u = '_'
  | _ => false

/-- The non-empty parts, without white space at their ends, whose name is not one of ours. -/
def foreignCookies (header : String) : List (List Char) :=
  ((header.toList.splitOn ';').map (trimBy isSpace)).filter fun part => part ≠ [] && !isOwnName (cookieNameOf part)

/-- The parts with `; ` between them. -/
def joinedCookies (parts : List (List Char)) : String := String.ofList ([';', ' '].intercalate parts)

theorem toLower_cases (c : Char) :
    (65 ≤ c.toNat ∧ c.toNat ≤ 90) ∧ c.toLower.toNat = c.toNat + 32 ∨ ¬(65 ≤ c.toNat ∧ c.toNat ≤ 90) ∧ c.toLower = c := by
  by_cases h : c.val ≥ 'A'.val ∧ c.val ≤ 'Z'.val
  · have h1 : 65 ≤ c.toNat := UInt32.le_iff_toNat_le.1 h.1
    have h2 : c.toNat ≤ 90 := UInt32.le_iff_toNat_le.1 h.2
    have hv : c.toLower.val = c.val + 32 := congrArg Char.val (dif_pos h : c.toLower = _)
    have hsum : c.toLower.toNat = (c.toNat + 32) % 2 ^ 32 := (congrArg UInt32.toNat hv).trans (UInt32.toNat_add _ _)
    exact .inl ⟨⟨h1, h2⟩, by omega⟩
  · exact .inr ⟨fun hin => h ⟨UInt32.le_iff_toNat_le.2 hin.1, UInt32.le_iff_toNat_le.2 hin.2⟩, dif_neg h⟩

theorem char_eq_iff {c d : Char} : c = d ↔ c.toNat = d.toNat :=
  ⟨fun h => congrArg Char.toNat h, fun h => Char.ext (UInt32.toNat_inj.1 h)⟩

/-- Only the two cases of a letter have it as their lower case. -/
theorem toLower_eq_letter (c : Char) : (c.toLower = 'c' ↔ c = 'c' ∨ c = 'C') ∧ (c.toLower = 'g' ↔ c = 'g' ∨ c = 'G') ∧
    (c.toLower = '_' ↔ c = '_') := by
  simp only [char_eq_iff, Char.reduceToNat]
  rcases toLower_cases c with ⟨hin, hlow⟩ | ⟨hout, hlow⟩
  · omega
  · rw [hlow]
    omega

/-- The prefix test reads the first three characters. -/
theorem startsWith_reserved (name : List Char) :
    startsWith (toLowerAscii (String.ofList name)) RESERVED_COOKIE_PREFIX = isOwnName name := by
  rw [startsWith, toLowerAscii, String.toList_ofList, String.toList_ofList, RESERVED_COOKIE_PREFIX, Bool.eq_iff_iff]
  cases name with
  | nil => simp [isOwnName]
  | cons c name =>
    cases name with
    | nil => simp [isOwnName]
    | cons g name =>
      cases name with
      | nil => simp [isOwnName]
      | cons u rest =>
        have hc := (toLower_eq_letter c).1
        have hg := (toLower_eq_letter g).2.1
        have hu := (toLower_eq_letter u).2.2
        rw [eq_comm] at hc hg hu
        simp [isOwnName, hc, hg, hu, and_assoc]

/-! ## What is sent -/

theorem strip_eq (header : String) :
    stripClusterGateCookies header = if foreignCookies header = [] then none else some (joinedCookies (foreignCookies header)) := by
  have hkept : ((split header ';').map trim).filter (fun part =>
      part ≠ "" && !startsWith (toLowerAscii (trim ((split part '=').headD ""))) RESERVED_COOKIE_PREFIX) =
      (foreignCookies header).map String.ofList := by
    have htrim : (split header ';').map trim = ((header.toList.splitOn ';').map (trimBy isSpace)).map String.ofList := by
      rw [split, List.map_map, List.map_map]
      refine List.map_congr_left fun part _ => ?_
      rw [Function.comp_apply, trim_eq, String.toList_ofList, Function.comp_apply]
    rw [htrim, List.filter_map, foreignCookies]
    congr 1
    refine List.filter_congr fun part _ => ?_
    have hempty : String.ofList part = "" ↔ part = [] := by
      rw [← String.toList_inj, String.toList_ofList]
      rfl
    rw [Function.comp_apply, split_head, trim_eq, String.toList_ofList, String.toList_ofList, startsWith_reserved, cookieNameOf]
    simp only [ne_eq, hempty]
  rw [stripClusterGateCookies, hkept]
  simp only [List.map_eq_nil_iff]
  split
  · rfl
  · refine congrArg some ?_
    rw [joinedCookies, ← String.toList_inj, String.toList_intercalate, String.toList_ofList, List.map_map]
    have hid : String.toList ∘ String.ofList = id := funext fun cs => String.toList_ofList
    rw [hid, List.map_id, String.toList_ofList]

/-- Joined parts are cut into these again, all but the first behind a blank. -/
theorem splitOn_joined {part : List Char} {parts : List (List Char)} (h : ∀ t ∈ part :: parts, ';' ∉ t) :
    (joinedCookies (part :: parts)).toList.splitOn ';' = part :: parts.map fun t => ' ' :: t := by
  rw [joinedCookies, String.toList_ofList, intercalate_blank]
  refine List.splitOn_intercalate ';' ?_ (List.cons_ne_nil _ _)
  intro t ht
  rcases List.mem_cons.1 ht with rfl | ht
  · exact h _ List.mem_cons_self
  · obtain ⟨t', ht', rfl⟩ := List.mem_map.1 ht
    simpa using h t' (List.mem_cons_of_mem _ ht')

theorem trimBy_blank (t : List Char) : trimBy isSpace (' ' :: t) = trimBy isSpace t := by
  have hblank : ∀ a ∈ [' '], isSpace a = true := by
    intro a ha
    obtain rfl := List.mem_singleton.1 ha
    rfl
  have htrim : trimBy isSpace ([' '] ++ t ++ []) = trimBy isSpace t := trimBy_append hblank (by simp)
  rwa [List.append_nil] at htrim

/-- A part that is sent is trimmed, not empty, has no semicolon and a foreign name. -/
theorem mem_foreignCookies {header : String} {t : List Char} (h : t ∈ foreignCookies header) :
    ';' ∉ t ∧ trimBy isSpace t = t ∧ t ≠ [] ∧ isOwnName (cookieNameOf t) = false := by
  obtain ⟨hmem, hkept⟩ := List.mem_filter.1 h
  obtain ⟨part, hpart, rfl⟩ := List.mem_map.1 hmem
  rw [Bool.and_eq_true, decide_eq_true_eq, Bool.not_eq_true'] at hkept
  refine ⟨fun hsemi => ?_, trimBy_trimBy fun _ h => h, hkept⟩
  exact not_mem_splitOn part hpart ((trimBy_sublist _ _).subset hsemi)

theorem foreignCookies_joined {header : String} (h : foreignCookies header ≠ []) :
    foreignCookies (joinedCookies (foreignCookies header)) = foreignCookies header := by
  have hmem : ∀ t ∈ foreignCookies header, _ := fun t ht => mem_foreignCookies ht
  obtain ⟨part, parts, heq⟩ := List.exists_cons_of_ne_nil h
  rw [heq] at hmem ⊢
  have hsplit := splitOn_joined fun t ht => (hmem t ht).1
  have htrim : (part :: parts.map fun t => ' ' :: t).map (trimBy isSpace) = part :: parts := by
    rw [List.map_cons, List.map_map, (hmem part List.mem_cons_self).2.1]
    refine congrArg (part :: ·) ((List.map_congr_left fun t ht => ?_).trans (List.map_id parts))
    exact (trimBy_blank t).trans (hmem t (List.mem_cons_of_mem _ ht)).2.1
  rw [foreignCookies, hsplit, htrim, List.filter_eq_self]
  intro t ht
  obtain ⟨-, -, hne, hname⟩ := hmem t ht
  simp [hne, hname]

/-- No part of what is sent has the name of the session cookie. -/
theorem countSessionCookies_joined {header : String} (h : foreignCookies header ≠ []) :
    countSessionCookies (joinedCookies (foreignCookies header)) = 0 := by
  have hmem : ∀ t ∈ foreignCookies header, _ := fun t ht => mem_foreignCookies ht
  obtain ⟨part, parts, heq⟩ := List.exists_cons_of_ne_nil h
  rw [heq] at hmem ⊢
  rw [countSessionCookies, List.countP_eq_zero, split, splitOn_joined fun t ht => (hmem t ht).1, List.forall_mem_map]
  have hnot : ∀ t ∈ part :: parts, ¬cookieNameOf t = "cg_session".toList := by
    intro t ht hname
    have hown := (hmem t ht).2.2.2
    rw [hname] at hown
    revert hown
    decide
  intro t ht
  rw [decide_eq_true_eq, counted_iff]
  rcases List.mem_cons.1 ht with rfl | ht
  · exact hnot _ List.mem_cons_self
  · obtain ⟨t', ht', rfl⟩ := List.mem_map.1 ht
    have hblank : upTo '=' (' ' :: t') = ' ' :: upTo '=' t' := rfl
    rw [hblank, trimBy_blank]
    exact hnot t' (List.mem_cons_of_mem _ ht')

/-- Of a Cookie header the parts with a foreign name are sent, in their order and unchanged, and
    no header if there are none; doing it again changes nothing, and the server counts no
    session cookie in what is sent. -/
theorem cookies_stripped (header : String) :
    stripClusterGateCookies header = (if foreignCookies header = [] then none else some (joinedCookies (foreignCookies header))) ∧
      (stripClusterGateCookies header).bind stripClusterGateCookies = stripClusterGateCookies header ∧
      countSessionCookies ((stripClusterGateCookies header).getD "") = 0 := by
  rw [strip_eq]
  by_cases h : foreignCookies header = []
  · rw [if_pos h]
    exact ⟨rfl, rfl, by decide⟩
  · rw [if_neg h, Option.bind_some, strip_eq, foreignCookies_joined h, if_neg h]
    exact ⟨rfl, rfl, countSessionCookies_joined h⟩

example : stripClusterGateCookies " a=1;; CG_session=x ; =b;cg_" = some "a=1; =b" := by decide +kernel

end ClusterGate
