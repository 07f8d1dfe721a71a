/-
  ClusterGate.Route.Slug — the slug of a name (`slugify` of `lib/slug.ts`).

  The name is folded, its combining marks go, and its words, the longest runs of letters
  and digits, are joined by one dash each. What is left is cut to 64 characters last.
  - `slugify_eq`: the passes, in terms of the words.
  - `slug_canonical_iff`: a slug is words and single dashes, and its own slug, exactly
    unless a dash behind some of the words is its 64th character.
  - `a_cut_leaves_a_dash`: the dashes at the ends are gone before the cut is made.
-/

import ClusterGate.Lib.Words
import ClusterGate.Route.Service
import Mathlib.Tactic.IntervalCases

namespace ClusterGate

open Lib

/-! ## The passes -/

/-- The name in lower case and decomposed, without its combining marks. -/
def foldedName (W : World) (input : String) : List Char := (W.foldName input).toList.filter fun c => !isCombining c

def slugWords (W : World) (input : String) : List (List Char) := words isSlugChar (foldedName W input)

/-- Outside a run of other characters, the first of one is a dash. -/
theorem dashRuns_false (cs : List Char) :
    dashRuns false cs = (if cs = [] ∨ cs.head?.any isSlugChar = true then [] else ['-']) ++ dashRuns true cs := by
  cases cs with
  | nil => rfl
  | cons c cs =>
    by_cases hc : isSlugChar c = true
    · simp [dashRuns, hc]
    · simp [dashRuns, hc]

/-- The runs of other characters are dashes between the words, and one behind the last if
    the text does not end with it. -/
theorem dashRuns_true (cs : List Char) :
    ∃ trail, (trail = [] ∨ trail = ['-'] ∧ words isSlugChar cs ≠ []) ∧
      dashRuns true cs = joinWords '-' (words isSlugChar cs) ++ trail := by
  induction cs with
  | nil => exact ⟨[], .inl rfl, rfl⟩
  | cons c cs ih =>
    obtain ⟨trail, htrail, hcs⟩ := ih
    by_cases hc : isSlugChar c = true
    · have hruns : dashRuns true (c :: cs) = c :: dashRuns false cs := by simp [dashRuns, hc]
      rw [hruns, dashRuns_false, hcs]
      by_cases hnext : cs.head?.any isSlugChar = true
      · obtain ⟨w, ws, hws⟩ := words_of_head hnext
        have hwords : words isSlugChar (c :: cs) = (c :: w) :: ws := by simp [words, hc, hnext, hws]
        refine ⟨trail, htrail.imp_right fun h => ⟨h.1, by rw [hwords]; exact List.cons_ne_nil _ _⟩, ?_⟩
        rw [if_pos (.inr hnext), hwords, hws]
        cases ws with
        | nil => rw [joinWords_one, joinWords_one]; rfl
        | cons v ws => rw [joinWords_cons, joinWords_cons]; rfl
      · have hwords : words isSlugChar (c :: cs) = [c] :: words isSlugChar cs := by simp [words, hc, hnext]
        rw [hwords]
        cases hws : words isSlugChar cs with
        | nil =>
          have hnil : trail = [] := htrail.resolve_right fun h => h.2 hws
          rw [hnil, joinWords_one]
          by_cases hempty : cs = []
          · exact ⟨[], .inl rfl, by simp [hempty]⟩
          · exact ⟨['-'], .inr ⟨rfl, by simp⟩, by simp [hempty, hnext]⟩
        | cons w ws =>
          have hne : cs ≠ [] := by
            rintro rfl
            cases hws
          exact ⟨trail, htrail.imp_right fun h => ⟨h.1, by simp⟩, by simp [joinWords_cons, hne, hnext]⟩
    · rw [words_skip (by simpa using hc)]
      exact ⟨trail, htrail, by simpa [dashRuns, hc] using hcs⟩

theorem slugChar_ne_dash {c : Char} (h : isSlugChar c = true) : c ≠ '-' := by
  rintro rfl
  cases h

/-- Without a dash in front and one behind. -/
def undashed (cs : List Char) : List Char :=
  let cs := if cs.head? = some '-' then cs.tail else cs
  if cs.getLast? = some '-' then cs.dropLast else cs

theorem undashed_join {lead trail : List Char} {ws : List (List Char)} (hlead : lead = [] ∨ lead = ['-'])
    (htrail : trail = [] ∨ trail = ['-'] ∧ ws ≠ []) (hws : ∀ w ∈ ws, w ≠ [] ∧ ∀ c ∈ w, isSlugChar c = true) :
    undashed (lead ++ (joinWords '-' ws ++ trail)) = joinWords '-' ws := by
  unfold undashed
  dsimp only
  by_cases hnil : ws = []
  · have ht : trail = [] := htrail.resolve_right fun h => h.2 hnil
    rw [hnil, ht]
    rcases hlead with rfl | rfl <;> rfl
  · obtain ⟨c, cs, hfront, hc⟩ := join_head '-' hnil hws
    obtain ⟨ds, d, hback, hd⟩ := join_last '-' hnil hws
    have htail : (if (lead ++ (joinWords '-' ws ++ trail)).head? = some '-' then (lead ++ (joinWords '-' ws ++ trail)).tail
        else lead ++ (joinWords '-' ws ++ trail)) = joinWords '-' ws ++ trail := by
      rcases hlead with rfl | rfl
      · rw [List.nil_append, hfront, List.cons_append, List.head?_cons, if_neg]
        intro he
        exact slugChar_ne_dash hc (Option.some.inj he)
      · rw [List.cons_append, List.head?_cons, if_pos rfl]
        rfl
    rw [htail]
    rcases htrail with rfl | ⟨rfl, -⟩
    · rw [List.append_nil, hback, List.getLast?_concat, if_neg]
      intro he
      exact slugChar_ne_dash hd (Option.some.inj he)
    · rw [List.getLast?_concat, if_pos rfl, List.dropLast_concat]

/-- The words, joined and cut. -/
theorem slugify_eq (W : World) (input : String) :
    slugify W input =
      if slugWords W input = [] then none else some (String.ofList ((joinWords '-' (slugWords W input)).take 64)) := by
  obtain ⟨trail, htrail, hruns⟩ := dashRuns_true (foldedName W input)
  have hstrip : undashed (dashRuns false (foldedName W input)) = joinWords '-' (slugWords W input) := by
    rw [dashRuns_false, hruns]
    refine undashed_join ?_ htrail fun w hw => mem_words hw
    split
    · exact .inl rfl
    · exact .inr rfl
  have hempty : joinWords '-' (slugWords W input) = [] ↔ slugWords W input = [] := by
    constructor
    · intro hjoin
      by_contra hne
      obtain ⟨c, cs, hfront, -⟩ := join_head '-' hne fun w hw => mem_words hw
      rw [hjoin] at hfront
      cases hfront
    · intro hnil
      rw [hnil, joinWords_nil]
  show (if undashed (dashRuns false (foldedName W input)) = [] then none
    else some (String.ofList ((undashed (dashRuns false (foldedName W input))).take 64))) = _
  rw [hstrip]
  simp only [hempty]

/-! ## Canonical slugs -/

/-- Words of letters and digits with single dashes between them:
    `[a-z0-9]+(-[a-z0-9]+)*`. -/
def SlugPattern (s : String) : Prop :=
  ∃ ws, ws ≠ [] ∧ (∀ w ∈ ws, w ≠ [] ∧ ∀ c ∈ w, isSlugChar c = true) ∧ s.toList = joinWords '-' ws

/-- Lower case and decomposition leave ASCII texts without capitals alone. -/
def World.FoldsAscii (W : World) : Prop :=
  ∀ s : String, (∀ c ∈ s.toList, c.toNat < 128 ∧ c.isUpper = false) → W.foldName s = s

theorem joined_chars {ws : List (List Char)} (hws : ∀ w ∈ ws, w ≠ [] ∧ ∀ c ∈ w, isSlugChar c = true) {c : Char}
    (hc : c ∈ joinWords '-' ws) : c.toNat < 128 ∧ c.isUpper = false ∧ isCombining c = false := by
  have hkind : isSlugChar c = true ∨ c = '-' := by
    rcases Text.mem_intercalate hc with rfl | ⟨w, hw, hcw⟩
    · exact .inr rfl
    · exact .inl ((hws w hw).2 c hcw)
  rcases hkind with hslug | rfl
  · have hrange : (97 ≤ c.toNat ∧ c.toNat ≤ 122) ∨ (48 ≤ c.toNat ∧ c.toNat ≤ 57) := by
      simpa [isSlugChar, Char.le_def, UInt32.le_iff_toNat_le] using hslug
    have hval : c.val.toNat = c.toNat := rfl
    refine ⟨by omega, ?_, ?_⟩
    · rw [Text.isUpper_range, decide_eq_false_iff_not, ge_iff_le, UInt32.le_iff_toNat_le, UInt32.le_iff_toNat_le, hval]
      simp
      omega
    · rw [isCombining, Bool.and_eq_false_iff, decide_eq_false_iff_not, decide_eq_false_iff_not]
      omega
  · decide

/-- The words of a slug text are the words it is joined of. -/
theorem slugWords_join {W : World} (hW : W.FoldsAscii) {ws : List (List Char)}
    (hws : ∀ w ∈ ws, w ≠ [] ∧ ∀ c ∈ w, isSlugChar c = true) :
    slugWords W (String.ofList (joinWords '-' ws)) = ws := by
  have hfold : foldedName W (String.ofList (joinWords '-' ws)) = joinWords '-' ws := by
    rw [foldedName, hW, String.toList_ofList]
    · refine List.filter_eq_self.2 fun c hc => ?_
      rw [(joined_chars hws hc).2.2]
      rfl
    · intro c hc
      rw [String.toList_ofList] at hc
      exact ⟨(joined_chars hws hc).1, (joined_chars hws hc).2.1⟩
  rw [slugWords, hfold, words_join (by decide) hws]

/-- A dash behind some of the words, and not all, is the 64th character. -/
def CutBehindDash (W : World) (input : String) : Prop :=
  ∃ m, 0 < m ∧ m < (slugWords W input).length ∧ (joinWords '-' ((slugWords W input).take m)).length = 63

/-- What is cut behind no dash is a slug, and its own slug. -/
theorem canonical_of_words {W : World} (hW : W.FoldsAscii) {input : String} {ws : List (List Char)} (hne : ws ≠ [])
    (hws : ∀ w ∈ ws, w ≠ [] ∧ ∀ c ∈ w, isSlugChar c = true)
    (hcut : (joinWords '-' (slugWords W input)).take 64 = joinWords '-' ws) (hslug : slugWords W input ≠ []) :
    ∃ s, slugify W input = some s ∧ SlugPattern s ∧ s.length ≤ 64 ∧ slugify W s = some s := by
  have hlen : (joinWords '-' ws).length ≤ 64 := by
    rw [← hcut, List.length_take]
    exact Nat.min_le_left _ _
  refine ⟨String.ofList (joinWords '-' ws), ?_, ⟨ws, hne, hws, String.toList_ofList⟩, ?_, ?_⟩
  · rw [slugify_eq, if_neg hslug, hcut]
  · rw [String.length_ofList]
    exact hlen
  · rw [slugify_eq, slugWords_join hW hws, if_neg hne, List.take_of_length_le hlen]

/-- What is cut behind a dash ends in it. -/
theorem dash_of_cut {W : World} {input : String} (h : CutBehindDash W input) :
    ∃ cs, (joinWords '-' (slugWords W input)).take 64 = cs ++ ['-'] := by
  obtain ⟨m, hm, hlt, hlen⟩ := h
  obtain ⟨rest, hjoin⟩ := join_take '-' hm hlt
  refine ⟨joinWords '-' ((slugWords W input).take m), ?_⟩
  rw [hjoin, List.take_append, hlen, List.take_of_length_le (by omega)]
  rfl

theorem slug_canonical_iff {W : World} (hW : W.FoldsAscii) (input : String) :
    ((∀ s, slugify W input = some s → SlugPattern s ∧ s.length ≤ 64) ∧
        (slugify W input).bind (slugify W) = slugify W input) ↔
      ¬CutBehindDash W input := by
  by_cases hne : slugWords W input = []
  · have hnone : slugify W input = none := by rw [slugify_eq, if_pos hne]
    refine iff_of_true ⟨by simp [hnone], by simp [hnone]⟩ ?_
    rintro ⟨m, -, hlt, -⟩
    rw [hne] at hlt
    cases hlt
  · constructor
    · rintro ⟨hpattern, -⟩ hcut
      obtain ⟨cs, hdash⟩ := dash_of_cut hcut
      have hslug : slugify W input = some (String.ofList (cs ++ ['-'])) := by rw [slugify_eq, if_neg hne, hdash]
      obtain ⟨⟨ws, hwsne, hws, hjoin⟩, -⟩ := hpattern _ hslug
      obtain ⟨ds, d, hback, hd⟩ := join_last '-' hwsne hws
      rw [String.toList_ofList, hback] at hjoin
      have hlast := (List.append_inj' hjoin rfl).2
      exact slugChar_ne_dash hd (List.cons.inj hlast).1.symm
    · intro hcut
      rcases take_join '-' hne (fun w hw => mem_words hw) (show 0 < 64 by decide) with
        ⟨ws, hwsne, hws, htake⟩ | ⟨m, hm, hlt, hlen⟩
      · obtain ⟨s, hs, hpattern, hlen, hagain⟩ := canonical_of_words hW hwsne hws htake hne
        rw [hs]
        refine ⟨fun t ht => ?_, hagain⟩
        rw [← Option.some.inj ht]
        exact ⟨hpattern, hlen⟩
      · exact absurd ⟨m, hm, hlt, by omega⟩ hcut

theorem plain_foldsAscii : World.plain.FoldsAscii := by
  intro s hs
  show Text.toLowerAscii s = s
  rw [Text.toLowerAscii, List.map_congr_left (g := id), List.map_id, String.ofList_toList]
  intro c hc
  have hupper := (hs c hc).2
  rw [Text.isUpper_range, decide_eq_false_iff_not] at hupper
  exact dif_neg hupper

theorem slug_canonical_shop :
    (∀ s, slugify World.plain "  My Shop / API  " = some s → SlugPattern s ∧ s.length ≤ 64) ∧
      (slugify World.plain "  My Shop / API  ").bind (slugify World.plain) = slugify World.plain "  My Shop / API  " :=
  (slug_canonical_iff plain_foldsAscii "  My Shop / API  ").2 (by
    rintro ⟨m, hm, hlt, hlen⟩
    have hwords : slugWords World.plain "  My Shop / API  " = ["my".toList, "shop".toList, "api".toList] := by
      decide +kernel
    rw [hwords] at hlt hlen
    simp only [List.length_cons, List.length_nil] at hlt
    interval_cases m
    · exact absurd hlen (by decide)
    · exact absurd hlen (by decide))

/-- Sixty-three letters, a dash and one more letter. -/
theorem a_cut_leaves_a_dash :
    ¬∀ (W : World), W.FoldsAscii → ∀ input,
      (∀ s, slugify W input = some s → SlugPattern s ∧ s.length ≤ 64) ∧
        (slugify W input).bind (slugify W) = slugify W input := by
  intro h
  have hagain := (h World.plain plain_foldsAscii (String.ofList (List.replicate 63 'a' ++ ['-', 'b']))).2
  have hslug : slugify World.plain (String.ofList (List.replicate 63 'a' ++ ['-', 'b'])) =
      some (String.ofList (List.replicate 63 'a' ++ ['-'])) := by decide +kernel
  have hslug' : slugify World.plain (String.ofList (List.replicate 63 'a' ++ ['-'])) =
      some (String.ofList (List.replicate 63 'a')) := by decide +kernel
  rw [hslug, Option.bind_some, hslug'] at hagain
  exact absurd hagain (by decide +kernel)

end ClusterGate
