/-
  ClusterGate.Target.Address — how the target checks read addresses and blocks of them
  (`normalizeHost`, `unmapIp`, `parseCidr` and `ipInList` of `lib/targetDenylist.ts`).

  A text names an address in any spelling, and an IPv4 address and its mapped form are one.
  `unmapIp` keeps what a text names (`unmapIp_names`). An entry is read as a block, which
  holds the addresses it should unless a prefix stands behind a mapped address or a zone.
  `NetModule` is what `net.isIP` and `BlockList` are documented to do.
-/

import ClusterGate.Lib.IpText
import ClusterGate.Target.Policy

namespace ClusterGate

open Lib Lib.Text

/-! ## Mapped addresses -/

/-- The address a text names: brackets, zone, case and a root dot make no difference. -/
def addressOf (text : String) : Option Nat := Ip.parseAddress (normalizeHost text)

theorem startsWith_append {s p : String} (h : startsWith s p = true) : s = p ++ slice s p.toList.length := by
  obtain ⟨rest, hrest⟩ := List.isPrefixOf_iff_prefix.1 h
  rw [← String.toList_inj, String.toList_append, slice, String.toList_ofList, ← hrest, List.drop_left]

/-- An IPv4 text is a text of four fields. -/
theorem dottedFields_of_parse {s : String} {v : Nat} (h : Ip.parseV4 s = some v) : (dottedFields s).isSome = true := by
  have hfield : ∀ n < 256, ((Nat.repr n).toList.length ≤ 3 ∧ digits? (Nat.repr n) = some n) := by
    intro n hn
    rw [String.length_toList, Nat.length_repr_le_iff (by decide)]
    exact ⟨by omega, Ip.digits?_repr n⟩
  obtain ⟨a, b, c, d, ha, hb, hc, hd, hsplit, -⟩ := Ip.parseV4_some h
  unfold dottedFields
  rw [hsplit]
  simp only [List.mapM_cons, List.mapM_nil, if_pos (hfield a ha).1, if_pos (hfield b hb).1, if_pos (hfield c hc).1,
    if_pos (hfield d hd).1, (hfield a ha).2, (hfield b hb).2, (hfield c hc).2, (hfield d hd).2]
  rfl

theorem digits?_chars {s : String} {n : Nat} (h : digits? s = some n) : ∀ c ∈ s.toList, c.isDigit = true := by
  unfold digits? at h
  split at h
  · rename_i hdigits
    exact List.all_eq_true.1 hdigits.2
  · cases h

/-- Four fields have no characters but digits and points. -/
theorem dottedFields_chars {s : String} (h : (dottedFields s).isSome = true) :
    (∀ c ∈ s.toList, c.isDigit = true ∨ c = '.') ∧ '.' ∈ s.toList := by
  unfold dottedFields at h
  split at h
  · rename_i a b c d hfields
    constructor
    · intro x hx
      rcases mem_split '.' hx with rfl | ⟨t, ht, hx⟩
      · exact .inr rfl
      · left
        have hsome : (if t.toList.length ≤ 3 then digits? t else none) ≠ none := by
          intro hnone
          rw [mapM_none_iff.2 ⟨t, ht, hnone⟩] at hfields
          cases hfields
        split at hsome
        · obtain ⟨n, hn⟩ := Option.ne_none_iff_exists'.1 hsome
          exact digits?_chars hn x hx
        · exact absurd rfl hsome
    · by_contra hno
      rw [split_of_not_mem hno] at hfields
      have hlen := (mapM_some_iff.1 hfields).length_eq
      cases hlen
  · cases h

theorem parseV4_dotted {a b c d : Nat} (ha : a < 256) (hb : b < 256) (hc : c < 256) (hd : d < 256) :
    Ip.parseV4 (toString a ++ "." ++ toString b ++ "." ++ toString c ++ "." ++ toString d) =
      some (((a * 256 + b) * 256 + c) * 256 + d) := by
  have hpoint : ∀ n < 256, '.' ∉ (Nat.repr n).toList := by
    intro n hn hmem
    have hdigit := List.all_eq_true.1 (Ip.repr_digits n hn) _ hmem
    cases hdigit
  have hsplit : split (toString a ++ "." ++ toString b ++ "." ++ toString c ++ "." ++ toString d) '.' =
      [Nat.repr a, Nat.repr b, Nat.repr c, Nat.repr d] := by
    have htext : (toString a ++ "." ++ toString b ++ "." ++ toString c ++ "." ++ toString d).toList =
        (Nat.repr a).toList ++ '.' :: ((Nat.repr b).toList ++ '.' :: ((Nat.repr c).toList ++ '.' ::
          (Nat.repr d).toList)) := by
      simp only [String.toList_append, List.append_assoc]
      rfl
    rw [split, htext, List.splitOn_append_cons_self_of_not_mem (hpoint a ha),
      List.splitOn_append_cons_self_of_not_mem (hpoint b hb), List.splitOn_append_cons_self_of_not_mem (hpoint c hc),
      List.splitOn_eq_singleton (hpoint d hd)]
    simp only [List.map_cons, List.map_nil, String.ofList_toList]
  unfold Ip.parseV4
  rw [hsplit]
  simp only [List.map_cons, List.map_nil, Ip.decimalBelow_repr ha, Ip.decimalBelow_repr hb, Ip.decimalBelow_repr hc,
    Ip.decimalBelow_repr hd]

/-- A text of two groups. -/
theorem hextetsToIPv4_some {s v4 : String} (h : hextetsToIPv4 s = some v4) :
    ∃ x y hi lo, split s ':' = [x, y] ∧ Ip.group? x = some hi ∧ Ip.group? y = some lo ∧
      Ip.parseV4 v4 = some (hi * 65536 + lo) := by
  have hfield : (fun f : String => if f.toList.length ≤ 4 then hex? f else none) = Ip.group? := by
    funext f
    rw [Ip.group?, String.length_toList]
  unfold hextetsToIPv4 at h
  rw [hfield] at h
  split at h
  · rename_i hi lo hparts
    obtain ⟨x, parts, hx, hrest, hsplit⟩ := List.forall₂_cons_right_iff.1 (mapM_some_iff.1 hparts)
    obtain ⟨y, parts', hy, hnil, rfl⟩ := List.forall₂_cons_right_iff.1 hrest
    obtain rfl := List.forall₂_nil_right_iff.1 hnil
    have hhi := (Ip.group?_some hx).2.2
    have hlo := (Ip.group?_some hy).2.2
    injection h with h
    have hsum : ((hi / 256 * 256 + hi % 256) * 256 + lo / 256) * 256 + lo % 256 = hi * 65536 + lo := by omega
    refine ⟨x, y, hi, lo, hsplit, hx, hy, ?_⟩
    rw [← h, parseV4_dotted (by omega) (by omega) (by omega) (by omega), hsum]
  · cases h

/-- What `::ffff:` precedes. -/
theorem mappedIPv4_some {s v4 : String} (h : mappedIPv4 s = some v4) :
    ∃ tail, s = "::ffff:" ++ tail ∧
      ((dottedFields tail).isSome = true ∧ v4 = tail ∨ hextetsToIPv4 tail = some v4) := by
  unfold mappedIPv4 at h
  split at h
  · rename_i hstart
    refine ⟨slice s 7, startsWith_append hstart, ?_⟩
    dsimp only at h
    split at h
    · rename_i hdotted
      injection h with h
      exact .inl ⟨hdotted, h.symm⟩
    · exact .inr h
  · cases h

theorem parseV4_colon {s : String} (h : ':' ∈ s.toList) : Ip.parseV4 s = none := by
  rw [Option.eq_none_iff_forall_ne_some]
  intro v hv
  exact Ip.parseV4_not_mem hv (by decide) (by decide) h

theorem parseV6_noColon {s : String} (h : ':' ∉ s.toList) : Ip.parseV6 s = none := by
  rw [Option.eq_none_iff_forall_ne_some]
  intro a ha
  have hcolon := Ip.parseCore_colon (Ip.parseV6_iff.1 ha).2
  rw [Ip.core, String.toList_ofList] at hcolon
  exact h (List.takeWhile_subset _ hcolon)

theorem parseAddress_v4 {s : String} {v : Nat} (h : Ip.parseV4 s = some v) : Ip.parseAddress s = some (Ip.mapped v) := by
  rw [Ip.parseAddress, h]

theorem parseAddress_noV4 {s : String} (h : Ip.parseV4 s = none) : Ip.parseAddress s = Ip.parseV6 s := by
  rw [Ip.parseAddress, h]

theorem parseAddress_v6 {s : String} (h : ':' ∈ s.toList) : Ip.parseAddress s = Ip.parseV6 s :=
  parseAddress_noV4 (parseV4_colon h)

/-- A compressed mapped address is the address of its IPv4 text. -/
theorem mappedIPv4_parse {s v4 : String} (h : mappedIPv4 s = some v4) :
    Ip.parseAddress s = (Ip.parseV4 v4).map Ip.mapped ∧ ':' ∉ v4.toList := by
  obtain ⟨tail, rfl, htail⟩ := mappedIPv4_some h
  have hhead : ':' ∈ ("::ffff:" ++ tail).toList := by
    rw [String.toList_append]
    exact List.mem_append_left _ (by decide)
  have hzone : ∀ {t : String}, '%' ∉ t.toList → Ip.parseAddress ("::ffff:" ++ t) = Ip.parseCore ("::ffff:" ++ t) := by
    intro t ht
    rw [parseAddress_v6 (by rw [String.toList_append]; exact List.mem_append_left _ (by decide))]
    refine Ip.parseV6_zoneless ?_
    rw [String.toList_append, List.mem_append, not_or]
    exact ⟨by decide, ht⟩
  rcases htail with ⟨hdotted, rfl⟩ | hhex
  · obtain ⟨hchars, hpoint⟩ := dottedFields_chars hdotted
    have hno : ∀ {c : Char}, c.isDigit = false → c ≠ '.' → c ∉ v4.toList := by
      intro c hc hp hmem
      rcases hchars c hmem with hd | hd
      · rw [hc] at hd
        cases hd
      · exact hp hd
    have hcolon : ':' ∉ v4.toList := hno (by decide) (by decide)
    refine ⟨?_, hcolon⟩
    rw [hzone (hno (by decide) (by decide)), Ip.parseCore_ffff, split_of_not_mem hcolon, Ip.lastGroups]
    cases hv : Ip.parseV4 v4 with
    | some v =>
      have hlt := Ip.parseV4_lt hv
      simp only [Option.bind_some, List.length_cons, List.length_nil, Option.map_some, Ip.mapped]
      rw [if_pos (by decide)]
      simp only [Ip.fromGroups, List.foldl_cons, List.foldl_nil, Option.some.injEq]
      omega
    | none =>
      have hgroup : Ip.group? v4 = none := by
        rw [Option.eq_none_iff_forall_ne_some]
        intro g hg
        exact (Ip.group?_some hg).1.not_mem (by decide) hpoint
      simp only [hgroup, Option.map_none, Option.bind_none]
  · obtain ⟨x, y, hi, lo, hsplit, hx, hy, hv⟩ := hextetsToIPv4_some hhex
    have hxhex := (Ip.group?_some hx).1
    have hyhex := (Ip.group?_some hy).1
    have hlo := (Ip.group?_some hy).2.2
    have hpercent : '%' ∉ tail.toList := by
      intro hmem
      rcases mem_split ':' hmem with hc | ⟨t, ht, hmem⟩
      · cases hc
      · rw [hsplit] at ht
        simp only [List.mem_cons, List.not_mem_nil, or_false] at ht
        rcases ht with rfl | rfl
        · exact hxhex.not_mem (by decide) hmem
        · exact hyhex.not_mem (by decide) hmem
    have hyv4 : Ip.parseV4 y = none := by
      rw [Option.eq_none_iff_forall_ne_some]
      intro v hv
      obtain ⟨-, hpoint⟩ := dottedFields_chars (dottedFields_of_parse hv)
      exact hyhex.not_mem (by decide) hpoint
    refine ⟨?_, Ip.parseV4_not_mem hv (by decide) (by decide)⟩
    rw [hzone hpercent, Ip.parseCore_ffff, hsplit, hv, Ip.lastGroups, hx, Option.bind_some, Ip.lastGroups, hyv4, hy]
    · simp only [Option.map_some, Option.bind_some, List.length_cons, List.length_nil, Ip.mapped]
      rw [if_pos (by decide)]
      simp only [Ip.fromGroups, List.foldl_cons, List.foldl_nil, Option.some.injEq]
      omega
    · intro hnil
      cases hnil

theorem unmapIp_names (text : String) : Ip.parseAddress (unmapIp text) = addressOf text := by
  unfold unmapIp addressOf
  dsimp only
  generalize normalizeHost text = s
  cases h : mappedIPv4 s with
  | none => rw [Option.getD_none]
  | some v4 =>
    obtain ⟨hparse, hcolon⟩ := mappedIPv4_parse h
    rw [Option.getD_some, hparse]
    unfold Ip.parseAddress
    rw [parseV6_noColon hcolon]
    cases Ip.parseV4 v4 with
    | none => rfl
    | some v => rfl

/-- Two groups, or an IPv4 text. -/
theorem mapped_tail {s tail : String} (hs : s = "::ffff:" ++ tail) {r : List Nat}
    (hr : Ip.lastGroups (split tail ':') = some r) (hlen : r.length = 2) : (mappedIPv4 s).isSome = true := by
  have hstart : startsWith s "::ffff:" = true := by
    rw [hs]
    refine List.isPrefixOf_iff_prefix.2 ⟨tail.toList, ?_⟩
    rw [String.toList_append]
  have htail : slice s 7 = tail := by
    rw [hs, ← String.toList_inj, slice, String.toList_ofList, String.toList_append]
    rfl
  have hparts := Ip.length_le_lastGroups hr
  unfold mappedIPv4
  rw [if_pos hstart, htail]
  dsimp only
  rcases hsplit : split tail ':' with _ | ⟨x, _ | ⟨y, _ | ⟨z, parts⟩⟩⟩
  · exact absurd (List.map_eq_nil_iff.1 hsplit) (List.splitOn_ne_nil _ _)
  · rw [hsplit] at hr
    rcases Ip.lastGroups_singleton hr with ⟨v, hv, -⟩ | ⟨-, g, -, rfl⟩
    · have ht : tail = x := by
        rw [← String.toList_inj, split_join tail ':', hsplit]
        simp [List.intercalate]
      rw [ht, if_pos (dottedFields_of_parse hv)]
      rfl
    · cases hlen
  · rw [hsplit] at hr
    obtain ⟨hi, r', hx, hr', rfl⟩ := Ip.lastGroups_cons hr
    rcases Ip.lastGroups_singleton hr' with ⟨v, hv, rfl⟩ | ⟨-, lo, hy, rfl⟩
    · cases hlen
    · have hfield : ∀ {f : String} {n}, Ip.group? f = some n →
          (if f.toList.length ≤ 4 then hex? f else none) = some n := by
        intro f n hf
        rwa [String.length_toList]
      have hhex : (hextetsToIPv4 tail).isSome = true := by
        unfold hextetsToIPv4
        rw [hsplit]
        simp only [List.mapM_cons, List.mapM_nil, hfield hx, hfield hy]
        rfl
      split
      · rfl
      · exact hhex
  · rw [hsplit, hlen] at hparts
    simp only [List.length_cons] at hparts
    omega

/-- Behind `::ffff:` a mapped address is unmapped. -/
theorem mappedIPv4_of {s : String} {a : Nat} (hstart : startsWith s "::ffff:" = true) (ha : Ip.parseCore s = some a)
    (hmapped : Ip.IsMapped a) : ∃ v4 v, mappedIPv4 s = some v4 ∧ Ip.parseV4 v4 = some v ∧ a = Ip.mapped v := by
  obtain ⟨tail, hs⟩ : ∃ tail, s = "::ffff:" ++ tail := ⟨_, startsWith_append hstart⟩
  have hgroups := Ip.parseCore_ffff tail
  rw [← hs, ha] at hgroups
  obtain ⟨r, hr, hgroups⟩ := Option.bind_eq_some_iff.1 hgroups.symm
  split at hgroups
  · injection hgroups with hgroups
    rw [← hgroups] at hmapped
    have htwo := Ip.mapped_length (Ip.fromGroups_lt (Ip.lastGroups_some hr).2) hmapped
    obtain ⟨v4, hv4⟩ := Option.isSome_iff_exists.1 (mapped_tail hs hr htwo)
    obtain ⟨hparse, -⟩ := mappedIPv4_parse hv4
    have hzone : '%' ∉ s.toList := fun hmem => absurd (Ip.parseCore_chars ha _ hmem) (by decide)
    rw [parseAddress_v6 (Ip.parseCore_colon ha), Ip.parseV6_zoneless hzone, ha] at hparse
    obtain ⟨v, hv, hav⟩ := Option.map_eq_some_iff.1 hparse.symm
    exact ⟨v4, v, hv4, hv, hav.symm⟩
  · cases hgroups

/-! ## Spellings -/

/-- What stands between brackets. -/
theorem unbracket (s : String) :
    (if startsWith ("[" ++ s ++ "]") "[" && endsWith ("[" ++ s ++ "]") "]" then sliceEnd (slice ("[" ++ s ++ "]") 1) 1
      else "[" ++ s ++ "]") = s := by
  have htext : ("[" ++ s ++ "]").toList = '[' :: (s.toList ++ [']']) := by
    rw [String.toList_append, String.toList_append]
    rfl
  have hopen : startsWith ("[" ++ s ++ "]") "[" = true := List.isPrefixOf_iff_prefix.2 ⟨s.toList ++ [']'], htext.symm⟩
  have hclose : endsWith ("[" ++ s ++ "]") "]" = true := List.isSuffixOf_iff_suffix.2 ⟨'[' :: s.toList, htext.symm⟩
  rw [hopen, hclose, Bool.and_self, if_pos rfl, sliceEnd, slice, htext, String.toList_ofList, List.drop_one, List.tail_cons,
    List.rdrop_concat_succ, List.rdrop_zero, String.ofList_toList]

/-- A text that does not open a bracket. -/
theorem bracket_none {s : String} (h : s.toList.head? ≠ some '[') :
    (if startsWith s "[" && endsWith s "]" then sliceEnd (slice s 1) 1 else s) = s := by
  have hopen : startsWith s "[" = false := by
    rw [Bool.eq_false_iff]
    intro hstart
    obtain ⟨rest, hrest⟩ := List.isPrefixOf_iff_prefix.1 hstart
    rw [← hrest] at h
    exact h rfl
  rw [hopen, Bool.false_and, if_neg (by decide)]

theorem textChar_range {c : Char} (h : Ip.isTextChar c = true) : 46 ≤ c.toNat ∧ c.toNat ≤ 102 ∧ c ≠ '[' := by
  simp only [Ip.isTextChar, Bool.or_eq_true, decide_eq_true_eq] at h
  rcases h with (h | rfl) | rfl
  · unfold hexDigit? at h
    have hle : ∀ {a b : Char}, a ≤ b ↔ a.toNat ≤ b.toNat := Iff.rfl
    have hne : c.toNat ≠ 91 → c ≠ '[' := fun hn he => hn (congrArg Char.toNat he)
    split at h
    · rename_i hc
      simp only [Char.isDigit, Bool.and_eq_true, decide_eq_true_eq, UInt32.le_iff_toNat_le] at hc
      have hlo : 48 ≤ c.toNat := hc.1
      have hhi : c.toNat ≤ 57 := hc.2
      exact ⟨by omega, by omega, hne (by omega)⟩
    · split at h
      · rename_i hc
        rw [hle, hle] at hc
        have hlo : 97 ≤ c.toNat := hc.1
        have hhi : c.toNat ≤ 102 := hc.2
        exact ⟨by omega, by omega, hne (by omega)⟩
      · split at h
        · rename_i hc
          rw [hle, hle] at hc
          have hlo : 65 ≤ c.toNat := hc.1
          have hhi : c.toNat ≤ 70 := hc.2
          exact ⟨by omega, by omega, hne (by omega)⟩
        · cases h
  · decide
  · decide

theorem zoneChar_range {c : Char} (h : Ip.isZoneChar c = true) : 45 ≤ c.toNat ∧ c.toNat ≤ 122 := by
  simp only [Ip.isZoneChar, Bool.or_eq_true, decide_eq_true_eq] at h
  rcases h with ((h | rfl) | rfl) | rfl
  · simp only [Char.isAlphanum, isAlpha_cases, isUpper_range, isLower_range, Char.isDigit, Bool.or_eq_true, Bool.and_eq_true,
      decide_eq_true_eq, UInt32.le_iff_toNat_le, ge_iff_le] at h
    have hval : c.val.toNat = c.toNat := rfl
    simp at h
    omega
  · decide
  · decide
  · decide

theorem isSpace_range {c : Char} (hlo : 37 ≤ c.toNat) (hhi : c.toNat ≤ 122) : isSpace c = false := by
  unfold isSpace
  simp only [Bool.or_eq_false_iff, Bool.and_eq_false_iff, decide_eq_false_iff_not]
  omega

/-- A text that names an address, with its zone if it has one. -/
theorem address_chars {text : String} {a : Nat} (h : Ip.parseAddress text = some a) :
    (∀ c ∈ text.toList, isSpace c = false) ∧ (∀ c ∈ (Ip.core text).toList, Ip.isTextChar c = true) ∧
      Ip.NoRootDot (Ip.core text).toList := by
  unfold Ip.parseAddress at h
  cases hv : Ip.parseV4 text with
  | some v =>
    have hchars := Ip.parseV4_textChars hv
    have hcore : Ip.core text = text := Ip.core_eq (Ip.parseV4_not_mem hv (by decide) (by decide))
    rw [hcore]
    refine ⟨?_, hchars, (Ip.parseV4_noRootDot hv).2⟩
    intro c hc
    obtain ⟨hlo, hhi, -⟩ := textChar_range (hchars c hc)
    exact isSpace_range (by omega) (by omega)
  | none =>
    rw [hv] at h
    obtain ⟨hzone, hcore⟩ := Ip.parseV6_iff.1 h
    have hchars := Ip.parseCore_chars hcore
    refine ⟨?_, hchars, Ip.parseCore_noRootDot hcore⟩
    intro c hc
    rw [← List.takeWhile_append_dropWhile (p := fun c => decide (c ≠ '%')) (l := text.toList), List.mem_append] at hc
    rcases hc with hc | hc
    · obtain ⟨hlo, hhi, -⟩ := textChar_range (hchars c (by rwa [Ip.core, String.toList_ofList]))
      exact isSpace_range (by omega) (by omega)
    · cases hdrop : text.toList.dropWhile (fun c => decide (c ≠ '%')) with
      | nil =>
        rw [hdrop] at hc
        cases hc
      | cons d ds =>
        have hd : d = '%' := by
          have hhead := List.head?_dropWhile_not (fun c => decide (c ≠ '%')) text.toList
          rw [hdrop] at hhead
          simpa using hhead
        rw [hdrop] at hc hzone
        rcases List.mem_cons.1 hc with rfl | hc
        · rw [hd]
          decide
        · simp only [Ip.isZone, Bool.and_eq_true] at hzone
          obtain ⟨hlo, hhi⟩ := zoneChar_range (List.all_eq_true.1 hzone.2 c hc)
          exact isSpace_range (by omega) (by omega)

theorem mem_lower {s : String} {d : Char} (hd : d.isAlpha = false) : d ∈ (toLowerAscii s).toList ↔ d ∈ s.toList := by
  rw [Ip.toList_lower, List.mem_map]
  constructor
  · intro h
    obtain ⟨c, hc, hlow⟩ := h
    rwa [← (Ip.toLower_eq_iff hd c).1 hlow]
  · intro h
    exact ⟨d, h, (Ip.toLower_eq_iff hd d).2 rfl⟩

theorem head_lower {s : String} {d : Char} (hd : d.isAlpha = false) (h : s.toList.head? ≠ some d) :
    (toLowerAscii s).toList.head? ≠ some d := by
  rw [Ip.toList_lower, List.head?_map]
  cases hs : s.toList.head? with
  | none => simp
  | some c =>
    rw [hs] at h
    intro hc
    rw [Option.map_some, Option.some.injEq, Ip.toLower_eq_iff hd] at hc
    exact h (congrArg some hc)

/-- A percent sign begins a zone where there is a colon. -/
def zoneless (s : String) : String := if includes s ":" then Ip.core s else s

/-- Neither blank nor bracket in front, and no root dot. -/
theorem normalizeHost_clean {s : String} (hspace : ∀ c ∈ s.toList, isSpace c = false) (hopen : s.toList.head? ≠ some '[')
    (hdot : Ip.NoRootDot (zoneless s).toList) : normalizeHost s = toLowerAscii (zoneless s) := by
  have hstart := bracket_none (head_lower (d := '[') (by decide) hopen)
  have hend : endsWith (toLowerAscii (zoneless s)) "." = false := by
    rw [Bool.eq_false_iff]
    intro hends
    obtain ⟨init, hinit⟩ := List.isSuffixOf_iff_suffix.1 hends
    rw [Ip.toList_lower] at hinit
    obtain ⟨xs, ys, htext, -, hys⟩ := List.map_eq_append_iff.1 hinit.symm
    obtain ⟨c, zs, rfl, hc, hzs⟩ := List.map_eq_cons_iff.1 hys
    obtain rfl := List.map_eq_nil_iff.1 hzs
    rw [(Ip.toLower_eq_iff (by decide) c).1 hc] at htext
    exact hdot ⟨xs, htext.symm⟩
  have hcolon : includes (toLowerAscii s) ":" = includes s ":" := by
    rw [Bool.eq_iff_iff, includes_char (c := ':') rfl, includes_char (c := ':') rfl, mem_lower (by decide)]
  unfold normalizeHost
  simp only [trim_clean hspace, hstart, hcolon]
  unfold zoneless at hend ⊢
  by_cases hin : includes s ":" = true
  · rw [if_pos hin] at hend
    rw [if_pos hin, if_pos hin]
    cases hindex : indexOf (toLowerAscii s) "%" with
    | none =>
      have hall := takeWhile_of_indexOf_none (c := '%') rfl hindex
      rw [← Ip.core_lower, Ip.core, hall, String.ofList_toList] at hend ⊢
      simp only [hend, Bool.false_eq_true, if_false]
    | some i =>
      have hcut := takeWhile_of_indexOf_some (c := '%') rfl hindex
      rw [← Ip.core_lower, Ip.core, hcut] at hend ⊢
      simp only [hend, Bool.false_eq_true, if_false]
  · rw [if_neg hin] at hend
    rw [if_neg hin, if_neg hin]
    simp only [hend, Bool.false_eq_true, if_false]

theorem zoneless_address {text : String} {a : Nat} (h : Ip.parseAddress text = some a) : zoneless text = Ip.core text := by
  unfold zoneless
  split
  · rfl
  · rename_i hno
    rw [includes_char (c := ':') rfl] at hno
    cases hv : Ip.parseV4 text with
    | some v => exact (Ip.core_eq (Ip.parseV4_not_mem hv (by decide) (by decide))).symm
    | none =>
      rw [parseAddress_noV4 hv, parseV6_noColon hno] at h
      cases h

theorem head_address {text : String} {a : Nat} (h : Ip.parseAddress text = some a) :
    ∃ c cs, text.toList = c :: cs ∧ c ≠ '[' := by
  obtain ⟨-, hchars, -⟩ := address_chars h
  match htext : text.toList with
  | [] =>
    have hempty : Ip.parseAddress "" = none := by decide
    rw [String.toList_eq_nil_iff.1 htext, hempty] at h
    cases h
  | c :: cs =>
    refine ⟨c, cs, rfl, ?_⟩
    intro hc
    have hmem : c ∈ (Ip.core text).toList := by
      rw [Ip.core, String.toList_ofList, htext, List.takeWhile_cons_of_pos (by rw [hc]; decide)]
      exact List.mem_cons_self
    exact (textChar_range (hchars c hmem)).2.2 hc

/-- What is left of a text that names an address. -/
theorem normalizeHost_address {text : String} {a : Nat} (h : Ip.parseAddress text = some a) :
    normalizeHost text = toLowerAscii (Ip.core text) := by
  obtain ⟨hspace, -, hdot⟩ := address_chars h
  obtain ⟨c, cs, htext, hc⟩ := head_address h
  have hzone := zoneless_address h
  rw [normalizeHost_clean hspace (by rw [htext]; simpa using hc) (by rwa [hzone]), hzone]

theorem parseAddress_core {text : String} {a : Nat} (h : Ip.parseAddress text = some a) :
    Ip.parseAddress (Ip.core text) = some a := by
  cases hv : Ip.parseV4 text with
  | some v => rwa [Ip.core_eq (Ip.parseV4_not_mem hv (by decide) (by decide))]
  | none =>
    rw [parseAddress_noV4 hv] at h
    rw [parseAddress_v6 (Ip.parseCore_colon (Ip.parseV6_iff.1 h).2)]
    exact Ip.parseV6_core h

theorem addressOf_address {text : String} {a : Nat} (h : Ip.parseAddress text = some a) : addressOf text = some a := by
  rw [addressOf, normalizeHost_address h, Ip.parseAddress_lower, parseAddress_core h]

/-! ## Blocks -/

/-- A subnet; the length of an IPv4 subnet counts the bits of the IPv4 address. -/
def subnet (addr : String) (bits : Nat) : Option Ip.Block :=
  match Ip.parseV4 addr with
  | some v => some ⟨Ip.mapped v, 96 + bits⟩
  | none => (Ip.parseV6 addr).map fun a => ⟨a, bits⟩

/-- `net.isIP` and `BlockList`. -/
structure NetModule (W : World) : Prop where
  isIP : ∀ s, W.isIP s = if (Ip.parseV4 s).isSome then 4 else if (Ip.parseV6 s).isSome then 6 else 0
  subnetHas : ∀ addr bits ip b a, subnet addr bits = some b → Ip.parseAddress ip = some a →
    W.subnetHas addr bits ip = b.holds a

/-- A world with that platform. -/
def World.net (W : World) : World := { W with
  isIP := fun s => if (Ip.parseV4 s).isSome then 4 else if (Ip.parseV6 s).isSome then 6 else 0
  subnetHas := fun addr bits ip => (subnet addr bits).any fun b => (Ip.parseAddress ip).any b.holds }

theorem netModule_net (W : World) : NetModule W.net where
  isIP _ := rfl
  subnetHas addr bits ip b a hb ha := by
    show ((subnet addr bits).any fun b => (Ip.parseAddress ip).any b.holds) = b.holds a
    rw [hb, ha]
    rfl

section Net

variable {W : World}

theorem isIP_iff (hW : NetModule W) (s : String) : W.isIP s ≠ 0 ↔ (Ip.parseAddress s).isSome = true := by
  rw [hW.isIP]
  unfold Ip.parseAddress
  cases Ip.parseV4 s with
  | some v => simp
  | none => cases Ip.parseV6 s <;> simp

theorem isIP_unmapped (hW : NetModule W) (text : String) : W.isIP (unmapIp text) ≠ 0 ↔ (addressOf text).isSome = true := by
  rw [isIP_iff hW, unmapIp_names]

theorem ipInList_iff (hW : NetModule W) {addr : String} {bits : Nat} {b : Ip.Block} (hb : subnet addr bits = some b)
    (ip : String) : ipInList W (addr, bits) ip = true ↔ ∃ a, addressOf ip = some a ∧ b.holds a = true := by
  unfold ipInList
  rw [Bool.and_eq_true, decide_eq_true_eq]
  constructor
  · intro h
    obtain ⟨hip, hholds⟩ := h
    obtain ⟨a, ha⟩ := Option.isSome_iff_exists.1 ((isIP_unmapped hW ip).1 hip)
    rw [hW.subnetHas addr bits _ b a hb ((unmapIp_names ip).trans ha)] at hholds
    exact ⟨a, ha, hholds⟩
  · intro h
    obtain ⟨a, ha, hholds⟩ := h
    refine ⟨(isIP_unmapped hW ip).2 (by rw [ha]; rfl), ?_⟩
    rw [hW.subnetHas addr bits _ b a hb ((unmapIp_names ip).trans ha)]
    exact hholds

/-- What is read as a block is an address and no more bits than it has. -/
theorem parseCidr_isIP {entry addr : String} {bits : Nat} (h : parseCidr W entry = some (addr, bits)) : W.isIP addr ≠ 0 := by
  unfold parseCidr at h
  split at h
  · rename_i rawAddr rest hsplit
    dsimp only at h
    generalize unmapIp rawAddr = raw at h
    by_cases hip : W.isIP raw = 0
    · rw [if_pos hip] at h
      cases h
    · rw [if_neg hip] at h
      split at h
      · rwa [← (Prod.mk.inj (Option.some.inj h)).1]
      · obtain ⟨n, -, hn⟩ := Option.map_eq_some_iff.1 h
        rwa [← (Prod.mk.inj hn).1]
      · cases h
  · cases h

theorem parseCidr_subnet (hW : NetModule W) {entry addr : String} {bits : Nat} (h : parseCidr W entry = some (addr, bits)) :
    ∃ b, subnet addr bits = some b := by
  have hsome := (isIP_iff hW addr).1 (parseCidr_isIP h)
  unfold subnet
  cases hv : Ip.parseV4 addr with
  | some v => exact ⟨_, rfl⟩
  | none =>
    rw [parseAddress_noV4 hv] at hsome
    obtain ⟨a, ha⟩ := Option.isSome_iff_exists.1 hsome
    exact ⟨⟨a, bits⟩, by simp [ha]⟩

/-- An address on its own is the block of itself. -/
theorem parseCidr_address (hW : NetModule W) {entry : String} {a : Nat} (hslash : '/' ∉ entry.toList)
    (h : addressOf entry = some a) : ∃ c, parseCidr W entry = some c ∧ subnet c.1 c.2 = some ⟨a, 128⟩ := by
  have hnames := (unmapIp_names entry).trans h
  have hip := (isIP_unmapped hW entry).2 (by rw [h]; rfl)
  unfold parseCidr
  rw [split_of_not_mem hslash]
  dsimp only
  generalize unmapIp entry = addr at hnames hip
  rw [if_neg hip]
  refine ⟨_, rfl, ?_⟩
  dsimp only
  rw [hW.isIP]
  unfold subnet
  cases hv : Ip.parseV4 addr with
  | some v =>
    rw [parseAddress_v4 hv] at hnames
    rw [← Option.some.inj hnames]
    rfl
  | none =>
    rw [parseAddress_noV4 hv] at hnames
    simp [hnames]

end Net

/-- The block an entry of a list means: an address, or an address and a length. -/
def blockOf (entry : String) : Option Ip.Block :=
  match split entry '/' with
  | [text] => (Ip.parseAddress text).map fun a => ⟨a, 128⟩
  | [text, bits] => Ip.parseBlock text bits
  | _ => none

/-- `::ffff:` in front of an IPv4 address, in either form. -/
def isMappedText (text : String) : Bool :=
  startsWith (toLowerAscii text) "::ffff:" && (Ip.parseAddress text).any fun a => a / 2 ^ 32 = 0xFFFF

/-- A length behind a zone or behind `::ffff:` and an IPv4 address. -/
def misread (entry : String) : Bool :=
  match split entry '/' with
  | [text, _] => includes text "%" || isMappedText text
  | _ => false

/-- The block an entry is read as. A zone takes the length with it, and behind a mapped
    address the length is one of the IPv4 address. -/
def readAs (entry : String) : Option Ip.Block :=
  match split entry '/' with
  | [text, bits] => (Ip.parseAddress text).bind fun a =>
    if includes text "%" then some ⟨a, 128⟩
    else if isMappedText text then ((digits? bits).filter (· ≤ 32)).map fun n => ⟨a, 96 + n⟩
    else Ip.parseBlock text bits
  | _ => blockOf entry

theorem readAs_eq {entry : String} (h : misread entry = false) {b : Ip.Block} (hb : blockOf entry = some b) :
    readAs entry = some b := by
  unfold misread at h
  unfold readAs
  split
  · rename_i text bits hsplit
    rw [hsplit] at h
    dsimp only at h
    rw [Bool.or_eq_false_iff] at h
    rw [blockOf, hsplit] at hb
    dsimp only at hb
    obtain ⟨a, ha⟩ : ∃ a, Ip.parseAddress text = some a := by
      unfold Ip.parseBlock at hb
      cases hv : Ip.parseV4 text with
      | some v => exact ⟨_, parseAddress_v4 hv⟩
      | none =>
        rw [hv] at hb
        obtain ⟨a, ha, -⟩ := Option.bind_eq_some_iff.1 hb
        exact ⟨a, (parseAddress_noV4 hv).trans ha⟩
    rw [ha, Option.bind_some, h.1, h.2]
    exact hb
  · exact hb

/-- The same address and more bits. -/
theorem holds_of_bits {x a n m : Nat} (hnm : n ≤ m) (h : (⟨x, m⟩ : Ip.Block).holds a = true) :
    (⟨x, n⟩ : Ip.Block).holds a = true := by
  unfold Ip.Block.holds at h ⊢
  simp only [decide_eq_true_eq] at h ⊢
  obtain ⟨k, hk⟩ := Nat.exists_eq_add_of_le (show 128 - m ≤ 128 - n by omega)
  rw [hk, pow_add, ← Nat.div_div_eq_div_mul, ← Nat.div_div_eq_div_mul, h]

/-- The address and length of an entry that has one. -/
theorem blockOf_bits {entry text bits : String} {b : Ip.Block} (hsplit : split entry '/' = [text, bits])
    (hb : blockOf entry = some b) :
    ∃ a k, Ip.parseAddress text = some a ∧ bits = Nat.repr k ∧ b.address = a ∧
      (Ip.parseV4 text ≠ none ∧ k ≤ 32 ∧ b.bits = 96 + k ∨ Ip.parseV4 text = none ∧ k ≤ 128 ∧ b.bits = k) := by
  rw [blockOf, hsplit] at hb
  dsimp only at hb
  unfold Ip.parseBlock at hb
  cases hv : Ip.parseV4 text with
  | some v =>
    rw [hv] at hb
    obtain ⟨k, hk, rfl⟩ := Option.map_eq_some_iff.1 hb
    obtain ⟨hlt, hrepr⟩ := Ip.decimalBelow_some hk
    exact ⟨_, k, parseAddress_v4 hv, hrepr, rfl, .inl ⟨by simp, by omega, rfl⟩⟩
  | none =>
    rw [hv] at hb
    obtain ⟨a, ha, hb⟩ := Option.bind_eq_some_iff.1 hb
    obtain ⟨k, hk, rfl⟩ := Option.map_eq_some_iff.1 hb
    obtain ⟨hlt, hrepr⟩ := Ip.decimalBelow_some hk
    exact ⟨a, k, (parseAddress_noV4 hv).trans ha, hrepr, rfl, .inr ⟨rfl, by omega, rfl⟩⟩

/-- What is read holds nothing the entry does not mean. -/
theorem readAs_narrow {entry : String} {b r : Ip.Block} (hb : blockOf entry = some b) (hr : readAs entry = some r)
    {a : Nat} (h : r.holds a = true) : b.holds a = true := by
  by_cases hmis : misread entry = true
  · unfold misread at hmis
    split at hmis
    · rename_i text bits hsplit
      obtain ⟨x, k, hx, hrepr, hbx, hk⟩ := blockOf_bits hsplit hb
      have hbits : b.bits ≤ 128 := by omega
      obtain ⟨y, n⟩ := b
      dsimp only at hbx hk hbits
      subst hbx
      rw [readAs, hsplit] at hr
      dsimp only at hr
      rw [hx, Option.bind_some] at hr
      split at hr
      · obtain rfl := Option.some.inj hr
        exact holds_of_bits hbits h
      · rename_i hzone
        rw [if_pos ((Bool.or_eq_true _ _ ▸ hmis).resolve_left hzone)] at hr
        obtain ⟨m, hm, rfl⟩ := Option.map_eq_some_iff.1 hr
        rw [hrepr, Ip.digits?_repr k] at hm
        have hm := (Option.filter_eq_some_iff.1 hm).1
        injection hm with hm
        exact holds_of_bits (by omega) h
    · cases hmis
  · rw [readAs_eq (Bool.eq_false_iff.2 hmis) hb] at hr
    rwa [← Option.some.inj hr] at h

/-! ## Reading an entry -/

theorem digit_noSpace {c : Char} (h : c.isDigit = true) : isSpace c = false := by
  obtain ⟨hlo, hhi, -⟩ := textChar_range (show Ip.isTextChar c = true by simp [Ip.isTextChar, hexDigit?, h])
  exact isSpace_range (by omega) (by omega)

theorem repr_isDigit {k : Nat} (hk : k < 129) : ∀ c ∈ (Nat.repr k).toList, c.isDigit = true :=
  fun c hc => List.all_eq_true.1 (Ip.repr_digits k (by omega)) c hc

/-- What is left of an address with a length. -/
theorem normalizeHost_block {text : String} {a k : Nat} (ht : Ip.parseAddress text = some a) (hk : k < 129) :
    normalizeHost (text ++ "/" ++ Nat.repr k) =
      if includes text "%" then toLowerAscii (Ip.core text) else toLowerAscii text ++ "/" ++ Nat.repr k := by
  obtain ⟨hspace, hchars, hdot⟩ := address_chars ht
  obtain ⟨c, cs, htext, hc⟩ := head_address ht
  have hdigit := repr_isDigit hk
  have hlist : (text ++ "/" ++ Nat.repr k).toList = text.toList ++ '/' :: (Nat.repr k).toList := by
    rw [String.toList_append, String.toList_append, List.append_assoc]
    rfl
  have hno : ∀ {d : Char}, d.isDigit = false → d ≠ '/' → (d ∈ (text ++ "/" ++ Nat.repr k).toList ↔ d ∈ text.toList) := by
    intro d hd hslash
    rw [hlist, List.mem_append, List.mem_cons]
    constructor
    · intro h
      rcases h with h | h | h
      · exact h
      · exact absurd h hslash
      · rw [hdigit d h] at hd
        cases hd
    · exact .inl
  have hzone : zoneless (text ++ "/" ++ Nat.repr k) =
      if includes text "%" then Ip.core text else text ++ "/" ++ Nat.repr k := by
    by_cases hp : includes text "%" = true
    · have hpercent := (includes_char (c := '%') rfl).1 hp
      have hcolon : includes (text ++ "/" ++ Nat.repr k) ":" = true := by
        rw [includes_char (c := ':') rfl, hno (by decide) (by decide)]
        by_contra hcolon
        have hcore := zoneless_address ht
        rw [zoneless, if_neg (by rwa [includes_char (c := ':') rfl])] at hcore
        rw [hcore] at hpercent
        exact Ip.core_zoneless text hpercent
      rw [if_pos hp, zoneless, if_pos hcolon, Ip.core, Ip.core, hlist]
      rw [List.takeWhile_append, if_neg]
      intro hlen
      have hall := List.takeWhile_eq_self_iff.1 ((List.takeWhile_prefix _).eq_of_length hlen)
      exact absurd (hall '%' hpercent) (by decide)
    · rw [if_neg hp]
      unfold zoneless
      split
      · refine Ip.core_eq ?_
        rw [hno (by decide) (by decide)]
        exact fun hmem => hp ((includes_char (c := '%') rfl).2 hmem)
      · rfl
  have hclean := normalizeHost_clean (s := text ++ "/" ++ Nat.repr k) ?_ ?_ ?_
  · rw [hclean, hzone]
    split
    · rfl
    · have hlower : (Nat.repr k).toList.map Char.toLower = (Nat.repr k).toList := by
        rw [← Ip.toList_lower, (Ip.lower_digits (Ip.repr_digits k (by omega)) _).2 rfl]
      rw [← String.toList_inj, Ip.toList_lower, hlist, String.toList_append, String.toList_append, Ip.toList_lower,
        List.map_append, List.map_cons, hlower, List.append_assoc]
      rfl
  · intro d hd
    rw [hlist, List.mem_append, List.mem_cons] at hd
    rcases hd with hd | rfl | hd
    · exact hspace d hd
    · decide
    · exact digit_noSpace (hdigit d hd)
  · rw [hlist, htext]
    simpa using hc
  · rw [hzone]
    split
    · exact hdot
    · rw [hlist]
      have hpoint : '.' ∉ (Nat.repr k).toList := fun hmem => absurd (hdigit _ hmem) (by decide)
      exact Ip.noRootDot_of_suffix ((List.suffix_cons _ _).trans (List.suffix_append _ _)) (Ip.repr_ne_nil k)
        (Ip.noRootDot_of_not_mem hpoint)

theorem address_noSlash {text : String} {a : Nat} (h : Ip.parseAddress text = some a) : '/' ∉ (Ip.core text).toList :=
  fun hmem => absurd ((address_chars h).2.1 _ hmem) (by decide)

theorem core_zoned {text : String} (h : includes text "%" = false) : Ip.core text = text := by
  refine Ip.core_eq fun hmem => ?_
  rw [(includes_char (c := '%') rfl).2 hmem] at h
  cases h

/-- A text without a zone, unmapped. -/
theorem unmapIp_text {text : String} {a : Nat} (ht : Ip.parseAddress text = some a) (hzone : includes text "%" = false) :
    unmapIp (toLowerAscii text) = (mappedIPv4 (toLowerAscii text)).getD (toLowerAscii text) := by
  have hlow : Ip.parseAddress (toLowerAscii text) = some a := (Ip.parseAddress_lower text).trans ht
  unfold unmapIp
  rw [normalizeHost_address hlow, Ip.core_lower, toLowerAscii_toLowerAscii, core_zoned hzone]

theorem isMappedText_iff {text : String} {a : Nat} (ht : Ip.parseAddress text = some a) (hzone : includes text "%" = false) :
    isMappedText text = true ↔ ∃ v4, mappedIPv4 (toLowerAscii text) = some v4 := by
  have hlow : Ip.parseAddress (toLowerAscii text) = some a := (Ip.parseAddress_lower text).trans ht
  unfold isMappedText
  rw [ht, Option.any_some, Bool.and_eq_true, decide_eq_true_eq]
  constructor
  · intro h
    obtain ⟨hstart, hmapped⟩ := h
    have hcolon : ':' ∈ (toLowerAscii text).toList :=
      (List.isPrefixOf_iff_prefix.1 hstart).subset (by decide)
    have hcore : Ip.parseCore (toLowerAscii text) = some a := by
      rw [parseAddress_v6 hcolon] at hlow
      have hc := (Ip.parseV6_iff.1 hlow).2
      rwa [Ip.core_lower, core_zoned hzone] at hc
    obtain ⟨v4, -, hv4, -⟩ := mappedIPv4_of hstart hcore hmapped
    exact ⟨v4, hv4⟩
  · intro h
    obtain ⟨v4, hv4⟩ := h
    have hstart : startsWith (toLowerAscii text) "::ffff:" = true := by
      obtain ⟨tail, htail, -⟩ := mappedIPv4_some hv4
      rw [htail]
      exact List.isPrefixOf_iff_prefix.2 ⟨tail.toList, (String.toList_append).symm⟩
    obtain ⟨hparse, -⟩ := mappedIPv4_parse hv4
    rw [hlow] at hparse
    obtain ⟨v, hv, hav⟩ := Option.map_eq_some_iff.1 hparse.symm
    exact ⟨hstart, hav ▸ Ip.mapped_isMapped (Ip.parseV4_lt hv)⟩

/-- A length behind an address without a zone. -/
theorem parseCidr_bits {W : World} (hW : NetModule W) {text : String} {a k : Nat} (ht : Ip.parseAddress text = some a)
    (hzone : includes text "%" = false) (hk : k < 129) :
    parseCidr W (toLowerAscii text ++ "/" ++ Nat.repr k) =
      if k ≤ (if W.isIP (unmapIp (toLowerAscii text)) = 4 then 32 else 128) then some (unmapIp (toLowerAscii text), k)
      else none := by
  have hslash : '/' ∉ (toLowerAscii text).toList := by
    rw [mem_lower (by decide), ← core_zoned hzone]
    exact address_noSlash ht
  have hbits : '/' ∉ (Nat.repr k).toList := fun hmem => absurd (repr_isDigit hk _ hmem) (by decide)
  have hsplit : split (toLowerAscii text ++ "/" ++ Nat.repr k) '/' = [toLowerAscii text, Nat.repr k] := by
    have hlist : (toLowerAscii text ++ "/" ++ Nat.repr k).toList =
        (toLowerAscii text).toList ++ '/' :: (Nat.repr k).toList := by
      rw [String.toList_append, String.toList_append, List.append_assoc]
      rfl
    rw [split, hlist, List.splitOn_append_cons_self_of_not_mem hslash, List.splitOn_eq_singleton hbits]
    simp only [List.map_cons, List.map_nil, String.ofList_toList]
  have hip : W.isIP (unmapIp (toLowerAscii text)) ≠ 0 := by
    rw [isIP_unmapped hW, addressOf_address ((Ip.parseAddress_lower text).trans ht)]
    rfl
  unfold parseCidr
  rw [hsplit]
  dsimp only
  generalize unmapIp (toLowerAscii text) = addr at hip ⊢
  rw [if_neg hip, Ip.digits?_repr k, Option.filter_some]
  generalize (if W.isIP addr = 4 then 32 else 128) = max
  by_cases hle : k ≤ max
  · rw [if_pos (by simpa using hle), if_pos hle]
    rfl
  · rw [if_neg (by simpa using hle), if_neg hle]
    rfl

/-- How an entry is read. -/
theorem parseCidr_reads {W : World} (hW : NetModule W) {entry : String} {b : Ip.Block} (hb : blockOf entry = some b) :
    ((parseCidr W (normalizeHost entry)).bind fun c => subnet c.1 c.2) = readAs entry := by
  have halone : ∀ {text : String} {a : Nat}, Ip.parseAddress text = some a →
      ((parseCidr W (toLowerAscii (Ip.core text))).bind fun c => subnet c.1 c.2) = some ⟨a, 128⟩ := by
    intro text a ht
    have hcore : Ip.parseAddress (toLowerAscii (Ip.core text)) = some a :=
      (Ip.parseAddress_lower _).trans (parseAddress_core ht)
    have hslash : '/' ∉ (toLowerAscii (Ip.core text)).toList := by
      rw [mem_lower (by decide)]
      exact address_noSlash ht
    obtain ⟨c, hc, hsub⟩ := parseCidr_address hW hslash (addressOf_address hcore)
    rw [hc, Option.bind_some, hsub]
  match hsplit : split entry '/' with
  | [] => exact absurd (List.map_eq_nil_iff.1 hsplit) (List.splitOn_ne_nil _ _)
  | [text] =>
    have hentry : entry = text := by
      rw [← String.toList_inj, split_join entry '/', hsplit]
      simp [List.intercalate]
    rw [readAs, hsplit]
    dsimp only
    rw [hb]
    rw [blockOf, hsplit] at hb
    obtain ⟨a, ha, rfl⟩ := Option.map_eq_some_iff.1 hb
    rw [hentry, normalizeHost_address ha]
    exact halone ha
  | [text, bits] =>
    obtain ⟨a, k, ha, rfl, hba, hbits⟩ := blockOf_bits hsplit hb
    have hk : k < 129 := by omega
    have hentry : entry = text ++ "/" ++ Nat.repr k := by
      rw [← String.toList_inj, split_join entry '/', hsplit, String.toList_append, String.toList_append]
      simp [List.intercalate]
    have hparse : Ip.parseBlock text (Nat.repr k) = some b := by
      rw [← hb, blockOf, hsplit]
    rw [readAs, hsplit]
    dsimp only
    rw [ha, Option.bind_some, hentry, normalizeHost_block ha hk]
    by_cases hzone : includes text "%" = true
    · rw [if_pos hzone, if_pos hzone]
      exact halone ha
    · rw [if_neg hzone, if_neg hzone]
      have hzone := Bool.eq_false_iff.2 hzone
      have hlow : Ip.parseAddress (toLowerAscii text) = some a := (Ip.parseAddress_lower text).trans ha
      rw [parseCidr_bits hW ha hzone hk, unmapIp_text ha hzone, Ip.digits?_repr k, Option.filter_some]
      by_cases hmapped : isMappedText text = true
      · rw [if_pos hmapped]
        obtain ⟨v4, hv4⟩ := (isMappedText_iff ha hzone).1 hmapped
        obtain ⟨hv, -⟩ := mappedIPv4_parse hv4
        rw [hlow] at hv
        obtain ⟨v, hv, hav⟩ := Option.map_eq_some_iff.1 hv.symm
        rw [hv4, Option.getD_some, hW.isIP, hv]
        simp only [Option.isSome_some, if_true, decide_eq_true_eq]
        split
        · rw [Option.bind_some, Option.map_some, subnet, hv, ← hav]
        · rfl
      · rw [if_neg hmapped]
        have hnone : mappedIPv4 (toLowerAscii text) = none := by
          rw [Option.eq_none_iff_forall_ne_some]
          intro v4 hv4
          exact hmapped ((isMappedText_iff ha hzone).2 ⟨v4, hv4⟩)
        rw [hnone, Option.getD_none, hW.isIP, hparse, Ip.parseV4_lower]
        obtain ⟨x, n⟩ := b
        dsimp only at hba hbits
        subst hba
        rcases hbits with ⟨hv, hk32, rfl⟩ | ⟨hv, hk128, rfl⟩
        · obtain ⟨v, hv⟩ := Option.ne_none_iff_exists'.1 hv
          have hax : x = Ip.mapped v := Option.some.inj (ha.symm.trans (parseAddress_v4 hv))
          rw [hv, if_pos (show (some v).isSome = true from rfl), if_pos rfl, if_pos hk32, Option.bind_some, subnet,
            Ip.parseV4_lower, hv, hax]
        · have hv6 : Ip.parseV6 (toLowerAscii text) = some x :=
            (Ip.parseV6_lower text).trans ((parseAddress_noV4 hv).symm.trans ha)
          have hmax : (if (if (none : Option Nat).isSome = true then 4 else if (some x).isSome = true then 6 else 0) = 4
              then 32 else 128) = 128 := rfl
          rw [hv, hv6, hmax, if_pos hk128, Option.bind_some, subnet, Ip.parseV4_lower, hv, hv6]
          rfl
  | x :: y :: z :: rest =>
    rw [blockOf, hsplit] at hb
    cases hb

/-! ## Entries -/

/-- The block an entry is taken for. -/
def takenBlock (W : World) (entry : String) : Option Ip.Block :=
  (parseCidr W (normalizeHost entry)).bind fun c => subnet c.1 c.2

/-- The block a well-formed entry names; another entry means what it is taken for. -/
def meantBlock (W : World) (entry : String) : Option Ip.Block := (blockOf (trim entry)).or (takenBlock W entry)

/-- The block an entry is read as. -/
def readBlock (W : World) (entry : String) : Option Ip.Block :=
  match blockOf (trim entry) with
  | some _ => readAs (trim entry)
  | none => takenBlock W entry

section Entry

variable {W : World}

theorem normalizeHost_trim (s : String) : normalizeHost (trim s) = normalizeHost s := by
  unfold normalizeHost
  rw [trim_trim]

theorem meantBlock_some {entry : String} {b : Ip.Block} (h : blockOf (trim entry) = some b) :
    meantBlock W entry = some b := by
  rw [meantBlock, h, Option.some_or]

theorem meantBlock_none {entry : String} (h : blockOf (trim entry) = none) : meantBlock W entry = takenBlock W entry := by
  rw [meantBlock, h, Option.none_or]

theorem readBlock_some {entry : String} {b : Ip.Block} (h : blockOf (trim entry) = some b) :
    readBlock W entry = readAs (trim entry) := by
  rw [readBlock, h]

theorem readBlock_none {entry : String} (h : blockOf (trim entry) = none) : readBlock W entry = takenBlock W entry := by
  rw [readBlock, h]

/-- An entry is taken for what it is read as. -/
theorem takenBlock_eq (hW : NetModule W) (entry : String) : takenBlock W entry = readBlock W entry := by
  cases hb : blockOf (trim entry) with
  | none => rw [readBlock_none hb]
  | some b => rw [readBlock_some hb, ← parseCidr_reads hW hb, normalizeHost_trim, takenBlock]

end Entry

end ClusterGate
