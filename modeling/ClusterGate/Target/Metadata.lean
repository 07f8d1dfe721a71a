/-
  ClusterGate.Target.Metadata — which addresses are cloud metadata endpoints
  (`isMetadataIp` of `lib/security.ts`).

  The code decides on the text: the four fields of a dotted address, the one address of
  `BLOCKED_METADATA_IPS`, the first group of an IPv6 address, and the IPv4 address behind
  `::ffff:`. `AddressText` are the texts `URL.hostname` and DNS give: either case, any
  compression, brackets and a zone, a mapped address behind `::ffff:` in either form.
  - `isMetadataIp_iff`: on all of them the decision is membership in
    `METADATA_BLOCKS`.
-/

import ClusterGate.Target.Address
import Mathlib.Tactic.NormNum

namespace ClusterGate

open Lib Lib.Text

/-! ## What is meant -/

/-- Link-local and provider addresses of IPv4, link-local and unique-local ones of IPv6. -/
def METADATA_BLOCKS : List String := ["169.254.0.0/16", "100.100.100.200", "fe80::/10", "fc00::/7"]

def MetadataAddress (a : Nat) : Prop := ∃ entry ∈ METADATA_BLOCKS, Ip.names entry a = true

theorem metadataAddress_iff (a : Nat) :
    MetadataAddress a ↔
      a / 2 ^ 16 = 0xFFFFA9FE ∨ a = 0xFFFF646464C8 ∨ a / 2 ^ 118 = 0xFE80 / 64 ∨ a / 2 ^ 121 = 0xFC00 / 512 := by
  have hlink : Ip.parseBlock "169.254.0.0" "16" = some ⟨0xFFFFA9FE0000, 112⟩ := by decide
  have hprovider : Ip.parseAddress "100.100.100.200" = some 0xFFFF646464C8 := by decide
  have hlocal : Ip.parseBlock "fe80::" "10" = some ⟨0xFE80 * 2 ^ 112, 10⟩ := by decide
  have hunique : Ip.parseBlock "fc00::" "7" = some ⟨0xFC00 * 2 ^ 112, 7⟩ := by decide
  have hsplit : split "169.254.0.0/16" '/' = ["169.254.0.0", "16"] ∧ split "100.100.100.200" '/' = ["100.100.100.200"] ∧
      split "fe80::/10" '/' = ["fe80::", "10"] ∧ split "fc00::/7" '/' = ["fc00::", "7"] := by decide
  obtain ⟨h1, h2, h3, h4⟩ := hsplit
  simp only [MetadataAddress, METADATA_BLOCKS, List.mem_cons, List.not_mem_nil, or_false, exists_eq_or_imp, exists_eq_left]
  simp only [Ip.names, h1, h2, h3, h4, hlink, hprovider, hlocal, hunique, Option.map_some, Option.getD_some, Ip.Block.holds,
    decide_eq_true_eq, Option.some.injEq]
  omega

/-! ## IPv4 -/

theorem toNumber?_repr (n : Nat) : toNumber? (Nat.repr n) = some (n : Rat) := by
  have hdigits : ∀ c ∈ (Nat.repr n).toList, c.isDigit = true := by
    intro c hc
    rw [Nat.toList_repr] at hc
    exact Nat.isDigit_of_mem_toDigits (by decide) (by decide) hc
  have htrim : trim (Nat.repr n) = Nat.repr n := trim_clean fun c hc => digit_noSpace (hdigits c hc)
  have hvalue := Nat.ofDigitChars_toDigits (b := 10) (n := n) (by decide) (by decide)
  rw [Nat.ofDigitChars_eq_foldl, ← Nat.toList_repr] at hvalue
  have hne := Ip.repr_ne_nil n
  unfold toNumber?
  rw [htrim]
  generalize (Nat.repr n).toList = cs at hdigits hvalue hne
  have hdecimal : decimal? cs = some (n : Rat) := by
    have htake : cs.takeWhile Char.isDigit = cs := List.takeWhile_eq_self_iff.2 hdigits
    have hdrop : cs.dropWhile Char.isDigit = [] := List.dropWhile_eq_nil_iff.2 hdigits
    unfold decimal?
    simp only [htake, hdrop, List.append_nil, if_neg hne, List.length_nil, pow_zero, Nat.cast_one, div_one]
    rw [← hvalue]
    rfl
  have hfirst : ∀ {c ds}, cs = c :: ds → c.isDigit = true := fun hc => hdigits _ (by rw [hc]; exact List.mem_cons_self)
  have hsecond : ∀ {c d ds}, cs = c :: d :: ds → d.isDigit = true :=
    fun hc => hdigits _ (by rw [hc]; exact List.mem_cons_of_mem _ List.mem_cons_self)
  split
  · exact absurd rfl hne
  · exact absurd (hsecond rfl) (by decide)
  · exact absurd (hsecond rfl) (by decide)
  · exact absurd (hfirst rfl) (by decide)
  · exact absurd (hfirst rfl) (by decide)
  · exact hdecimal

theorem isMetadataIpv4_iff {text : String} {v : Nat} (h : Ip.parseV4 text = some v) :
    isMetadataIpv4 text = true ↔ MetadataAddress (Ip.mapped v) := by
  have hprovider : Ip.parseV4 "100.100.100.200" = some 0x646464C8 := by decide
  have htext : text = "100.100.100.200" ↔ v = 0x646464C8 := by
    constructor
    · intro ht
      rw [ht, hprovider] at h
      exact (Option.some.inj h).symm
    · intro hv
      exact Ip.parseV4_inj h (by rw [hv, hprovider])
  obtain ⟨a, b, c, d, ha, hb, hc, hd, hsplit, hv⟩ := Ip.parseV4_some h
  have hfields : (split text '.').mapM toNumber? = some [(a : Rat), b, c, d] := by
    rw [hsplit]
    simp only [List.mapM_cons, List.mapM_nil, toNumber?_repr]
    rfl
  have hcast : ∀ n m : Nat, (n : Rat) = (m : Rat) ↔ n = m := fun n m => Nat.cast_inj
  have hrange : ∀ n : Nat, n < 256 → (0 : Rat) ≤ n ∧ (n : Rat) ≤ 255 := by
    intro n hn
    exact ⟨Nat.cast_nonneg n, by exact_mod_cast Nat.le_of_lt_succ hn⟩
  have hlink : isMetadataIpv4 text = true ↔ v = 0x646464C8 ∨ a = 169 ∧ b = 254 := by
    unfold isMetadataIpv4
    rw [hfields]
    simp only [Bool.or_eq_true, Bool.and_eq_true, decide_eq_true_eq, htext, hrange c hc, hrange d hd, and_true]
    rw [show (169 : Rat) = ((169 : Nat) : Rat) from rfl, show (254 : Rat) = ((254 : Nat) : Rat) from rfl, hcast, hcast]
  rw [hlink, metadataAddress_iff, hv]
  unfold Ip.mapped
  omega

/-! ## IPv6 -/

theorem hexPrefix?_group {s : String} {g : Nat} (h : Ip.group? s = some g) : hexPrefix? s = some g := by
  obtain ⟨hhex, hvalue, -⟩ := Ip.group?_some h
  have htake : s.toList.takeWhile (fun c => (hexDigit? c).isSome) = s.toList := List.takeWhile_eq_self_iff.2 hhex.2
  rw [hexPrefix?, htake, String.ofList_toList, hvalue]

theorem isMetadataIpv6_iff {text : String} {a : Nat} (h : Ip.parseCore text = some a)
    (hmapped : Ip.IsMapped a → startsWith text "::ffff:" = true) : isMetadataIpv6 text = true ↔ MetadataAddress a := by
  have hlt := Ip.parseCore_lt h
  unfold isMetadataIpv6
  cases hv4 : mappedIPv4 text with
  | some v4 =>
    obtain ⟨hparse, -⟩ := mappedIPv4_parse hv4
    have hzone : '%' ∉ text.toList := fun hmem => absurd (Ip.parseCore_chars h _ hmem) (by decide)
    rw [parseAddress_v6 (Ip.parseCore_colon h), Ip.parseV6_zoneless hzone, h] at hparse
    obtain ⟨v, hv, hav⟩ := Option.map_eq_some_iff.1 hparse.symm
    rw [← hav]
    exact isMetadataIpv4_iff hv
  | none =>
    have hplain : ¬Ip.IsMapped a := by
      intro hm
      obtain ⟨v4, v, hsome, -⟩ := mappedIPv4_of (hmapped hm) h hm
      rw [hv4] at hsome
      cases hsome
    unfold Ip.IsMapped at hplain
    rw [metadataAddress_iff]
    dsimp only
    have hhead := Ip.parseCore_head h
    unfold Ip.head at hhead
    generalize (split text ':').headD "" = head at hhead ⊢
    rcases hhead with ⟨hhead, hzero⟩ | ⟨g, hg, hfirst⟩
    · have hprefix : hexPrefix? "0" = some 0 := by decide
      rw [hhead, if_pos rfl, hprefix]
      simp only [Bool.or_eq_true, decide_eq_true_eq]
      omega
    · obtain ⟨hhex, -, hg16⟩ := Ip.group?_some hg
      rw [if_neg hhex.1, hexPrefix?_group hg]
      simp only [Bool.or_eq_true, decide_eq_true_eq]
      omega

/-! ## Every text -/

/-- The texts of an address that `URL.hostname` and DNS give. -/
inductive AddressText : String → Nat → Prop
  | v4 {text : String} {v : Nat} (h : Ip.parseV4 text = some v) : AddressText text (Ip.mapped v)
  | v6 {core zone text : String} {a : Nat} (h : Ip.parseV6 core = some a) (hcore : '%' ∉ core.toList)
      (hzone : zone = "" ∨ startsWith zone "%" = true)
      (hmapped : Ip.IsMapped a → startsWith (toLowerAscii core) "::ffff:" = true)
      (htext : text = core ++ zone ∨ text = "[" ++ (core ++ zone) ++ "]") : AddressText text a

theorem isMetadataIp_iff (text : String) (a : Nat) (h : AddressText text a) :
    isMetadataIp text = true ↔ MetadataAddress a := by
  unfold isMetadataIp
  dsimp only
  cases h with
  | v4 h =>
    rename_i v
    have hlow : toLowerAscii text = text := by
      have hp := (Ip.parseV4_lower text).trans h
      exact Ip.parseV4_inj hp h
    have hopen : startsWith text "[" = false := by
      rw [Bool.eq_false_iff]
      intro hstart
      exact Ip.parseV4_not_mem h (by decide) (by decide) ((List.isPrefixOf_iff_prefix.1 hstart).subset List.mem_cons_self)
    have hzone : indexOf text "%" = none := indexOf_none (c := '%') rfl (Ip.parseV4_not_mem h (by decide) (by decide))
    have hcolon : includes text ":" = false := by
      rw [Bool.eq_false_iff, Ne, includes_char (c := ':') rfl]
      exact Ip.parseV4_not_mem h (by decide) (by decide)
    simp only [hlow, hopen, Bool.false_and, Bool.false_eq_true, if_false, hzone, hcolon]
    exact isMetadataIpv4_iff h
  | v6 h hcore hzone hmapped htext =>
    rename_i core zone
    have hparse : Ip.parseCore core = some a := (Ip.parseV6_zoneless hcore).symm.trans h
    have hlow : ∀ s t : String, toLowerAscii (s ++ t) = toLowerAscii s ++ toLowerAscii t := by
      intro s t
      rw [← String.toList_inj, Ip.toList_lower, String.toList_append, String.toList_append, List.map_append, Ip.toList_lower,
        Ip.toList_lower]
    have hbare : (if startsWith (toLowerAscii text) "[" && endsWith (toLowerAscii text) "]"
        then sliceEnd (slice (toLowerAscii text) 1) 1 else toLowerAscii text) = toLowerAscii (core ++ zone) := by
      rcases htext with rfl | rfl
      · refine bracket_none (head_lower (by decide) ?_)
        obtain ⟨c, cs, hc, hopen⟩ := head_address ((parseAddress_v6 (Ip.parseCore_colon hparse)).trans h)
        rw [String.toList_append, hc]
        simpa using hopen
      · rw [hlow, hlow]
        exact unbracket _
    have hall : ∀ c ∈ (toLowerAscii core).toList, decide (c ≠ '%') = true := by
      intro c hc
      rw [decide_eq_true_eq]
      rintro rfl
      exact hcore ((mem_lower (by decide)).1 hc)
    have hcut : (toLowerAscii (core ++ zone)).toList.takeWhile (· ≠ '%') = (toLowerAscii core).toList := by
      rw [hlow, String.toList_append, List.takeWhile_append_of_pos hall]
      rcases hzone with rfl | hzone
      · exact List.append_nil _
      · obtain ⟨rest, hrest⟩ := List.isPrefixOf_iff_prefix.1 hzone
        rw [Ip.toList_lower zone, ← hrest]
        simp
    have hlower := (Ip.parseCore_lower core).trans hparse
    have hcolon : includes (toLowerAscii core) ":" = true := (includes_char (c := ':') rfl).2 (Ip.parseCore_colon hlower)
    rw [hbare]
    generalize toLowerAscii (core ++ zone) = whole at hcut ⊢
    have hfinal : isMetadataIpv6 (toLowerAscii core) = true ↔ MetadataAddress a := isMetadataIpv6_iff hlower hmapped
    cases hindex : indexOf whole "%" with
    | none =>
      rw [takeWhile_of_indexOf_none (c := '%') rfl hindex, String.toList_inj] at hcut
      simp only [hcut, hcolon, if_true]
      exact hfinal
    | some i =>
      rw [takeWhile_of_indexOf_some (c := '%') rfl hindex] at hcut
      simp only [hcut, String.ofList_toList, hcolon, if_true]
      exact hfinal

/-- Link-local with a zone, and the metadata address of most providers in its mapped form. -/
theorem isMetadataIp_texts :
    isMetadataIp "[FE80::1%eth0]" = true ∧ isMetadataIp "::ffff:a9fe:a9fe" = true ∧ isMetadataIp "::1" = false := by
  have hlocal : AddressText "[FE80::1%eth0]" (0xFE80 * 2 ^ 112 + 1) := by
    refine @AddressText.v6 "FE80::1" "%eth0" _ _ (by decide) (by decide) (.inr (by decide)) ?_ (.inr (by decide))
    intro h
    exact absurd h (by unfold Ip.IsMapped; decide)
  have hmapped : AddressText "::ffff:a9fe:a9fe" 0xFFFFA9FEA9FE := by
    refine @AddressText.v6 "::ffff:a9fe:a9fe" "" _ _ (by decide) (by decide) (.inl rfl) ?_ (.inl (by decide))
    intro _
    decide
  have hloopback : AddressText "::1" 1 := by
    refine @AddressText.v6 "::1" "" _ _ (by decide) (by decide) (.inl rfl) ?_ (.inl (by decide))
    intro h
    exact absurd h (by unfold Ip.IsMapped; decide)
  refine ⟨(isMetadataIp_iff _ _ hlocal).2 ?_, (isMetadataIp_iff _ _ hmapped).2 ?_, ?_⟩
  · rw [metadataAddress_iff]
    decide
  · rw [metadataAddress_iff]
    decide
  · rw [Bool.eq_false_iff, Ne, isMetadataIp_iff _ _ hloopback, metadataAddress_iff]
    decide

end ClusterGate
