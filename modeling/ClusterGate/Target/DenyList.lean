/-
  ClusterGate.Target.DenyList — the deny list the environment configures
  (`buildDenyList`, `DenyList` of `lib/targetDenylist.ts`).

  An entry is a host name, a `*.` suffix, an address or a block. The intent is that the
  list denies an address exactly if a block it is configured with holds it, however the
  address is written.
  - `denyList_means_iff`: it does exactly when every address of an entry whose length
    stands behind a zone or behind `::ffff:` and an IPv4 address is in a block as read,
    and no suffix ends an address outside the blocks.
  - `a_mapped_block_is_a_host_name`: `::ffff:10.0.0.0/104` denies nothing, as its length is
    no length of the IPv4 address that is left of it.
-/

import ClusterGate.Target.Address

namespace ClusterGate

open Lib Lib.Text

/-! ## The list -/

structure DenyListOptions where
  defaults : Option Bool := none
  extra : Option String := none
  clusterDomain : Option String := none
  kubernetesServiceHost : Option String := none
  databaseUrl : Option String := none
  deriving DecidableEq

def REASON_LOOPBACK : String := "loopback / unspecified address (ClusterGate itself)"
def REASON_KUBE_API : String := "Kubernetes API server"
def REASON_DATABASE : String := "ClusterGate's own database"
def REASON_EXTRA : String := "denied by TARGET_DENY_EXTRA"

/-- `DenyList.addHost`. What is no block is a suffix or a host name. -/
def addHost (W : World) (rules : List DenyRule) (value reason : String) : List DenyRule :=
  let h := normalizeHost value
  if h = "" then rules
  else match parseCidr W h with
    | some (addr, bits) => rules ++ [.cidr addr bits reason]
    | none => if startsWith h "*." then rules ++ [.suffix (slice h 1) reason] else rules ++ [.host h reason]

/-- An option that is set and not empty. -/
def nonEmpty (value : Option String) : Option String := value.filter (· ≠ "")

def hostOfUrl (W : World) (url : Option String) : Option String :=
  ((nonEmpty url).bind W.url).bind fun u => nonEmpty (some (normalizeHost (u.host.getD "")))

def extraEntries (opts : DenyListOptions) : List String :=
  (split (opts.extra.getD "") ',').filter fun entry => trim entry ≠ ""

/-- What `buildDenyList` adds, in order, with the reasons. -/
def denyEntries (W : World) (opts : DenyListOptions) : List (String × String) :=
  let clusterDomain := normalizeHost ((nonEmpty opts.clusterDomain).getD "cluster.local")
  (if opts.defaults ≠ some false then
    (["localhost", "*.localhost", "127.0.0.0/8", "0.0.0.0/8", "::1", "::"].map fun h => (h, REASON_LOOPBACK)) ++
      (["kubernetes", "kubernetes.default", "kubernetes.default.svc", "kubernetes.default.svc." ++ clusterDomain].map
        fun h => (h, REASON_KUBE_API)) ++
      ((nonEmpty opts.kubernetesServiceHost).toList.map fun h => (h, REASON_KUBE_API)) ++
      ((hostOfUrl W opts.databaseUrl).toList.map fun h => (h, REASON_DATABASE))
  else []) ++
    (extraEntries opts).map fun entry => (entry, REASON_EXTRA)

def buildDenyList (W : World) (opts : DenyListOptions) : List DenyRule :=
  (denyEntries W opts).foldl (fun rules entry => addHost W rules entry.1 entry.2) []

/-- The world that runs with the list. -/
def World.denying (W : World) (opts : DenyListOptions) : World := { W with denyList := buildDenyList W opts }

/-! ## What the entries mean -/

/-- The suffix of a `*.` entry. -/
def suffixOf (W : World) (entry : String) : Option String :=
  let h := normalizeHost entry
  if parseCidr W h = none ∧ startsWith h "*." then some (slice h 1) else none

/-- Some entry is a block, as `block` has it, that holds the address. -/
def InBlock (block : String → Option Ip.Block) (entries : List (String × String)) (a : Nat) : Prop :=
  ∃ entry ∈ entries, ∃ b, block entry.1 = some b ∧ b.holds a = true

/-- An address is denied, in every text, exactly if a configured block holds it. -/
def DenyListMeans (W : World) (opts : DenyListOptions) : Prop :=
  ∀ text a, Ip.parseAddress text = some a →
    ((matchIp (W.denying opts) text ≠ none ↔ InBlock (meantBlock W) (denyEntries W opts) a) ∧
      (matchHost (W.denying opts) text ≠ none ↔ InBlock (meantBlock W) (denyEntries W opts) a))

/-! ## The rules -/

section Net

variable {W : World} {opts : DenyListOptions}

theorem addHost_append (rules : List DenyRule) (value reason : String) :
    addHost W rules value reason = rules ++ addHost W [] value reason := by
  unfold addHost
  dsimp only
  split
  · simp
  · split
    · simp
    · split <;> simp

theorem mem_buildDenyList {rule : DenyRule} :
    rule ∈ buildDenyList W opts ↔ ∃ entry ∈ denyEntries W opts, rule ∈ addHost W [] entry.1 entry.2 := by
  have hfold : ∀ (entries : List (String × String)) (rules : List DenyRule),
      rule ∈ entries.foldl (fun rules entry => addHost W rules entry.1 entry.2) rules ↔
        rule ∈ rules ∨ ∃ entry ∈ entries, rule ∈ addHost W [] entry.1 entry.2 := by
    intro entries
    induction entries with
    | nil => simp
    | cons entry entries ih =>
      intro rules
      rw [List.foldl_cons, ih, addHost_append, List.mem_append, or_assoc]
      simp only [List.mem_cons, exists_eq_or_imp]
  rw [buildDenyList, hfold]
  simp

theorem parseCidr_empty (hW : NetModule W) : parseCidr W "" = none := by
  rw [Option.eq_none_iff_forall_ne_some]
  intro c hc
  have hip := parseCidr_isIP hc
  have haddr : c.1 = "" := by
    unfold parseCidr at hc
    have hsplit : split "" '/' = [""] := by decide
    have hunmap : unmapIp "" = "" := by decide
    rw [hsplit] at hc
    dsimp only at hc
    rw [hunmap] at hc
    split at hc
    · cases hc
    · rw [← Option.some.inj hc]
  rw [haddr, hW.isIP] at hip
  exact hip (by decide)

theorem cidr_mem_addHost (hW : NetModule W) {value reason addr reason' : String} {bits : Nat} :
    .cidr addr bits reason' ∈ addHost W [] value reason ↔
      parseCidr W (normalizeHost value) = some (addr, bits) ∧ reason' = reason := by
  unfold addHost
  dsimp only
  generalize normalizeHost value = h
  split
  · rename_i hempty
    rw [hempty, parseCidr_empty hW]
    simp
  · cases parseCidr W h with
    | none =>
      dsimp only
      split <;> simp
    | some c =>
      obtain ⟨x, n⟩ := c
      simp only [List.nil_append, List.mem_singleton, DenyRule.cidr.injEq, Option.some.injEq, Prod.mk.injEq]
      tauto

theorem suffix_mem_addHost {value reason suffix reason' : String} :
    .suffix suffix reason' ∈ addHost W [] value reason ↔ suffixOf W value = some suffix ∧ reason' = reason := by
  unfold addHost suffixOf
  dsimp only
  generalize normalizeHost value = h
  split
  · rename_i hempty
    rw [hempty, if_neg (fun hstar => absurd hstar.2 (by decide))]
    simp
  · cases parseCidr W h with
    | some c => simp
    | none =>
      dsimp only
      by_cases hstar : startsWith h "*." = true
      · rw [if_pos hstar, if_pos ⟨rfl, hstar⟩]
        simp [eq_comm]
      · rw [if_neg hstar, if_neg (fun hboth => hstar hboth.2)]
        simp

theorem host_mem_addHost {value reason host reason' : String} (h : .host host reason' ∈ addHost W [] value reason) :
    parseCidr W host = none := by
  unfold addHost at h
  dsimp only at h
  generalize normalizeHost value = entry at h
  split at h
  · cases h
  · cases hc : parseCidr W entry with
    | some c =>
      rw [hc] at h
      cases List.mem_singleton.1 h
    | none =>
      rw [hc] at h
      dsimp only at h
      split at h
      · cases List.mem_singleton.1 h
      · obtain ⟨rfl, -⟩ := DenyRule.host.inj (List.mem_singleton.1 h)
        exact hc

/-! ## What is denied -/

/-- Exactly what is in a block an entry is taken for. -/
theorem matchIp_iff (hW : NetModule W) {text : String} {a : Nat} (ha : addressOf text = some a) :
    matchIp (W.denying opts) text ≠ none ↔ InBlock (takenBlock W) (denyEntries W opts) a := by
  have hrule : ∀ {addr : String} {bits : Nat} {b : Ip.Block}, subnet addr bits = some b →
      (ipInList W (addr, bits) text = true ↔ b.holds a = true) := by
    intro addr bits b hb
    rw [ipInList_iff hW hb, ha]
    simp
  rw [Option.ne_none_iff_isSome, matchIp, List.findSome?_isSome_iff]
  constructor
  · intro h
    obtain ⟨rule, hmem, hsome⟩ := h
    obtain ⟨entry, hentry, hrules⟩ := mem_buildDenyList.1 hmem
    cases rule with
    | host value reason => cases hsome
    | suffix value reason => cases hsome
    | cidr addr bits reason =>
      obtain ⟨hparse, -⟩ := (cidr_mem_addHost hW).1 hrules
      obtain ⟨b, hb⟩ := parseCidr_subnet hW hparse
      dsimp only at hsome
      split at hsome
      · rename_i hin
        refine ⟨entry, hentry, b, ?_, (hrule hb).1 hin⟩
        rw [takenBlock, hparse]
        exact hb
      · cases hsome
  · intro h
    obtain ⟨entry, hentry, b, htaken, hholds⟩ := h
    obtain ⟨⟨addr, bits⟩, hparse, hb⟩ := Option.bind_eq_some_iff.1 htaken
    refine ⟨.cidr addr bits entry.2, mem_buildDenyList.2 ⟨entry, hentry, (cidr_mem_addHost hW).2 ⟨hparse, rfl⟩⟩, ?_⟩
    have hin : ipInList (W.denying opts) (addr, bits) text = true := (hrule hb).2 hholds
    dsimp only
    rw [if_pos hin]
    rfl

/-- That, or what a suffix ends. -/
theorem matchHost_iff (hW : NetModule W) {text : String} {a : Nat} (ha : Ip.parseAddress text = some a) :
    matchHost (W.denying opts) text ≠ none ↔ InBlock (takenBlock W) (denyEntries W opts) a ∨
      ∃ entry ∈ denyEntries W opts, ∃ suffix, suffixOf W entry.1 = some suffix ∧
        endsWith (normalizeHost text) suffix = true := by
  have hcore : Ip.parseAddress (normalizeHost text) = some a := addressOf_address ha
  have hslash : '/' ∉ (normalizeHost text).toList := by
    rw [normalizeHost_address ha, mem_lower (by decide)]
    exact address_noSlash ha
  have haddr : addressOf (normalizeHost text) = some a := addressOf_address hcore
  have hip : W.isIP (unmapIp (normalizeHost text)) ≠ 0 := (isIP_unmapped hW _).2 (by rw [haddr]; rfl)
  have hmatch : matchIp (W.denying opts) (normalizeHost text) ≠ none ↔ InBlock (takenBlock W) (denyEntries W opts) a :=
    matchIp_iff hW haddr
  unfold matchHost
  dsimp only
  rw [if_neg (show (W.denying opts).isIP (unmapIp (normalizeHost text)) ≠ 0 from hip), ne_eq, Option.or_eq_none_iff,
    not_and_or, ← ne_eq, ← ne_eq, hmatch, or_comm]
  refine or_congr_right ?_
  rw [Option.ne_none_iff_isSome, List.findSome?_isSome_iff]
  constructor
  · intro h
    obtain ⟨rule, hmem, hsome⟩ := h
    obtain ⟨entry, hentry, hrules⟩ := mem_buildDenyList.1 hmem
    cases rule with
    | host value reason =>
      dsimp only at hsome
      split at hsome
      · rename_i hvalue
        obtain ⟨c, hc, -⟩ := parseCidr_address hW hslash haddr
        rw [← hvalue, host_mem_addHost hrules] at hc
        cases hc
      · cases hsome
    | suffix value reason =>
      dsimp only at hsome
      split at hsome
      · rename_i hends
        exact ⟨entry, hentry, value, (suffix_mem_addHost.1 hrules).1, hends⟩
      · cases hsome
    | cidr addr bits reason => cases hsome
  · intro h
    obtain ⟨entry, hentry, suffix, hsuffix, hends⟩ := h
    refine ⟨.suffix suffix entry.2, mem_buildDenyList.2 ⟨entry, hentry, suffix_mem_addHost.2 ⟨hsuffix, rfl⟩⟩, ?_⟩
    dsimp only
    rw [if_pos hends]
    rfl

/-! ## What the list means -/

/-- What an entry is read as holds nothing else. -/
theorem readBlock_meant {entries : List (String × String)} {a : Nat} (h : InBlock (readBlock W) entries a) :
    InBlock (meantBlock W) entries a := by
  obtain ⟨entry, hentry, r, hr, hholds⟩ := h
  cases hb : blockOf (trim entry.1) with
  | none =>
    rw [readBlock_none hb] at hr
    exact ⟨entry, hentry, r, (meantBlock_none hb).trans hr, hholds⟩
  | some b =>
    rw [readBlock_some hb] at hr
    exact ⟨entry, hentry, b, meantBlock_some hb, readAs_narrow hb hr hholds⟩

/-- What no misread entry means is read. -/
theorem meantBlock_read {entries : List (String × String)} {a : Nat} (h : InBlock (meantBlock W) entries a)
    (hmis : ∀ entry ∈ entries, misread (trim entry.1) = true → ∀ b, blockOf (trim entry.1) = some b →
      b.holds a = true → InBlock (readBlock W) entries a) : InBlock (readBlock W) entries a := by
  obtain ⟨entry, hentry, b, hb, hholds⟩ := h
  cases hblock : blockOf (trim entry.1) with
  | none =>
    rw [meantBlock_none hblock] at hb
    exact ⟨entry, hentry, b, (readBlock_none hblock).trans hb, hholds⟩
  | some b' =>
    rw [meantBlock_some hblock] at hb
    obtain rfl := Option.some.inj hb
    cases hm : misread (trim entry.1) with
    | true => exact hmis entry hentry hm b' hblock hholds
    | false => exact ⟨entry, hentry, b', (readBlock_some hblock).trans (readAs_eq hm hblock), hholds⟩

end Net

/-- For every entry, and every text of every address. -/
theorem denyList_means_iff (W : World) (hW : NetModule W) (opts : DenyListOptions) :
    DenyListMeans W opts ↔
      (∀ entry ∈ denyEntries W opts, misread (trim entry.1) = true → ∀ b, blockOf (trim entry.1) = some b →
        ∀ text a, Ip.parseAddress text = some a → b.holds a = true → InBlock (readBlock W) (denyEntries W opts) a) ∧
      ∀ entry ∈ denyEntries W opts, ∀ suffix, suffixOf W entry.1 = some suffix →
        ∀ text a, Ip.parseAddress text = some a → endsWith (normalizeHost text) suffix = true →
          InBlock (meantBlock W) (denyEntries W opts) a := by
  have htaken : takenBlock W = readBlock W := funext (takenBlock_eq hW)
  constructor
  · intro h
    constructor
    · intro entry hentry _ b hb text a ha hholds
      have hmeant : InBlock (meantBlock W) (denyEntries W opts) a :=
        ⟨entry, hentry, b, meantBlock_some hb, hholds⟩
      have hmatch := (h text a ha).1.2 hmeant
      rwa [matchIp_iff hW (addressOf_address ha), htaken] at hmatch
    · intro entry hentry suffix hsuffix text a ha hends
      exact (h text a ha).2.1 ((matchHost_iff hW ha).2 (.inr ⟨entry, hentry, suffix, hsuffix, hends⟩))
  · intro h text a ha
    obtain ⟨hmis, hsuffix⟩ := h
    have hread : InBlock (readBlock W) (denyEntries W opts) a ↔ InBlock (meantBlock W) (denyEntries W opts) a := by
      constructor
      · exact readBlock_meant
      · intro hmeant
        exact meantBlock_read hmeant fun entry hentry hm b hb hholds => hmis entry hentry hm b hb text a ha hholds
    rw [matchIp_iff hW (addressOf_address ha), matchHost_iff hW ha, htaken, hread]
    refine ⟨Iff.rfl, ?_, Or.inl⟩
    intro hdenied
    rcases hdenied with hblock | ⟨entry, hentry, suffix, hs, hends⟩
    · exact hblock
    · exact hsuffix entry hentry suffix hs text a ha hends

/-- Behind the block of the IPv4 address, the mapped one does no harm. -/
theorem a_block_and_its_mapped_form :
    DenyListMeans World.plain.net { defaults := some false, extra := some "10.0.0.0/8, ::ffff:10.0.0.0/104" } := by
  have hentries : denyEntries World.plain.net
      { defaults := some false, extra := some "10.0.0.0/8, ::ffff:10.0.0.0/104" } =
      [("10.0.0.0/8", REASON_EXTRA), (" ::ffff:10.0.0.0/104", REASON_EXTRA)] := by decide +kernel
  have hread : readBlock World.plain.net "10.0.0.0/8" = some ⟨0xFFFF0A000000, 104⟩ := by decide +kernel
  have hmapped : blockOf (trim " ::ffff:10.0.0.0/104") = some ⟨0xFFFF0A000000, 104⟩ := by decide +kernel
  have hplain : misread (trim "10.0.0.0/8") = false := by decide +kernel
  have hsuffix : suffixOf World.plain.net "10.0.0.0/8" = none ∧ suffixOf World.plain.net " ::ffff:10.0.0.0/104" = none := by
    decide +kernel
  refine (denyList_means_iff World.plain.net (netModule_net _) _).2 ⟨?_, ?_⟩
  · rw [hentries]
    intro entry hentry hm b hb text a _ hholds
    simp only [List.mem_cons, List.not_mem_nil, or_false] at hentry
    rcases hentry with rfl | rfl
    · rw [hplain] at hm
      cases hm
    · rw [hmapped] at hb
      obtain rfl := Option.some.inj hb
      exact ⟨_, List.mem_cons_self, _, hread, hholds⟩
  · rw [hentries]
    intro entry hentry suffix hs
    simp only [List.mem_cons, List.not_mem_nil, or_false] at hentry
    rcases hentry with rfl | rfl
    · rw [hsuffix.1] at hs
      cases hs
    · rw [hsuffix.2] at hs
      cases hs

theorem a_mapped_block_is_a_host_name : ¬∀ (W : World) (opts : DenyListOptions), NetModule W → DenyListMeans W opts := by
  intro h
  have hmeans := (h World.plain.net { defaults := some false, extra := some "::ffff:10.0.0.0/104" } (netModule_net _)
    "10.0.0.1" 0xFFFF0A000001 (by decide +kernel)).1
  have hentries : denyEntries World.plain.net { defaults := some false, extra := some "::ffff:10.0.0.0/104" } =
      [("::ffff:10.0.0.0/104", REASON_EXTRA)] := by decide +kernel
  have hrules : buildDenyList World.plain.net { defaults := some false, extra := some "::ffff:10.0.0.0/104" } =
      [.host "::ffff:10.0.0.0/104" REASON_EXTRA] := by decide +kernel
  have hblock : blockOf (trim "::ffff:10.0.0.0/104") = some ⟨0xFFFF0A000000, 104⟩ := by decide +kernel
  rw [hentries] at hmeans
  refine hmeans.2 ⟨_, List.mem_cons_self, _, meantBlock_some hblock, by decide⟩ ?_
  unfold matchIp World.denying
  rw [hrules]
  rfl

end ClusterGate
