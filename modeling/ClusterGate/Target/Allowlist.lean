/-
  ClusterGate.Target.Allowlist — whom an organization's allowlist admits
  (`kubeNamespaceOf`, `hostEntryMatches` and `orgPolicyAllows` of `lib/targetPolicy.ts`).

  A host is admitted as a service name in an allowed namespace, or by a host entry: an
  equal name, a `*.` suffix, or a block that holds the address or every address the name
  resolves to.
  - `orgPolicyAllows_iff`: exactly these are admitted, and more entries admit more hosts.
  - `forms_of_a_service_name`: the namespace of a host that ends in `.svc.` and the
    cluster domain is read before that ending only; and it is read from the host without
    all the root dots `normalizeHost` takes off one by one.
-/

import ClusterGate.Target.Address

namespace ClusterGate

open Lib Lib.Text

/-! ## Service names -/

/-- At least one label and a namespace, and none of them empty. -/
def Labelled (base ns : String) : Prop :=
  ∃ labels : List String, labels ≠ [] ∧ (∀ l ∈ labels ++ [ns], l ≠ "" ∧ '.' ∉ l.toList) ∧ base = join (labels ++ [ns]) '.'

/-- `<labels>.<ns>.svc.<domain>`, or `<labels>.<ns>.svc` where the host is none of the
    first form. -/
def ServiceName (host ns domain : String) : Prop :=
  ∃ base, Labelled base ns ∧
    (host = base ++ (".svc." ++ domain) ∨ endsWith host (".svc." ++ domain) = false ∧ host = base ++ ".svc")

theorem labelled_iff {base ns : String} :
    (if base = "" ∨ (split base '.').length < 2 ∨ "" ∈ split base '.' then none else (split base '.').getLast?) = some ns ↔
      Labelled base ns := by
  constructor
  · intro h
    split at h
    · cases h
    · rename_i hno
      rw [not_or, not_or] at hno
      obtain ⟨-, hlen, hempty⟩ := hno
      obtain ⟨labels, hsplit⟩ := List.getLast?_eq_some_iff.1 h
      refine ⟨labels, ?_, ?_, ?_⟩
      · intro hnil
        rw [hsplit, hnil] at hlen
        simp at hlen
      · intro l hl
        rw [← hsplit] at hl
        refine ⟨?_, sep_not_mem_split l hl⟩
        intro hl'
        exact hempty (hl' ▸ hl)
      · rw [← hsplit, join_split]
  · intro h
    obtain ⟨labels, hne, hlabels, rfl⟩ := h
    have hsplit : split (join (labels ++ [ns]) '.') '.' = labels ++ [ns] :=
      split_of_join (by simp) fun l hl => (hlabels l hl).2
    have hlen : 1 ≤ labels.length := List.length_pos_iff.2 hne
    rw [hsplit, if_neg]
    · simp
    · rw [not_or, not_or]
      refine ⟨?_, ?_, ?_⟩
      · intro hempty
        rw [hempty] at hsplit
        have hone : (labels ++ [ns]).length = 1 := by
          rw [← hsplit]
          rfl
        rw [List.length_append, List.length_singleton] at hone
        omega
      · rw [List.length_append, List.length_singleton]
        omega
      · intro hmem
        exact (hlabels "" hmem).1 rfl

theorem kubeNamespaceOf_iff {host clusterDomain ns : String} :
    kubeNamespaceOf host clusterDomain = some ns ↔ ServiceName (normalizeHost host) ns (normalizeHost clusterDomain) := by
  unfold kubeNamespaceOf ServiceName
  dsimp only
  generalize normalizeHost host = h
  generalize normalizeHost clusterDomain = domain
  have hcancel : ∀ {base p : String}, endsWith h p = true → (h = base ++ p ↔ base = sliceEnd h p.toList.length) := by
    intro base p hends
    constructor
    · intro heq
      rw [heq, sliceEnd_append]
    · intro heq
      rw [heq, endsWith_eq hends]
  rw [labelled_iff]
  by_cases hfqdn : endsWith h (".svc." ++ domain) = true
  · rw [if_pos hfqdn]
    simp only [hfqdn, Bool.true_eq_false, false_and, or_false, hcancel hfqdn, exists_eq_right]
  · rw [if_neg hfqdn]
    have hno : ∀ base, h ≠ base ++ (".svc." ++ domain) := by
      intro base heq
      exact hfqdn (heq ▸ endsWith_append _ _)
    simp only [hno, Bool.eq_false_iff.2 hfqdn, true_and, false_or]
    by_cases hsvc : endsWith h ".svc" = true
    · rw [if_pos hsvc]
      simp only [hcancel hsvc, exists_eq_right]
      rfl
    · rw [if_neg hsvc]
      constructor
      · intro hbase
        obtain ⟨labels, hne, hlabels, hjoin⟩ := hbase
        have hsplit : split (join (labels ++ [ns]) '.') '.' = labels ++ [ns] :=
          split_of_join (by simp) fun l hl => (hlabels l hl).2
        rw [← hjoin] at hsplit
        have hone : (labels ++ [ns]).length = 1 := by
          rw [← hsplit]
          rfl
        rw [List.length_append, List.length_singleton] at hone
        exact absurd (List.length_eq_zero_iff.1 (by omega)) hne
      · intro hbase
        obtain ⟨base, -, heq⟩ := hbase
        exact absurd (heq ▸ endsWith_append base ".svc") hsvc

/-! ## Host entries -/

/-- How an entry admits a host. -/
inductive Admits (W : World) (entry host : String) (addresses : List String) : Prop
  | name : meantBlock W entry = none → host = normalizeHost entry → Admits W entry host addresses
  | suffix : meantBlock W entry = none → startsWith (normalizeHost entry) "*." = true →
      endsWith host (slice (normalizeHost entry) 1) = true → Admits W entry host addresses
  | address (b : Ip.Block) (a : Nat) : meantBlock W entry = some b → addressOf host = some a → b.holds a = true →
      Admits W entry host addresses
  | resolved (b : Ip.Block) : meantBlock W entry = some b → addressOf host = none → addresses ≠ [] →
      (∀ addr ∈ addresses, ∃ a, addressOf addr = some a ∧ b.holds a = true) → Admits W entry host addresses

section Net

variable {W : World}

theorem endsWith_slice (s : String) (n : Nat) : endsWith s (slice s n) = true := by
  rw [endsWith, slice, String.toList_ofList]
  exact List.isSuffixOf_iff_suffix.2 (List.drop_suffix n _)

theorem hostEntryMatches_iff (hW : NetModule W) {entry : String} (hmis : misread (trim entry) = false) (host : String)
    (addresses : List String) : hostEntryMatches W entry host addresses = true ↔ Admits W entry host addresses := by
  have hmeant : meantBlock W entry = takenBlock W entry := by
    cases hb : blockOf (trim entry) with
    | none => rw [meantBlock_none hb]
    | some b => rw [meantBlock_some hb, takenBlock_eq hW, readBlock_some hb, readAs_eq hmis hb]
  unfold hostEntryMatches
  dsimp only
  cases hparse : parseCidr W (normalizeHost entry) with
  | none =>
    have hnone : meantBlock W entry = none := by rw [hmeant, takenBlock, hparse, Option.bind_none]
    dsimp only
    constructor
    · intro h
      split at h
      · rename_i hstar
        exact .suffix hnone hstar h
      · exact .name hnone (of_decide_eq_true h)
    · intro h
      cases h with
      | name _ hhost =>
        split
        · rw [hhost]
          exact endsWith_slice _ _
        · exact decide_eq_true hhost
      | suffix _ hstar hends => rwa [if_pos hstar]
      | address b a hb => exact absurd (hnone.symm.trans hb) (by simp)
      | resolved b hb => exact absurd (hnone.symm.trans hb) (by simp)
  | some c =>
    obtain ⟨addr, bits⟩ := c
    obtain ⟨b, hb⟩ := parseCidr_subnet hW hparse
    have hsome : meantBlock W entry = some b := by rw [hmeant, takenBlock, hparse, Option.bind_some, hb]
    dsimp only
    cases ha : addressOf host with
    | some a =>
      rw [if_pos ((isIP_unmapped hW host).2 (by rw [ha]; rfl)), ipInList_iff hW hb, ha]
      constructor
      · intro h
        obtain ⟨a', ha', hholds⟩ := h
        obtain rfl := Option.some.inj ha'
        exact .address b a hsome ha hholds
      · intro h
        cases h with
        | name hnone => exact absurd (hnone.symm.trans hsome) (by simp)
        | suffix hnone => exact absurd (hnone.symm.trans hsome) (by simp)
        | address b' a' hb' ha' hholds =>
          obtain rfl := Option.some.inj (hsome.symm.trans hb')
          exact ⟨a', ha ▸ ha', hholds⟩
        | resolved b' _ hnone => exact absurd (ha.symm.trans hnone) (by simp)
    | none =>
      have hname : W.isIP (unmapIp host) = 0 := by
        by_contra hip
        have hisSome := (isIP_unmapped hW host).1 hip
        rw [ha] at hisSome
        cases hisSome
      rw [if_neg (not_not.2 hname), Bool.and_eq_true, List.all_eq_true, decide_eq_true_eq]
      constructor
      · intro h
        exact .resolved b hsome ha h.1 fun x hx => (ipInList_iff hW hb x).1 (h.2 x hx)
      · intro h
        cases h with
        | name hnone => exact absurd (hnone.symm.trans hsome) (by simp)
        | suffix hnone => exact absurd (hnone.symm.trans hsome) (by simp)
        | address b' a' _ ha' => exact absurd (ha.symm.trans ha') (by simp)
        | resolved b' hb' _ hne hall =>
          obtain rfl := Option.some.inj (hsome.symm.trans hb')
          exact ⟨hne, fun x hx => (ipInList_iff hW hb x).2 (hall x hx)⟩

end Net

/-! ## The allowlist -/

theorem orgPolicyAllows_or {W : World} {policy : OrgTargetPolicy} (h : policy.restrictTargets = true) (host : String)
    (addresses : List String) :
    orgPolicyAllows W policy host addresses = true ↔
      (∃ ns ∈ policy.allowedTargetNamespaces, kubeNamespaceOf (normalizeHost host) W.clusterDomain = some ns) ∨
        ∃ entry ∈ policy.allowedTargetHosts, hostEntryMatches W entry (normalizeHost host) addresses = true := by
  unfold orgPolicyAllows
  dsimp only
  rw [h, Bool.not_true, Bool.false_or, Bool.or_eq_true, List.any_eq_true]
  refine or_congr_left ?_
  cases kubeNamespaceOf (normalizeHost host) W.clusterDomain with
  | none => simp
  | some ns => simp

/-- More entries admit more hosts. -/
theorem orgPolicyAllows_mono {W : World} {policy policy' : OrgTargetPolicy}
    (hr : policy'.restrictTargets = policy.restrictTargets)
    (hns : policy.allowedTargetNamespaces ⊆ policy'.allowedTargetNamespaces)
    (hhosts : policy.allowedTargetHosts ⊆ policy'.allowedTargetHosts) {host : String} {addresses : List String}
    (h : orgPolicyAllows W policy host addresses = true) : orgPolicyAllows W policy' host addresses = true := by
  cases hrestrict : policy.restrictTargets with
  | false =>
    rw [hrestrict] at hr
    unfold orgPolicyAllows
    rw [hr]
    rfl
  | true =>
    rw [orgPolicyAllows_or hrestrict] at h
    rw [hrestrict] at hr
    rw [orgPolicyAllows_or hr]
    rcases h with ⟨ns, hmem, hkube⟩ | ⟨entry, hmem, hmatch⟩
    · exact .inl ⟨ns, hns hmem, hkube⟩
    · exact .inr ⟨entry, hhosts hmem, hmatch⟩

/-- Whatever the host, the addresses it resolves to and the cluster domain. -/
theorem orgPolicyAllows_iff (W : World) (hW : NetModule W) :
    (∀ (policy : OrgTargetPolicy) (host : String) (addresses : List String), policy.restrictTargets = true →
      (∀ entry ∈ policy.allowedTargetHosts, misread (trim entry) = false) →
      (orgPolicyAllows W policy host addresses = true ↔
        (∃ ns ∈ policy.allowedTargetNamespaces,
          ServiceName (normalizeHost (normalizeHost host)) ns (normalizeHost W.clusterDomain)) ∨
        ∃ entry ∈ policy.allowedTargetHosts, Admits W entry (normalizeHost host) addresses)) ∧
    ∀ (policy policy' : OrgTargetPolicy) (host : String) (addresses : List String),
      policy'.restrictTargets = policy.restrictTargets →
      policy.allowedTargetNamespaces ⊆ policy'.allowedTargetNamespaces →
      policy.allowedTargetHosts ⊆ policy'.allowedTargetHosts →
      orgPolicyAllows W policy host addresses = true → orgPolicyAllows W policy' host addresses = true := by
  constructor
  · intro policy host addresses hr hmis
    rw [orgPolicyAllows_or hr]
    refine or_congr ?_ ?_
    · simp only [kubeNamespaceOf_iff]
    · constructor
      · intro h
        obtain ⟨entry, hentry, hmatch⟩ := h
        exact ⟨entry, hentry, (hostEntryMatches_iff hW (hmis entry hentry) _ _).1 hmatch⟩
      · intro h
        obtain ⟨entry, hentry, hadmits⟩ := h
        exact ⟨entry, hentry, (hostEntryMatches_iff hW (hmis entry hentry) _ _).2 hadmits⟩
  · intro policy policy' host addresses hr hns hhosts h
    exact orgPolicyAllows_mono hr hns hhosts h

def shopPolicy : OrgTargetPolicy := ⟨"Shop", true, ["shop"], ["*.example.com", "10.0.0.0/8"]⟩

/-- A service of the namespace, and a name that resolves into the block. -/
theorem shop_admits : orgPolicyAllows World.plain.net shopPolicy "cart.shop.svc" [] = true ∧
    orgPolicyAllows World.plain.net shopPolicy "db.internal" ["10.1.2.3", "::ffff:10.1.2.4"] = true ∧
    orgPolicyAllows World.plain.net { shopPolicy with allowedTargetNamespaces := ["lab", "shop"] } "cart.shop.svc" [] = true := by
  obtain ⟨hiff, hmono⟩ := orgPolicyAllows_iff World.plain.net (netModule_net _)
  have hmis : ∀ entry ∈ shopPolicy.allowedTargetHosts, misread (trim entry) = false := by decide +kernel
  have hblock : meantBlock World.plain.net "10.0.0.0/8" = some ⟨0xFFFF0A000000, 104⟩ := by decide +kernel
  have hhost : normalizeHost "db.internal" = "db.internal" ∧ addressOf "db.internal" = none := by decide +kernel
  have haddrs : addressOf "10.1.2.3" = some 0xFFFF0A010203 ∧ addressOf "::ffff:10.1.2.4" = some 0xFFFF0A010204 := by
    decide +kernel
  have hservice : orgPolicyAllows World.plain.net shopPolicy "cart.shop.svc" [] = true := by
    refine (hiff shopPolicy "cart.shop.svc" [] rfl hmis).2 (.inl ⟨"shop", List.mem_cons_self, ?_⟩)
    refine ⟨"cart.shop", ⟨["cart"], by decide, by decide, by decide⟩, .inr ⟨by decide +kernel, by decide +kernel⟩⟩
  refine ⟨hservice, ?_, ?_⟩
  · refine (hiff shopPolicy "db.internal" _ rfl hmis).2 (.inr ⟨"10.0.0.0/8", by decide, ?_⟩)
    rw [hhost.1]
    refine .resolved _ hblock hhost.2 (by decide) ?_
    intro addr haddr
    simp only [List.mem_cons, List.not_mem_nil, or_false] at haddr
    rcases haddr with rfl | rfl
    · exact ⟨_, haddrs.1, by decide⟩
    · exact ⟨_, haddrs.2, by decide⟩
  · exact hmono shopPolicy _ _ _ rfl (by decide) (List.Subset.refl _) hservice

/-! ## As it is meant to be read -/

/-- Either form, whatever the host ends in. -/
def EitherServiceName (host ns domain : String) : Prop :=
  ∃ base, Labelled base ns ∧ (host = base ++ (".svc." ++ domain) ∨ host = base ++ ".svc")

def AllowlistMeans (W : World) (policy : OrgTargetPolicy) (host : String) (addresses : List String) : Prop :=
  orgPolicyAllows W policy host addresses = true ↔
    (∃ ns ∈ policy.allowedTargetNamespaces,
      EitherServiceName (normalizeHost host) ns (normalizeHost W.clusterDomain)) ∨
    ∃ entry ∈ policy.allowedTargetHosts, Admits W entry (normalizeHost host) addresses

/-- A cluster domain that is `svc`, and a host with two root dots. -/
theorem forms_of_a_service_name :
    ¬AllowlistMeans { World.plain.net with clusterDomain := "svc" } ⟨"Shop", true, ["svc"], []⟩ "cart.svc.svc" [] ∧
      ¬AllowlistMeans World.plain.net ⟨"Shop", true, ["shop"], []⟩ "cart.shop.svc.." [] := by
  constructor
  · intro h
    have hname : normalizeHost "cart.svc.svc" = "cart.svc.svc" := by decide +kernel
    have hrefused : orgPolicyAllows { World.plain.net with clusterDomain := "svc" } ⟨"Shop", true, ["svc"], []⟩
        "cart.svc.svc" [] = false := by decide +kernel
    have hadmitted := h.2 (.inl ⟨"svc", List.mem_cons_self, "cart.svc", ⟨["cart"], by decide, by decide, by decide⟩,
      .inr (by rw [hname]; decide)⟩)
    rw [hrefused] at hadmitted
    cases hadmitted
  · intro h
    have hname : normalizeHost "cart.shop.svc.." = "cart.shop.svc." := by decide +kernel
    have hdomain : normalizeHost World.plain.net.clusterDomain = "cluster.local" := by decide +kernel
    have hadmitted : orgPolicyAllows World.plain.net ⟨"Shop", true, ["shop"], []⟩ "cart.shop.svc.." [] = true := by
      decide +kernel
    rcases h.1 hadmitted with ⟨ns, -, base, -, hforms⟩ | ⟨entry, hentry, -⟩
    · rw [hname, hdomain] at hforms
      have hends : endsWith "cart.shop.svc." (".svc." ++ "cluster.local") = false ∧
          endsWith "cart.shop.svc." ".svc" = false := by decide +kernel
      rcases hforms with hform | hform
      · rw [hform, endsWith_append] at hends
        exact absurd hends.1 (by decide)
      · rw [hform, endsWith_append] at hends
        exact absurd hends.2 (by decide)
    · cases hentry

end ClusterGate
