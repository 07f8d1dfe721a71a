/-
  ClusterGate.Proxy.IpAllowlist — which client addresses a route's IP allowlist admits
  (`services/proxyService.ts`: `isIpAllowed`, `ipInCidr`, `ipToNum`).

  The code takes `::ffff:` off the client's text and compares texts, or the 32-bit
  numbers it reads from the dotted parts of both. That is right for an IPv4 client and
  the IPv4 addresses and blocks of a list (`plainEntry_iff`: the signed shifts and masks
  come out as the first bits). An IPv6 text is read by its leading decimal digits, an
  IPv6 length as a distance from 32: from 33 to 85 the leading digits must agree, and
  from 86 on `2 ** (32 - bits) - 1` is -1 and the mask is zero.
  - `caught_iff`: which texts with a slash catch which clients (`leadNumber`, `CatchesAll`).
  - `ip_allowlist_exact`: where the list's decision is the right one.
  - `an_ipv6_host_admits_everyone`: `::1/128` admits every client.
-/

import ClusterGate.Lib.Ip
import ClusterGate.Lib.Number
import Mathlib.Tactic.IntervalCases

namespace ClusterGate

open Lib Lib.Text

def ipToNum (ip : String) : BitVec 32 :=
  ((split ip '.').foldl (fun acc octet => (Number.parseInt octet).addInt (acc.toInt32 <<< 8).toInt) (.int 0)).toInt32

/-- `~(2 ** (32 - bits) - 1)`. Beyond the 53 bits of a double the one is lost on a large
    power, and a small one on the minus one. -/
def mask : Number → BitVec 32
  | .nan => ~~~0
  | .infinite negative => if negative then ~~~0 else 0
  | .int bits =>
    if 86 ≤ bits then 0
    else if 32 < bits then ~~~0
    else if -22 < bits then ~~~(BitVec.ofInt 32 (2 ^ (32 - bits).toNat - 1))
    else ~~~0

def ipInCidr (ip cidr : String) : Bool :=
  match split cidr '/' with
  | range :: bits :: _ =>
    let m := mask (Number.parseInt bits)
    ipToNum ip &&& m = ipToNum range &&& m
  | _ => ipToNum ip = ipToNum cidr

/-- The client's text without the prefix of a mapped address. -/
def unmapped (clientIp : String) : String := if startsWith clientIp "::ffff:" then slice clientIp 7 else clientIp

def isIpAllowed (clientIp : String) (allowlist : List String) : Bool :=
  let ip := unmapped clientIp
  allowlist.any fun entry => entry = ip || (includes entry "/" && ipInCidr ip entry)

/-! ## Numbers and masks -/

theorem addInt_toInt32 {a n : Int} (ha : a.natAbs ≤ 2 ^ 31) (hn : n.natAbs < 2 ^ 31) :
    (Number.addInt a (.int n)).toInt32 = BitVec.ofInt 32 a + BitVec.ofInt 32 n := by
  have hs : (a + n).natAbs < 2 ^ 53 := by omega
  rw [Number.addInt, Number.double_small hs, Number.toInt32, BitVec.ofInt_add]

theorem parseInt_repr : ∀ n < 256, Number.parseInt (Nat.repr n) = .int n := by decide +kernel

/-- One part of a dotted address. -/
theorem ipToNum_step {n v : Nat} (hn : n < 256) (acc : Number) (hacc : acc.toInt32 = BitVec.ofNat 32 v) :
    ((Number.parseInt (Nat.repr n)).addInt (acc.toInt32 <<< 8).toInt).toInt32 = BitVec.ofNat 32 (v * 256 + n) := by
  have hb : ((acc.toInt32 <<< 8).toInt).natAbs ≤ 2 ^ 31 := by
    have h1 := BitVec.toInt_lt (x := acc.toInt32 <<< 8)
    have h2 := BitVec.le_toInt (acc.toInt32 <<< 8)
    omega
  rw [parseInt_repr n hn, addInt_toInt32 hb (by omega), BitVec.ofInt_toInt, hacc, BitVec.ofInt_natCast]
  apply BitVec.eq_of_toNat_eq
  simp only [BitVec.toNat_add, BitVec.toNat_shiftLeft, BitVec.toNat_ofNat, Nat.shiftLeft_eq]
  omega

/-- The number of an IPv4 text is its address. -/
theorem ipToNum_v4 {ip : String} {v : Nat} (h : Ip.parseV4 ip = some v) : ipToNum ip = BitVec.ofNat 32 v := by
  obtain ⟨a, b, c, d, ha, hb, hc, hd, hsplit, rfl⟩ := Ip.parseV4_some h
  unfold ipToNum
  rw [hsplit]
  simp only [List.foldl_cons, List.foldl_nil]
  have h0 : (Number.int 0).toInt32 = BitVec.ofNat 32 0 := rfl
  have h1 := ipToNum_step ha _ h0
  rw [Nat.zero_mul, Nat.zero_add] at h1
  have h2 := ipToNum_step hb _ h1
  have h3 := ipToNum_step hc _ h2
  exact ipToNum_step hd _ h3

/-- How many of the 32 bits a length leaves out of the comparison. -/
def ignoredBits : Number → Nat
  | .nan => 0
  | .infinite negative => if negative then 0 else 32
  | .int bits => if 86 ≤ bits then 32 else if 32 < bits then 0 else if 0 ≤ bits then (32 - bits).toNat
      else if -22 < bits then 32 else 0

/-- A number with its low `k` bits all set, as 32 bits. -/
def lowBits (k : Nat) : BitVec 32 := BitVec.ofNat 32 (2 ^ k - 1)

theorem mask_eq (bits : Number) : mask bits = ~~~(lowBits (ignoredBits bits)) := by
  cases bits with
  | nan => rfl
  | infinite negative => cases negative <;> rfl
  | int n =>
    unfold mask ignoredBits
    by_cases h1 : 86 ≤ n
    · simp only [h1, if_true]
      rfl
    by_cases h2 : 32 < n
    · simp only [h1, h2, if_false, if_true]
      rfl
    by_cases h4 : -22 < n
    · by_cases h3 : 0 ≤ n
      · simp only [h1, h2, h3, h4, if_false, if_true]
        have hk : (32 - n).toNat ≤ 32 := by omega
        generalize (32 - n).toNat = k at hk
        interval_cases k <;> rfl
      · simp only [h1, h2, h3, h4, if_false, if_true]
        have hk : (32 - n).toNat ≤ 53 ∧ 32 < (32 - n).toNat := by omega
        generalize (32 - n).toNat = k at hk
        obtain ⟨hle, hgt⟩ := hk
        interval_cases k <;> rfl
    · have h3 : ¬0 ≤ n := by omega
      simp only [h1, h2, h3, h4, if_false]
      rfl

/-- Equal outside the low bits: the same quotient. -/
theorem and_not_lowBits (k : Nat) (x y : BitVec 32) :
    x &&& ~~~(lowBits k) = y &&& ~~~(lowBits k) ↔ x.toNat / 2 ^ k = y.toNat / 2 ^ k := by
  have hbit : ∀ (z : BitVec 32) i, (z &&& ~~~(lowBits k)).getLsbD i = (z.getLsbD i && decide (k ≤ i)) := by
    intro z i
    by_cases hi : i < 32
    · simp only [lowBits, BitVec.getLsbD_and, BitVec.getLsbD_not, BitVec.getLsbD_ofNat, Nat.testBit_two_pow_sub_one, hi,
        decide_true, Bool.true_and]
      by_cases hki : k ≤ i
      · simp [hki]
      · simp [hki, Nat.not_le.1 hki]
    · simp [BitVec.getLsbD_of_ge _ _ (Nat.not_lt.1 hi)]
  constructor
  · intro h
    apply Nat.eq_of_testBit_eq
    intro i
    rw [Nat.testBit_div_two_pow, Nat.testBit_div_two_pow]
    have hx := hbit x (i + k)
    have hy := hbit y (i + k)
    rw [h, hy] at hx
    simpa [BitVec.getLsbD, eq_comm] using hx
  · intro h
    apply BitVec.eq_of_getLsbD_eq
    intro i _
    rw [hbit, hbit]
    by_cases hki : k ≤ i
    · have hi := congrArg (Nat.testBit · (i - k)) h
      simp only [Nat.testBit_div_two_pow, Nat.sub_add_cancel hki] at hi
      simp [hki, BitVec.getLsbD, hi]
    · simp [hki]

/-! ## One entry -/

/-- The test of one entry. -/
def entryAdmits (ip entry : String) : Bool := entry = ip || (includes entry "/" && ipInCidr ip entry)

/-- The numbers read from two texts agree on the bits a length leaves in. -/
def SameLead (ip range bits : String) : Prop :=
  (ipToNum ip).toNat / 2 ^ ignoredBits (Number.parseInt bits) =
    (ipToNum range).toNat / 2 ^ ignoredBits (Number.parseInt bits)

/-- The client's own text, or a slash and the same leading number. -/
def LooksInside (ip entry : String) : Prop :=
  entry = ip ∨ ∃ range bits rest, split entry '/' = range :: bits :: rest ∧ SameLead ip range bits

theorem ipInCidr_iff {ip cidr range bits : String} {rest : List String} (h : split cidr '/' = range :: bits :: rest) :
    ipInCidr ip cidr = true ↔ SameLead ip range bits := by
  simp only [ipInCidr, h, decide_eq_true_eq, mask_eq]
  exact and_not_lowBits _ _ _

theorem entryAdmits_iff (ip entry : String) : entryAdmits ip entry = true ↔ LooksInside ip entry := by
  unfold entryAdmits LooksInside
  rw [Bool.or_eq_true, decide_eq_true_eq, Bool.and_eq_true, includes_char (c := '/') rfl]
  refine or_congr_right ?_
  constructor
  · intro h
    obtain ⟨hm, hin⟩ := h
    obtain ⟨range, bits, rest, hs⟩ := split_of_mem hm
    exact ⟨range, bits, rest, hs, (ipInCidr_iff hs).1 hin⟩
  · intro h
    obtain ⟨range, bits, rest, hs, hl⟩ := h
    refine ⟨?_, (ipInCidr_iff hs).2 hl⟩
    by_contra hm
    rw [split_of_not_mem hm] at hs
    cases hs

/-- An IPv4 address, or an IPv4 block of a length up to 32. -/
def plainEntry (entry : String) : Bool :=
  match split entry '/' with
  | [text] => (Ip.parseV4 text).isSome
  | [text, bits] => (Ip.parseV4 text).isSome && (Ip.decimalBelow 33 bits).isSome
  | _ => false

theorem mapped_div (v : Nat) {j : Nat} (hj : j ≤ 32) : Ip.mapped v / 2 ^ j = 0xFFFF * 2 ^ (32 - j) + v / 2 ^ j := by
  have hpow : 2 ^ 32 = 2 ^ (32 - j) * 2 ^ j := by rw [← Nat.pow_add, Nat.sub_add_cancel hj]
  rw [Ip.mapped, hpow, ← Nat.mul_assoc, Nat.add_comm, Nat.add_mul_div_right _ _ (Nat.two_pow_pos j), Nat.add_comm]

/-- An IPv4 client is judged right by every IPv4 entry. -/
theorem plainEntry_iff {ip entry : String} {v : Nat} (hip : Ip.parseV4 ip = some v) (hp : plainEntry entry = true) :
    LooksInside ip entry ↔ Ip.names entry (Ip.mapped v) = true := by
  unfold plainEntry at hp
  unfold LooksInside Ip.names
  split at hp
  · rename_i text hs
    obtain ⟨w, hw⟩ := Option.isSome_iff_exists.1 hp
    have htext : entry = text := by
      rw [← String.toList_inj, split_join entry '/', hs]
      simp [List.intercalate]
    subst htext
    simp only [hs, Ip.parseAddress, hw, List.cons.injEq, reduceCtorEq, and_false, false_and, exists_false, or_false,
      decide_eq_true_eq, Option.some.injEq]
    constructor
    · intro he
      rw [he, hip] at hw
      injection hw with hw
      rw [hw]
    · intro he
      have hvw : w = v := by
        unfold Ip.mapped at he
        omega
      exact Ip.parseV4_inj (hvw ▸ hw) hip
  · rename_i text bits hs
    rw [Bool.and_eq_true] at hp
    obtain ⟨w, hw⟩ := Option.isSome_iff_exists.1 hp.1
    obtain ⟨k, hk⟩ := Option.isSome_iff_exists.1 hp.2
    obtain ⟨hk33, hbits⟩ := Ip.decimalBelow_some hk
    have hne : entry ≠ ip := by
      intro he
      have hslash : '/' ∉ entry.toList := he ▸ Ip.parseV4_not_mem hip (by decide) (by decide)
      rw [split_of_not_mem hslash] at hs
      cases hs
    have hlead : SameLead ip text bits ↔ v / 2 ^ (32 - k) = w / 2 ^ (32 - k) := by
      have hig : ignoredBits (Number.parseInt bits) = 32 - k := by
        rw [hbits, parseInt_repr k (by omega)]
        unfold ignoredBits
        simp only
        rw [if_neg (by omega), if_neg (by omega), if_pos (by omega)]
        omega
      rw [SameLead, hig, ipToNum_v4 hip, ipToNum_v4 hw, BitVec.toNat_ofNat, BitVec.toNat_ofNat,
        Nat.mod_eq_of_lt (Ip.parseV4_lt hip), Nat.mod_eq_of_lt (Ip.parseV4_lt hw)]
    have hholds : Ip.Block.holds ⟨Ip.mapped w, 96 + k⟩ (Ip.mapped v) = true ↔ v / 2 ^ (32 - k) = w / 2 ^ (32 - k) := by
      have hexp : 128 - (96 + k) = 32 - k := by omega
      rw [Ip.Block.holds, decide_eq_true_eq, hexp, mapped_div v (by omega), mapped_div w (by omega)]
      omega
    simp only [hs, hne, false_or, List.cons.injEq, Ip.parseBlock, hw, hk, Option.map_some, Option.getD_some, hholds]
    rw [← hlead]
    constructor
    · intro h
      obtain ⟨_, _, _, ⟨rfl, rfl, -⟩, h⟩ := h
      exact h
    · intro h
      exact ⟨_, _, _, ⟨rfl, rfl, rfl⟩, h⟩
  · cases hp

/-! ## What an entry catches -/

/-- A number at the start of a part, if there is one. -/
def partNumber (part : String) : Option Int :=
  match Number.parseInt part with
  | .int n => some n
  | _ => none

/-- The numbers the dotted parts begin with, in base 256; one without a number starts afresh. -/
def dottedNumber (parts : List String) : Int := parts.foldl (fun n part => (partNumber part).elim 0 (256 * n + ·)) 0

/-- No part begins with a number of sixteen digits or more, which doubles would round. -/
def Exact (text : String) : Prop := ∀ part ∈ split text '.', ∀ n ∈ partNumber part, n.natAbs < 2 ^ 52

instance (text : String) : Decidable (Exact text) :=
  decidable_of_iff (∀ part ∈ split text '.', (partNumber part).all fun n => n.natAbs < 2 ^ 52) <|
    forall_congr' fun part => imp_congr_right fun _ => by
      cases partNumber part <;> simp

/-- The 32-bit number a text begins with. -/
def leadNumber (text : String) : Nat :=
  if Exact text then (dottedNumber (split text '.') % 2 ^ 32).toNat else (ipToNum text).toNat

/-- From 86 on, and below zero down to -21, a length catches every client. -/
def CatchesAll : Number → Prop
  | .nan => False
  | .infinite negative => negative = false
  | .int bits => 86 ≤ bits ∨ (-22 < bits ∧ bits < 0)

/-- The low bits an IPv4 length leaves out; any other leaves out none. -/
def droppedBits : Number → Nat
  | .int bits => if 0 ≤ bits ∧ bits ≤ 32 then (32 - bits).toNat else 0
  | _ => 0

/-- The client's own text; or a slash, and a length that catches everyone or the same leading
    number up to the bits it leaves out. -/
def Caught (ip entry : String) : Prop :=
  entry = ip ∨ ∃ range bits rest, split entry '/' = range :: bits :: rest ∧
    (CatchesAll (Number.parseInt bits) ∨
      leadNumber ip / 2 ^ droppedBits (Number.parseInt bits) = leadNumber range / 2 ^ droppedBits (Number.parseInt bits))

/-- One part more, of a number that is not rounded. -/
theorem dotted_step {acc : Number} {n : Int} (hacc : acc.toInt32 = BitVec.ofInt 32 n) {part : String}
    (hsmall : ∀ m ∈ partNumber part, m.natAbs < 2 ^ 52) :
    ((Number.parseInt part).addInt (acc.toInt32 <<< 8).toInt).toInt32 =
      BitVec.ofInt 32 ((partNumber part).elim 0 (256 * n + ·)) := by
  have hbound : ((acc.toInt32 <<< 8).toInt).natAbs ≤ 2 ^ 31 := by
    have h1 := BitVec.toInt_lt (x := acc.toInt32 <<< 8)
    have h2 := BitVec.le_toInt (acc.toInt32 <<< 8)
    omega
  unfold partNumber at hsmall ⊢
  cases hp : Number.parseInt part with
  | nan => rfl
  | infinite negative => rfl
  | int m =>
    rw [hp] at hsmall
    have hm : m.natAbs < 2 ^ 52 := hsmall m rfl
    have hshift : acc.toInt32 <<< 8 = BitVec.ofInt 32 (256 * n) := by
      rw [hacc, BitVec.shiftLeft_eq_mul_twoPow, BitVec.ofInt_mul, BitVec.mul_comm]
      rfl
    show (Number.addInt _ (.int m)).toInt32 = BitVec.ofInt 32 (256 * n + m)
    rw [Number.addInt, Number.double_small (by omega), Number.toInt32, BitVec.ofInt_add, BitVec.ofInt_toInt, hshift,
      ← BitVec.ofInt_add]

theorem ipToNum_exact {text : String} (h : Exact text) : ipToNum text = BitVec.ofInt 32 (dottedNumber (split text '.')) := by
  unfold ipToNum dottedNumber
  unfold Exact at h
  have hrun : ∀ (parts : List String) (acc : Number) (n : Int), (∀ part ∈ parts, ∀ m ∈ partNumber part, m.natAbs < 2 ^ 52) →
      acc.toInt32 = BitVec.ofInt 32 n →
      (parts.foldl (fun acc octet => (Number.parseInt octet).addInt (acc.toInt32 <<< 8).toInt) acc).toInt32 =
        BitVec.ofInt 32 (parts.foldl (fun n part => (partNumber part).elim 0 (256 * n + ·)) n) := by
    intro parts
    induction parts with
    | nil => exact fun _ _ _ hacc => hacc
    | cons part parts ih =>
      intro acc n hsmall hacc
      exact ih _ _ (fun q hq => hsmall q (List.mem_cons_of_mem _ hq)) (dotted_step hacc (hsmall part List.mem_cons_self))
  exact hrun _ _ _ h rfl

/-- The number the code reads. -/
theorem leadNumber_eq (text : String) : leadNumber text = (ipToNum text).toNat := by
  unfold leadNumber
  split
  · rename_i h
    rw [ipToNum_exact h, BitVec.toNat_ofInt]
    rfl
  · rfl

theorem sameLead_iff {ip range bits : String} : SameLead ip range bits ↔ CatchesAll (Number.parseInt bits) ∨
    leadNumber ip / 2 ^ droppedBits (Number.parseInt bits) = leadNumber range / 2 ^ droppedBits (Number.parseInt bits) := by
  unfold SameLead
  rw [leadNumber_eq, leadNumber_eq]
  generalize Number.parseInt bits = length
  have hall : ∀ text, (ipToNum text).toNat / 2 ^ 32 = 0 := fun text => Nat.div_eq_of_lt (ipToNum text).isLt
  by_cases hcatch : CatchesAll length
  · have hignored : ignoredBits length = 32 := by
      cases length with
      | nan => exact hcatch.elim
      | infinite negative =>
        obtain rfl : negative = false := hcatch
        rfl
      | int n =>
        unfold ignoredBits
        rcases hcatch with h | ⟨h1, h2⟩
        · exact if_pos h
        · simp only
          rw [if_neg (by omega), if_neg (by omega), if_neg (by omega), if_pos h1]
    rw [hignored, hall, hall]
    exact iff_of_true rfl (.inl hcatch)
  · have hdropped : ignoredBits length = droppedBits length := by
      cases length with
      | nan => rfl
      | infinite negative =>
        cases negative with
        | false => exact absurd rfl hcatch
        | true => rfl
      | int n =>
        unfold CatchesAll at hcatch
        unfold ignoredBits droppedBits
        simp only
        split_ifs <;> first | rfl | omega
    rw [hdropped]
    exact (or_iff_right hcatch).symm

theorem caught_iff {ip entry : String} : entryAdmits ip entry = true ↔ Caught ip entry := by
  rw [entryAdmits_iff]
  exact or_congr_right (exists_congr fun _ => exists_congr fun _ => exists_congr fun _ => and_congr_right fun _ => sameLead_iff)

/-! ## A whole list -/

/-- An IPv4 client, plain or mapped, is the address of what is left of its text. -/
theorem parseAddress_unmapped {clientIp : String} {a v : Nat} (ha : Ip.parseAddress clientIp = some a)
    (hv : Ip.parseV4 (unmapped clientIp) = some v) : a = Ip.mapped v := by
  unfold unmapped at hv
  split at hv
  · rename_i hpre
    obtain ⟨t, ht⟩ := List.isPrefixOf_iff_prefix.1 hpre
    have htext : clientIp = "::ffff:" ++ slice clientIp 7 := by
      have hdrop : clientIp.toList.drop 7 = t := by rw [← ht]; rfl
      have ht' : (String.ofList t).toList = t := String.toList_ofList
      rw [slice, hdrop, ← String.toList_inj, String.toList_append, ht']
      exact ht.symm
    have hno : Ip.parseV4 clientIp = none := by
      rw [Option.eq_none_iff_forall_ne_some]
      intro w hw
      refine Ip.parseV4_not_mem (x := ':') hw (by decide) (by decide) ?_
      rw [htext, String.toList_append]
      exact List.mem_append_left _ (by decide)
    rw [Ip.parseAddress, hno, htext] at ha
    simp only [Ip.parseV6_mapped hv, Option.some.injEq] at ha
    exact ha.symm
  · rw [Ip.parseAddress, hv] at ha
    injection ha with ha
    exact ha.symm

/-- The entries judged as addresses: the IPv4 ones, for an IPv4 client. -/
def Plain (clientIp entry : String) : Prop := (Ip.parseV4 (unmapped clientIp)).isSome = true ∧ plainEntry entry = true

/-- An IPv4 entry names the IPv4 client; or, among the other entries, one names the client and
    one catches it, or none does either. -/
def JudgedRight (clientIp : String) (a : Nat) (allowlist : List String) : Prop :=
  (∃ e ∈ allowlist, Plain clientIp e ∧ Ip.names e a = true) ∨
    ((∃ e ∈ allowlist, ¬Plain clientIp e ∧ Ip.names e a = true) ∧
      ∃ e ∈ allowlist, ¬Plain clientIp e ∧ Caught (unmapped clientIp) e) ∨
    ∀ e ∈ allowlist, ¬Plain clientIp e → ¬(Ip.names e a = true) ∧ ¬Caught (unmapped clientIp) e

theorem ip_allowlist_exact (clientIp : String) (allowlist : List String) (a : Nat)
    (ha : Ip.parseAddress clientIp = some a) :
    (isIpAllowed clientIp allowlist = true ↔ ∃ e ∈ allowlist, Ip.names e a = true) ↔
      JudgedRight clientIp a allowlist := by
  have hcode : isIpAllowed clientIp allowlist = true ↔ ∃ e ∈ allowlist, Caught (unmapped clientIp) e := by
    unfold isIpAllowed
    simp only [List.any_eq_true]
    exact exists_congr fun e => and_congr_right fun _ => caught_iff
  have hplain : ∀ e, Plain clientIp e → (Caught (unmapped clientIp) e ↔ Ip.names e a = true) := by
    intro e h
    obtain ⟨v, hv⟩ := Option.isSome_iff_exists.1 h.1
    rw [parseAddress_unmapped ha hv, ← caught_iff, entryAdmits_iff]
    exact plainEntry_iff hv h.2
  -- a list is the plain entries and the others
  have hsplit : ∀ P : String → Prop, (∃ e ∈ allowlist, P e) ↔
      (∃ e ∈ allowlist, Plain clientIp e ∧ P e) ∨ ∃ e ∈ allowlist, ¬Plain clientIp e ∧ P e := by
    intro P
    constructor
    · intro h
      obtain ⟨e, he, hP⟩ := h
      by_cases hpl : Plain clientIp e
      · exact .inl ⟨e, he, hpl, hP⟩
      · exact .inr ⟨e, he, hpl, hP⟩
    · intro h
      rcases h with ⟨e, he, -, hP⟩ | ⟨e, he, -, hP⟩
      · exact ⟨e, he, hP⟩
      · exact ⟨e, he, hP⟩
  have hsame : (∃ e ∈ allowlist, Plain clientIp e ∧ Caught (unmapped clientIp) e) ↔
      ∃ e ∈ allowlist, Plain clientIp e ∧ Ip.names e a = true :=
    exists_congr fun e => and_congr_right fun _ => and_congr_right fun hpl => hplain e hpl
  have hnone : (∀ e ∈ allowlist, ¬Plain clientIp e → ¬(Ip.names e a = true) ∧ ¬Caught (unmapped clientIp) e) ↔
      (¬∃ e ∈ allowlist, ¬Plain clientIp e ∧ Ip.names e a = true) ∧
        ¬∃ e ∈ allowlist, ¬Plain clientIp e ∧ Caught (unmapped clientIp) e := by
    simp only [not_exists, not_and]
    exact ⟨fun h => ⟨fun e he hno => (h e he hno).1, fun e he hno => (h e he hno).2⟩,
      fun h e he hno => ⟨h.1 e he hno, h.2 e he hno⟩⟩
  rw [hcode, hsplit (Caught (unmapped clientIp)), hsplit (Ip.names · a = true), hsame, JudgedRight, hnone]
  by_cases hg : ∃ e ∈ allowlist, Plain clientIp e ∧ Ip.names e a = true
  · simp only [hg, true_or]
  · simp only [hg, false_or]
    exact iff_comm.trans iff_iff_and_or_not_and_not

/-- A list of IPv4 entries decides right about every IPv4 client. -/
theorem plain_list_exact {clientIp : String} {allowlist : List String} {a v : Nat}
    (ha : Ip.parseAddress clientIp = some a) (hv : Ip.parseV4 (unmapped clientIp) = some v)
    (hp : ∀ e ∈ allowlist, plainEntry e = true) :
    isIpAllowed clientIp allowlist = true ↔ ∃ e ∈ allowlist, Ip.names e a = true := by
  have hv' : (Ip.parseV4 (unmapped clientIp)).isSome = true := by rw [hv]; rfl
  unfold isIpAllowed
  simp only [List.any_eq_true]
  refine exists_congr fun e => and_congr_right fun he => ?_
  rw [parseAddress_unmapped ha hv]
  exact (entryAdmits_iff _ _).trans (plainEntry_iff hv (hp e he))

theorem ip_allowlist_exact_lan :
    Ip.parseAddress "10.0.5.20" = some (Ip.mapped 0x0A000514) ∧
      ((isIpAllowed "10.0.5.20" ["10.0.0.0/16"] = true ↔
          ∃ e ∈ ["10.0.0.0/16"], Ip.names e (Ip.mapped 0x0A000514) = true) ↔
        JudgedRight "10.0.5.20" (Ip.mapped 0x0A000514) ["10.0.0.0/16"]) := by
  have ha : Ip.parseAddress "10.0.5.20" = some (Ip.mapped 0x0A000514) := by decide +kernel
  exact ⟨ha, ip_allowlist_exact _ _ _ ha⟩

/-- The loopback's block of one address. -/
theorem an_ipv6_host_admits_everyone :
    ¬∀ (clientIp : String) (allowlist : List String) (a : Nat), Ip.parseAddress clientIp = some a →
      (isIpAllowed clientIp allowlist = true ↔ ∃ e ∈ allowlist, Ip.names e a = true) := by
  intro h
  have ha : Ip.parseAddress "203.0.113.9" = some (Ip.mapped 0xCB007109) := by decide +kernel
  have hin : isIpAllowed "203.0.113.9" ["::1/128"] = true := by decide +kernel
  obtain ⟨e, he, hnames⟩ := (h _ _ _ ha).1 hin
  rw [List.mem_singleton] at he
  have hno : Ip.names "::1/128" (Ip.mapped 0xCB007109) = false := by decide +kernel
  rw [he, hno] at hnames
  cases hnames

end ClusterGate
