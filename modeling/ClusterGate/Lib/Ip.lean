/-
  ClusterGate.Lib.Ip — IP addresses, blocks of them, and the texts that name either.

  An address is its 128 bits; an IPv4 address is the IPv4-mapped one. A block is an
  address and a length: it holds the addresses that begin with the same bits. IPv6 texts
  may leave out one run of zero groups, end in a dotted IPv4 address and carry a zone,
  which is no part of the address. Whatever is not such a text names nothing.
  - `parseV4_inj`: an IPv4 address has one text.
  - `parseV6_mapped`: `::ffff:` before an IPv4 text is the text of the mapped address.
-/

import ClusterGate.Lib.Text

namespace ClusterGate.Lib.Ip

/-- A number below a bound, as it is written. -/
def decimalBelow (bound : Nat) (s : String) : Option Nat := (List.range bound).find? fun n => Nat.repr n = s

def parseV4 (s : String) : Option Nat :=
  match (Text.split s '.').map (decimalBelow 256) with
  | [some a, some b, some c, some d] => some (((a * 256 + b) * 256 + c) * 256 + d)
  | _ => none

/-- The IPv4-mapped address. -/
def mapped (v4 : Nat) : Nat := 0xFFFF * 2 ^ 32 + v4

/-- One to four hexadecimal digits. -/
def group? (s : String) : Option Nat := if s.length ≤ 4 then Text.hex? s else none

/-- The groups after which an address ends: the last may be a dotted IPv4 address. -/
def lastGroups : List String → Option (List Nat)
  | [] => some []
  | [s] => match parseV4 s with
    | some v => some [v / 65536, v % 65536]
    | none => (group? s).map fun g => [g]
  | s :: rest => (group? s).bind fun g => (lastGroups rest).map (g :: ·)

def fromGroups (gs : List Nat) : Nat := gs.foldl (fun n g => 65536 * n + g) 0

def isZoneChar (c : Char) : Bool := c.isAlphanum || c = '-' || c = '.' || c = ':'

/-- A zone behind an address, or none. -/
def isZone : List Char → Bool
  | [] => true
  | _ :: cs => cs ≠ [] && cs.all isZoneChar

/-- The groups on either side of `::`, nothing where a side is empty. -/
def sideGroups (parse : List String → Option (List Nat)) (s : String) : Option (List Nat) :=
  if s = "" then some [] else parse (Text.split s ':')

def parseV6 (s : String) : Option Nat :=
  let text := String.ofList (s.toList.takeWhile (· ≠ '%'))
  if isZone (s.toList.dropWhile (· ≠ '%')) = false then none
  else match Text.indexOf text "::" with
    | none => (lastGroups (Text.split text ':')).bind fun gs =>
        if gs.length = 8 then some (fromGroups gs) else none
    | some i => (sideGroups (·.mapM group?) (String.ofList (text.toList.take i))).bind fun l =>
        (sideGroups lastGroups (Text.slice text (i + 2))).bind fun r =>
          if l.length + r.length ≤ 7 then
            some (fromGroups (l ++ List.replicate (8 - (l.length + r.length)) 0 ++ r))
          else none

def parseAddress (s : String) : Option Nat :=
  match parseV4 s with
  | some v => some (mapped v)
  | none => parseV6 s

structure Block where
  address : Nat
  bits : Nat
  deriving DecidableEq

/-- The address begins with the block's bits. -/
def Block.holds (b : Block) (a : Nat) : Bool := a / 2 ^ (128 - b.bits) = b.address / 2 ^ (128 - b.bits)

def parseBlock (address bits : String) : Option Block :=
  match parseV4 address with
  | some v => (decimalBelow 33 bits).map fun k => ⟨mapped v, 96 + k⟩
  | none => (parseV6 address).bind fun v => (decimalBelow 129 bits).map fun k => ⟨v, k⟩

/-- The entry of a list is the address, or a block that holds it. -/
def names (entry : String) (a : Nat) : Bool :=
  match Text.split entry '/' with
  | [text] => parseAddress text = some a
  | [text, bits] => ((parseBlock text bits).map (Block.holds · a)).getD false
  | _ => false

/-! ## IPv4 texts -/

theorem decimalBelow_some {bound n : Nat} {s : String} (h : decimalBelow bound s = some n) :
    n < bound ∧ s = Nat.repr n := by
  unfold decimalBelow at h
  have hp := List.find?_some h
  have hm := List.mem_of_find?_eq_some h
  simp only [decide_eq_true_eq] at hp
  exact ⟨List.mem_range.1 hm, hp.symm⟩

/-- The four numbers of a text. -/
theorem parseV4_some {s : String} {v : Nat} (h : parseV4 s = some v) :
    ∃ a b c d, a < 256 ∧ b < 256 ∧ c < 256 ∧ d < 256 ∧
      Text.split s '.' = [Nat.repr a, Nat.repr b, Nat.repr c, Nat.repr d] ∧
      v = ((a * 256 + b) * 256 + c) * 256 + d := by
  unfold parseV4 at h
  split at h
  · rename_i a b c d hs
    obtain ⟨ta, l, hl, ha, hs⟩ := List.map_eq_cons_iff.1 hs
    obtain ⟨tb, l, rfl, hb, hs⟩ := List.map_eq_cons_iff.1 hs
    obtain ⟨tc, l, rfl, hc, hs⟩ := List.map_eq_cons_iff.1 hs
    obtain ⟨td, l, rfl, hd, hs⟩ := List.map_eq_cons_iff.1 hs
    obtain rfl := List.map_eq_nil_iff.1 hs
    obtain ⟨ha', rfl⟩ := decimalBelow_some ha
    obtain ⟨hb', rfl⟩ := decimalBelow_some hb
    obtain ⟨hc', rfl⟩ := decimalBelow_some hc
    obtain ⟨hd', rfl⟩ := decimalBelow_some hd
    injection h with h
    exact ⟨a, b, c, d, ha', hb', hc', hd', hl, h.symm⟩
  · cases h

theorem parseV4_lt {s : String} {v : Nat} (h : parseV4 s = some v) : v < 2 ^ 32 := by
  obtain ⟨a, b, c, d, ha, hb, hc, hd, -, rfl⟩ := parseV4_some h
  omega

/-- The text of an address, from its numbers. -/
theorem parseV4_text {s : String} {a b c d : Nat}
    (h : Text.split s '.' = [Nat.repr a, Nat.repr b, Nat.repr c, Nat.repr d]) :
    s.toList = (Nat.repr a).toList ++ '.' :: ((Nat.repr b).toList ++ '.' :: ((Nat.repr c).toList ++ '.' ::
      (Nat.repr d).toList)) := by
  rw [Text.split_join s '.', h]
  simp [List.intercalate]

theorem parseV4_inj {s t : String} {v : Nat} (hs : parseV4 s = some v) (ht : parseV4 t = some v) : s = t := by
  obtain ⟨a, b, c, d, ha, hb, hc, hd, hsplit, hv⟩ := parseV4_some hs
  obtain ⟨a', b', c', d', ha', hb', hc', hd', hsplit', hv'⟩ := parseV4_some ht
  have hda : d = d' := by omega
  have hcb : c = c' := by omega
  have hba : b = b' := by omega
  have haa : a = a' := by omega
  subst hda hcb hba haa
  rw [← String.toList_inj, parseV4_text hsplit, parseV4_text hsplit']

theorem repr_digits : ∀ n < 256, (Nat.repr n).toList.all Char.isDigit = true := by decide +kernel

/-- Digits and points. -/
theorem parseV4_chars {s : String} {v : Nat} (h : parseV4 s = some v) :
    ∀ x ∈ s.toList, x.isDigit = true ∨ x = '.' := by
  obtain ⟨a, b, c, d, ha, hb, hc, hd, hsplit, -⟩ := parseV4_some h
  have digit : ∀ {n x}, n < 256 → x ∈ (Nat.repr n).toList → x.isDigit = true :=
    fun hn hx => List.all_eq_true.1 (repr_digits _ hn) _ hx
  intro x hx
  rw [parseV4_text hsplit] at hx
  simp only [List.mem_append, List.mem_cons] at hx
  rcases hx with hx | rfl | hx | rfl | hx | rfl | hx
  · exact .inl (digit ha hx)
  · exact .inr rfl
  · exact .inl (digit hb hx)
  · exact .inr rfl
  · exact .inl (digit hc hx)
  · exact .inr rfl
  · exact .inl (digit hd hx)

theorem parseV4_not_mem {s : String} {v : Nat} (h : parseV4 s = some v) {x : Char} (hx : x.isDigit = false)
    (hp : x ≠ '.') : x ∉ s.toList := by
  intro hm
  rcases parseV4_chars h x hm with hd | hd
  · rw [hx] at hd
    cases hd
  · exact hp hd

/-! ## Mapped addresses -/

theorem parseV6_mapped {s : String} {v : Nat} (h : parseV4 s = some v) :
    parseV6 ("::ffff:" ++ s) = some (mapped v) := by
  have hcolon : ':' ∉ s.toList := parseV4_not_mem h (by decide) (by decide)
  have hzone : '%' ∉ s.toList := parseV4_not_mem h (by decide) (by decide)
  have htext : ("::ffff:" ++ s).toList = ':' :: ':' :: 'f' :: 'f' :: 'f' :: 'f' :: ':' :: s.toList := by
    rw [String.toList_append]
    rfl
  have hno : ∀ x ∈ ("::ffff:" ++ s).toList, decide (x ≠ '%') = true := by
    intro x hx
    rw [htext] at hx
    by_cases he : x = '%'
    · rw [he] at hx
      simp [hzone] at hx
    · simpa using he
  have htake : ("::ffff:" ++ s).toList.takeWhile (· ≠ '%') = ("::ffff:" ++ s).toList :=
    List.takeWhile_eq_self_iff.2 hno
  have hdrop : ("::ffff:" ++ s).toList.dropWhile (· ≠ '%') = [] := List.dropWhile_eq_nil_iff.2 hno
  have hindex : Text.indexOf ("::ffff:" ++ s) "::" = some 0 := by
    rw [Text.indexOf, htext]
    rfl
  have hsplit : Text.split (Text.slice ("::ffff:" ++ s) 2) ':' = ["ffff", s] := by
    rw [Text.split, Text.slice, String.toList_ofList, htext]
    show (('f' :: 'f' :: 'f' :: 'f' :: ':' :: s.toList).splitOn ':').map String.ofList = _
    have hf : ':' ∉ ['f', 'f', 'f', 'f'] := by decide
    have hsplit := List.splitOn_append_cons_self_of_not_mem hf s.toList
    rw [List.cons_append, List.cons_append, List.cons_append, List.cons_append, List.nil_append] at hsplit
    rw [hsplit, List.splitOn_eq_singleton hcolon]
    simp
  have hne : Text.slice ("::ffff:" ++ s) 2 ≠ "" := by
    intro he
    rw [he] at hsplit
    have hl : (Text.split "" ':').length = 2 := by rw [hsplit]; rfl
    exact absurd hl (by decide)
  have hlt := parseV4_lt h
  unfold parseV6
  simp only [htake, hdrop, String.ofList_toList, hindex]
  rw [if_neg (by decide)]
  simp only [sideGroups, if_neg hne, hsplit, lastGroups, h]
  have hf : group? "ffff" = some 0xFFFF := by decide
  simp only [hf, List.take_zero, Option.map_some, Option.bind_some, if_true, List.length_nil, List.length_cons,
    Nat.zero_add]
  rw [if_pos (by decide)]
  simp only [List.replicate, fromGroups, List.foldl, List.nil_append, List.cons_append, Option.some.injEq, mapped]
  omega

end ClusterGate.Lib.Ip
