/-
  ClusterGate.Lib.Text — the string functions of the source language, on characters.

  Everything goes through `toList`, so it evaluates on a closed string and is proved
  about by the lemmas of lists. Lengths are UTF-16 lengths where the language's are
  (`utf16Length`). `trim` removes the white space and line terminators of the
  language, not only ASCII blanks.
-/

import Mathlib.Algebra.Field.Rat
import Mathlib.Data.List.DropRight
import Mathlib.Data.List.Infix

namespace ClusterGate.Lib.Text

def startsWith (s p : String) : Bool := p.toList.isPrefixOf s.toList

def endsWith (s p : String) : Bool := p.toList.isSuffixOf s.toList

def includes (s p : String) : Bool := s.toList.tails.any fun t => p.toList.isPrefixOf t

theorem includes_iff {s p : String} : includes s p = true ↔ p.toList <:+: s.toList := by
  simp only [includes, List.any_eq_true, List.mem_tails, List.isPrefixOf_iff_prefix]
  exact ⟨fun ⟨u, hs, hp⟩ => List.infix_iff_prefix_suffix.2 ⟨u, hp, hs⟩,
    fun h => (List.infix_iff_prefix_suffix.1 h).imp fun u hu => ⟨hu.2, hu.1⟩⟩

/-- `s.slice(n)` for a text whose first `n` characters are in the basic plane. -/
def slice (s : String) (n : Nat) : String := String.ofList (s.toList.drop n)

/-- White space and line terminators. -/
def isSpace (c : Char) : Bool :=
  let n := c.toNat
  (9 ≤ n && n ≤ 13) || n = 0x20 || n = 0xA0 || n = 0x1680 || (0x2000 ≤ n && n ≤ 0x200A) || n = 0x2028 || n = 0x2029 ||
    n = 0x202F || n = 0x205F || n = 0x3000 || n = 0xFEFF

def trim (s : String) : String := String.ofList ((s.toList.dropWhile isSpace).rdropWhile isSpace)

theorem trim_clean {s : String} (h : ∀ c ∈ s.toList, isSpace c = false) : trim s = s := by
  unfold trim
  have hfront : s.toList.dropWhile isSpace = s.toList := by
    rw [List.dropWhile_eq_self_iff]
    intro hl
    rw [h _ (List.getElem_mem hl)]
    simp
  have hback : s.toList.rdropWhile isSpace = s.toList := by
    rw [List.rdropWhile_eq_self_iff]
    intro hne
    rw [h _ (List.getLast_mem hne)]
    simp
  rw [hfront, hback, String.ofList_toList]

theorem dropWhile_prefix_self {α : Type} {p : α → Bool} {m l : List α} (hm : m <+: l) (hl : l.dropWhile p = l) :
    m.dropWhile p = m := by
  cases m with
  | nil => rfl
  | cons c cs =>
    obtain ⟨t, rfl⟩ := hm
    have := List.dropWhile_eq_self_iff.1 hl (by simp)
    exact List.dropWhile_cons_of_neg (by simpa using this)

theorem trim_of_ends {cs : List Char} (hfirst : ∀ c ∈ cs.head?, isSpace c = false)
    (hlast : ∀ c ∈ cs.getLast?, isSpace c = false) : trim (String.ofList cs) = String.ofList cs := by
  have hfront : cs.dropWhile isSpace = cs := by
    rw [List.dropWhile_eq_self_iff]
    intro hl
    rw [hfirst _ (by rw [List.head?_eq_getElem?, List.getElem?_eq_getElem hl]; rfl)]
    simp
  have hback : cs.rdropWhile isSpace = cs := by
    rw [List.rdropWhile_eq_self_iff]
    intro hne
    rw [hlast _ (by rw [List.getLast?_eq_getLast_of_ne_nil hne]; rfl)]
    simp
  rw [trim, String.toList_ofList, hfront, hback]

theorem trim_infix (s : String) : (trim s).toList <:+: s.toList := by
  rw [trim, String.toList_ofList]
  exact (List.rdropWhile_prefix _ _).isInfix.trans (List.dropWhile_suffix _).isInfix

theorem trim_trim (s : String) : trim (trim s) = trim s := by
  unfold trim
  rw [String.toList_ofList, dropWhile_prefix_self (List.rdropWhile_prefix _ _) (List.dropWhile_idempotent _ _),
    List.rdropWhile_idempotent]

/-- `s.slice(0, -n)`, likewise. -/
def sliceEnd (s : String) (n : Nat) : String := String.ofList (s.toList.rdrop n)

def split (s : String) (sep : Char) : List String := (s.toList.splitOn sep).map String.ofList

/-- The parts put together again. -/
theorem split_join (s : String) (sep : Char) : s.toList = [sep].intercalate ((split s sep).map String.toList) := by
  unfold split
  rw [List.map_map]
  have hid : String.toList ∘ String.ofList = id := funext fun cs => String.toList_ofList
  rw [hid, List.map_id, List.intercalate_splitOn]

theorem mem_intercalate {x y : Char} {parts : List (List Char)} (h : x ∈ [y].intercalate parts) :
    x = y ∨ ∃ l ∈ parts, x ∈ l := by
  induction parts with
  | nil => cases h
  | cons l parts ih =>
    cases parts with
    | nil => exact .inr ⟨l, List.mem_cons_self, by simpa [List.intercalate] using h⟩
    | cons m parts =>
      rw [List.intercalate_cons_cons, List.append_assoc] at h
      rcases List.mem_append.1 h with h | h
      · exact .inr ⟨l, List.mem_cons_self, h⟩
      rcases List.mem_append.1 h with h | h
      · exact .inl (List.mem_singleton.1 h)
      · rcases ih h with h | ⟨k, hk, h⟩
        · exact .inl h
        · exact .inr ⟨k, List.mem_cons_of_mem _ hk, h⟩

theorem mem_split {s : String} (sep : Char) {x : Char} (h : x ∈ s.toList) : x = sep ∨ ∃ t ∈ split s sep, x ∈ t.toList := by
  rw [split_join s sep] at h
  rcases mem_intercalate h with h | ⟨l, hl, h⟩
  · exact .inl h
  · obtain ⟨t, ht, rfl⟩ := List.mem_map.1 hl
    exact .inr ⟨t, ht, h⟩

/-- No part has the separator. -/
theorem not_mem_splitOn {c : Char} {cs : List Char} : ∀ l ∈ cs.splitOn c, c ∉ l := by
  induction cs with
  | nil => simp
  | cons d cs ih =>
    rw [List.splitOn_cons_eq_if_modifyHead]
    by_cases hd : (d == c) = true
    · rw [if_pos hd]
      intro l hl
      rcases List.mem_cons.1 hl with rfl | hl
      · simp
      · exact ih l hl
    · rw [if_neg hd]
      obtain ⟨x, l, hx⟩ := List.exists_cons_of_ne_nil (List.splitOn_ne_nil c cs)
      rw [hx] at ih ⊢
      intro m hm
      rcases List.mem_cons.1 hm with rfl | hm
      · intro hmem
        rcases List.mem_cons.1 hmem with rfl | hmem
        · simp at hd
        · exact ih x List.mem_cons_self hmem
      · exact ih m (List.mem_cons_of_mem _ hm)

theorem split_of_not_mem {s : String} {c : Char} (h : c ∉ s.toList) : split s c = [s] := by
  rw [split, List.splitOn_eq_singleton h]
  simp

/-- A text with the separator has two parts at least. -/
theorem split_of_mem {s : String} {c : Char} (h : c ∈ s.toList) : ∃ a b rest, split s c = a :: b :: rest := by
  obtain ⟨xs, ys, hs⟩ := List.append_of_mem h
  have hsplit : s.toList.splitOn c = xs.splitOn c ++ ys.splitOn c := by rw [hs, List.splitOn_append_cons_self]
  obtain ⟨x, l, hx⟩ := List.exists_cons_of_ne_nil (List.splitOn_ne_nil c xs)
  obtain ⟨y, m, hy⟩ := List.exists_cons_of_ne_nil (List.splitOn_ne_nil c ys)
  rw [split, hsplit, hx, hy]
  cases l with
  | nil => exact ⟨_, _, _, rfl⟩
  | cons z l => exact ⟨_, _, _, rfl⟩

/-- The parts with `sep` between them. -/
def join (parts : List String) (sep : Char) : String := String.ofList ([sep].intercalate (parts.map String.toList))

theorem join_split (s : String) (sep : Char) : join (split s sep) sep = s := by
  rw [join, ← split_join, String.ofList_toList]

theorem split_of_join {parts : List String} {sep : Char} (hne : parts ≠ []) (h : ∀ t ∈ parts, sep ∉ t.toList) :
    split (join parts sep) sep = parts := by
  rw [split, join, String.toList_ofList, List.splitOn_intercalate]
  · simp
  · intro l hl
    obtain ⟨t, ht, rfl⟩ := List.mem_map.1 hl
    exact h t ht
  · simpa using hne

theorem sep_not_mem_split {s : String} {sep : Char} : ∀ t ∈ split s sep, sep ∉ t.toList := by
  intro t ht
  obtain ⟨l, hl, rfl⟩ := List.mem_map.1 ht
  rw [String.toList_ofList]
  exact not_mem_splitOn l hl

theorem sliceEnd_append (s p : String) : sliceEnd (s ++ p) p.toList.length = s := by
  rw [sliceEnd, String.toList_append, List.rdrop_append_length, String.ofList_toList]

theorem endsWith_append (s p : String) : endsWith (s ++ p) p = true := by
  refine List.isSuffixOf_iff_suffix.2 ⟨s.toList, ?_⟩
  rw [String.toList_append]

/-- What a suffix ends. -/
theorem endsWith_eq {s p : String} (h : endsWith s p = true) : sliceEnd s p.toList.length ++ p = s := by
  obtain ⟨front, hfront⟩ := List.isSuffixOf_iff_suffix.1 h
  have hs : String.ofList front ++ p = s := by
    rw [← String.toList_inj, String.toList_append, String.toList_ofList, hfront]
  rw [← hs, sliceEnd_append]

/-- A text includes a character's text if it has the character. -/
theorem includes_char {s p : String} {c : Char} (hp : p.toList = [c]) : includes s p = true ↔ c ∈ s.toList := by
  rw [includes, hp, List.any_eq_true]
  constructor
  · intro h
    obtain ⟨t, ht, hpre⟩ := h
    exact ((List.mem_tails _ _).1 ht).subset ((List.isPrefixOf_iff_prefix.1 hpre).subset (List.mem_singleton.2 rfl))
  · intro h
    obtain ⟨xs, ys, hs⟩ := List.append_of_mem h
    exact ⟨c :: ys, (List.mem_tails _ _).2 ⟨xs, hs.symm⟩, List.isPrefixOf_iff_prefix.2 ⟨ys, rfl⟩⟩

/-- Where the first occurrence of `p` starts. -/
def indexOf (s p : String) : Option Nat := s.toList.tails.findIdx? fun t => p.toList.isPrefixOf t

/-- The text on both sides of an occurrence. -/
theorem indexOf_some {s p : String} {i : Nat} (h : indexOf s p = some i) :
    s.toList = s.toList.take i ++ (p.toList ++ s.toList.drop (i + p.toList.length)) := by
  unfold indexOf at h
  obtain ⟨hi, hp, -⟩ := List.findIdx?_eq_some_iff_getElem.1 h
  rw [List.getElem_tails] at hp
  obtain ⟨rest, hrest⟩ := List.isPrefixOf_iff_prefix.1 hp
  have hdrop : s.toList.drop (i + p.toList.length) = rest := by
    rw [← List.drop_drop, ← hrest, List.drop_left]
  rw [hdrop, hrest, List.take_append_drop]

theorem indexOf_none {s p : String} {c : Char} (hp : p.toList = [c]) (h : c ∉ s.toList) : indexOf s p = none := by
  unfold indexOf
  rw [hp, List.findIdx?_eq_none_iff]
  intro t ht
  rw [Bool.eq_false_iff]
  intro hpre
  refine h (((List.mem_tails _ _).1 ht).subset ?_)
  exact (List.isPrefixOf_iff_prefix.1 hpre).subset List.mem_cons_self

/-- The text in front of the first `c`. -/
theorem takeWhile_of_indexOf_none {s p : String} {c : Char} (hp : p.toList = [c]) (h : indexOf s p = none) :
    s.toList.takeWhile (· ≠ c) = s.toList := by
  rw [List.takeWhile_eq_self_iff]
  intro d hd
  rw [decide_eq_true_eq]
  rintro rfl
  obtain ⟨xs, ys, hs⟩ := List.append_of_mem hd
  rw [indexOf, hp, List.findIdx?_eq_none_iff] at h
  have hocc := h (d :: ys) ((List.mem_tails _ _).2 ⟨xs, hs.symm⟩)
  simp at hocc

theorem takeWhile_of_indexOf_some {s p : String} {c : Char} {i : Nat} (hp : p.toList = [c]) (h : indexOf s p = some i) :
    s.toList.takeWhile (· ≠ c) = s.toList.take i := by
  have htext := indexOf_some h
  rw [hp] at htext
  unfold indexOf at h
  obtain ⟨hi, -, hbefore⟩ := List.findIdx?_eq_some_iff_getElem.1 h
  have hno : ∀ d ∈ s.toList.take i, decide (d ≠ c) = true := by
    intro d hd
    rw [decide_eq_true_eq]
    rintro rfl
    obtain ⟨j, hj, hd⟩ := List.getElem_of_mem hd
    rw [List.length_take] at hj
    have hj' : j < s.toList.length := by omega
    have hnot := hbefore j (by omega)
    rw [List.getElem_tails, hp, List.drop_eq_getElem_cons hj'] at hnot
    rw [List.getElem_take] at hd
    simp [hd] at hnot
  have hcut : (s.toList.take i ++ ([c] ++ s.toList.drop (i + [c].length))).takeWhile (· ≠ c) = s.toList.take i := by
    rw [List.takeWhile_append_of_pos hno]
    simp
  rwa [← htext] at hcut

/-- Decimal digits as a number. -/
def digits? (s : String) : Option Nat :=
  if s ≠ "" ∧ s.toList.all Char.isDigit then some (s.toList.foldl (fun n d => 10 * n + (d.toNat - 48)) 0) else none

def hexDigit? (c : Char) : Option Nat :=
  if c.isDigit then some (c.toNat - 48)
  else if 'a' ≤ c ∧ c ≤ 'f' then some (c.toNat - 87)
  else if 'A' ≤ c ∧ c ≤ 'F' then some (c.toNat - 55)
  else none

theorem hexDigit?_lt {c : Char} {d : Nat} (h : hexDigit? c = some d) : d < 16 := by
  unfold hexDigit? at h
  have hle : ∀ {a b : Char}, a ≤ b ↔ a.toNat ≤ b.toNat := Iff.rfl
  split at h
  · rename_i hc
    simp only [Char.isDigit, Bool.and_eq_true, decide_eq_true_eq, UInt32.le_iff_toNat_le] at hc
    have hhi : c.toNat ≤ 57 := hc.2
    injection h with h
    omega
  · split at h
    · rename_i hc
      rw [hle, hle] at hc
      have hhi : c.toNat ≤ 102 := hc.2
      injection h with h
      omega
    · split at h
      · rename_i hc
        rw [hle, hle] at hc
        have hhi : c.toNat ≤ 70 := hc.2
        injection h with h
        omega
      · cases h

def hex? (s : String) : Option Nat :=
  if s = "" then none else s.toList.foldlM (fun n c => (hexDigit? c).map (16 * n + ·)) 0

/-- Digits before and after a point, at least one in all, then an exponent if any. -/
def decimal? (cs : List Char) : Option Rat :=
  let ip := cs.takeWhile Char.isDigit
  let cs := cs.dropWhile Char.isDigit
  let fp := match cs with
    | '.' :: r => r.takeWhile Char.isDigit
    | _ => []
  let cs := match cs with
    | '.' :: r => r.dropWhile Char.isDigit
    | _ => cs
  let value (ds : List Char) : Nat := ds.foldl (fun n d => 10 * n + (d.toNat - 48)) 0
  let mantissa : Rat := (value (ip ++ fp) : Rat) / (10 ^ fp.length : Nat)
  if ip ++ fp = [] then none
  else match cs with
    | [] => some mantissa
    | e :: r =>
      if e = 'e' ∨ e = 'E' then
        match r with
        | '-' :: ds => (digits? (String.ofList ds)).map fun n => mantissa / (10 ^ n : Nat)
        | '+' :: ds => (digits? (String.ofList ds)).map fun n => mantissa * (10 ^ n : Nat)
        | ds => (digits? (String.ofList ds)).map fun n => mantissa * (10 ^ n : Nat)
      else none

/-- `Number(text)`, where that is finite. -/
def toNumber? (s : String) : Option Rat :=
  match (trim s).toList with
  | [] => some 0
  | '0' :: 'x' :: cs | '0' :: 'X' :: cs => (hex? (String.ofList cs)).map fun n => (n : Rat)
  | '-' :: cs => (decimal? cs).map (- ·)
  | '+' :: cs => decimal? cs
  | cs => decimal? cs

def utf16Length (s : String) : Nat := (s.toList.map fun c => if c.toNat < 0x10000 then 1 else 2).sum

theorem isAlpha_cases (c : Char) : c.isAlpha = (c.isUpper || c.isLower) := rfl

theorem isUpper_range (c : Char) : c.isUpper = decide (c.val ≥ 65 ∧ c.val ≤ 90) := rfl

theorem isLower_range (c : Char) : c.isLower = (decide (c.val ≥ 97) && decide (c.val ≤ 122)) := rfl

theorem alphanum_range {c : Char} (h : c.isAlphanum = true) : 48 ≤ c.toNat ∧ c.toNat ≤ 122 := by
  simp only [Char.isAlphanum, isAlpha_cases, isUpper_range, isLower_range, Char.isDigit, Bool.or_eq_true, Bool.and_eq_true,
    decide_eq_true_eq, ge_iff_le, UInt32.le_iff_toNat_le] at h
  rcases h with (⟨h, h'⟩ | ⟨h, h'⟩) | ⟨h, h'⟩
  · have hlow : 65 ≤ c.toNat := h
    have hhigh : c.toNat ≤ 90 := h'
    omega
  · have hlow : 97 ≤ c.toNat := h
    have hhigh : c.toNat ≤ 122 := h'
    omega
  · have hlow : 48 ≤ c.toNat := h
    have hhigh : c.toNat ≤ 57 := h'
    omega

/-- `toLowerCase` of a text whose letters are ASCII. Others stay as they are: the names it is
    read of (headers, hosts, schemes, flags) are taken to be ASCII, as their formats have it;
    the language itself also lowers, for one, U+212A to k. -/
def toLowerAscii (s : String) : String := String.ofList (s.toList.map Char.toLower)

theorem toLower_toLower (c : Char) : c.toLower.toLower = c.toLower := by
  by_cases h : c.val ≥ 'A'.val ∧ c.val ≤ 'Z'.val
  · have hv : c.toLower.val = c.val + 32 := congrArg Char.val (dif_pos h : c.toLower = _)
    have hnot : ¬(c.toLower.val ≥ 'A'.val ∧ c.toLower.val ≤ 'Z'.val) := by
      rw [hv]
      intro h'
      have h1 : (65 : UInt32) ≤ c.val := h.1
      have h2 : c.val ≤ (90 : UInt32) := h.2
      have h3 : c.val + 32 ≤ (90 : UInt32) := h'.2
      rw [UInt32.le_iff_toNat_le] at h1 h2 h3
      rw [UInt32.toNat_add] at h3
      simp at h1 h2 h3
      omega
    exact dif_neg hnot
  · have hv : c.toLower = c := dif_neg h
    rw [hv, hv]

@[simp] theorem toLowerAscii_toLowerAscii (s : String) : toLowerAscii (toLowerAscii s) = toLowerAscii s := by
  simp only [toLowerAscii, String.toList_ofList, List.map_map]
  congr 1
  exact List.map_congr_left fun c _ => toLower_toLower c

end ClusterGate.Lib.Text
