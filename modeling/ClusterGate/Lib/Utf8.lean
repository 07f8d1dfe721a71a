/-
  ClusterGate.Lib.Utf8 — bytes as the text they are decoded to.

  The decoder reads one byte after another. A byte that cannot follow what has been read of
  a character ends it with a replacement character and is read again as a first byte; so
  does the end of the bytes.
  - `decode_encode`: the bytes of a text are decoded to it.
  - `prefix_encode`, `decode_inside`: a prefix of them to its first characters, with one
    replacement character behind them if it ends inside the next.
  - `units_decode_le`: the text has no more UTF-16 units than there are bytes.
  - `decode_pieces`: bytes that are read in pieces give the text they give in one.
-/

import ClusterGate.Lib.Base64
import ClusterGate.Lib.JsonCompact

namespace ClusterGate.Lib.Utf8

open Base64 (Bytes)
open JsonParse (Units toNat_ofNat)

/-- What has been read of a character: the bits of its code point, how many more bytes it
    needs, and between which values the next of them is. -/
structure Partial where
  point : Nat
  needed : Nat
  lower : Nat
  upper : Nat

def replacement : Char := '\uFFFD'

def first (b : Nat) : List Char × Option Partial :=
  if b ≤ 0x7F then ([Char.ofNat b], none)
  else if 0xC2 ≤ b ∧ b ≤ 0xDF then ([], some ⟨b - 0xC0, 1, 0x80, 0xBF⟩)
  else if 0xE0 ≤ b ∧ b ≤ 0xEF then
    ([], some ⟨b - 0xE0, 2, if b = 0xE0 then 0xA0 else 0x80, if b = 0xED then 0x9F else 0xBF⟩)
  else if 0xF0 ≤ b ∧ b ≤ 0xF4 then
    ([], some ⟨b - 0xF0, 3, if b = 0xF0 then 0x90 else 0x80, if b = 0xF4 then 0x8F else 0xBF⟩)
  else ([replacement], none)

def next (p : Partial) (b : Nat) : List Char × Option Partial :=
  if p.lower ≤ b ∧ b ≤ p.upper then
    if p.needed = 1 then ([Char.ofNat (p.point * 64 + (b - 0x80))], none)
    else ([], some ⟨p.point * 64 + (b - 0x80), p.needed - 1, 0x80, 0xBF⟩)
  else (replacement :: (first b).1, (first b).2)

def step (p : Option Partial) (b : Nat) : List Char × Option Partial :=
  match p with
  | none => first b
  | some p => next p b

def decodeFrom (p : Option Partial) : Bytes → List Char
  | [] => if p.isSome then [replacement] else []
  | b :: bs => (step p b.toNat).1 ++ decodeFrom (step p b.toNat).2 bs

/-- `Buffer.toString('utf8')` -/
def decode (bs : Bytes) : List Char := decodeFrom none bs

/-- A text in UTF-8. -/
def encode (cs : List Char) : Bytes := cs.flatMap String.utf8EncodeChar

@[simp] theorem decodeFrom_nil : decodeFrom none [] = [] := rfl
theorem decodeFrom_cons (p : Option Partial) (b : UInt8) (bs : Bytes) :
    decodeFrom p (b :: bs) = (step p b.toNat).1 ++ decodeFrom (step p b.toNat).2 bs := rfl

/-! ## One character -/

theorem next_last {point lower upper b : Nat} (h : lower ≤ b ∧ b ≤ upper) :
    next ⟨point, 1, lower, upper⟩ b = ([Char.ofNat (point * 64 + (b - 0x80))], none) := by
  simp [next, h]

theorem next_more {point needed lower upper b : Nat} (h : lower ≤ b ∧ b ≤ upper) :
    next ⟨point, needed + 2, lower, upper⟩ b = ([], some ⟨point * 64 + (b - 0x80), needed + 1, 0x80, 0xBF⟩) := by
  simp [next, h]

/-- The ways a character is written, with the numbers of its bytes. -/
inductive Written (c : Char) : Bytes → Prop
  | one {a : UInt8} : a.toNat ≤ 0x7F → c.toNat = a.toNat → Written c [a]
  | two {a b : UInt8} : 0xC2 ≤ a.toNat → a.toNat ≤ 0xDF → 0x80 ≤ b.toNat → b.toNat ≤ 0xBF →
      c.toNat = (a.toNat - 0xC0) * 64 + (b.toNat - 0x80) → Written c [a, b]
  | three {a b d : UInt8} : 0xE0 ≤ a.toNat → a.toNat ≤ 0xEF →
      (if a.toNat = 0xE0 then 0xA0 else 0x80) ≤ b.toNat → b.toNat ≤ (if a.toNat = 0xED then 0x9F else 0xBF) →
      0x80 ≤ d.toNat → d.toNat ≤ 0xBF →
      c.toNat = ((a.toNat - 0xE0) * 64 + (b.toNat - 0x80)) * 64 + (d.toNat - 0x80) → Written c [a, b, d]
  | four {a b d e : UInt8} : 0xF0 ≤ a.toNat → a.toNat ≤ 0xF4 →
      (if a.toNat = 0xF0 then 0x90 else 0x80) ≤ b.toNat → b.toNat ≤ (if a.toNat = 0xF4 then 0x8F else 0xBF) →
      0x80 ≤ d.toNat → d.toNat ≤ 0xBF → 0x80 ≤ e.toNat → e.toNat ≤ 0xBF →
      c.toNat = (((a.toNat - 0xF0) * 64 + (b.toNat - 0x80)) * 64 + (d.toNat - 0x80)) * 64 + (e.toNat - 0x80) →
      Written c [a, b, d, e]

theorem char_valid (c : Char) : c.toNat < 0xD800 ∨ (0xDFFF < c.toNat ∧ c.toNat < 0x110000) := c.valid

theorem written_encode (c : Char) : Written c (String.utf8EncodeChar c) := by
  have hvalid := char_valid c
  have byte : ∀ {n : Nat}, n < 256 → (UInt8.ofNat n).toNat = n := fun h => by simp [Nat.mod_eq_of_lt h]
  have hval : c.val.toNat = c.toNat := rfl
  unfold String.utf8EncodeChar
  dsimp only
  rw [hval]
  split
  · have ha : (UInt8.ofNat c.toNat).toNat = c.toNat := byte (by omega)
    exact .one (by omega) ha.symm
  · split
    · have ha : (UInt8.ofNat (c.toNat / 64 % 32 + 192)).toNat = c.toNat / 64 + 192 := (byte (by omega)).trans (by omega)
      have hb : (UInt8.ofNat (c.toNat % 64 + 128)).toNat = c.toNat % 64 + 128 := byte (by omega)
      exact .two (by omega) (by omega) (by omega) (by omega) (by omega)
    · split
      · have ha : (UInt8.ofNat (c.toNat / 4096 % 16 + 224)).toNat = c.toNat / 4096 + 224 := (byte (by omega)).trans (by omega)
        have hb : (UInt8.ofNat (c.toNat / 64 % 64 + 128)).toNat = c.toNat / 64 % 64 + 128 := byte (by omega)
        have hd : (UInt8.ofNat (c.toNat % 64 + 128)).toNat = c.toNat % 64 + 128 := byte (by omega)
        refine .three (by omega) (by omega) ?_ ?_ (by omega) (by omega) (by omega)
        · split <;> omega
        · split <;> omega
      · have ha : (UInt8.ofNat (c.toNat / 262144 % 8 + 240)).toNat = c.toNat / 262144 + 240 :=
          (byte (by omega)).trans (by omega)
        have hb : (UInt8.ofNat (c.toNat / 4096 % 64 + 128)).toNat = c.toNat / 4096 % 64 + 128 := byte (by omega)
        have hd : (UInt8.ofNat (c.toNat / 64 % 64 + 128)).toNat = c.toNat / 64 % 64 + 128 := byte (by omega)
        have he : (UInt8.ofNat (c.toNat % 64 + 128)).toNat = c.toNat % 64 + 128 := byte (by omega)
        refine .four (by omega) (by omega) ?_ ?_ (by omega) (by omega) (by omega) (by omega) (by omega)
        · split <;> omega
        · split <;> omega

/-- How many bytes a character takes. -/
theorem Written.length_eq {c : Char} {bs : Bytes} (h : Written c bs) :
    bs.length = if c.toNat < 0x80 then 1 else if c.toNat < 0x800 then 2 else if c.toNat < 0x10000 then 3 else 4 := by
  cases h with
  | one ha hc => rw [if_pos (by omega)]; rfl
  | two ha ha' hb hb' hc => rw [if_neg (by omega), if_pos (by omega)]; rfl
  | @three a b d ha ha' hb hb' hd hd' hc =>
    have hlow : 0x80 ≤ b.toNat ∧ (a.toNat = 0xE0 → 0xA0 ≤ b.toNat) := by
      split at hb <;> omega
    have hhigh : b.toNat ≤ 0xBF := by
      split at hb' <;> omega
    rw [if_neg (by omega), if_neg (by omega), if_pos (by omega)]
    rfl
  | @four a b d e ha ha' hb hb' hd hd' he he' hc =>
    have hlow : 0x80 ≤ b.toNat ∧ (a.toNat = 0xF0 → 0x90 ≤ b.toNat) := by
      split at hb <;> omega
    have hhigh : b.toNat ≤ 0xBF := by
      split at hb' <;> omega
    rw [if_neg (by omega), if_neg (by omega), if_neg (by omega)]
    rfl

/-- A character is written in one way. -/
theorem Written.eq {c : Char} {bs : Bytes} (h : Written c bs) : bs = String.utf8EncodeChar c := by
  have h' := written_encode c
  have hlength := h.length_eq.trans h'.length_eq.symm
  generalize String.utf8EncodeChar c = ds at h' hlength ⊢
  have same : ∀ {x y : UInt8}, x.toNat = y.toNat → x = y := UInt8.toNat_inj.1
  cases h with
  | @one a ha hc =>
    cases h' with
    | @one a2 ha2 hc2 => rw [show a = a2 from same (by omega)]
    | two | three | four => simp at hlength
  | @two a b ha ha' hb hb' hc =>
    cases h' with
    | @two a2 b2 ha2 ha2' hb2 hb2' hc2 => rw [show a = a2 from same (by omega), show b = b2 from same (by omega)]
    | one | three | four => simp at hlength
  | @three a b d ha ha' hb hb' hd hd' hc =>
    cases h' with
    | @three a2 b2 d2 ha2 ha2' hb2 hb2' hd2 hd2' hc2 =>
      have hlow : 0x80 ≤ b.toNat ∧ 0x80 ≤ b2.toNat := by
        split at hb <;> split at hb2 <;> omega
      have hhigh : b.toNat ≤ 0xBF ∧ b2.toNat ≤ 0xBF := by
        split at hb' <;> split at hb2' <;> omega
      rw [show a = a2 from same (by omega), show b = b2 from same (by omega), show d = d2 from same (by omega)]
    | one | two | four => simp at hlength
  | @four a b d e ha ha' hb hb' hd hd' he he' hc =>
    cases h' with
    | @four a2 b2 d2 e2 ha2 ha2' hb2 hb2' hd2 hd2' he2 he2' hc2 =>
      have hlow : 0x80 ≤ b.toNat ∧ 0x80 ≤ b2.toNat := by
        split at hb <;> split at hb2 <;> omega
      have hhigh : b.toNat ≤ 0xBF ∧ b2.toNat ≤ 0xBF := by
        split at hb' <;> split at hb2' <;> omega
      rw [show a = a2 from same (by omega), show b = b2 from same (by omega), show d = d2 from same (by omega), show e = e2 from same (by omega)]
    | one | two | three => simp at hlength

/-- The decoder takes the bytes of a character one by one, and has it with the last. -/
theorem Written.steps {c : Char} {bs : Bytes} (h : Written c bs) :
    ∃ front last, bs = front ++ [last] ∧
      (∀ rest, decodeFrom none (front ++ last :: rest) = c :: decodeFrom none rest) ∧
      ∀ part, part <+: front → part ≠ [] → decodeFrom none part = [replacement] := by
  have whole : ∀ {n : Nat}, c.toNat = n → Char.ofNat n = c := fun h => by rw [← h, Char.ofNat_toNat]
  cases h with
  | @one a ha hc =>
    have hfirst : first a.toNat = ([c], none) := by rw [first, if_pos ha, whole hc]
    refine ⟨[], a, rfl, fun rest => ?_, fun part hpart hne => absurd (List.prefix_nil.1 hpart) hne⟩
    rw [List.nil_append, decodeFrom_cons, step, hfirst]
    rfl
  | @two a b ha ha' hb hb' hc =>
    have hfirst : first a.toNat = ([], some ⟨a.toNat - 0xC0, 1, 0x80, 0xBF⟩) := by
      rw [first, if_neg (by omega), if_pos ⟨ha, ha'⟩]
    have hsecond : next ⟨a.toNat - 0xC0, 1, 0x80, 0xBF⟩ b.toNat = ([c], none) := by
      rw [next_last ⟨hb, hb'⟩, whole hc]
    refine ⟨[a], b, rfl, fun rest => ?_, fun part hpart hne => ?_⟩
    · rw [List.cons_append, List.nil_append, decodeFrom_cons, step, hfirst, decodeFrom_cons, step, hsecond]
      rfl
    · obtain ⟨x, xs, rfl⟩ := List.exists_cons_of_ne_nil hne
      obtain ⟨rfl, hxs⟩ := List.cons_prefix_cons.1 hpart
      rw [List.prefix_nil.1 hxs, decodeFrom_cons, step, hfirst]
      rfl
  | @three a b d ha ha' hb hb' hd hd' hc =>
    have hfirst : first a.toNat = ([], some ⟨a.toNat - 0xE0, 2, if a.toNat = 0xE0 then 0xA0 else 0x80,
        if a.toNat = 0xED then 0x9F else 0xBF⟩) := by
      rw [first, if_neg (by omega), if_neg (by omega), if_pos ⟨ha, ha'⟩]
    have hsecond : next ⟨a.toNat - 0xE0, 2, if a.toNat = 0xE0 then 0xA0 else 0x80,
        if a.toNat = 0xED then 0x9F else 0xBF⟩ b.toNat =
        ([], some ⟨(a.toNat - 0xE0) * 64 + (b.toNat - 0x80), 1, 0x80, 0xBF⟩) := by
      exact next_more ⟨hb, hb'⟩
    have hthird : next ⟨(a.toNat - 0xE0) * 64 + (b.toNat - 0x80), 1, 0x80, 0xBF⟩ d.toNat = ([c], none) := by
      rw [next_last ⟨hd, hd'⟩, whole hc]
    refine ⟨[a, b], d, rfl, fun rest => ?_, fun part hpart hne => ?_⟩
    · rw [List.cons_append, List.cons_append, List.nil_append, decodeFrom_cons, step, hfirst, decodeFrom_cons, step,
        hsecond, decodeFrom_cons, step, hthird]
      rfl
    · obtain ⟨x, xs, rfl⟩ := List.exists_cons_of_ne_nil hne
      obtain ⟨rfl, hxs⟩ := List.cons_prefix_cons.1 hpart
      rw [decodeFrom_cons, step, hfirst]
      cases xs with
      | nil => rfl
      | cons y ys =>
        obtain ⟨rfl, hys⟩ := List.cons_prefix_cons.1 hxs
        rw [List.prefix_nil.1 hys, decodeFrom_cons, step, hsecond]
        rfl
  | @four a b d e ha ha' hb hb' hd hd' he he' hc =>
    have hfirst : first a.toNat = ([], some ⟨a.toNat - 0xF0, 3, if a.toNat = 0xF0 then 0x90 else 0x80,
        if a.toNat = 0xF4 then 0x8F else 0xBF⟩) := by
      rw [first, if_neg (by omega), if_neg (by omega), if_neg (by omega), if_pos ⟨ha, ha'⟩]
    have hsecond : next ⟨a.toNat - 0xF0, 3, if a.toNat = 0xF0 then 0x90 else 0x80,
        if a.toNat = 0xF4 then 0x8F else 0xBF⟩ b.toNat =
        ([], some ⟨(a.toNat - 0xF0) * 64 + (b.toNat - 0x80), 2, 0x80, 0xBF⟩) := by
      exact next_more ⟨hb, hb'⟩
    have hthird : next ⟨(a.toNat - 0xF0) * 64 + (b.toNat - 0x80), 2, 0x80, 0xBF⟩ d.toNat =
        ([], some ⟨((a.toNat - 0xF0) * 64 + (b.toNat - 0x80)) * 64 + (d.toNat - 0x80), 1, 0x80, 0xBF⟩) := by
      exact next_more ⟨hd, hd'⟩
    have hfourth : next ⟨((a.toNat - 0xF0) * 64 + (b.toNat - 0x80)) * 64 + (d.toNat - 0x80), 1, 0x80, 0xBF⟩ e.toNat =
        ([c], none) := by
      rw [next_last ⟨he, he'⟩, whole hc]
    refine ⟨[a, b, d], e, rfl, fun rest => ?_, fun part hpart hne => ?_⟩
    · rw [List.cons_append, List.cons_append, List.cons_append, List.nil_append, decodeFrom_cons, step, hfirst,
        decodeFrom_cons, step, hsecond, decodeFrom_cons, step, hthird, decodeFrom_cons, step, hfourth]
      rfl
    · obtain ⟨x, xs, rfl⟩ := List.exists_cons_of_ne_nil hne
      obtain ⟨rfl, hxs⟩ := List.cons_prefix_cons.1 hpart
      rw [decodeFrom_cons, step, hfirst]
      cases xs with
      | nil => rfl
      | cons y ys =>
        obtain ⟨rfl, hys⟩ := List.cons_prefix_cons.1 hxs
        rw [decodeFrom_cons, step, hsecond]
        cases ys with
        | nil => rfl
        | cons z zs =>
          obtain ⟨rfl, hzs⟩ := List.cons_prefix_cons.1 hys
          rw [List.prefix_nil.1 hzs, decodeFrom_cons, step, hthird]
          rfl

theorem decode_char (c : Char) (rest : Bytes) :
    decodeFrom none (String.utf8EncodeChar c ++ rest) = c :: decodeFrom none rest := by
  obtain ⟨front, last, hbytes, hread, -⟩ := (written_encode c).steps
  rw [hbytes, List.append_assoc]
  exact hread rest

/-- Some of a character's bytes, and not all. -/
def Inside (c : Char) (part : Bytes) : Prop :=
  part <+: String.utf8EncodeChar c ∧ part ≠ [] ∧ part ≠ String.utf8EncodeChar c

/-- They give one replacement character for it. -/
theorem decode_part {c : Char} {part : Bytes} (h : Inside c part) : decodeFrom none part = [replacement] := by
  obtain ⟨hpart, hne, hnot⟩ := h
  obtain ⟨front, last, hbytes, -, hinside⟩ := (written_encode c).steps
  rw [hbytes] at hpart hnot
  rcases List.prefix_concat_iff.1 hpart with hwhole | hfront
  · exact absurd hwhole hnot
  · exact hinside part hfront hne

/-! ## Texts -/

@[simp] theorem encode_nil : encode [] = [] := rfl
theorem encode_cons (c : Char) (cs : List Char) : encode (c :: cs) = String.utf8EncodeChar c ++ encode cs := rfl

theorem decode_encode_append (cs : List Char) (rest : Bytes) :
    decodeFrom none (encode cs ++ rest) = cs ++ decodeFrom none rest := by
  induction cs with
  | nil => rfl
  | cons c cs ih => rw [encode_cons, List.append_assoc, decode_char, ih, List.cons_append]

@[simp] theorem decode_encode (cs : List Char) : decode (encode cs) = cs := by
  have h := decode_encode_append cs []
  rwa [List.append_nil, decodeFrom_nil, List.append_nil] at h

/-- A prefix of a text's bytes is its first characters and a part of the next. -/
theorem prefix_encode {cs : List Char} {d : Bytes} (h : d <+: encode cs) :
    ∃ n part, d = encode (cs.take n) ++ part ∧ (part = [] ∨ ∃ c, cs[n]? = some c ∧ Inside c part) := by
  induction cs generalizing d with
  | nil => exact ⟨0, [], by simpa using h, .inl rfl⟩
  | cons c cs ih =>
    rw [encode_cons] at h
    rcases List.prefix_or_prefix_of_prefix h (List.prefix_append _ _) with hinside | ⟨rest, rfl⟩
    · by_cases hnil : d = []
      · exact ⟨0, [], by simp [hnil], .inl rfl⟩
      · by_cases hwhole : d = String.utf8EncodeChar c
        · exact ⟨1, [], by simp [hwhole, encode], .inl rfl⟩
        · exact ⟨0, d, by simp, .inr ⟨c, rfl, hinside, hnil, hwhole⟩⟩
    · obtain ⟨n, part, rfl, hpart⟩ := ih ((List.prefix_append_right_inj _).1 h)
      refine ⟨n + 1, part, ?_, by simpa using hpart⟩
      rw [List.take_succ_cons, encode_cons, List.append_assoc]

theorem decode_inside (cs : List Char) {c : Char} {part : Bytes} (h : Inside c part) :
    decode (encode cs ++ part) = cs ++ [replacement] := by
  rw [decode, decode_encode_append, decode_part h]

/-- Bytes of a text that end inside one of its characters, and not of one the decoder puts
    in its place. -/
def EndsInside (cs : List Char) (d : Bytes) : Prop :=
  ∃ n c part, cs[n]? = some c ∧ c ≠ replacement ∧ Inside c part ∧ d = encode (cs.take n) ++ part

theorem take_replacement {cs : List Char} {n k : Nat} {c : Char} (hc : cs[n]? = some c)
    (h : cs.take n ++ [replacement] = cs.take k) : c = replacement := by
  obtain ⟨hn, -⟩ := List.getElem?_eq_some_iff.1 hc
  have hlength : n < k := by
    have hlen := congrArg List.length h
    simp only [List.length_append, List.length_take, List.length_singleton] at hlen
    omega
  have hlast : (cs.take n ++ [replacement])[n]? = some replacement := by
    rw [List.getElem?_append_right (by simp), List.length_take, Nat.min_eq_left hn.le, Nat.sub_self]
    rfl
  rw [h, List.getElem?_take_of_lt hlength, hc] at hlast
  exact Option.some.inj hlast

/-- A prefix is decoded to characters of the text unless it ends inside one. -/
theorem decode_prefix_iff {cs : List Char} {d : Bytes} (h : d <+: encode cs) :
    (∃ k, decode d = cs.take k) ↔ ¬EndsInside cs d := by
  constructor
  · rintro ⟨k, hk⟩ ⟨n, c, part, hc, hne, hpart, rfl⟩
    rw [decode_inside _ hpart] at hk
    exact hne (take_replacement hc hk)
  · intro hnot
    obtain ⟨n, part, rfl, rfl | ⟨c, hc, hpart⟩⟩ := prefix_encode h
    · exact ⟨n, by rw [List.append_nil, decode_encode]⟩
    · obtain ⟨hn, hget⟩ := List.getElem?_eq_some_iff.1 hc
      by_cases hrep : c = replacement
      · exact ⟨n + 1, by rw [decode_inside _ hpart, List.take_succ_eq_append_getElem hn, hget, hrep]⟩
      · exact absurd ⟨n, c, part, hc, hrep, hpart, rfl⟩ hnot

/-! ## Its length -/

/-- A character that is being read gives something yet. -/
theorem decodeFrom_some_ne_nil (p : Partial) (bs : Bytes) : decodeFrom (some p) bs ≠ [] := by
  induction bs generalizing p with
  | nil => simp [decodeFrom]
  | cons b bs ih =>
    rw [decodeFrom_cons, step, next]
    split
    · split
      · simp
      · simpa using ih _
    · simp

theorem decode_ne_nil {bs : Bytes} (h : bs ≠ []) : decode bs ≠ [] := by
  obtain ⟨b, rest, rfl⟩ := List.exists_cons_of_ne_nil h
  rw [decode, decodeFrom_cons, step, first]
  split
  · simp
  · split
    · simpa using decodeFrom_some_ne_nil _ rest
    · split
      · simpa using decodeFrom_some_ne_nil _ rest
      · split
        · simpa using decodeFrom_some_ne_nil _ rest
        · simp

/-- What a character that is being read may still give beyond its last byte. -/
def held : Option Partial → Nat
  | none => 0
  | some _ => 1

theorem length_units_le (c : Char) : (JsonParse.units c).length ≤ 2 := by
  rw [JsonParse.units]
  split <;> simp

theorem length_units_replacement : (JsonParse.units replacement).length = 1 := rfl

theorem length_units_ofNat {n : Nat} (h : n ≤ 0x7F) : (JsonParse.units (Char.ofNat n)).length = 1 := by
  have hval : (Char.ofNat n).toNat = n := toNat_ofNat (.inl (by omega))
  rw [JsonParse.units, if_pos (by omega)]
  rfl

theorem first_units (b : Nat) : ((first b).1.flatMap JsonParse.units).length + held (first b).2 = 1 := by
  rw [first]
  split
  · rename_i h
    simp [held, length_units_ofNat h]
  · split
    · simp [held]
    · split
      · simp [held]
      · split <;> simp [held, length_units_replacement]

theorem step_units (p : Option Partial) (b : Nat) :
    ((step p b).1.flatMap JsonParse.units).length + held (step p b).2 ≤ 1 + held p := by
  cases p with
  | none => exact Nat.le_of_eq (first_units b)
  | some p =>
    rw [step, next]
    split
    · split
      · simpa [held] using length_units_le (Char.ofNat (p.point * 64 + (b - 0x80)))
      · simp [held]
    · have h := first_units b
      show ((replacement :: (first b).1).flatMap JsonParse.units).length + held (first b).2 ≤ 2
      rw [List.flatMap_cons, List.length_append, length_units_replacement]
      omega

theorem units_decodeFrom_le (p : Option Partial) (bs : Bytes) :
    ((decodeFrom p bs).flatMap JsonParse.units).length ≤ bs.length + held p := by
  induction bs generalizing p with
  | nil => cases p <;> simp [decodeFrom, held, length_units_replacement]
  | cons b bs ih =>
    have hstep := step_units p b.toNat
    have hrest := ih (step p b.toNat).2
    rw [decodeFrom_cons, List.flatMap_append, List.length_append, List.length_cons]
    omega

theorem units_decode_le (bs : Bytes) : ((decode bs).flatMap JsonParse.units).length ≤ bs.length := units_decodeFrom_le none bs

/-! ## In pieces -/

/-- The characters that are finished with some more bytes, and what has been read of the next. -/
def decodeMore (p : Option Partial) : Bytes → List Char × Option Partial
  | [] => ([], p)
  | b :: bs =>
    let more := decodeMore (step p b.toNat).2 bs
    ((step p b.toNat).1 ++ more.1, more.2)

theorem decodeMore_append (p : Option Partial) (bs bs' : Bytes) :
    decodeMore p (bs ++ bs') =
      ((decodeMore p bs).1 ++ (decodeMore (decodeMore p bs).2 bs').1, (decodeMore (decodeMore p bs).2 bs').2) := by
  induction bs generalizing p with
  | nil => rfl
  | cons b bs ih => simp only [List.cons_append, decodeMore, ih, List.append_assoc]

theorem decodeFrom_append (p : Option Partial) (bs rest : Bytes) :
    decodeFrom p (bs ++ rest) = (decodeMore p bs).1 ++ decodeFrom (decodeMore p bs).2 rest := by
  induction bs generalizing p with
  | nil => rfl
  | cons b bs ih => rw [List.cons_append, decodeFrom_cons, ih, decodeMore, List.append_assoc]

theorem decodeMore_char (c : Char) : decodeMore none (String.utf8EncodeChar c) = ([c], none) := by
  by_cases hc : c = replacement
  · rw [hc]
    rfl
  · have hwhole := decodeFrom_append none (String.utf8EncodeChar c) []
    rw [decode_char, decodeFrom_nil] at hwhole
    cases hpart : (decodeMore none (String.utf8EncodeChar c)).2 with
    | none =>
      rw [hpart, decodeFrom_nil, List.append_nil] at hwhole
      exact Prod.ext hwhole.symm hpart
    | some q =>
      -- Half a character would be shown as the replacement, which `c` is not.
      rw [hpart] at hwhole
      have hlast := congrArg List.getLast? hwhole
      rw [decodeFrom, Option.isSome_some, if_pos rfl, List.getLast?_concat] at hlast
      exact (hc (Option.some.inj hlast)).elim

theorem decodeMore_encode (cs : List Char) : decodeMore none (encode cs) = (cs, none) := by
  induction cs with
  | nil => rfl
  | cons c cs ih =>
    rw [encode_cons, decodeMore_append, decodeMore_char, ih]
    rfl

/-- A decoder for the pieces of a stream (`new TextDecoder()`). -/
structure TextDecoder where
  part : Option Partial
  bomSeen : Bool

def TextDecoder.fresh : TextDecoder := ⟨none, false⟩

/-- A byte order mark is left out where the text begins. -/
def withoutMark : Bool → List Char → List Char × Bool
  | true, cs => (cs, true)
  | false, [] => ([], false)
  | false, c :: cs => (if c = '\uFEFF' then cs else c :: cs, true)

/-- `decode(bytes, { stream: true })` -/
def TextDecoder.decode (d : TextDecoder) (bs : Bytes) : List Char × TextDecoder :=
  let more := decodeMore d.part bs
  let shown := withoutMark d.bomSeen more.1
  (shown.1, ⟨more.2, shown.2⟩)

theorem withoutMark_append (seen : Bool) (cs ds : List Char) :
    withoutMark seen (cs ++ ds) =
      ((withoutMark seen cs).1 ++ (withoutMark (withoutMark seen cs).2 ds).1, (withoutMark (withoutMark seen cs).2 ds).2) := by
  cases seen with
  | true => rfl
  | false =>
    cases cs with
    | nil => rfl
    | cons c cs =>
      simp only [List.cons_append, withoutMark]
      split <;> rfl

theorem TextDecoder.decode_append (d : TextDecoder) (bs bs' : Bytes) :
    d.decode (bs ++ bs') = ((d.decode bs).1 ++ ((d.decode bs).2.decode bs').1, ((d.decode bs).2.decode bs').2) := by
  simp only [TextDecoder.decode, decodeMore_append, withoutMark_append]

/-- The text of the pieces of a stream. -/
def TextDecoder.decodeAll (d : TextDecoder) : List Bytes → List Char
  | [] => []
  | piece :: pieces => (d.decode piece).1 ++ (d.decode piece).2.decodeAll pieces

theorem TextDecoder.decodeAll_flatten (d : TextDecoder) (pieces : List Bytes) :
    d.decodeAll pieces = (d.decode pieces.flatten).1 := by
  induction pieces generalizing d with
  | nil =>
    show [] = (withoutMark d.bomSeen []).1
    cases d.bomSeen <;> rfl
  | cons piece pieces ih => rw [List.flatten_cons, TextDecoder.decode_append, TextDecoder.decodeAll, ih]

/-- A text that is read in pieces is read whole, whatever the pieces, but for its byte order mark. -/
theorem decode_pieces {cs : List Char} {pieces : List Bytes} (h : pieces.flatten = encode cs) :
    TextDecoder.fresh.decodeAll pieces = (withoutMark false cs).1 := by
  rw [TextDecoder.decodeAll_flatten, h]
  simp only [TextDecoder.decode, TextDecoder.fresh, decodeMore_encode]

end ClusterGate.Lib.Utf8
