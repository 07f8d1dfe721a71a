/-
  ClusterGate.Lib.Base64 — bytes as base64 text, and text read back as the platform reads
  it: characters outside the alphabet are skipped, the padding among them, and `-` and `_`
  stand for `+` and `/`.
  - `decode_encode`: bytes come back.
-/

import ClusterGate.Lib.Text

namespace ClusterGate.Lib.Base64

abbrev Bytes := List UInt8

def alphabet : List Char := "ABCDEFGHIJKLMNOPQRSTUVWXYZabcdefghijklmnopqrstuvwxyz0123456789+/".toList

def digitChar (n : Nat) : Char := alphabet.getD n 'A'

def charDigit? (c : Char) : Option Nat := alphabet.idxOf? (if c = '-' then '+' else if c = '_' then '/' else c)

/-- Three bytes are four digits; one or two at the end are two or three. -/
def digitsOf : Bytes → List Nat
  | a :: b :: c :: rest =>
    a.toNat / 4 :: (a.toNat % 4 * 16 + b.toNat / 16) :: (b.toNat % 16 * 4 + c.toNat / 64) :: c.toNat % 64 :: digitsOf rest
  | [a, b] => [a.toNat / 4, a.toNat % 4 * 16 + b.toNat / 16, b.toNat % 16 * 4]
  | [a] => [a.toNat / 4, a.toNat % 4 * 16]
  | [] => []

def bytesOf : List Nat → Bytes
  | w :: x :: y :: z :: rest =>
    UInt8.ofNat (w * 4 + x / 16) :: UInt8.ofNat (x % 16 * 16 + y / 4) :: UInt8.ofNat (y % 4 * 64 + z) :: bytesOf rest
  | [w, x, y] => [UInt8.ofNat (w * 4 + x / 16), UInt8.ofNat (x % 16 * 16 + y / 4)]
  | [w, x] => [UInt8.ofNat (w * 4 + x / 16)]
  | _ => []

/-- What fills the last group up to four characters. -/
def padding (bs : Bytes) : List Char :=
  if bs.length % 3 = 1 then ['=', '='] else if bs.length % 3 = 2 then ['='] else []

def encode (bs : Bytes) : String := String.ofList ((digitsOf bs).map digitChar ++ padding bs)

def decode (s : String) : Bytes := bytesOf (s.toList.filterMap charDigit?)

example : encode [77, 97, 110, 65] = "TWFuQQ==" := by decide

theorem charDigit_digitChar {n : Nat} (h : n < 64) : charDigit? (digitChar n) = some n := by
  have hall : ∀ m : Fin 64, charDigit? (digitChar m) = some m.val := by decide +kernel
  exact hall ⟨n, h⟩

theorem digitsOf_lt (bs : Bytes) : ∀ n ∈ digitsOf bs, n < 64 := by
  have hb : ∀ b : UInt8, b.toNat < 256 := fun b => b.toNat_lt
  induction bs using digitsOf.induct with
  | case1 a b c rest ih =>
    intro n hn
    have ha := hb a
    have hb' := hb b
    have hc := hb c
    simp only [digitsOf, List.mem_cons] at hn
    rcases hn with rfl | rfl | rfl | rfl | hn
    · omega
    · omega
    · omega
    · omega
    · exact ih n hn
  | case2 a b =>
    intro n hn
    have ha := hb a
    have hb' := hb b
    simp only [digitsOf, List.mem_cons, List.not_mem_nil, or_false] at hn
    omega
  | case3 a =>
    intro n hn
    have ha := hb a
    simp only [digitsOf, List.mem_cons, List.not_mem_nil, or_false] at hn
    omega
  | case4 => simp [digitsOf]

theorem bytesOf_digitsOf (bs : Bytes) : bytesOf (digitsOf bs) = bs := by
  have hb : ∀ b : UInt8, b.toNat < 256 := fun b => b.toNat_lt
  have hback : ∀ (b : UInt8) (n : Nat), n = b.toNat → UInt8.ofNat n = b := by
    intro b n h
    rw [h, UInt8.ofNat_toNat]
  induction bs using digitsOf.induct with
  | case1 a b c rest ih =>
    have ha := hb a
    have hb' := hb b
    have hc := hb c
    simp only [digitsOf, bytesOf, ih]
    rw [hback a _ (by omega), hback b _ (by omega), hback c _ (by omega)]
  | case2 a b =>
    have ha := hb a
    have hb' := hb b
    simp only [digitsOf, bytesOf]
    rw [hback a _ (by omega), hback b _ (by omega)]
  | case3 a =>
    have ha := hb a
    simp only [digitsOf, bytesOf]
    rw [hback a _ (by omega)]
  | case4 => rfl

theorem decode_encode (bs : Bytes) : decode (encode bs) = bs := by
  have hdigits : ((digitsOf bs).map digitChar).filterMap charDigit? = digitsOf bs := by
    rw [List.filterMap_map]
    have hsome : ∀ n ∈ digitsOf bs, (charDigit? ∘ digitChar) n = some n :=
      fun n hn => charDigit_digitChar (digitsOf_lt bs n hn)
    rw [List.filterMap_congr hsome, List.filterMap_some]
  have hpad : (padding bs).filterMap charDigit? = [] := by
    have heq : charDigit? '=' = none := by decide +kernel
    unfold padding
    split
    · simp [heq]
    · split
      · simp [heq]
      · rfl
  unfold decode encode
  rw [String.toList_ofList, List.filterMap_append, hdigits, hpad, List.append_nil, bytesOf_digitsOf]

end ClusterGate.Lib.Base64
