/-
  ClusterGate.Lib.Number — the integral numbers of the source language: doubles, with
  rounding, NaN and the infinities, and their conversion to 32-bit integers.

  `parseInt` reads a sign, `0x` and the longest run of digits, after white space; it has
  no value where there is no digit. Every result is rounded to the nearest double, ties
  to even. Below 2^53 nothing is rounded (`double_small`).
-/

import ClusterGate.Lib.Text

namespace ClusterGate.Lib

inductive Number
  | nan
  | infinite (negative : Bool)
  | int (n : Int)
  deriving DecidableEq

namespace Number

/-- The double nearest to a magnitude. -/
def nearest (m : Nat) : Nat :=
  let unit := 2 ^ (m.log2 - 52)
  let q := m / unit
  let r := m % unit
  (if unit < 2 * r ∨ (2 * r = unit ∧ q % 2 = 1) then q + 1 else q) * unit

def maxExponent : Nat := 1024

/-- Where the doubles end. -/
def overflow : Nat := 2 ^ maxExponent

/-- The double nearest to an integer. -/
def double (n : Int) : Number :=
  let m := nearest n.natAbs
  if overflow ≤ m then .infinite (n < 0) else .int (if n < 0 then -m else m)

/-- `a + x` for an integer `a`. -/
def addInt (a : Int) : Number → Number
  | .int n => double (a + n)
  | x => x

/-- `ToInt32`. -/
def toInt32 : Number → BitVec 32
  | .int n => BitVec.ofInt 32 n
  | _ => 0

theorem nearest_small {m : Nat} (h : m < 2 ^ 53) : nearest m = m := by
  have hlog : m.log2 - 52 = 0 := by
    by_cases hm : m = 0
    · subst hm
      rfl
    · have := (Nat.log2_lt hm).2 h
      omega
  unfold nearest
  rw [hlog]
  simp [Nat.mod_one]

theorem double_small {n : Int} (h : n.natAbs < 2 ^ 53) : double n = .int n := by
  unfold double
  rw [nearest_small h]
  have hpow : 2 ^ 53 ≤ 2 ^ maxExponent := Nat.pow_le_pow_right (by decide) (by decide)
  have hlt : ¬overflow ≤ n.natAbs := Nat.not_le.2 (Nat.lt_of_lt_of_le h hpow)
  simp only [hlt, if_false, Number.int.injEq]
  by_cases hn : n < 0
  · rw [if_pos hn]
    omega
  · rw [if_neg hn]
    omega

/-- `a < b` -/
def less : Number → Number → Bool
  | .int m, .int n => m < n
  | .infinite true, .int _ => true
  | .infinite true, .infinite false => true
  | .int _, .infinite false => true
  | _, _ => false

/-- `a === b` -/
def equals (a b : Number) : Bool := a != .nan && a == b

/-- The digits a text starts with. -/
def leadingDigits (radix : Nat) : List Char → List Nat
  | [] => []
  | c :: cs => match (Text.hexDigit? c).filter (· < radix) with
    | some d => d :: leadingDigits radix cs
    | none => []

/-- `parseInt(text)`. -/
def parseInt (text : String) : Number :=
  let cs := text.toList.dropWhile Text.isSpace
  let negative := cs.head? = some '-'
  let cs := if cs.head? = some '-' ∨ cs.head? = some '+' then cs.tail else cs
  let hex := cs.head? = some '0' ∧ (cs.tail.head? = some 'x' ∨ cs.tail.head? = some 'X')
  let radix := if hex then 16 else 10
  let digits := leadingDigits radix (if hex then cs.drop 2 else cs)
  let value := digits.foldl (fun n d => radix * n + d) 0
  if digits = [] then .nan else double (if negative then -(value : Int) else value)

end Number

end ClusterGate.Lib
