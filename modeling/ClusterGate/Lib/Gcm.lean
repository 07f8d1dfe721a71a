/-
  ClusterGate.Lib.Gcm — authenticated encryption under a fixed key, and its envelope: the
  base64 of nonce, tag and ciphertext, in this order.

  The cipher is a parameter. An ideal one opens what it sealed and nothing else.
  - `openText_sealText`: an envelope opens to what was sealed in it.
-/

import ClusterGate.Lib.Base64

namespace ClusterGate.Lib

open Base64

/-- AES-256-GCM under one key. -/
structure Gcm where
  /-- Ciphertext and tag. -/
  encrypt : (iv plain : Bytes) → Bytes × Bytes
  decrypt : (iv tag ciphertext : Bytes) → Option Bytes

/-- A fresh nonce of the length the source draws. -/
abbrev Nonce := { iv : Bytes // iv.length = 12 }

def Nonce.zero : Nonce := ⟨List.replicate 12 0, List.length_replicate⟩

namespace Gcm

/-- A cipher that hides nothing, under a tag of zeros. -/
def plain : Gcm where
  encrypt _ plain := (plain, List.replicate 16 0)
  decrypt _ tag ciphertext := if tag = List.replicate 16 0 then some ciphertext else none

/-- Tags have sixteen bytes, and a tag is right for what was sealed with it only. -/
structure Ideal (g : Gcm) : Prop where
  tag : ∀ iv plain, (g.encrypt iv plain).2.length = 16
  opens : ∀ iv tag ciphertext plain, g.decrypt iv tag ciphertext = some plain ↔ g.encrypt iv plain = (ciphertext, tag)

theorem plain_ideal : plain.Ideal where
  tag _ _ := List.length_replicate
  opens iv tag ciphertext p := by
    show (if tag = List.replicate 16 0 then some ciphertext else none) = some p ↔
      (p, List.replicate 16 0) = (ciphertext, tag)
    by_cases ht : tag = List.replicate 16 0
    · rw [if_pos ht, ht, Option.some.injEq, Prod.mk.injEq]
      exact ⟨fun h => ⟨h.symm, rfl⟩, fun h => h.1.symm⟩
    · rw [if_neg ht, Prod.mk.injEq]
      exact iff_of_false (fun h => by cases h) (fun h => ht h.2.symm)

def sealText (g : Gcm) (iv : Nonce) (plain : Bytes) : String :=
  encode (iv.1 ++ (g.encrypt iv.1 plain).2 ++ (g.encrypt iv.1 plain).1)

def openText (g : Gcm) (text : String) : Option Bytes :=
  let raw := decode text
  g.decrypt (raw.take 12) ((raw.drop 12).take 16) (raw.drop 28)

theorem openText_sealText {g : Gcm} (h : g.Ideal) (iv : Nonce) (plain : Bytes) :
    g.openText (g.sealText iv plain) = some plain := by
  have hiv : iv.1.length = 12 := iv.2
  have htag := h.tag iv.1 plain
  unfold openText sealText
  rw [decode_encode]
  dsimp only
  have hfirst : (iv.1 ++ (g.encrypt iv.1 plain).2 ++ (g.encrypt iv.1 plain).1).take 12 = iv.1 := by
    rw [List.append_assoc, List.take_left' hiv]
  have hsecond : ((iv.1 ++ (g.encrypt iv.1 plain).2 ++ (g.encrypt iv.1 plain).1).drop 12).take 16 =
      (g.encrypt iv.1 plain).2 := by
    rw [List.append_assoc, List.drop_left' hiv, List.take_left' htag]
  have hthird : (iv.1 ++ (g.encrypt iv.1 plain).2 ++ (g.encrypt iv.1 plain).1).drop 28 = (g.encrypt iv.1 plain).1 :=
    List.drop_left' (by rw [List.length_append, hiv, htag])
  rw [hfirst, hsecond, hthird, h.opens]

end Gcm

end ClusterGate.Lib
