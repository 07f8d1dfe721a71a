/-
  ClusterGate.Secret — a route's secrets at rest (`lib/crypto.ts`).

  A sealed value is told by its prefix. Sealing leaves an empty value and one with the
  prefix as they are, so that sealing twice is sealing once; reading takes a value without
  the prefix for one from before secrets were sealed, and one that does not open for
  itself. A secret that starts with the prefix is therefore stored in clear.
  - `secret_round_trip`: every other one comes back, from an envelope that is not itself.
  - `a_secret_like_an_envelope_is_not_sealed`: `enc:v1:` is stored as it is.
-/

import ClusterGate.World

namespace ClusterGate

open Lib Lib.Base64

def SECRET_PREFIX : String := "enc:v1:"

/-- A text in UTF-8. -/
def utf8Bytes (s : String) : Bytes := s.toByteArray.data.toList

/-- `Buffer.toString('utf8')`. -/
def utf8Text (W : World) (bs : Bytes) : String := (String.fromUTF8? ⟨bs.toArray⟩).getD (W.lossyUtf8 bs)

/-- The cipher under the server's key. -/
def World.cipher (W : World) : Gcm := W.gcm W.secretKey

/-- `encryptSecret`: empty and already sealed values stay. -/
def encryptSecret (W : World) (nonce : Nonce) : Json → Json
  | .str plain =>
    if plain = "" ∨ Text.startsWith plain SECRET_PREFIX then .str plain
    else .str (SECRET_PREFIX ++ W.cipher.sealText nonce (utf8Bytes plain))
  | v => v

/-- `decryptSecret`: what is not sealed, or does not open, stands for itself. -/
def decryptSecret (W : World) (value : Option String) : Option String :=
  value.map fun value =>
    if Text.startsWith value SECRET_PREFIX = false then value
    else match W.cipher.openText (Text.slice value SECRET_PREFIX.toList.length) with
      | some plain => utf8Text W plain
      | none => value

/-- The prefix, and the packing of something sealed under the server's key. -/
def Envelope (W : World) (text : String) : Prop :=
  ∃ (iv : Nonce) (plain : Bytes), text = SECRET_PREFIX ++ W.cipher.sealText iv plain

theorem utf8Text_bytes (W : World) (s : String) : utf8Text W (utf8Bytes s) = s := by
  unfold utf8Text utf8Bytes
  have hback : (⟨s.toByteArray.data.toList.toArray⟩ : ByteArray) = s.toByteArray := by rw [Array.toArray_toList]
  have hvalid : s.toByteArray.IsValidUTF8 := s.isValidUTF8
  rw [hback, String.fromUTF8?, dif_pos hvalid]
  rfl

theorem utf8Bytes_ofList (cs : List Char) : utf8Bytes (String.ofList cs) = cs.flatMap String.utf8EncodeChar := by
  rw [utf8Bytes, String.toByteArray_ofList, List.utf8Encode]
  simp

theorem startsWith_prefixed (text : String) : Text.startsWith (SECRET_PREFIX ++ text) SECRET_PREFIX = true := by
  rw [Text.startsWith, List.isPrefixOf_iff_prefix, String.toList_append]
  exact List.prefix_append _ _

theorem slice_prefixed (text : String) : Text.slice (SECRET_PREFIX ++ text) SECRET_PREFIX.toList.length = text := by
  rw [Text.slice, String.toList_append, List.drop_left, String.ofList_toList]

/-- Sealing a text that is neither empty nor sealed. -/
theorem encryptSecret_sealed (W : World) (nonce : Nonce) {p : String} (hne : p ≠ "")
    (hp : Text.startsWith p SECRET_PREFIX = false) :
    encryptSecret W nonce (.str p) = .str (SECRET_PREFIX ++ W.cipher.sealText nonce (utf8Bytes p)) := by
  have hcond : ¬(p = "" ∨ Text.startsWith p SECRET_PREFIX = true) := by
    rw [hp]
    simp [hne]
  rw [encryptSecret, if_neg hcond]

theorem encryptSecret_prefixed (W : World) (nonce : Nonce) {p : String} (hp : Text.startsWith p SECRET_PREFIX = true) :
    encryptSecret W nonce (.str p) = .str p := by
  rw [encryptSecret, if_pos (.inr hp)]

/-- Sealing a text leaves a text. -/
theorem encryptSecret_text (W : World) (nonce : Nonce) (p : String) :
    ∃ text, encryptSecret W nonce (.str p) = .str text := by
  by_cases hp : p = "" ∨ Text.startsWith p SECRET_PREFIX = true
  · exact ⟨p, by rw [encryptSecret, if_pos hp]⟩
  · exact ⟨_, by rw [encryptSecret, if_neg hp]⟩

/-- Sealing twice is sealing once. -/
theorem encryptSecret_idempotent (W : World) (nonce nonce' : Nonce) (v : Json) :
    encryptSecret W nonce' (encryptSecret W nonce v) = encryptSecret W nonce v := by
  cases v with
  | str p =>
    by_cases hne : p = ""
    · rw [encryptSecret, if_pos (.inl hne), encryptSecret, if_pos (.inl hne)]
    · cases hp : Text.startsWith p SECRET_PREFIX with
      | true => rw [encryptSecret_prefixed W nonce hp, encryptSecret_prefixed W nonce' hp]
      | false =>
        rw [encryptSecret_sealed W nonce hne hp]
        exact encryptSecret_prefixed W nonce' (startsWith_prefixed _)
  | _ => rfl

theorem decryptSecret_sealed {W : World} (hW : W.cipher.Ideal) (nonce : Nonce) (p : String) :
    decryptSecret W (some (SECRET_PREFIX ++ W.cipher.sealText nonce (utf8Bytes p))) = some p := by
  have hopen := Gcm.openText_sealText hW nonce (utf8Bytes p)
  rw [decryptSecret, Option.map_some, startsWith_prefixed, slice_prefixed, hopen]
  exact congrArg some (utf8Text_bytes W p)

/-- Reading what was sealed of a value is reading the value. -/
theorem decryptSecret_encryptSecret {W : World} (hW : W.cipher.Ideal) (nonce : Nonce) (v : Json) :
    decryptSecret W (encryptSecret W nonce v).str? = decryptSecret W v.str? := by
  cases v with
  | str p =>
    by_cases hp : p = "" ∨ Text.startsWith p SECRET_PREFIX = true
    · rw [encryptSecret, if_pos hp]
    · obtain ⟨hne, hprefix⟩ := not_or.1 hp
      rw [Bool.not_eq_true] at hprefix
      rw [encryptSecret_sealed W nonce hne hprefix]
      refine (decryptSecret_sealed hW nonce p).trans ?_
      rw [Json.str?, decryptSecret, Option.map_some, if_pos hprefix]
  | _ => rfl

theorem secret_round_trip (W : World) (hW : W.cipher.Ideal) (nonce : Nonce) (p : String) (hne : p ≠ "") :
    (Text.startsWith p SECRET_PREFIX = false →
      ∃ text, encryptSecret W nonce (.str p) = .str text ∧ decryptSecret W (some text) = some p ∧ Envelope W text ∧
        text ≠ p) ∧
      (Text.startsWith p SECRET_PREFIX = true → encryptSecret W nonce (.str p) = .str p) := by
  constructor
  · intro hp
    refine ⟨_, encryptSecret_sealed W nonce hne hp, decryptSecret_sealed hW nonce p, ⟨nonce, _, rfl⟩, ?_⟩
    intro he
    have hstart := startsWith_prefixed (W.cipher.sealText nonce (utf8Bytes p))
    rw [he, hp] at hstart
    cases hstart
  · exact encryptSecret_prefixed W nonce

theorem secret_round_trip_hunter2 : ("hunter2" : String) ≠ "" ∧
    ((Text.startsWith "hunter2" SECRET_PREFIX = false →
      ∃ text, encryptSecret World.plain Nonce.zero (.str "hunter2") = .str text ∧
        decryptSecret World.plain (some text) = some "hunter2" ∧ Envelope World.plain text ∧ text ≠ "hunter2") ∧
      (Text.startsWith "hunter2" SECRET_PREFIX = true →
        encryptSecret World.plain Nonce.zero (.str "hunter2") = .str "hunter2")) :=
  ⟨by decide, secret_round_trip World.plain Gcm.plain_ideal Nonce.zero "hunter2" (by decide)⟩

theorem a_secret_like_an_envelope_is_not_sealed :
    ¬∀ (W : World), W.cipher.Ideal → ∀ (nonce : Nonce) (p : String), p ≠ "" →
      ∃ text, encryptSecret W nonce (.str p) = .str text ∧ decryptSecret W (some text) = some p ∧ Envelope W text ∧
        text ≠ p := by
  intro h
  obtain ⟨text, henc, -, -, hne⟩ := h World.plain Gcm.plain_ideal Nonce.zero SECRET_PREFIX (by decide)
  have hsame := encryptSecret_prefixed World.plain Nonce.zero (p := SECRET_PREFIX) (by decide)
  rw [hsame] at henc
  injection henc with henc
  exact hne henc.symm

end ClusterGate
