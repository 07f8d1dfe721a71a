/-
  ClusterGate.Proxy.Webhook — what a webhook's signature is compared with
  (`services/proxyService.ts`: the body's acquisition and the check in `proxyRequest`;
  `lib/security.ts`: `validateWebhookSignature`).

  A route with a webhook secret takes a request if it comes with the HMAC of its body. The
  body reaches the check as the parser left it: a buffer, a text of what was parsed, or a
  stream; it is decoded to text, and the HMAC is that of the text's bytes. HMAC-SHA256
  itself is an argument, with the bytes it is given told apart.
  - `signature_covers_received_iff`: the check compares with the HMAC of the received bytes
    exactly where the decoding gives them back, and for a method whose body is not read at
    all, where there are none.
  - `intact_delivered`: for a body that was left as received, that is UTF-8 in a POST, PUT
    or PATCH, or no body.
  - `a_binary_body_is_not_covered`: the single byte 255, signed as it is, is refused. It
    would be forwarded as it is.
-/

import ClusterGate.Proxy.Gates

namespace ClusterGate

open Lib Lib.Act

/-! ## The check -/

/-- `X-Hub-Signature-256`, else `X-Webhook-Signature`. -/
def signature (req : Incoming) : String :=
  orText (req.header "x-hub-signature-256") (orText (req.header "x-webhook-signature") "")

/-- `proxyRequest`, from the acquisition of the body to the webhook check. `hmac` is
    HMAC-SHA256 of bytes, in hexadecimal. -/
def webhookCheck (W : World) (hmac : String → Base64.Bytes → String) (route : LoadedRoute) (req : ProxyIncoming) :
    Act Gateway Err Unit := do
  let rawBody ← acquireBody route req
  passWebhook W (fun secret body => hmac secret (utf8Bytes body)) route req.toIncoming rawBody

def ValidUtf8 (bytes : Base64.Bytes) : Prop := (⟨bytes.toArray⟩ : ByteArray).IsValidUTF8

/-! ## The condition -/

/-- A text of these bytes has the received ones: they are the received ones, in UTF-8, or
    the replacements of the decoder happen to give them. -/
def DecodesTo (W : World) (received bytes : Base64.Bytes) : Prop :=
  (ValidUtf8 bytes ∧ bytes = received) ∨ (¬ValidUtf8 bytes ∧ utf8Bytes (W.lossyUtf8 bytes) = received)

/-- What a request of this method hands to the check stands for the received bytes. -/
def Intact (W : World) (method : String) (received : Base64.Bytes) (body : RequestBody) : Prop :=
  if method ∉ ["POST", "PUT", "PATCH"] then received = []
  else match body with
    | .buffer bytes => DecodesTo W received bytes
    | .parsed text => utf8Bytes text = received
    | .stream (.ok bytes) => DecodesTo W received bytes
    | .stream (.error _) => False

/-- The parser left the body as it was received: raw bytes that were not compressed, or the
    stream itself. -/
inductive Delivered (received : Base64.Bytes) : RequestBody → Prop
  | buffered : Delivered received (.buffer received)
  | streamed : Delivered received (.stream (.ok received))

/-! ## Bytes and text -/

theorem utf8Text_valid {W : World} {bytes : Base64.Bytes} (h : ValidUtf8 bytes) : utf8Bytes (utf8Text W bytes) = bytes := by
  have hvalid : (⟨bytes.toArray⟩ : ByteArray).IsValidUTF8 := h
  rw [utf8Text, String.fromUTF8?, dif_pos hvalid]
  rfl

theorem utf8Text_invalid {W : World} {bytes : Base64.Bytes} (h : ¬ValidUtf8 bytes) : utf8Text W bytes = W.lossyUtf8 bytes := by
  have hinvalid : ¬(⟨bytes.toArray⟩ : ByteArray).IsValidUTF8 := h
  rw [utf8Text, String.fromUTF8?, dif_neg hinvalid]
  rfl

theorem validUtf8_utf8Bytes (text : String) : ValidUtf8 (utf8Bytes text) := by
  have hback : (⟨text.toByteArray.data.toList.toArray⟩ : ByteArray) = text.toByteArray := by rw [Array.toArray_toList]
  show (⟨text.toByteArray.data.toList.toArray⟩ : ByteArray).IsValidUTF8
  rw [hback]
  exact text.isValidUTF8

theorem decodesTo_iff {W : World} {received bytes : Base64.Bytes} :
    DecodesTo W received bytes ↔ utf8Bytes (utf8Text W bytes) = received := by
  unfold DecodesTo
  by_cases h : ValidUtf8 bytes
  · rw [utf8Text_valid h]
    simp [h]
  · rw [utf8Text_invalid h]
    simp [h]

/-- Bytes that are decoded for themselves. -/
theorem decodesTo_self {W : World} {bytes : Base64.Bytes} : DecodesTo W bytes bytes ↔ ValidUtf8 bytes := by
  constructor
  · intro h
    rcases h with ⟨hv, -⟩ | ⟨hv, hback⟩
    · exact hv
    · -- What the decoder gives has a text's bytes, and those are valid.
      exact absurd (hback ▸ validUtf8_utf8Bytes (W.lossyUtf8 bytes)) hv
  · exact fun h => .inl ⟨h, rfl⟩

theorem validUtf8_nil : ValidUtf8 [] := ByteArray.isValidUTF8_empty

/-- Of a body left as it was received, the check sees the bytes if it is text, in a method
    whose body is read. -/
theorem intact_delivered {W : World} {method : String} {received : Base64.Bytes} {body : RequestBody}
    (h : Delivered received body) :
    Intact W method received body ↔ received = [] ∨ (method ∈ ["POST", "PUT", "PATCH"] ∧ ValidUtf8 received) := by
  by_cases hm : method ∈ ["POST", "PUT", "PATCH"]
  · have hiff : Intact W method received body ↔ ValidUtf8 received := by
      unfold Intact
      rw [if_neg (not_not.2 hm)]
      cases h with
      | buffered => exact decodesTo_self
      | streamed => exact decodesTo_self
    rw [hiff]
    constructor
    · exact fun hv => .inr ⟨hm, hv⟩
    · rintro (rfl | ⟨-, hv⟩)
      · exact validUtf8_nil
      · exact hv
  · unfold Intact
    rw [if_pos hm]
    simp [hm]

/-! ## What is signed -/

/-- The bytes whose HMAC the signature is compared with; none where reading them fails. -/
def signedBytes (W : World) (req : ProxyIncoming) : Option Base64.Bytes :=
  if req.method ∉ ["POST", "PUT", "PATCH"] then some []
  else match req.body with
    | .buffer bytes => some (utf8Bytes (utf8Text W bytes))
    | .parsed text => some (utf8Bytes text)
    | .stream (.ok bytes) => some (utf8Bytes (utf8Text W bytes))
    | .stream (.error _) => none

section Check

variable {W : World} {hmac : String → Base64.Bytes → String} {route : LoadedRoute} {stored : String}

theorem intact_iff {req : ProxyIncoming} {received : Base64.Bytes} :
    Intact W req.method received req.body ↔ signedBytes W req = some received := by
  unfold Intact signedBytes
  by_cases hm : req.method ∈ ["POST", "PUT", "PATCH"]
  · rw [if_neg (not_not.2 hm), if_neg (not_not.2 hm)]
    rcases req.body with bytes | text | ⟨e | bytes⟩
    · simp [decodesTo_iff]
    · simp
    · simp
    · simp [decodesTo_iff]
  · rw [if_pos hm, if_pos hm]
    simp [eq_comm]

theorem prefixed_ne_empty (digest : String) : "sha256=" ++ digest ≠ "" := by
  intro h
  have hlen := congrArg String.length h
  simp at hlen

theorem prefixed_inj {a b : String} (h : "sha256=" ++ a = "sha256=" ++ b) : a = b := by
  apply String.toList_inj.1
  have hchars := congrArg String.toList h
  rw [String.toList_append, String.toList_append] at hchars
  exact List.append_cancel_left hchars

/-- The text of a body that was acquired, or of none. -/
theorem acquired_text (bytes : Base64.Bytes) :
    ((if bytes = [] then none else some bytes).map (utf8Text W)).getD "" = utf8Text W bytes := by
  by_cases h : bytes = []
  · subst h
    have hempty : utf8Bytes "" = [] := by decide
    rw [if_pos rfl, ← hempty, utf8Text_bytes]
    rfl
  · rw [if_neg h]
    rfl

/-- The check on a body that was acquired. -/
theorem passWebhook_succeeds (hs : route.row.text .webhookSecret = some stored) (hne : stored ≠ "") {req : Incoming}
    {rawBody : Option Base64.Bytes} {g : Gateway} :
    Succeeds (passWebhook W (fun secret body => hmac secret (utf8Bytes body)) route req rawBody) g ↔
      signature req = "sha256=" ++ hmac ((decryptSecret W (some stored)).getD "")
        (utf8Bytes ((rawBody.map (utf8Text W)).getD "")) := by
  have hfilter : (route.row.text .webhookSecret).filter (· ≠ "") = some stored := by
    rw [hs]
    simp [Option.filter, hne]
  simp only [passWebhook, hfilter, succeeds_require_bind, succeeds_require]
  simp only [validateWebhookSignature, decide_eq_true_eq]
  exact and_iff_right_of_imp fun h hmissing => prefixed_ne_empty _ (h.symm.trans hmissing)

/-- The request passes with the signature of what is signed, and with no other. -/
theorem webhookCheck_succeeds (hs : route.row.text .webhookSecret = some stored) (hne : stored ≠ "") {req : ProxyIncoming}
    {g : Gateway} :
    Succeeds (webhookCheck W hmac route req) g ↔
      ∃ signed, signedBytes W req = some signed ∧
        signature req.toIncoming = "sha256=" ++ hmac ((decryptSecret W (some stored)).getD "") signed := by
  have hneeded : ((route.row.text .webhookSecret).any (· ≠ "") || route.hasTransformRules) = true := by
    rw [hs]
    simp [hne]
  have hpass : ∀ rawBody, Succeeds (passWebhook W (fun secret body => hmac secret (utf8Bytes body)) route req.toIncoming rawBody) g ↔
      signature req.toIncoming = "sha256=" ++ hmac ((decryptSecret W (some stored)).getD "")
        (utf8Bytes ((rawBody.map (utf8Text W)).getD "")) := fun _ => passWebhook_succeeds hs hne
  unfold webhookCheck acquireBody signedBytes
  by_cases hm : req.method ∈ ["POST", "PUT", "PATCH"]
  · rw [if_neg (not_not.2 hm), if_neg (not_not.2 hm)]
    rcases req.body with bytes | text | ⟨e | bytes⟩
    · simp only [succeeds_pure_bind, hpass, acquired_text, Option.some.injEq, exists_eq_left']
    · simp only [succeeds_pure_bind, hpass, Option.map_some, Option.getD_some, utf8Text_bytes, Option.some.injEq,
        exists_eq_left']
    · rw [hneeded]
      simp [bind_assoc]
    · rw [hneeded]
      simp only [if_true, bind_assoc, succeeds_ofExcept_bind, Except.ok.injEq, exists_eq_left', succeeds_pure_bind, hpass,
        acquired_text, Option.some.injEq]
  · have hempty : utf8Bytes "" = [] := by decide
    rw [if_pos hm, if_pos hm]
    simp only [succeeds_pure_bind, hpass, Option.map_none, Option.getD_none, hempty, Option.some.injEq, exists_eq_left']

/-- A request with these headers. -/
def ProxyIncoming.withHeaders (req : ProxyIncoming) (header : String → Option String) : ProxyIncoming :=
  { req with header := header }

/-- For every signature that may come with it, a request passes if and only if that is the
    signature of the received bytes. -/
theorem signature_covers_received_iff (hinj : ∀ secret, Function.Injective (hmac secret))
    (hs : route.row.text .webhookSecret = some stored) (hne : stored ≠ "") (req : ProxyIncoming)
    (received : Base64.Bytes) (g : Gateway) :
    (∀ header, Succeeds (webhookCheck W hmac route (req.withHeaders header)) g ↔
        signature (req.withHeaders header).toIncoming =
          "sha256=" ++ hmac ((decryptSecret W (some stored)).getD "") received) ↔
      Intact W req.method received req.body := by
  rw [intact_iff]
  have hsigned : ∀ header, signedBytes W (req.withHeaders header) = signedBytes W req := fun _ => rfl
  simp only [webhookCheck_succeeds hs hne, hsigned]
  constructor
  · intro h
    -- The request that comes with the right signature.
    let right := "sha256=" ++ hmac ((decryptSecret W (some stored)).getD "") received
    have hsignature : signature (req.withHeaders fun _ => some right).toIncoming = right := by
      have hne : right ≠ "" := prefixed_ne_empty _
      simp [signature, ProxyIncoming.withHeaders, orText, hne]
    obtain ⟨signed, hsome, hsame⟩ := (h fun _ => some right).2 hsignature
    have htext := hsignature.symm.trans hsame
    rw [hsome, hinj _ (prefixed_inj htext)]
  · intro h header
    simp [h]

end Check

/-! ## Two bodies -/

namespace Hooks

/-- A digest that tells all bytes apart, and the one of `{"a":1}` under `wh`. -/
def hmac (secret : String) (bytes : Base64.Bytes) : String :=
  if secret = "wh" ∧ bytes = utf8Bytes "\x7b\"a\":1\x7d" then
    "07f81e23e15d4daaea44149bc1edbc0d3ded8518974ae191c47173203e589325"
  else String.ofList ('-' :: bytes.map fun b => Char.ofNat b.toNat)

theorem byte_char (b : UInt8) : (Char.ofNat b.toNat).toNat = b.toNat := by
  have hvalid : b.toNat.isValidChar := .inl (by have := b.toNat_lt; omega)
  rw [Char.ofNat, dif_pos hvalid]
  rfl

theorem hmac_injective (secret : String) : Function.Injective (hmac secret) := by
  have hchars : Function.Injective fun bytes : Base64.Bytes => '-' :: bytes.map fun b => Char.ofNat b.toNat := by
    intro a b h
    injection h with _ h
    refine List.map_injective_iff.2 ?_ h
    intro x y hxy
    have hnat := congrArg Char.toNat hxy
    dsimp only at hnat
    rw [byte_char, byte_char] at hnat
    exact UInt8.toNat_inj.1 hnat
  have hother : ∀ bytes : Base64.Bytes, "07f81e23e15d4daaea44149bc1edbc0d3ded8518974ae191c47173203e589325" ≠
      String.ofList ('-' :: bytes.map fun b => Char.ofNat b.toNat) := by
    intro bytes h
    have htext : (String.ofList ('-' :: bytes.map fun b => Char.ofNat b.toNat)).toList.head? = some '-' := by
      rw [String.toList_ofList]
      rfl
    rw [← h] at htext
    exact absurd htext (by decide)
  intro a b h
  unfold hmac at h
  by_cases ha : secret = "wh" ∧ a = utf8Bytes "\x7b\"a\":1\x7d"
  · by_cases hb : secret = "wh" ∧ b = utf8Bytes "\x7b\"a\":1\x7d"
    · rw [ha.2, hb.2]
    · rw [if_pos ha, if_neg hb] at h
      exact absurd h (hother b)
  · by_cases hb : secret = "wh" ∧ b = utf8Bytes "\x7b\"a\":1\x7d"
    · rw [if_neg ha, if_pos hb] at h
      exact absurd h.symm (hother a)
    · rw [if_neg ha, if_neg hb] at h
      exact hchars (String.ofList_injective h)

def route : LoadedRoute where
  id := "hook"
  row := Row.ofFields
    [(.name, .str "hook"), (.publicPath, .str "/r/hook"), (.targetUrl, .str "http://upstream"), (.isActive, .bool true),
     (.status, .str "PUBLISHED"), (.webhookSecret, .str "wh"), (.createdAt, .str "2026-01-01T00:00:00.000Z"),
     (.updatedAt, .str "2026-01-01T00:00:00.000Z")] (by intro c; cases c <;> rfl)
  breaker := quietBreaker
  targets := []
  hasTransformRules := false

def post (bytes : Base64.Bytes) : ProxyIncoming where
  method := "POST"
  url := "/r/hook"
  path := "/hook"
  header _ := none
  ip := some "10.0.0.2"
  remoteAddress := some "10.0.0.2"
  body := .buffer bytes

def gateway : Gateway := ⟨1000, true, none, .empty, some 0, .empty⟩

end Hooks

/-- A text is covered. -/
theorem a_text_body_is_covered :
    Delivered (utf8Bytes "\x7b\"a\":1\x7d") (Hooks.post (utf8Bytes "\x7b\"a\":1\x7d")).body ∧
      ∀ header, Succeeds (webhookCheck World.plain Hooks.hmac Hooks.route
          ((Hooks.post (utf8Bytes "\x7b\"a\":1\x7d")).withHeaders header)) Hooks.gateway ↔
        signature ((Hooks.post (utf8Bytes "\x7b\"a\":1\x7d")).withHeaders header).toIncoming =
          "sha256=" ++ Hooks.hmac ((decryptSecret World.plain (some "wh")).getD "") (utf8Bytes "\x7b\"a\":1\x7d") :=
  ⟨.buffered, (signature_covers_received_iff Hooks.hmac_injective (W := World.plain)
    (show Hooks.route.row.text .webhookSecret = some "wh" from rfl) (by decide) _ _ _).2
    ((intact_delivered .buffered).2 (.inr ⟨by decide, validUtf8_utf8Bytes _⟩))⟩

/-- The decoder replaces the byte, and the signature compared with is that of what it put
    there. -/
theorem a_binary_body_is_not_covered :
    ¬∀ (W : World) (hmac : String → Base64.Bytes → String) (route : LoadedRoute) (stored : String) (req : ProxyIncoming)
        (received : Base64.Bytes) (g : Gateway), (∀ secret, Function.Injective (hmac secret)) →
        route.row.text .webhookSecret = some stored → stored ≠ "" → Delivered received req.body →
          (Succeeds (webhookCheck W hmac route req) g ↔
            signature req.toIncoming = "sha256=" ++ hmac ((decryptSecret W (some stored)).getD "") received) := by
  intro h
  have hall := fun header => h World.plain Hooks.hmac Hooks.route "wh" ((Hooks.post [255]).withHeaders header) [255]
    Hooks.gateway Hooks.hmac_injective rfl (by decide) .buffered
  have hcovered := (signature_covers_received_iff Hooks.hmac_injective rfl (by decide) _ _ _).1 hall
  rcases (intact_delivered .buffered).1 hcovered with hnil | ⟨-, hv⟩
  · cases hnil
  · exact absurd hv (by unfold ValidUtf8; decide)

end ClusterGate
