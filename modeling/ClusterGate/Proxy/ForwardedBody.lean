/-
  ClusterGate.Proxy.ForwardedBody — the bytes a request's body is forwarded as
  (`services/proxyService.ts`: `proxyRequest`, from the acquisition of the body to the call
  of the HTTP client; `services/transformService.ts`: `applyRequestTransforms`).

  A route without transform rules hands the body over as it has it. One with any rule, on
  the request or the response, reads it as JSON, and where it is JSON sends what it has read
  as a new text: blanks are gone, numbers and keys are as the language writes them, and a
  text is sent without its quotes. What `REWRITE_BODY_JSON` writes is an argument, as are
  the numbers of the language and the HTTP client.
  - `clientCall_headers`: the headers of the call are those of `buildHeaders`.
  - `body_kept_iff`: where no rule rewrites the body, exactly when the received bytes are
    what is sent.
  - `a_text_becomes_a_number`: `"1"` through a route that sets a header.
-/

import ClusterGate.Lib.JsonCompact
import ClusterGate.Proxy.GatewayHeaders
import ClusterGate.Proxy.Webhook

namespace ClusterGate

open Lib Lib.Text

/-! ## The call of the HTTP client -/

/-- A route with its rules as the handler loaded them. -/
structure RuledRoute extends LoadedRoute where
  rules : List TransformRule
  ruled : hasTransformRules = decide (rules ≠ [])

structure BodyRequest extends ReceivedRequest where
  body : RequestBody

def BodyRequest.toProxyIncoming (req : BodyRequest) : ProxyIncoming := { req.toIncoming with body := req.body }

/-- What the client is given as data. -/
inductive Outgoing
  | nothing
  | buffer (bytes : Base64.Bytes)
  | stream (bytes : Base64.Bytes)
  | text (us : JsonParse.Units)

/-- `needBufferedBody` -/
def LoadedRoute.needBufferedBody (route : LoadedRoute) : Bool :=
  (route.row.text .webhookSecret).any (· ≠ "") || route.hasTransformRules

/-- `rawBodyBuffer` -/
def rawBodyBuffer (route : LoadedRoute) (req : ProxyIncoming) : Except Err (Option Base64.Bytes) :=
  if req.method ∉ ["POST", "PUT", "PATCH"] then .ok none
  else match req.body with
    | .buffer bytes => .ok (if bytes = [] then none else some bytes)
    | .parsed text => .ok (some (utf8Bytes text))
    | .stream read =>
      if route.needBufferedBody = true then read.map fun bytes => if bytes = [] then none else some bytes
      else .ok none

/-- `requestStream`, with what reading it gives. -/
def requestStream (route : LoadedRoute) (req : ProxyIncoming) : Option (Except Err Base64.Bytes) :=
  if req.method ∉ ["POST", "PUT", "PATCH"] then none
  else match req.body with
    | .stream read => if route.needBufferedBody = true then none else some read
    | _ => none

structure BodyState extends TransformState where
  body : Option JsonParse.Value

section Call

variable (display : Json → String) (numeral : List Char → List Char)
  (rewrite : (config : Json) → JsonParse.Value → Option JsonParse.Value)

/-- One rule, on the headers, the query and the body. -/
def applyBodyTransform (st : BodyState) (rule : TransformRule) : Option BodyState :=
  (rule.meets display st.toTransformState).bind fun met =>
    (applyRequestTransform display st.toTransformState rule).bind fun st' =>
      if met = true ∧ rule.type = "REWRITE_BODY_JSON" then (st.body.mapM (rewrite rule.config)).map fun body => ⟨st', body⟩
      else some ⟨st', st.body⟩

def applyBodyTransforms (rules : List TransformRule) (st : BodyState) : Option BodyState :=
  (requestRules rules).foldlM (applyBodyTransform display rewrite) st

def parsedBody (W : World) (rawBody : Option Base64.Bytes) : Option JsonParse.Value :=
  rawBody.bind fun bytes => JsonParse.parse (utf8Text W bytes).toList

/-- `requestBody`: what was parsed as a new text, else the buffer. -/
def requestBody (rawBody : Option Base64.Bytes) : Option JsonParse.Value → Outgoing
  | some (.str us) => .text us
  | some v => .text ((JsonParse.stringify numeral v).flatMap JsonParse.units)
  | none => match rawBody with
    | some bytes => .buffer bytes
    | none => .nothing

/-- The headers before the rules, and the query. -/
def transformStart (W : World) (requestId : String) (route : RuledRoute) (consumedAuthHeader : Option String)
    (req : BodyRequest) : TransformState :=
  ruleStart W route.id requestId route.row consumedAuthHeader req.toReceivedRequest

/-- The headers and the data of the call; none where the request fails before. -/
def clientCall (W : World) (requestId : String) (route : RuledRoute) (consumedAuthHeader : Option String)
    (req : BodyRequest) : Option (ForwardHeaders × Outgoing) :=
  (rawBodyBuffer route.toLoadedRoute req.toProxyIncoming).toOption.bind fun rawBody =>
    let start := transformStart W requestId route consumedAuthHeader req
    (if route.rules = [] then some ⟨start, none⟩
      else applyBodyTransforms display rewrite route.rules ⟨start, parsedBody W rawBody⟩).bind fun st =>
        match requestStream route.toLoadedRoute req.toProxyIncoming with
        | some read => read.toOption.map fun bytes => (applyEdits st.headers (lengthEdits true req.toReceivedRequest), .stream bytes)
        | none => some (applyEdits st.headers (lengthEdits false req.toReceivedRequest), requestBody numeral rawBody st.body)

end Call

/-! ## The HTTP client -/

/-- The client as its headers and data go to the wire. -/
structure HttpClient where
  isJson : ForwardHeaders → Bool
  sends : ForwardHeaders → Outgoing → Base64.Bytes

/-- A text in UTF-8. -/
def textBytes (cs : List Char) : Base64.Bytes := utf8Bytes (String.ofList cs)

/-- Bytes are sent as they are, and a text in UTF-8; under a JSON content type a text that is
    JSON without the white space around it, and any other one as a JSON text of its own. -/
structure HttpClient.Sends (client : HttpClient) : Prop where
  nothing : ∀ t, client.sends t .nothing = []
  buffer : ∀ t bytes, client.sends t (.buffer bytes) = bytes
  stream : ∀ t bytes, client.sends t (.stream bytes) = bytes
  text : ∀ t us, client.isJson t = false → client.sends t (.text us) = textBytes (JsonParse.chars us)
  jsonText : ∀ t us, client.isJson t = true → JsonParse.parse (JsonParse.chars us) ≠ none →
    client.sends t (.text us) = utf8Bytes (trim (String.ofList (JsonParse.chars us)))
  otherText : ∀ t us, client.isJson t = true → JsonParse.parse (JsonParse.chars us) = none →
    client.sends t (.text us) = textBytes (JsonParse.quote us)

/-- What a first attempt over TLS has left of the data: it takes the start of a stream with it. -/
def Outgoing.left (taken : Nat) : Outgoing → Outgoing
  | .stream bytes => .stream (bytes.drop taken)
  | out => out

/-! ## The condition -/

/-- One of these rules on the body is applied. -/
def RewritesBody (display : Json → String) : List TransformRule → TransformState → Prop
  | [], _ => False
  | rule :: rules, st =>
    (rule.meets display st = some true ∧ rule.type = "REWRITE_BODY_JSON") ∨
      ∃ st', applyRequestTransform display st rule = some st' ∧ RewritesBody display rules st'

/-- The bytes the body parser handed over. -/
def RequestBody.handed : RequestBody → Base64.Bytes
  | .buffer bytes => bytes
  | .parsed text => utf8Bytes text
  | .stream (.ok bytes) => bytes
  | .stream (.error _) => []

/-- The bytes of a compact JSON text; a text at its top is sent under a JSON content type,
    and does not say JSON itself. -/
def CompactBody (numeral : List Char → List Char) (json : Bool) (received : Base64.Bytes) : Prop :=
  ∃ cs, received = textBytes cs ∧ JsonParse.Compact numeral cs ∧
    ∀ us, JsonParse.parse cs = some (.str us) → json = true ∧ JsonParse.parse (JsonParse.chars us) = none

/-- What is sent for a JSON value happens to be the received bytes. -/
def Resent (numeral : List Char → List Char) (json : Bool) (received : Base64.Bytes) : JsonParse.Value → Prop
  | .str us =>
    (json = false ∧ received = textBytes (JsonParse.chars us)) ∨
      (json = true ∧ JsonParse.parse (JsonParse.chars us) ≠ none ∧
        received = utf8Bytes (trim (String.ofList (JsonParse.chars us)))) ∨
      (json = true ∧ JsonParse.parse (JsonParse.chars us) = none ∧ received = textBytes (JsonParse.quote us))
  | v => received = textBytes (JsonParse.stringify numeral v)

/-- The received bytes are those that are sent. A method whose body is not read has none. A
    body that was handed over as received is streamed in one attempt, or stays a buffer
    because no rule has it read or it is not JSON, or is compact JSON. One that was inflated
    is sent as received by coincidence only. -/
def BodyKept (W : World) (numeral : List Char → List Char) (json : Bool) (route : RuledRoute) (req : BodyRequest)
    (received : Base64.Bytes) (taken : Nat) : Prop :=
  if req.method ∉ ["POST", "PUT", "PATCH"] then received = []
  else if req.body.handed = received then
    received = [] ∨
      if (requestStream route.toLoadedRoute req.toProxyIncoming).isSome = true then taken = 0
      else route.rules = [] ∨ JsonParse.parse (utf8Text W received).toList = none ∨ CompactBody numeral json received
  else if (requestStream route.toLoadedRoute req.toProxyIncoming).isSome = true then req.body.handed.drop taken = received
  else route.rules ≠ [] ∧ ∃ v, JsonParse.parse (utf8Text W req.body.handed).toList = some v ∧ Resent numeral json received v

/-! ## What the rules leave -/

section Rules

variable {display : Json → String} {rewrite : Json → JsonParse.Value → Option JsonParse.Value}

/-- The rules do to the headers and the query what they do without a body. -/
theorem bodyTransforms_headers {rules : List TransformRule} {st st' : BodyState}
    (h : rules.foldlM (applyBodyTransform display rewrite) st = some st') :
    rules.foldlM (applyRequestTransform display) st.toTransformState = some st'.toTransformState := by
  induction rules generalizing st with
  | nil =>
    obtain rfl : st = st' := by simpa using h
    rfl
  | cons rule rules ih =>
    rw [List.foldlM_cons] at h ⊢
    obtain ⟨st₁, hstep, h⟩ := Option.bind_eq_some_iff.1 h
    obtain ⟨met, -, hstep⟩ := Option.bind_eq_some_iff.1 hstep
    obtain ⟨inner, hinner, hstep⟩ := Option.bind_eq_some_iff.1 hstep
    have hsame : st₁.toTransformState = inner := by
      split at hstep
      · obtain ⟨body, -, rfl⟩ := Option.map_eq_some_iff.1 hstep
        rfl
      · obtain rfl := Option.some.inj hstep
        rfl
    rw [hinner, ← hsame]
    exact ih h

/-- Where no rule on the body is applied, the body stays. -/
theorem bodyTransforms_body {rules : List TransformRule} {st st' : BodyState}
    (hno : ¬RewritesBody display rules st.toTransformState)
    (h : rules.foldlM (applyBodyTransform display rewrite) st = some st') : st'.body = st.body := by
  induction rules generalizing st with
  | nil =>
    obtain rfl : st = st' := by simpa using h
    rfl
  | cons rule rules ih =>
    rw [RewritesBody, not_or, not_exists] at hno
    rw [List.foldlM_cons] at h
    obtain ⟨st₁, hstep, h⟩ := Option.bind_eq_some_iff.1 h
    obtain ⟨met, hmet, hstep⟩ := Option.bind_eq_some_iff.1 hstep
    obtain ⟨inner, hinner, hstep⟩ := Option.bind_eq_some_iff.1 hstep
    have hother : ¬(met = true ∧ rule.type = "REWRITE_BODY_JSON") := fun hr => hno.1 ⟨hr.1 ▸ hmet, hr.2⟩
    rw [if_neg hother] at hstep
    obtain rfl := Option.some.inj hstep
    exact @ih ⟨inner, st.body⟩ (fun hr => hno.2 inner ⟨hinner, hr⟩) h

end Rules

/-! ## What is sent -/

section Sent

variable {W : World} {display : Json → String} {numeral : List Char → List Char}
  {rewrite : Json → JsonParse.Value → Option JsonParse.Value} {requestId : String} {route : RuledRoute}
  {consumedAuthHeader : Option String} {req : BodyRequest} {t : ForwardHeaders} {out : Outgoing} {client : HttpClient}
  {received : Base64.Bytes} {taken : Nat}

/-- The body is acquired as the gates acquire it. -/
theorem acquireBody_eq (route : LoadedRoute) (req : ProxyIncoming) :
    acquireBody route req = Act.ofExcept (rawBodyBuffer route req) := by
  unfold acquireBody rawBodyBuffer LoadedRoute.needBufferedBody
  split
  · rfl
  · cases req.body with
    | buffer bytes => rfl
    | parsed text => rfl
    | stream read =>
      dsimp only
      split
      · cases read <;> rfl
      · rfl

theorem clientCall_headers
    (h : clientCall display numeral rewrite W requestId route consumedAuthHeader req = some (t, out)) :
    buildHeaders W display route.id requestId route.row route.rules consumedAuthHeader
      (requestStream route.toLoadedRoute req.toProxyIncoming).isSome req.toReceivedRequest = some t := by
  obtain ⟨rawBody, -, h⟩ := Option.bind_eq_some_iff.1 h
  obtain ⟨st, hst, h⟩ := Option.bind_eq_some_iff.1 h
  have hrules : applyRequestTransforms display route.rules (transformStart W requestId route consumedAuthHeader req) =
      some st.toTransformState := by
    split at hst
    · rename_i hnil
      obtain rfl := Option.some.inj hst
      rw [hnil, applyRequestTransforms, show requestRules [] = [] by simp [requestRules]]
      rfl
    · exact bodyTransforms_headers hst
  unfold buildHeaders
  unfold transformStart at hrules
  rw [hrules, Option.map_some]
  split at h
  · rename_i read hread
    obtain ⟨bytes, -, h⟩ := Option.map_eq_some_iff.1 h
    rw [hread, ← (Prod.mk.inj h).1]
    rfl
  · rename_i hread
    rw [hread, ← (Prod.mk.inj (Option.some.inj h)).1]
    rfl

/-- The buffer has what was handed over, unless the body is streamed. -/
theorem rawBody_handed {rawBody : Option Base64.Bytes} {route : LoadedRoute} {req : ProxyIncoming}
    (hm : req.method ∈ ["POST", "PUT", "PATCH"]) (hs : requestStream route req = none)
    (h : (rawBodyBuffer route req).toOption = some rawBody) : rawBody.getD [] = req.body.handed := by
  unfold rawBodyBuffer at h
  unfold requestStream at hs
  rw [if_neg (not_not.2 hm)] at h hs
  cases hb : req.body with
  | buffer bytes =>
    rw [hb] at h
    obtain rfl := Option.some.inj h
    show (if bytes = [] then none else some bytes).getD [] = bytes
    split
    · exact Eq.symm (by assumption)
    · rfl
  | parsed text =>
    rw [hb] at h
    obtain rfl := Option.some.inj h
    rfl
  | stream read =>
    rw [hb] at h hs
    dsimp only at h hs
    split at hs
    · rename_i hneed
      rw [if_pos hneed] at h
      cases read with
      | error e => cases h
      | ok bytes =>
        obtain rfl := Option.some.inj h
        show (if bytes = [] then none else some bytes).getD [] = bytes
        split
        · exact Eq.symm (by assumption)
        · rfl
    · cases hs

theorem parsedBody_handed (rawBody : Option Base64.Bytes) :
    parsedBody W rawBody = JsonParse.parse (utf8Text W (rawBody.getD [])).toList := by
  cases rawBody with
  | some bytes => rfl
  | none =>
    have hempty : utf8Text W [] = "" := utf8Text_bytes W ""
    show none = JsonParse.parse (utf8Text W []).toList
    rw [hempty]
    rfl

/-! ### Texts -/

theorem textBytes_toList (text : String) : textBytes text.toList = utf8Bytes text := by
  rw [textBytes, String.ofList_toList]

/-- Bytes a text has are those of the text they are decoded to. -/
theorem textBytes_eq_iff {cs : List Char} :
    received = textBytes cs ↔ ValidUtf8 received ∧ (utf8Text W received).toList = cs := by
  constructor
  · rintro rfl
    refine ⟨validUtf8_utf8Bytes _, ?_⟩
    rw [textBytes, utf8Text_bytes, String.toList_ofList]
  · intro h
    rw [← h.2, textBytes_toList, utf8Text_valid h.1]

theorem resent_iff (hn : JsonParse.Numerals numeral) {json : Bool} {v : JsonParse.Value}
    (h : JsonParse.parse (utf8Text W received).toList = some v) :
    Resent numeral json received v ↔ CompactBody numeral json received := by
  have hcompact : CompactBody numeral json received ↔ ValidUtf8 received ∧ JsonParse.Compact numeral (utf8Text W received).toList ∧
      ∀ us, v = .str us → json = true ∧ JsonParse.parse (JsonParse.chars us) = none := by
    constructor
    · rintro ⟨cs, hcs, hc, htop⟩
      obtain ⟨hvalid, rfl⟩ := (textBytes_eq_iff (W := W)).1 hcs
      exact ⟨hvalid, hc, fun us hus => htop us (hus ▸ h)⟩
    · rintro ⟨hvalid, hc, htop⟩
      refine ⟨_, (textBytes_eq_iff (W := W)).2 ⟨hvalid, rfl⟩, hc, fun us hus => htop us ?_⟩
      exact Option.some.inj (h.symm.trans hus)
  have hother : (∀ us, v ≠ .str us) → (received = textBytes (JsonParse.stringify numeral v) ↔ CompactBody numeral json received) := by
    intro hne
    rw [hcompact, textBytes_eq_iff (W := W), eq_comm (b := JsonParse.stringify numeral v), JsonParse.stringify_parse_iff hn h]
    constructor
    · exact fun hr => ⟨hr.1, hr.2, fun us hus => absurd hus (hne us)⟩
    · exact fun hr => ⟨hr.1, hr.2.1⟩
  cases v with
  | str us =>
    -- What the text says is shorter than the text.
    have hshort : ∀ cs, JsonParse.size cs ≤ JsonParse.size (JsonParse.chars us) → received ≠ textBytes cs := by
      intro cs hcs hr
      obtain ⟨-, htext⟩ := (textBytes_eq_iff (W := W)).1 hr
      have hlonger := JsonParse.size_of_parse h
      rw [htext] at hlonger
      omega
    have htrim : received ≠ utf8Bytes (trim (String.ofList (JsonParse.chars us))) := by
      rw [← textBytes_toList]
      refine hshort _ (JsonParse.size_infix ?_)
      have hinfix := trim_infix (String.ofList (JsonParse.chars us))
      rwa [String.toList_ofList] at hinfix
    have hquote := JsonParse.stringify_parse_iff hn h
    have hstringify : JsonParse.stringify numeral (.str us) = JsonParse.quote us := rfl
    rw [hcompact]
    constructor
    · rintro (⟨-, hr⟩ | ⟨-, -, hr⟩ | ⟨hjson, hparse, hr⟩)
      · exact absurd hr (hshort _ le_rfl)
      · exact absurd hr htrim
      · obtain ⟨hvalid, htext⟩ := (textBytes_eq_iff (W := W)).1 hr
        refine ⟨hvalid, hquote.1 (hstringify.trans htext.symm), ?_⟩
        intro us' hus
        obtain rfl := JsonParse.Value.str.inj hus
        exact ⟨hjson, hparse⟩
    · rintro ⟨hvalid, hc, htop⟩
      obtain ⟨hjson, hparse⟩ := htop us rfl
      refine .inr (.inr ⟨hjson, hparse, (textBytes_eq_iff (W := W)).2 ⟨hvalid, ?_⟩⟩)
      exact (hquote.2 hc).symm.trans hstringify
  | null => exact hother fun us hus => by cases hus
  | bool b => exact hother fun us hus => by cases hus
  | num token => exact hother fun us hus => by cases hus
  | arr vs => exact hother fun us hus => by cases hus
  | obj kvs => exact hother fun us hus => by cases hus

/-- What the client sends for a value that was read. -/
theorem sends_value (hn : JsonParse.Numerals numeral) (hc : client.Sends) {cs : List Char} {v : JsonParse.Value}
    (h : JsonParse.parse cs = some v) (rawBody : Option Base64.Bytes) :
    client.sends t (requestBody numeral rawBody (some v)) = received ↔ Resent numeral (client.isJson t) received v := by
  have hother : (∀ us, v ≠ .str us) → (client.sends t (requestBody numeral rawBody (some v)) = received ↔
      received = textBytes (JsonParse.stringify numeral v)) := by
    intro hne
    have hbody : requestBody numeral rawBody (some v) = .text ((JsonParse.stringify numeral v).flatMap JsonParse.units) := by
      cases v with
      | str us => exact absurd rfl (hne us)
      | _ => rfl
    have hgood := JsonParse.settle_good hn (JsonParse.parse_good h)
    have hwritten : ∀ token, JsonParse.Written numeral token → JsonParse.isNumber token = true := fun token ht => ht.1
    rw [hbody]
    cases hjson : client.isJson t with
    | false => rw [hc.text t _ hjson, JsonParse.chars_units, eq_comm]
    | true =>
      have hparse : JsonParse.parse (JsonParse.stringify numeral v) ≠ none := by
        rw [JsonParse.stringify, JsonParse.parse_write hwritten hgood]
        simp
      rw [hc.jsonText t _ hjson (by rw [JsonParse.chars_units]; exact hparse), JsonParse.chars_units, JsonParse.stringify,
        JsonParse.write_trim hwritten hgood, eq_comm]
      rfl
  cases v with
  | str us =>
    show client.sends t (.text us) = received ↔ _
    unfold Resent
    cases hjson : client.isJson t with
    | false => simp [hc.text t us hjson, eq_comm]
    | true =>
      by_cases hparse : JsonParse.parse (JsonParse.chars us) = none
      · simp [hc.otherText t us hjson hparse, hparse, eq_comm]
      · simp [hc.jsonText t us hjson hparse, hparse, eq_comm]
  | null => exact hother fun us hus => by cases hus
  | bool b => exact hother fun us hus => by cases hus
  | num token => exact hother fun us hus => by cases hus
  | arr vs => exact hother fun us hus => by cases hus
  | obj kvs => exact hother fun us hus => by cases hus

/-! ### The call's data -/

theorem callData (hno : ¬RewritesBody display (requestRules route.rules) (transformStart W requestId route consumedAuthHeader req))
    (h : clientCall display numeral rewrite W requestId route consumedAuthHeader req = some (t, out)) :
    (∃ bytes, requestStream route.toLoadedRoute req.toProxyIncoming = some (.ok bytes) ∧ out = .stream bytes) ∨
      (requestStream route.toLoadedRoute req.toProxyIncoming = none ∧
        ∃ rawBody, (rawBodyBuffer route.toLoadedRoute req.toProxyIncoming).toOption = some rawBody ∧
          out = requestBody numeral rawBody (if route.rules = [] then none else parsedBody W rawBody)) := by
  obtain ⟨rawBody, hraw, h⟩ := Option.bind_eq_some_iff.1 h
  obtain ⟨st, hst, h⟩ := Option.bind_eq_some_iff.1 h
  have hbody : st.body = if route.rules = [] then none else parsedBody W rawBody := by
    by_cases hnil : route.rules = []
    · rw [if_pos hnil] at hst ⊢
      obtain rfl := Option.some.inj hst
      rfl
    · rw [if_neg hnil] at hst ⊢
      exact bodyTransforms_body hno hst
  split at h
  · rename_i read hread
    obtain ⟨bytes, hbytes, h⟩ := Option.map_eq_some_iff.1 h
    left
    refine ⟨bytes, ?_, (Prod.mk.inj h).2.symm⟩
    cases read with
    | error e => cases hbytes
    | ok read => rw [hread, Option.some.inj hbytes]
  · rename_i hread
    exact .inr ⟨hread, rawBody, hraw, by rw [← hbody]; exact (Prod.mk.inj (Option.some.inj h)).2.symm⟩

theorem stream_handed {bytes : Base64.Bytes} (h : requestStream route.toLoadedRoute req.toProxyIncoming = some (.ok bytes)) :
    req.method ∈ ["POST", "PUT", "PATCH"] ∧ req.body.handed = bytes := by
  unfold requestStream at h
  split at h
  · cases h
  · rename_i hm
    refine ⟨not_not.1 hm, ?_⟩
    have hbody : req.toProxyIncoming.body = req.body := rfl
    rw [hbody] at h
    cases hb : req.body with
    | buffer bytes => rw [hb] at h; cases h
    | parsed text => rw [hb] at h; cases h
    | stream read =>
      rw [hb] at h
      dsimp only at h
      split at h
      · cases h
      · rw [Option.some.inj h]
        rfl

theorem requestBody_left (rawBody : Option Base64.Bytes) (body : Option JsonParse.Value) :
    (requestBody numeral rawBody body).left taken = requestBody numeral rawBody body := by
  rcases body with _ | v
  · cases rawBody <;> rfl
  · cases v <;> rfl

theorem sends_buffer (hc : client.Sends) (rawBody : Option Base64.Bytes) :
    client.sends t (requestBody numeral rawBody none) = rawBody.getD [] := by
  cases rawBody with
  | none => exact hc.nothing t
  | some bytes => exact hc.buffer t bytes

theorem parse_empty : JsonParse.parse (utf8Text W []).toList = none := by
  have hempty : utf8Text W [] = "" := utf8Text_bytes W ""
  rw [hempty]
  rfl

/-- A body that is not streamed, where a route with rules reads it. -/
theorem buffered_kept_iff (hn : JsonParse.Numerals numeral) (hc : client.Sends) {rawBody : Option Base64.Bytes}
    {handed : Base64.Bytes} (hraw : rawBody.getD [] = handed) :
    client.sends t (requestBody numeral rawBody (parsedBody W rawBody)) = received ↔
      if handed = received then
        received = [] ∨ JsonParse.parse (utf8Text W received).toList = none ∨ CompactBody numeral (client.isJson t) received
      else ∃ v, JsonParse.parse (utf8Text W handed).toList = some v ∧ Resent numeral (client.isJson t) received v := by
  rw [parsedBody_handed, hraw]
  cases hp : JsonParse.parse (utf8Text W handed).toList with
  | none =>
    rw [sends_buffer hc, hraw]
    by_cases hsame : handed = received
    · subst hsame
      simp [hp]
    · simp [hsame]
  | some v =>
    rw [sends_value hn hc hp]
    by_cases hsame : handed = received
    · subst hsame
      have hfull : handed ≠ [] := by
        rintro rfl
        rw [parse_empty] at hp
        cases hp
      rw [if_pos rfl, hp, resent_iff hn hp]
      simp [hfull]
    · simp [hsame]

/-- Where no rule on the body is applied, exactly when the received bytes are what is sent. -/
theorem body_kept_iff (hn : JsonParse.Numerals numeral) (hc : client.Sends)
    (hno : ¬RewritesBody display (requestRules route.rules) (transformStart W requestId route consumedAuthHeader req))
    (h : clientCall display numeral rewrite W requestId route consumedAuthHeader req = some (t, out)) :
    client.sends t (out.left taken) = received ↔ BodyKept W numeral (client.isJson t) route req received taken := by
  unfold BodyKept
  rcases callData hno h with ⟨bytes, hstream, rfl⟩ | ⟨hstream, rawBody, hraw, rfl⟩
  · obtain ⟨hm, hhanded⟩ := stream_handed hstream
    have hsent : client.sends t (Outgoing.left taken (.stream bytes)) = bytes.drop taken := hc.stream t _
    rw [if_neg (not_not.2 hm), hstream, hhanded, hsent]
    simp only [Option.isSome_some, if_true]
    split
    · rename_i hsame
      subst hsame
      constructor
      · intro hdrop
        have hlen := congrArg List.length hdrop
        rw [List.length_drop] at hlen
        by_cases hempty : bytes = []
        · exact .inl hempty
        · have := List.length_pos_iff.2 hempty
          exact .inr (by omega)
      · rintro (rfl | rfl)
        · exact List.drop_nil
        · exact List.drop_zero
    · rfl
  · by_cases hm : req.method ∈ ["POST", "PUT", "PATCH"]
    · have hhanded : rawBody.getD [] = req.body.handed := rawBody_handed hm hstream hraw
      rw [if_neg (not_not.2 hm), hstream, requestBody_left]
      by_cases hnil : route.rules = []
      · rw [if_pos hnil, sends_buffer hc, hhanded]
        by_cases hsame : req.body.handed = received
        · simp [hsame, hnil]
        · simp [hsame, hnil]
      · rw [if_neg hnil, buffered_kept_iff hn hc hhanded]
        simp [hnil]
    · have hnone : rawBody = none := by
        have hraw' : (rawBodyBuffer route.toLoadedRoute req.toProxyIncoming).toOption = some none := by
          have hm' : req.toProxyIncoming.method ∉ ["POST", "PUT", "PATCH"] := hm
          rw [rawBodyBuffer, if_pos hm']
          rfl
        exact Option.some.inj (hraw.symm.trans hraw')
      subst hnone
      have hparsed : (if route.rules = [] then none else parsedBody W none) = none := ite_self _
      rw [if_pos hm, requestBody_left, hparsed, sends_buffer hc, eq_comm]
      rfl

end Sent

/-! ## A text at the top -/

namespace Tagged

def rule : TransformRule where
  routeId := "orders"
  phase := "REQUEST"
  type := "SET_HEADER"
  name := "tag"
  config := .obj [("key", .str "X-Tag"), ("value", .str "gate")]

def route : RuledRoute where
  id := "orders"
  row := Row.ofFields
    [(.name, .str "Orders"), (.publicPath, .str "/r/orders"), (.targetUrl, .str "http://orders"), (.isActive, .bool true),
     (.status, .str "PUBLISHED"), (.createdAt, .str "2026-01-01T00:00:00.000Z"), (.updatedAt, .str "2026-01-01T00:00:00.000Z")]
    (by intro c; cases c <;> rfl)
  breaker := quietBreaker
  targets := []
  hasTransformRules := true
  rules := [rule]
  ruled := rfl

/-- A POST with this text as JSON. -/
def request (text : String) : BodyRequest where
  toReceivedRequest :=
    { Keyed.request [("content-type", .str "application/json")] (by decide) (by decide) with method := "POST", path := "/orders" }
  body := .buffer (utf8Bytes text)

/-- A client that takes one content type for JSON. -/
def client : HttpClient where
  isJson t := t.get? "content-type" = some (.str "application/json")
  sends t
    | .nothing => []
    | .buffer bytes => bytes
    | .stream bytes => bytes
    | .text us =>
      if t.get? "content-type" = some (.str "application/json") then
        if (JsonParse.parse (JsonParse.chars us)).isNone = true then textBytes (JsonParse.quote us)
        else utf8Bytes (trim (String.ofList (JsonParse.chars us)))
      else textBytes (JsonParse.chars us)

theorem client_sends : client.Sends where
  nothing _ := rfl
  buffer _ _ := rfl
  stream _ _ := rfl
  text t us h := if_neg (of_decide_eq_false h)
  jsonText t us h hp := (if_pos (of_decide_eq_true h)).trans (if_neg (by simpa using hp))
  otherText t us h hp := (if_pos (of_decide_eq_true h)).trans (if_pos (by rw [hp]; rfl))

theorem numerals_id : JsonParse.Numerals id := ⟨fun _ h => .inl h, fun _ _ _ => rfl⟩

theorem rules : requestRules route.rules = [rule] := by
  have hactive : (route.rules.filter fun r => r.phase = "REQUEST" && r.isActive) = [rule] := by decide
  rw [requestRules, hactive, List.mergeSort_singleton]

theorem no_rewrite (st : TransformState) : ¬RewritesBody (fun _ => "") (requestRules route.rules) st := by
  rw [rules]
  rintro (⟨-, h⟩ | ⟨_, -, h⟩)
  · exact absurd h (by decide)
  · exact h

/-- The call for this text. -/
def call (text : String) : Option (ForwardHeaders × Outgoing) :=
  clientCall (fun _ => "") id (fun _ v => some v) World.plain "id" route none (request text)

theorem called (text : String) : ∃ t out, call text = some (t, out) := by
  have hstep : ∀ st : BodyState, ∃ st', applyBodyTransforms (fun _ => "") (fun _ v => some v) route.rules st = some st' := by
    intro st
    refine ⟨⟨⟨applyEdits st.headers [.set "X-Tag" (.str "gate")], st.queryParams, st.headerAncestry, st.queryAncestry⟩, st.body⟩, ?_⟩
    rw [applyBodyTransforms, rules, List.foldlM_cons]
    rfl
  obtain ⟨st, hst⟩ := hstep ⟨transformStart World.plain "id" route none (request text),
    parsedBody World.plain (if utf8Bytes text = [] then none else some (utf8Bytes text))⟩
  refine ⟨applyEdits st.headers (lengthEdits false (request text).toReceivedRequest),
    requestBody id (if utf8Bytes text = [] then none else some (utf8Bytes text)) st.body, ?_⟩
  show Option.bind (applyBodyTransforms (fun _ => "") (fun _ v => some v) route.rules _) _ = _
  rw [hst]
  rfl

def compactText : String := "\x7b\"a\":1\x7d"

/-- A JSON text that says a digit. -/
def digitText : String := "\"1\""

def value : JsonParse.Value := .obj [([97], .num ['1'])]

theorem value_good : JsonParse.Good (JsonParse.Written id) value := by
  refine .obj ?_ (List.pairwise_singleton _ _) ?_
  · decide
  · intro kv hkv
    rw [List.mem_singleton.1 hkv]
    exact .num ⟨by decide, rfl⟩

theorem compact_body (json : Bool) : CompactBody id json (utf8Bytes compactText) := by
  have htext : compactText.toList = JsonParse.write value := by decide
  refine ⟨_, (textBytes_toList _).symm, ⟨value, value_good, htext⟩, ?_⟩
  intro us h
  rw [htext, JsonParse.parse_write (fun _ ht => ht.1) value_good] at h
  cases h

theorem digit_parse : JsonParse.parse digitText.toList = some (.str [49]) := by
  have htext : digitText.toList = JsonParse.write (.str [49]) := by decide
  rw [htext, JsonParse.parse_write (fun _ ht => ht.1) (.str (by decide) : JsonParse.Good (JsonParse.Written id) (.str [49]))]

/-- What it says is JSON too. -/
theorem digit_body (json : Bool) : ¬CompactBody id json (utf8Bytes digitText) := by
  intro h
  obtain ⟨cs, hcs, -, htop⟩ := h
  have htext : digitText.toList = cs := by
    rw [((textBytes_eq_iff (W := World.plain)).1 hcs).2.symm, utf8Text_bytes]
  have hdigit : (JsonParse.parse (JsonParse.chars [49])).isSome = true := by decide
  rw [(htop [49] (htext ▸ digit_parse)).2] at hdigit
  cases hdigit

end Tagged

theorem a_compact_body_is_kept : ∃ t out, Tagged.call Tagged.compactText = some (t, out) ∧
    Tagged.client.sends t (out.left 0) = utf8Bytes Tagged.compactText := by
  obtain ⟨t, out, hcall⟩ := Tagged.called Tagged.compactText
  refine ⟨t, out, hcall, (body_kept_iff Tagged.numerals_id Tagged.client_sends (Tagged.no_rewrite _) hcall).2 ?_⟩
  exact .inr (.inr (.inr (Tagged.compact_body _)))

/-- The number 1 is sent. -/
theorem a_text_becomes_a_number :
    ¬∀ (W : World) (display : Json → String) (numeral : List Char → List Char)
        (rewrite : Json → JsonParse.Value → Option JsonParse.Value) (requestId : String) (route : RuledRoute)
        (consumedAuthHeader : Option String) (req : BodyRequest) (t : ForwardHeaders) (out : Outgoing) (client : HttpClient)
        (received : Base64.Bytes), JsonParse.Numerals numeral → client.Sends → Delivered received req.body →
        ¬RewritesBody display (requestRules route.rules) (transformStart W requestId route consumedAuthHeader req) →
        clientCall display numeral rewrite W requestId route consumedAuthHeader req = some (t, out) →
        client.sends t (out.left 0) = received := by
  intro h
  obtain ⟨t, out, hcall⟩ := Tagged.called Tagged.digitText
  have hsent := h World.plain (fun _ => "") id (fun _ v => some v) "id" Tagged.route none (Tagged.request Tagged.digitText) t out
    Tagged.client (utf8Bytes Tagged.digitText) Tagged.numerals_id Tagged.client_sends .buffered (Tagged.no_rewrite _) hcall
  rcases callData (Tagged.no_rewrite _) hcall with ⟨bytes, hstream, -⟩ | ⟨-, rawBody, hraw, rfl⟩
  · cases hstream
  · have hhanded : rawBody.getD [] = utf8Bytes Tagged.digitText := rawBody_handed (by decide) rfl hraw
    rw [requestBody_left, if_neg (by decide), buffered_kept_iff Tagged.numerals_id Tagged.client_sends hhanded, if_pos rfl] at hsent
    rcases hsent with hempty | hnone | hcompact
    · exact absurd hempty (by decide)
    · rw [utf8Text_bytes] at hnone
      cases hnone.symm.trans Tagged.digit_parse
    · exact Tagged.digit_body _ hcompact

end ClusterGate
