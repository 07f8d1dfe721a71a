/-
  ClusterGate.Proxy.UpstreamHeaders — the headers a request is forwarded with
  (`services/proxyService.ts`: `proxyRequest`, from the client's headers to the call of the
  upstream; `services/transformService.ts`: `applyRequestTransforms`; `lib/cookies.ts`), and
  whether a managed API key is among them.

  The header that carried the key is left out by its name. What follows is a list of edits,
  each a header set or removed: the configured headers, the upstream's credential, the
  proxy's own, and what the transform rules do. The map they work on tells keys by their
  casing; what is sent does not, and a later key of a name takes an earlier one's place.
  It is an object: a rule's condition also reads what objects inherit, and no header comes
  of assigning to `__proto__`, whatever row stands here under that key.

  A client may send its key twice, and only the header that was read is left out.
  - `key_kept_from_upstream_iff`: the key stays with the gateway exactly if it came in the
    Authorization header, or the one that came beside it does not contain it, or that one
    is set or removed on the way.
  - `a_key_sent_twice_is_forwarded`: `X-API-Key` and `Authorization: Bearer` with one key.
-/

import ClusterGate.Lib.JsValue
import ClusterGate.Proxy.Admission
import ClusterGate.Proxy.Cookies

namespace ClusterGate

open Lib Lib.Text

/-! ## Edits -/

/-- The headers to be sent, by key in the order they were set. -/
abbrev ForwardHeaders := Table String Json

inductive HeaderEdit
  | set (key : String) (value : Json)
  /-- `delete` of the key and of its lower case. -/
  | remove (key : String)

def HeaderEdit.apply (t : ForwardHeaders) : HeaderEdit → ForwardHeaders
  | .set key value => t.upsert key value
  | .remove key => (t.erase (toLowerAscii key)).erase key

def HeaderEdit.key : HeaderEdit → String
  | .set key _ => key
  | .remove key => key

def applyEdits (t : ForwardHeaders) (edits : List HeaderEdit) : ForwardHeaders := edits.foldl HeaderEdit.apply t

/-! ## The client's headers -/

/-- A request with all its headers, by name in lower case. -/
structure ReceivedRequest extends Incoming where
  headers : Table String Json
  lowered : ∀ key value, headers.get? key = some value → toLowerAscii key = key
  header_eq : ∀ name, header name = (headers.get? name).bind Json.str?
  query : Table String Json
  protocol : String
  hostname : String

/-- The headers of the request without the hop-by-hop ones and the one that was consumed. -/
def clientHeaders (consumedAuthHeader : Option String) (req : ReceivedRequest) : ForwardHeaders :=
  req.headers.filter fun key value =>
    !(HOP_BY_HOP_HEADERS.contains (toLowerAscii key)) && some (toLowerAscii key) ≠ consumedAuthHeader && value.isStr

def stripClusterGateCookies (cookieHeader : String) : Option String :=
  let kept := ((split cookieHeader ';').map trim).filter fun part =>
    part ≠ "" && !startsWith (toLowerAscii (trim ((split part '=').headD ""))) RESERVED_COOKIE_PREFIX
  if kept = [] then none else some ("; ".intercalate kept)

def cookieEdits (t : ForwardHeaders) : List HeaderEdit :=
  match (t.get? "cookie").bind Json.str? with
  | none => []
  | some header => match stripClusterGateCookies header with
    | some appCookies => [.set "cookie" (.str appCookies)]
    | none => [.remove "cookie"]

/-! ## The route's edits -/

/-- `Object.entries` of a record. -/
def entries : Json → List (String × Json)
  | .obj kvs => kvs
  | _ => []

def addHeaderEdits (route : Row) : List HeaderEdit := (entries (route.val .addHeaders)).map fun p => .set p.1 p.2

def removeHeaderEdits (route : Row) : List HeaderEdit := (route.strings .removeHeaders).map .remove

/-- The credential the upstream is sent, under its header. -/
def upstreamCredential (W : World) (route : Row) : Option (String × String) :=
  let uType := route.string .upstreamAuthType
  let uVal := (route.text .upstreamAuthValue).filter (· ≠ "")
  if uType = "" ∨ uType = "NONE" then none
  else uVal.bind fun uVal =>
    let v := (decryptSecret W (some uVal)).getD ""
    if uType = "BEARER" then some ("Authorization", "Bearer " ++ v)
    else if uType = "BASIC" then some ("Authorization", "Basic " ++ v)
    else if uType = "API_KEY" then some (orText (route.text .upstreamAuthHeader) "X-API-Key", v)
    else none

def upstreamEdits (W : World) (route : Row) : List HeaderEdit :=
  (upstreamCredential W route).toList.map fun p => .set p.1 (.str p.2)

def identityEdits (routeId requestId : String) (req : ReceivedRequest) : List HeaderEdit :=
  [.set "X-Forwarded-For" (.str (orText req.ip "")), .set "X-Forwarded-Proto" (.str req.protocol),
   .set "X-Forwarded-Host" (.str req.hostname), .set "X-ClusterGate-Route-ID" (.str routeId),
   .set "X-Request-ID" (.str requestId)]

/-! ## The transform rules -/

structure TransformState where
  headers : ForwardHeaders
  queryParams : Table String Json
  headerAncestry : JsValue.Ancestry
  queryAncestry : JsValue.Ancestry

/-- `headers[key]` -/
def TransformState.header (st : TransformState) (key : String) : JsValue.Slot :=
  st.headerAncestry.read (st.headers.get? key) key

/-- `queryParams[key]` -/
def TransformState.queryParam (st : TransformState) (key : String) : JsValue.Slot :=
  st.queryAncestry.read (st.queryParams.get? key) key

/-- What an edit does to the object behind the headers. -/
def HeaderEdit.ancestry (a : JsValue.Ancestry) : HeaderEdit → JsValue.Ancestry
  | .set key value => if key = "__proto__" then a.assign value else a
  | .remove key => if toLowerAscii key = "__proto__" then a.delete else a

def editAncestry (a : JsValue.Ancestry) (edits : List HeaderEdit) : JsValue.Ancestry := edits.foldl HeaderEdit.ancestry a

section Rules

variable (display : Json → String)

/-- A value as the name of a property. -/
def propertyName : Option Json → String
  | some key => toText display key
  | none => "undefined"

/-- `key?.toLowerCase()` as the name of a property; none if it throws. -/
def loweredName : Option Json → Option String
  | none | some .null => some "undefined"
  | some (.str key) => some (toLowerAscii key)
  | some _ => none

/-- `evaluateCondition`; none if it throws. -/
def evaluateCondition (condition : Json) (st : TransformState) : Option Bool :=
  match (condition.get? "header").filter Json.truthy, (condition.get? "queryParam").filter Json.truthy with
  | some c, _ =>
    let headerVal := st.header (propertyName display (c.get? "key"))
    if headerVal.truthy then some (headerVal.is (c.get? "value"))
    else (loweredName (c.get? "key")).map fun key => (st.header key).is (c.get? "value")
  | none, some c => some ((st.queryParam (propertyName display (c.get? "key"))).is (c.get? "value"))
  | none, none => some true

/-- What every object inherits is there, and is no value: a condition on it is never met. -/
theorem inherited_unmet {condition c : Json} {key : String} {st : TransformState}
    (hc : (condition.get? "header").filter Json.truthy = some c) (hkey : c.get? "key" = some (.str key))
    (hinherited : key ∈ JsValue.objectMethods) (hplain : st.headerAncestry = .plain) (habsent : st.headers.get? key = none) :
    evaluateCondition display condition st = some false := by
  have hne : key ≠ "__proto__" := by
    rintro rfl
    exact absurd hinherited (by decide)
  have hread : st.header (propertyName display (c.get? "key")) = .method := by
    rw [hkey]
    show st.headerAncestry.read (st.headers.get? key) key = _
    rw [hplain, habsent, JsValue.Ancestry.read_plain hne, if_pos hinherited]
  unfold evaluateCondition
  rw [hc]
  dsimp only
  rw [hread, if_pos (show JsValue.Slot.method.truthy = true from rfl), JsValue.Slot.is_method]

/-- Whether a rule is applied; none if its condition throws. -/
def TransformRule.meets (rule : TransformRule) (st : TransformState) : Option Bool :=
  match rule.condition.filter Json.truthy with
  | some condition => evaluateCondition display condition st
  | none => some true

/-- What a rule does to the headers; none if its key has no `toLowerCase`. -/
def TransformRule.edit (rule : TransformRule) : Option (List HeaderEdit) :=
  match rule.type, (rule.config.get? "key").filter Json.truthy with
  | "SET_HEADER", some key => some ((rule.config.get? "value").toList.map fun value => .set (toText display key) value)
  | "REMOVE_HEADER", some (.str key) => some [.remove key]
  | "REMOVE_HEADER", some _ => none
  | _, _ => some []

def TransformRule.queryEdit (rule : TransformRule) (queryParams : Table String Json) : Table String Json :=
  match rule.type, (rule.config.get? "key").filter Json.truthy with
  | "SET_QUERY_PARAM", some key => match rule.config.get? "value" with
    | some value => queryParams.upsert (toText display key) value
    | none => queryParams
  | "REMOVE_QUERY_PARAM", some key => queryParams.erase (toText display key)
  | _, _ => queryParams

/-- What a rule does to the object behind the query. -/
def TransformRule.editQueryAncestry (rule : TransformRule) (a : JsValue.Ancestry) : JsValue.Ancestry :=
  match rule.type, (rule.config.get? "key").filter Json.truthy with
  | "SET_QUERY_PARAM", some key =>
    if toText display key = "__proto__" then ((rule.config.get? "value").map a.assign).getD a else a
  | "REMOVE_QUERY_PARAM", some key => if toText display key = "__proto__" then a.delete else a
  | _, _ => a

/-- One rule. The rule on the body leaves the headers alone. -/
def applyRequestTransform (st : TransformState) (rule : TransformRule) : Option TransformState :=
  (rule.meets display st).bind fun met =>
    if met then (rule.edit display).map fun edits =>
      ⟨applyEdits st.headers edits, rule.queryEdit display st.queryParams, editAncestry st.headerAncestry edits,
        rule.editQueryAncestry display st.queryAncestry⟩
    else some st

def requestRules (rules : List TransformRule) : List TransformRule :=
  (rules.filter fun r => r.phase = "REQUEST" && r.isActive).mergeSort fun a b => a.order ≤ b.order

/-- `applyRequestTransforms` edits the map it is given. -/
def applyRequestTransforms (rules : List TransformRule) (st : TransformState) : Option TransformState :=
  (requestRules rules).foldlM (applyRequestTransform display) st

end Rules

/-! ## The headers of the call -/

/-- Before the transform rules. -/
def editedHeaders (W : World) (routeId requestId : String) (route : Row) (consumedAuthHeader : Option String)
    (req : ReceivedRequest) : ForwardHeaders :=
  let forwardHeaders := clientHeaders consumedAuthHeader req
  let forwardHeaders := applyEdits forwardHeaders (cookieEdits forwardHeaders)
  applyEdits forwardHeaders
    (addHeaderEdits route ++ removeHeaderEdits route ++ upstreamEdits W route ++ identityEdits routeId requestId req)

/-- The headers before the rules, and the query. -/
def ruleStart (W : World) (routeId requestId : String) (route : Row) (consumedAuthHeader : Option String)
    (req : ReceivedRequest) : TransformState where
  headers := editedHeaders W routeId requestId route consumedAuthHeader req
  queryParams := req.query
  headerAncestry := editAncestry .plain (addHeaderEdits route ++ removeHeaderEdits route ++ upstreamEdits W route)
  queryAncestry := .plain

/-- A streamed body is sent with its length. -/
def lengthEdits (streamed : Bool) (req : ReceivedRequest) : List HeaderEdit :=
  if streamed then (((req.header "content-length").filter (· ≠ "")).toList.map fun cl => .set "Content-Length" (.str cl))
  else []

/-- `forwardHeaders` as they are given to the HTTP client; none if a rule fails the request. -/
def buildHeaders (W : World) (display : Json → String) (routeId requestId : String) (route : Row)
    (rules : List TransformRule) (consumedAuthHeader : Option String) (streamed : Bool) (req : ReceivedRequest) :
    Option ForwardHeaders :=
  (applyRequestTransforms display rules (ruleStart W routeId requestId route consumedAuthHeader req)).map
    fun st => applyEdits st.headers (lengthEdits streamed req)

/-! ## What is sent -/

/-- The rows of a name, in any casing. -/
def named (name : String) (t : ForwardHeaders) : List (String × Json) := t.rows.filter fun r => isNamed name r.1

/-- The texts a value is sent as. -/
def sentTexts (display : Json → String) : Json → List String
  | .null | .bool false => []
  | .arr vs => vs.map (toText display)
  | v => [toText display v]

/-- What the HTTP client sends under a name. `urlAuth` is the Basic credential of the
    target's URL, which it puts in the place of an Authorization header. -/
def sentUnder (display : Json → String) (urlAuth : Option String) (t : ForwardHeaders) (name : String) : List String :=
  match urlAuth with
  | some credential => if name = "authorization" then ["Basic " ++ credential] else
      (((named name t).getLast?).map fun r => sentTexts display r.2).getD []
  | none => (((named name t).getLast?).map fun r => sentTexts display r.2).getD []

/-- A value is sent with the key in it. -/
def Carries (display : Json → String) (key : String) (v : Json) : Prop := ∃ text ∈ sentTexts display v, includes text key = true

/-- Neither of the two headers is sent with the key in it. -/
def KeyKept (display : Json → String) (urlAuth : Option String) (key : String) (t : ForwardHeaders) : Prop :=
  ∀ name ∈ ["x-api-key", "authorization"], ∀ text ∈ sentUnder display urlAuth t name, includes text key = false

/-- No configured header, rule or credential carries the key itself. -/
structure ConfiguredWithout (W : World) (display : Json → String) (route : Row) (rules : List TransformRule)
    (urlAuth : Option String) (key : String) : Prop where
  added : ∀ p ∈ entries (route.val .addHeaders), ¬Carries display key p.2
  credential : ∀ p, upstreamCredential W route = some p → includes p.2 key = false
  rules : ∀ rule ∈ rules, ∀ v, rule.config.get? "value" = some v → ¬Carries display key v
  url : ∀ credential, urlAuth = some credential → includes ("Basic " ++ credential) key = false

/-! ## The condition -/

def HeaderEdit.names (name : String) (e : HeaderEdit) : Bool := isNamed name e.key

/-- One of these rules is applied, and sets or removes the header. -/
def RulesName (display : Json → String) (name : String) : List TransformRule → TransformState → Prop
  | [], _ => False
  | rule :: rules, st =>
    (rule.meets display st = some true ∧ ∃ edits, rule.edit display = some edits ∧ edits.any (HeaderEdit.names name) = true) ∨
      ∃ st', applyRequestTransform display st rule = some st' ∧ RulesName display name rules st'

/-- The Authorization header the client sent is not the one that is sent on: it is
    configured, to be set or removed, or a rule that is applied does so, or the target's URL
    has a credential. -/
def Replaced (W : World) (display : Json → String) (routeId requestId : String) (route : Row) (rules : List TransformRule)
    (urlAuth consumedAuthHeader : Option String) (req : ReceivedRequest) : Prop :=
  (addHeaderEdits route ++ removeHeaderEdits route ++ upstreamEdits W route).any (HeaderEdit.names "authorization") = true ∨
    RulesName display "authorization" (requestRules rules) (ruleStart W routeId requestId route consumedAuthHeader req) ∨
    urlAuth.isSome = true

def KeyInAuthorization (req : Incoming) (key : String) : Prop :=
  ∃ authorization, req.header "authorization" = some authorization ∧ includes authorization key = true

/-! ## The rows of a name -/

theorem isNamed_lower {name key : String} : isNamed name (toLowerAscii key) = isNamed name key := by
  rw [isNamed, isNamed, toLowerAscii_toLowerAscii]

/-- An edit of another name leaves the rows of this one. -/
theorem named_apply_other {name : String} {e : HeaderEdit} (h : e.names name = false) (t : ForwardHeaders) :
    named name (e.apply t) = named name t := by
  cases e with
  | set key v => exact Table.rows_filter_upsert (p := fun r => isNamed name r.1) (k := key) (fun _ => h) v t
  | remove key =>
    have hlower : isNamed name (toLowerAscii key) = false := isNamed_lower.trans h
    have hfirst := Table.rows_filter_erase (p := fun r => isNamed name r.1) (k := toLowerAscii key) (fun _ => hlower) t
    have hsecond := Table.rows_filter_erase (p := fun r => isNamed name r.1) (k := key) (fun _ => h)
      (t.erase (toLowerAscii key))
    exact hsecond.trans hfirst

/-- A set of this name is the last row, or rewrites one in its place. -/
theorem named_upsert {name key : String} (h : isNamed name key = true) (t : ForwardHeaders) (v : Json) :
    named name (t.upsert key v) = named name t ++ [(key, v)] ∨
      ((∃ old, (key, old) ∈ named name t) ∧
        named name (t.upsert key v) = (named name t).map fun r => (r.1, if r.1 = key then v else r.2)) := by
  cases hg : t.get? key with
  | none =>
    have hfree : key ∉ t.rows.map Prod.fst := by
      intro hmem
      obtain ⟨⟨k, a⟩, hr, rfl⟩ := List.mem_map.1 hmem
      exact Table.get?_eq_none.1 hg a hr
    left
    unfold named Table.upsert
    rw [hg]
    unfold Table.insert
    rw [dif_neg hfree]
    simp [h]
  | some old =>
    have hrow : (key, old) ∈ named name t := List.mem_filter.2 ⟨Table.mem_rows_iff.2 hg, h⟩
    refine .inr ⟨⟨old, hrow⟩, ?_⟩
    rw [named, Table.upsert_of_some hg, Table.rows_modify, List.filter_map]
    rfl

/-- What is removed is not among the rows, in this casing or in lower case. -/
theorem mem_named_remove {name key : String} {t : ForwardHeaders} {r : String × Json}
    (h : r ∈ named name ((HeaderEdit.remove key).apply t)) : r ∈ named name t ∧ r.1 ≠ toLowerAscii key := by
  obtain ⟨hr, hn⟩ := List.mem_filter.1 h
  obtain ⟨hr, -⟩ := List.mem_filter.1 hr
  obtain ⟨hr, hk⟩ := List.mem_filter.1 hr
  exact ⟨List.mem_filter.2 ⟨hr, hn⟩, by simpa using hk⟩

/-! ## What the edits leave of a name -/

section Edits

variable {display : Json → String} {key name : String}

/-- No row of the name carries the key. -/
def NoneCarries (display : Json → String) (key : String) (rows : List (String × Json)) : Prop :=
  ∀ r ∈ rows, ¬Carries display key r.2

/-- At most the row in lower case carries the key, and it stands before all others. -/
def FirstMayCarry (display : Json → String) (key name : String) : List (String × Json) → Prop
  | [] => True
  | r :: rest => (Carries display key r.2 → r.1 = name) ∧ NoneCarries display key rest

/-- What may carry the key is not what is sent: another row of the name comes after it. -/
def Hidden (display : Json → String) (key name : String) : List (String × Json) → Prop
  | [] => True
  | r :: rest => (Carries display key r.2 → r.1 = name ∧ rest ≠ []) ∧ NoneCarries display key rest

/-- An edit that does not bring in the key itself. -/
def HeaderEdit.Safe (display : Json → String) (key name : String) : HeaderEdit → Prop
  | .set k v => isNamed name k = true → ¬Carries display key v
  | .remove _ => True

theorem Hidden.first {rows : List (String × Json)} (h : Hidden display key name rows) : FirstMayCarry display key name rows := by
  cases rows with
  | nil => trivial
  | cons r rest => exact ⟨fun hc => (h.1 hc).1, h.2⟩

theorem hidden_of_none {rows : List (String × Json)} (h : NoneCarries display key rows) : Hidden display key name rows := by
  cases rows with
  | nil => trivial
  | cons r rest =>
    exact ⟨fun hc => absurd hc (h r List.mem_cons_self), fun a ha => h a (List.mem_cons_of_mem _ ha)⟩

/-- The row that is sent does not carry it. -/
theorem Hidden.last {rows : List (String × Json)} (h : Hidden display key name rows) {r : String × Json}
    (hr : rows.getLast? = some r) : ¬Carries display key r.2 := by
  cases rows with
  | nil => cases hr
  | cons a rest =>
    cases rest with
    | nil =>
      have : a = r := by simpa using hr
      subst this
      exact fun hc => (h.1 hc).2 rfl
    | cons b more =>
      have hmem : r ∈ b :: more := by
        rw [List.getLast?_cons_cons] at hr
        exact List.mem_of_getLast? hr
      exact h.2 r hmem

/-- Rows without the key are without it when one is given another value without it. -/
theorem noneCarries_rewritten {rows : List (String × Json)} {k : String} {v : Json} (hv : ¬Carries display key v)
    (h : NoneCarries display key rows) : NoneCarries display key (rows.map fun r => (r.1, if r.1 = k then v else r.2)) := by
  intro r hr
  obtain ⟨a, ha, rfl⟩ := List.mem_map.1 hr
  by_cases hk : a.1 = k
  · rwa [if_pos hk]
  · rw [if_neg hk]
    exact h a ha

/-- A safe edit keeps the key out. -/
theorem noneCarries_apply {t : ForwardHeaders} {e : HeaderEdit} (hsafe : e.Safe display key name)
    (h : NoneCarries display key (named name t)) : NoneCarries display key (named name (e.apply t)) := by
  by_cases hn : e.names name = true
  · cases e with
    | remove k => exact fun r hr => h r (mem_named_remove hr).1
    | set k v =>
      have hname : isNamed name k = true := hn
      have hv : ¬Carries display key v := hsafe hname
      rcases named_upsert hname t v with hrows | ⟨-, hrows⟩
      · intro r hr
        rw [HeaderEdit.apply, hrows, List.mem_append, List.mem_singleton] at hr
        rcases hr with hr | rfl
        · exact h r hr
        · exact hv
      · rw [HeaderEdit.apply, hrows]
        exact noneCarries_rewritten hv h
  · rw [named_apply_other (Bool.not_eq_true _ ▸ hn)]
    exact h

/-- The row in lower case goes, and no other carries the key. -/
theorem hidden_remove {t : ForwardHeaders} {k : String} (hn : (HeaderEdit.remove k).names name = true)
    (h : FirstMayCarry display key name (named name t)) : Hidden display key name (named name ((HeaderEdit.remove k).apply t)) := by
  refine hidden_of_none ?_
  intro r hr hc
  obtain ⟨hmem, hk⟩ := mem_named_remove hr
  have hname : toLowerAscii k = name := of_decide_eq_true hn
  cases hrows : named name t with
  | nil =>
    rw [hrows] at hmem
    cases hmem
  | cons a rest =>
    rw [hrows] at h hmem
    rcases List.mem_cons.1 hmem with rfl | hmem
    · exact hk ((h.1 hc).trans hname.symm)
    · exact h.2 r hmem hc

/-- A row is added behind the one that may carry the key, or written into one. -/
theorem hidden_set {t : ForwardHeaders} {k : String} {v : Json} (hname : isNamed name k = true) (hv : ¬Carries display key v)
    (h : FirstMayCarry display key name (named name t)) : Hidden display key name (named name ((HeaderEdit.set k v).apply t)) := by
  cases hrows : named name t with
  | nil =>
    refine hidden_of_none (noneCarries_apply (fun _ => hv) ?_)
    rw [hrows]
    exact fun r hr => by cases hr
  | cons a rest =>
    rw [hrows] at h
    rcases named_upsert hname t v with hset | ⟨⟨old, hold⟩, hset⟩
    · rw [HeaderEdit.apply, hset, hrows]
      refine ⟨fun hc => ⟨h.1 hc, by simp⟩, ?_⟩
      intro r hr
      rcases List.mem_append.1 hr with hr | hr
      · exact h.2 r hr
      · rw [List.mem_singleton.1 hr]
        exact hv
    · rw [HeaderEdit.apply, hset, hrows]
      refine ⟨?_, noneCarries_rewritten hv h.2⟩
      dsimp only
      by_cases hk : a.1 = k
      · rw [if_pos hk]
        exact fun hc => absurd hc hv
      · rw [if_neg hk]
        intro hc
        refine ⟨h.1 hc, ?_⟩
        -- The row that was rewritten is another one.
        rw [hrows] at hold
        rcases List.mem_cons.1 hold with rfl | hold
        · exact absurd rfl hk
        · intro hnil
          rw [List.map_eq_nil_iff] at hnil
          rw [hnil] at hold
          cases hold

/-- A safe edit of the name hides what may carry the key. -/
theorem hidden_apply {t : ForwardHeaders} {e : HeaderEdit} (hsafe : e.Safe display key name) (hn : e.names name = true)
    (h : FirstMayCarry display key name (named name t)) : Hidden display key name (named name (e.apply t)) := by
  cases e with
  | remove k => exact hidden_remove hn h
  | set k v => exact hidden_set hn (hsafe hn) h

/-- A run of safe edits. -/
theorem noneCarries_edits {edits : List HeaderEdit} (hsafe : ∀ e ∈ edits, e.Safe display key name) {t : ForwardHeaders}
    (h : NoneCarries display key (named name t)) : NoneCarries display key (named name (applyEdits t edits)) := by
  induction edits generalizing t with
  | nil => exact h
  | cons e edits ih =>
    exact ih (fun e' he' => hsafe e' (List.mem_cons_of_mem _ he'))
      (noneCarries_apply (hsafe e List.mem_cons_self) h)

theorem hidden_edits {edits : List HeaderEdit} (hsafe : ∀ e ∈ edits, e.Safe display key name) {t : ForwardHeaders}
    (h : Hidden display key name (named name t)) :
    Hidden display key name (named name (applyEdits t edits)) := by
  induction edits generalizing t with
  | nil => exact h
  | cons e edits ih =>
    refine ih (fun e' he' => hsafe e' (List.mem_cons_of_mem _ he')) ?_
    by_cases hn : e.names name = true
    · exact hidden_apply (hsafe e List.mem_cons_self) hn h.first
    · rw [named_apply_other (Bool.not_eq_true _ ▸ hn)]
      exact h

/-- Where no edit is of the name, its rows stay. -/
theorem named_edits {edits : List HeaderEdit} (h : edits.any (HeaderEdit.names name) = false) (t : ForwardHeaders) :
    named name (applyEdits t edits) = named name t := by
  induction edits generalizing t with
  | nil => rfl
  | cons e edits ih =>
    rw [List.any_cons, Bool.or_eq_false_iff] at h
    exact (ih h.2 _).trans (named_apply_other h.1 t)

/-- Where one is, what may carry the key is hidden. -/
theorem hidden_named_edits {edits : List HeaderEdit} (hsafe : ∀ e ∈ edits, e.Safe display key name)
    (hn : edits.any (HeaderEdit.names name) = true) {t : ForwardHeaders}
    (h : FirstMayCarry display key name (named name t)) : Hidden display key name (named name (applyEdits t edits)) := by
  induction edits generalizing t with
  | nil => cases hn
  | cons e edits ih =>
    have hrest : ∀ e' ∈ edits, e'.Safe display key name := fun e' he' => hsafe e' (List.mem_cons_of_mem _ he')
    by_cases he : e.names name = true
    · exact hidden_edits hrest (hidden_apply (hsafe e List.mem_cons_self) he h)
    · have hother : e.names name = false := Bool.not_eq_true _ ▸ he
      rw [List.any_cons, hother, Bool.false_or] at hn
      refine ih hrest hn ?_
      rw [named_apply_other (Bool.not_eq_true _ ▸ he)]
      exact h

end Edits

/-! ## The edits of a request -/

section Building

variable {W : World} {display : Json → String} {routeId requestId : String} {route : Row} {rules : List TransformRule}
  {consumedAuthHeader urlAuth : Option String} {streamed : Bool} {req : ReceivedRequest} {key : String} {t : ForwardHeaders}

theorem applyEdits_append (t : ForwardHeaders) (es es' : List HeaderEdit) :
    applyEdits t (es ++ es') = applyEdits (applyEdits t es) es' := List.foldl_append

/-- What the rules do to the headers is a list of their edits, with those of a name among
    them as `RulesName` says. -/
theorem rules_edits {rules : List TransformRule} {st st' : TransformState}
    (h : rules.foldlM (applyRequestTransform display) st = some st') :
    ∃ edits, st'.headers = applyEdits st.headers edits ∧
      (∀ e ∈ edits, ∃ rule ∈ rules, ∃ es, rule.edit display = some es ∧ e ∈ es) ∧
      ∀ name, edits.any (HeaderEdit.names name) = true ↔ RulesName display name rules st := by
  induction rules generalizing st with
  | nil =>
    obtain rfl : st = st' := by simpa using h
    exact ⟨[], rfl, by simp, by simp [RulesName]⟩
  | cons rule rules ih =>
    rw [List.foldlM_cons] at h
    obtain ⟨st₁, hstep, h⟩ := Option.bind_eq_some_iff.1 h
    obtain ⟨rest, hrest, hfrom, hnames⟩ := ih h
    have hmore : ∀ e ∈ rest, ∃ r ∈ rule :: rules, ∃ es, r.edit display = some es ∧ e ∈ es := by
      intro e he
      obtain ⟨r, hr, hes⟩ := hfrom e he
      exact ⟨r, List.mem_cons_of_mem _ hr, hes⟩
    obtain ⟨met, hmet, happly⟩ := Option.bind_eq_some_iff.1 hstep
    cases met with
    | false =>
      -- The rule's condition is not met.
      obtain rfl : st = st₁ := by simpa using happly
      refine ⟨rest, hrest, hmore, fun name => ?_⟩
      simp [RulesName, hnames, hmet, hstep]
    | true =>
      obtain ⟨es, hes, hst⟩ := Option.map_eq_some_iff.1 happly
      have hheaders : st₁.headers = applyEdits st.headers es := by rw [← hst]
      refine ⟨es ++ rest, ?_, ?_, fun name => ?_⟩
      · rw [hrest, hheaders, applyEdits_append]
      · intro e he
        rcases List.mem_append.1 he with he | he
        · exact ⟨rule, List.mem_cons_self, es, hes, he⟩
        · exact hmore e he
      · simp [RulesName, hnames, hmet, hstep, hes]

/-- A rule's edits bring in the value the rule is configured with. -/
theorem rule_edit_safe {rule : TransformRule} {es : List HeaderEdit} {e : HeaderEdit} {name : String}
    (hv : ∀ v, rule.config.get? "value" = some v → ¬Carries display key v) (hes : rule.edit display = some es) (he : e ∈ es) :
    e.Safe display key name := by
  unfold TransformRule.edit at hes
  split at hes
  · injection hes with hes
    rw [← hes] at he
    obtain ⟨v, hmem, rfl⟩ := List.mem_map.1 he
    exact fun _ => hv v (Option.mem_toList.1 hmem)
  · injection hes with hes
    rw [← hes, List.mem_singleton] at he
    rw [he]
    trivial
  · cases hes
  · injection hes with hes
    rw [← hes] at he
    cases he

/-- The edits that come from neither the route nor its rules are of other names. -/
theorem own_edits_other {name : String} (hname : name ∈ ["x-api-key", "authorization"]) {e : HeaderEdit} {t : ForwardHeaders}
    (he : e ∈ cookieEdits t ∨ e ∈ identityEdits routeId requestId req ∨ e ∈ lengthEdits streamed req) :
    e.names name = false := by
  have hkey : e.key ∈ ["cookie", "X-Forwarded-For", "X-Forwarded-Proto", "X-Forwarded-Host", "X-ClusterGate-Route-ID",
      "X-Request-ID", "Content-Length"] := by
    rcases he with he | he | he
    · unfold cookieEdits at he
      split at he
      · cases he
      · split at he <;> rw [List.mem_singleton.1 he] <;> exact List.mem_cons_self
    · simp only [identityEdits, List.mem_cons, List.not_mem_nil, or_false] at he
      rcases he with rfl | rfl | rfl | rfl | rfl <;> simp [HeaderEdit.key]
    · unfold lengthEdits at he
      split at he
      · obtain ⟨v, -, rfl⟩ := List.mem_map.1 he
        simp [HeaderEdit.key]
      · cases he
  have hall : ∀ name ∈ ["x-api-key", "authorization"], ∀ key ∈ ["cookie", "X-Forwarded-For", "X-Forwarded-Proto",
      "X-Forwarded-Host", "X-ClusterGate-Route-ID", "X-Request-ID", "Content-Length"], isNamed name key = false := by
    decide
  exact hall name hname e.key hkey

/-- The edits of the client's headers in a row, with those of the rules. -/
def forwardEdits (W : World) (routeId requestId : String) (route : Row) (consumedAuthHeader : Option String) (streamed : Bool)
    (req : ReceivedRequest) (ruleEdits : List HeaderEdit) : List HeaderEdit :=
  cookieEdits (clientHeaders consumedAuthHeader req) ++ (addHeaderEdits route ++ removeHeaderEdits route ++ upstreamEdits W route ++
    identityEdits routeId requestId req) ++ ruleEdits ++ lengthEdits streamed req

/-- None of them brings in the key. -/
theorem forwardEdits_safe {ruleEdits : List HeaderEdit} (hc : ConfiguredWithout W display route rules urlAuth key)
    (hfrom : ∀ e ∈ ruleEdits, ∃ rule ∈ requestRules rules, ∃ es, rule.edit display = some es ∧ e ∈ es) {name : String}
    (hname : name ∈ ["x-api-key", "authorization"]) :
    ∀ e ∈ forwardEdits W routeId requestId route consumedAuthHeader streamed req ruleEdits, e.Safe display key name := by
  intro e he
  have hown : ∀ u, e ∈ cookieEdits u ∨ e ∈ identityEdits routeId requestId req ∨ e ∈ lengthEdits streamed req →
      e.Safe display key name := by
    intro u hu
    have hother := own_edits_other hname hu
    cases e with
    | set k v => exact fun h => absurd h (by simpa [HeaderEdit.names, HeaderEdit.key] using hother)
    | remove k => trivial
  simp only [forwardEdits, List.mem_append] at he
  rcases he with ((he | ((he | he) | he) | he) | he) | he
  · exact hown _ (.inl he)
  · obtain ⟨p, hp, rfl⟩ := List.mem_map.1 he
    exact fun _ => hc.added p hp
  · obtain ⟨k, -, rfl⟩ := List.mem_map.1 he
    trivial
  · obtain ⟨p, hp, rfl⟩ := List.mem_map.1 he
    rw [Option.mem_toList] at hp
    intro _ hcarries
    obtain ⟨text, htext, hincludes⟩ := hcarries
    rw [List.mem_singleton.1 htext, toText, hc.credential p hp] at hincludes
    cases hincludes
  · exact hown (clientHeaders consumedAuthHeader req) (.inr (.inl he))
  · obtain ⟨rule, hrule, es, hes, hmem⟩ := hfrom e he
    have hmine : rule ∈ rules := List.mem_of_mem_filter (List.mem_mergeSort.1 hrule)
    exact rule_edit_safe (hc.rules rule hmine) hes hmem
  · exact hown (clientHeaders consumedAuthHeader req) (.inr (.inr he))

/-- One is of the Authorization header exactly if one of the route's or of the rules' is. -/
theorem forwardEdits_names (ruleEdits : List HeaderEdit) :
    (forwardEdits W routeId requestId route consumedAuthHeader streamed req ruleEdits).any (HeaderEdit.names "authorization") =
        true ↔
      (addHeaderEdits route ++ removeHeaderEdits route ++ upstreamEdits W route).any (HeaderEdit.names "authorization") = true ∨
        ruleEdits.any (HeaderEdit.names "authorization") = true := by
  have hnone : ∀ (es : List HeaderEdit), (∀ e ∈ es, e.names "authorization" = false) →
      es.any (HeaderEdit.names "authorization") = false := by
    intro es h
    rw [List.any_eq_false]
    exact fun e he => by simp [h e he]
  have hother : ∀ e, e ∈ cookieEdits (clientHeaders consumedAuthHeader req) ∨ e ∈ identityEdits routeId requestId req ∨
      e ∈ lengthEdits streamed req → e.names "authorization" = false := fun e => own_edits_other (by decide)
  have hcookie := hnone (cookieEdits (clientHeaders consumedAuthHeader req)) fun e he => hother e (.inl he)
  have hidentity := hnone (identityEdits routeId requestId req) fun e he => hother e (.inr (.inl he))
  have hlength := hnone (lengthEdits streamed req) fun e he => hother e (.inr (.inr he))
  rw [forwardEdits, List.any_append, List.any_append, List.any_append, List.any_append, hcookie, hidentity, hlength]
  simp only [Bool.false_or, Bool.or_false, Bool.or_eq_true]

/-- All edits in a row: none of them brings in the key, and one is of the Authorization
    header exactly if the route's or the rules' are. -/
theorem build_edits (hbuild : buildHeaders W display routeId requestId route rules consumedAuthHeader streamed req = some t)
    (hc : ConfiguredWithout W display route rules urlAuth key) :
    ∃ edits, t = applyEdits (clientHeaders consumedAuthHeader req) edits ∧
      (∀ name ∈ ["x-api-key", "authorization"], ∀ e ∈ edits, e.Safe display key name) ∧
      (edits.any (HeaderEdit.names "authorization") = true ↔
        (addHeaderEdits route ++ removeHeaderEdits route ++ upstreamEdits W route).any (HeaderEdit.names "authorization") =
            true ∨
          RulesName display "authorization" (requestRules rules)
            (ruleStart W routeId requestId route consumedAuthHeader req)) := by
  obtain ⟨st, hst, rfl⟩ := Option.map_eq_some_iff.1 hbuild
  obtain ⟨ruleEdits, hrules, hfrom, hnames⟩ := rules_edits hst
  refine ⟨forwardEdits W routeId requestId route consumedAuthHeader streamed req ruleEdits, ?_, ?_, ?_⟩
  · rw [hrules, forwardEdits, applyEdits_append, applyEdits_append, applyEdits_append]
    rfl
  · exact fun name hname => forwardEdits_safe hc hfrom hname
  · rw [forwardEdits_names, hnames]

/-! ## What the client's headers start with -/

/-- The rows of a name in the client's headers: the header itself, if it is not left out. -/
theorem named_client {name : String} (hlower : toLowerAscii name = name) (hhop : name ∉ HOP_BY_HOP_HEADERS) :
    named name (clientHeaders consumedAuthHeader req) =
      if some name = consumedAuthHeader then [] else (req.header name).toList.map fun v => (name, .str v) := by
  -- All keys are in lower case: a row of the name is a row of the key.
  have hrows : named name (clientHeaders consumedAuthHeader req) =
      (clientHeaders consumedAuthHeader req).rows.filter fun r => r.1 = name := by
    refine List.filter_congr fun r hr => ?_
    have hkey := req.lowered r.1 r.2 (Table.mem_rows_iff.1 (List.mem_of_mem_filter hr))
    rw [isNamed, hkey]
  rw [hrows, Table.rows_filter_key, clientHeaders, Table.get?_filter, req.header_eq name]
  cases hv : req.headers.get? name with
  | none => simp
  | some v =>
    cases v with
    | str s =>
      by_cases hconsumed : some name = consumedAuthHeader
      · simp [hconsumed, hlower, Option.filter]
      · simp [hconsumed, hlower, hhop, Option.filter, Json.isStr, Json.str?]
    | _ => simp [Option.filter, Json.isStr, Json.str?]

/-! ## Whether the key is sent -/

theorem carries_str {text : String} : Carries display key (.str text) ↔ includes text key = true := by
  simp [Carries, sentTexts, toText]

theorem not_carries_empty (hne : key ≠ "") : ¬Carries display key (.str "") := by
  rw [carries_str]
  intro h
  have hnil : key.toList = [] := by simpa [includes] using h
  exact hne (String.toList_eq_nil_iff.1 hnil)

theorem sentUnder_kept {rows : List (String × Json)} {name : String} (hrows : named name t = rows)
    (hlast : ∀ r, rows.getLast? = some r → ¬Carries display key r.2)
    (hurl : ∀ credential, urlAuth = some credential → includes ("Basic " ++ credential) key = false) :
    ∀ text ∈ sentUnder display urlAuth t name, includes text key = false := by
  have hlastText : ∀ text ∈ (((named name t).getLast?).map fun r => sentTexts display r.2).getD [],
      includes text key = false := by
    intro text htext
    rw [hrows] at htext
    cases hl : rows.getLast? with
    | none => rw [hl] at htext; cases htext
    | some r =>
      rw [hl] at htext
      by_contra hinc
      exact hlast r hl ⟨text, htext, by simpa using hinc⟩
  intro text htext
  unfold sentUnder at htext
  split at htext
  · split at htext
    · rw [List.mem_singleton.1 htext]
      exact hurl _ rfl
    · exact hlastText text htext
  · exact hlastText text htext

/-- A key that was taken from a header: which, and that it is not empty. -/
theorem presentedKey_cases {header : String} (h : presentedKey req.toIncoming = some (key, header)) :
    key ≠ "" ∧
      ((header = "x-api-key" ∧ req.header "x-api-key" = some key) ∨
        (header = "authorization" ∧ ∀ v, req.header "x-api-key" = some v → v = "")) := by
  unfold presentedKey at h
  cases hx : (req.header "x-api-key").filter (· ≠ "") with
  | some k =>
    rw [hx] at h
    injection h with h
    injection h with hk hh
    obtain ⟨hget, hne⟩ := Option.filter_eq_some_iff.1 hx
    rw [hk] at hget hne
    exact ⟨by simpa using hne, .inl ⟨hh.symm, hget⟩⟩
  | none =>
    rw [hx] at h
    obtain ⟨k, hk, hpair⟩ := Option.map_eq_some_iff.1 h
    injection hpair with hk' hh
    obtain ⟨-, hne⟩ := Option.filter_eq_some_iff.1 hk
    rw [hk'] at hne
    refine ⟨by simpa using hne, .inr ⟨hh.symm, ?_⟩⟩
    intro v hv
    by_contra hvne
    rw [hv] at hx
    simp [Option.filter, hvne] at hx

/-- The header a route with managed keys consumes is the one the key came in. -/
theorem consumed_of_admitted {keys : ApiKeys} (hg : route.guarded = true) (ht : route.string .authType = "API_KEY")
    (hadmitted : proxyAdmission W keys routeId route req.toIncoming = .ok consumedAuthHeader) :
    ∃ key header, presentedKey req.toIncoming = some (key, header) ∧ consumedAuthHeader = some header := by
  have hauth : validateRouteAuth W keys routeId route req.toIncoming = .ok consumedAuthHeader := by
    unfold proxyAdmission at hadmitted
    dsimp only at hadmitted
    split at hadmitted
    · cases hadmitted
    · split at hadmitted
      · cases hadmitted
      · exact hadmitted
  unfold validateRouteAuth at hauth
  dsimp only at hauth
  rw [if_pos ht] at hauth
  split at hauth
  · cases hauth
  · rename_i key header hpresented
    split at hauth
    · cases hauth
    · split at hauth
      · cases hauth
      · injection hauth with hauth
        exact ⟨key, header, hpresented, hauth.symm⟩

section Start

variable {edits : List HeaderEdit} (hne : key ≠ "")

/-- The rows of the Authorization header at the start. -/
theorem named_authorization :
    named "authorization" (clientHeaders consumedAuthHeader req) =
      if some "authorization" = consumedAuthHeader then []
      else (req.header "authorization").toList.map fun v => ("authorization", .str v) :=
  named_client (by decide) (by decide)

include hne in
/-- Of `X-API-Key` nothing but an empty text is left at the start. -/
theorem apiKey_start
    (hfrom : consumedAuthHeader = some "x-api-key" ∨ ∀ v, req.header "x-api-key" = some v → v = "") :
    NoneCarries display key (named "x-api-key" (clientHeaders consumedAuthHeader req)) := by
  rw [named_client (by decide) (by decide)]
  intro r hr
  split at hr
  · cases hr
  · rename_i hkept
    obtain ⟨v, hv, rfl⟩ := List.mem_map.1 hr
    rcases hfrom with rfl | hempty
    · exact absurd rfl hkept
    · rw [hempty v (Option.mem_toList.1 hv)]
      exact not_carries_empty hne

/-- The Authorization header may carry the key, as the only one of its name. -/
theorem authorization_start :
    FirstMayCarry display key "authorization" (named "authorization" (clientHeaders consumedAuthHeader req)) := by
  rw [named_authorization]
  split
  · trivial
  · cases req.header "authorization" with
    | none => trivial
    | some v => exact ⟨fun _ => rfl, fun r hr => by cases hr⟩

/-- It does not, if it was consumed or came without the key. -/
theorem authorization_clean
    (h : consumedAuthHeader = some "authorization" ∨ ¬KeyInAuthorization req.toIncoming key) :
    NoneCarries display key (named "authorization" (clientHeaders consumedAuthHeader req)) := by
  rw [named_authorization]
  intro r hr
  split at hr
  · cases hr
  · rename_i hkept
    obtain ⟨v, hv, rfl⟩ := List.mem_map.1 hr
    rcases h with rfl | h
    · exact absurd rfl hkept
    · rw [carries_str]
      exact fun hinc => h ⟨v, Option.mem_toList.1 hv, hinc⟩

/-- A name none of whose rows carries the key at the start is sent without it. -/
theorem sent_without {name : String} (hsafe : ∀ e ∈ edits, e.Safe display key name)
    (hstart : NoneCarries display key (named name t))
    (hurl : ∀ credential, urlAuth = some credential → includes ("Basic " ++ credential) key = false) :
    ∀ text ∈ sentUnder display urlAuth (applyEdits t edits) name, includes text key = false := by
  refine sentUnder_kept rfl ?_ hurl
  exact fun r hr => noneCarries_edits hsafe hstart r (List.mem_of_getLast? hr)

/-- An Authorization header that the URL's credential or an edit replaces is sent without it. -/
theorem authorization_replaced (hsafe : ∀ e ∈ edits, e.Safe display key "authorization")
    (hurl : ∀ credential, urlAuth = some credential → includes ("Basic " ++ credential) key = false)
    (h : urlAuth.isSome = true ∨ edits.any (HeaderEdit.names "authorization") = true) :
    ∀ text ∈ sentUnder display urlAuth (applyEdits (clientHeaders consumedAuthHeader req) edits) "authorization",
      includes text key = false := by
  cases urlAuth with
  | some credential =>
    intro text htext
    have hbasic : text = "Basic " ++ credential := List.mem_singleton.1 htext
    rw [hbasic]
    exact hurl credential rfl
  | none =>
    have hany : edits.any (HeaderEdit.names "authorization") = true := by
      rcases h with h | h
      · cases h
      · exact h
    refine sentUnder_kept rfl ?_ fun _ h => by cases h
    exact fun r hr => (hidden_named_edits hsafe hany authorization_start).last hr

/-- A header that no edit is of is sent as it came. -/
theorem sent_as_it_came {auth : String} (hget : req.header "authorization" = some auth)
    (hkept : consumedAuthHeader ≠ some "authorization") (hother : edits.any (HeaderEdit.names "authorization") = false) :
    auth ∈ sentUnder display none (applyEdits (clientHeaders consumedAuthHeader req) edits) "authorization" := by
  have hrows : named "authorization" (applyEdits (clientHeaders consumedAuthHeader req) edits) =
      [("authorization", .str auth)] := by
    rw [named_edits hother, named_authorization, if_neg (Ne.symm hkept), hget]
    rfl
  unfold sentUnder
  rw [hrows]
  exact List.mem_singleton.2 rfl

end Start

/-- Of an admitted request to a route with managed keys, forwarded by a configuration that
    does not carry the key, the key stays with the gateway. -/
theorem key_kept_from_upstream_iff {keys : ApiKeys} {header : String} (hg : route.guarded = true)
    (ht : route.string .authType = "API_KEY")
    (hadmitted : proxyAdmission W keys routeId route req.toIncoming = .ok consumedAuthHeader)
    (hkey : presentedKey req.toIncoming = some (key, header))
    (hbuild : buildHeaders W display routeId requestId route rules consumedAuthHeader streamed req = some t)
    (hc : ConfiguredWithout W display route rules urlAuth key) :
    KeyKept display urlAuth key t ↔
      header = "authorization" ∨ ¬KeyInAuthorization req.toIncoming key ∨
        Replaced W display routeId requestId route rules urlAuth consumedAuthHeader req := by
  obtain ⟨hne, hfrom⟩ := presentedKey_cases hkey
  obtain ⟨key', header', hpresented, hconsumed⟩ := consumed_of_admitted hg ht hadmitted
  obtain rfl : header' = header := by
    rw [hkey] at hpresented
    exact (congrArg Prod.snd (Option.some.inj hpresented)).symm
  obtain ⟨edits, rfl, hsafe, hreplaces⟩ := build_edits hbuild hc
  have hsafeAuth := hsafe "authorization" (by decide)
  constructor
  · intro hkept
    by_contra hnot
    rw [not_or, not_or, not_not] at hnot
    obtain ⟨hheader, ⟨auth, hget, hincludes⟩, hreplaced⟩ := hnot
    -- The key came in `X-API-Key`, and the header beside it is sent as it came.
    have hother : edits.any (HeaderEdit.names "authorization") = false := by
      rw [← Bool.not_eq_true, hreplaces]
      intro h
      rcases h with h | h
      · exact hreplaced (.inl h)
      · exact hreplaced (.inr (.inl h))
    have hurl : urlAuth = none := by
      rw [← Option.not_isSome_iff_eq_none]
      exact fun h => hreplaced (.inr (.inr h))
    subst hurl
    have hconsumed' : consumedAuthHeader ≠ some "authorization" := by
      rw [hconsumed]
      exact fun h => hheader (Option.some.inj h)
    have hout := hkept "authorization" (by decide) auth (sent_as_it_came hget hconsumed' hother)
    rw [hincludes] at hout
    cases hout
  · intro h name hname
    rcases List.mem_cons.1 hname with rfl | hname
    · refine sent_without (hsafe "x-api-key" (by decide)) (apiKey_start hne ?_) hc.url
      rcases hfrom with ⟨rfl, -⟩ | ⟨-, hempty⟩
      · exact .inl hconsumed
      · exact .inr hempty
    · obtain rfl := List.mem_singleton.1 hname
      rcases h with rfl | h | h
      · exact sent_without hsafeAuth (authorization_clean (.inl hconsumed)) hc.url
      · exact sent_without hsafeAuth (authorization_clean (.inr h)) hc.url
      · refine authorization_replaced hsafeAuth hc.url ?_
        rw [hreplaces]
        rcases h with h | h | h
        · exact .inr (.inl h)
        · exact .inr (.inr h)
        · exact .inl h

end Building

/-! ## One key, once and twice -/

namespace Keyed

def route : Row := Row.ofFields
  [(.name, .str "models"), (.publicPath, .str "/r/models"), (.targetUrl, .str "http://upstream"), (.isActive, .bool true),
   (.status, .str "PUBLISHED"), (.requireAuth, .bool true), (.authType, .str "API_KEY"),
   (.createdAt, .str "2026-01-01T00:00:00.000Z"), (.updatedAt, .str "2026-01-01T00:00:00.000Z")]
  (by intro c; cases c <;> rfl)

def keys : ApiKeys := ⟨0, [⟨"models", "cgk_1", true, .FULL, none, [], []⟩], fun _ _ => none⟩

/-- A request with these headers. -/
def request (rows : List (String × Json)) (nodup : (rows.map Prod.fst).Nodup)
    (lowered : ∀ r ∈ rows, toLowerAscii r.1 = r.1) : ReceivedRequest where
  method := "GET"
  url := "/r/models"
  path := "/models"
  header name := ((Table.mk rows nodup).get? name).bind Json.str?
  ip := some "10.0.0.2"
  remoteAddress := some "10.0.0.2"
  headers := ⟨rows, nodup⟩
  lowered key value h := lowered (key, value) (Table.mem_rows_iff.2 h)
  header_eq _ := rfl
  query := .empty
  protocol := "https"
  hostname := "gate.example.com"

theorem nothing_lowered : ∀ r ∈ ([] : List (String × Json)), toLowerAscii r.1 = r.1 := by simp

def once : ReceivedRequest := request [("authorization", .str "Bearer cgk_1")] (by decide) (by decide)

def twice : ReceivedRequest :=
  request [("x-api-key", .str "cgk_1"), ("authorization", .str "Bearer cgk_1")] (by decide) (by decide)

/-- What a request is forwarded with. -/
def forwarded (consumedAuthHeader : Option String) (req : ReceivedRequest) : ForwardHeaders :=
  editedHeaders World.plain "models" "id" route consumedAuthHeader req

theorem builds (consumedAuthHeader : Option String) (req : ReceivedRequest) :
    buildHeaders World.plain (fun _ => "") "models" "id" route [] consumedAuthHeader false req =
      some (forwarded consumedAuthHeader req) := by
  have hrules : requestRules [] = [] := by simp [requestRules]
  rw [buildHeaders, applyRequestTransforms, hrules]
  rfl

theorem configured_without : ConfiguredWithout World.plain (fun _ => "") route [] none "cgk_1" where
  added := by
    intro p hp
    cases hp
  credential := by
    intro p hp
    cases hp
  rules := by
    intro rule hrule
    cases hrule
  url := by
    intro credential h
    cases h

end Keyed

theorem a_key_sent_once_is_kept : KeyKept (fun _ => "") none "cgk_1" (Keyed.forwarded (some "authorization") Keyed.once) := by
  have hadmitted : proxyAdmission World.plain Keyed.keys "models" Keyed.route Keyed.once.toIncoming =
      .ok (some "authorization") := rfl
  exact (key_kept_from_upstream_iff rfl rfl hadmitted rfl (Keyed.builds _ _) Keyed.configured_without).2 (.inl rfl)

theorem a_key_sent_twice_is_forwarded :
    ¬∀ (W : World) (display : Json → String) (routeId requestId : String) (route : Row) (rules : List TransformRule)
        (consumedAuthHeader urlAuth : Option String) (streamed : Bool) (req : ReceivedRequest) (keys : ApiKeys)
        (key header : String) (t : ForwardHeaders), route.guarded = true → route.string .authType = "API_KEY" →
        proxyAdmission W keys routeId route req.toIncoming = .ok consumedAuthHeader →
        presentedKey req.toIncoming = some (key, header) →
        buildHeaders W display routeId requestId route rules consumedAuthHeader streamed req = some t →
        ConfiguredWithout W display route rules urlAuth key → KeyKept display urlAuth key t := by
  intro h
  have hkept := h World.plain (fun _ => "") "models" "id" Keyed.route [] (some "x-api-key") none false Keyed.twice Keyed.keys
    "cgk_1" "x-api-key" (Keyed.forwarded (some "x-api-key") Keyed.twice) rfl rfl rfl rfl
    (Keyed.builds _ _) Keyed.configured_without
  have hsent := hkept "authorization" (by decide) "Bearer cgk_1" (by decide)
  exact absurd hsent (by decide)

end ClusterGate
