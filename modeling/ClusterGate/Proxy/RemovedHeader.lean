/-
  ClusterGate.Proxy.RemovedHeader — whether a header that a transform rule removes is gone
  (`services/transformService.ts`: `applyRequestTransforms`; `services/proxyService.ts`:
  `proxyRequest`).

  The rule deletes its key and the lower case of it. The client's headers are in lower
  case; those that are configured, injected or set by a rule are spelled in any casing.
  - `present_edits`: a spelling is there exactly if the last edit of it set it.
  - `removed_header_gone_iff`: after the last rule on a name, a removal, the name is gone
    exactly if no other spelling of it was set and left before the rule.
  - `a_forwarded_header_stays`: `x-forwarded-for` is removed, `X-Forwarded-For` is sent.
-/

import ClusterGate.Proxy.ForwardedBody

namespace ClusterGate

open Lib Lib.Text

/-! ## A spelling under the edits -/

/-- Whether a spelling is there after an edit. -/
def HeaderEdit.leaves (k : String) (there : Bool) : HeaderEdit → Bool
  | .set key _ => there || k = key
  | .remove key => there && k ≠ key && k ≠ toLowerAscii key

/-- The last edit of the spelling sets it. -/
def standing (k : String) (edits : List HeaderEdit) : Bool := edits.foldl (HeaderEdit.leaves k) false

theorem present_apply (t : ForwardHeaders) (e : HeaderEdit) (k : String) :
    ((e.apply t).get? k).isSome = e.leaves k (t.get? k).isSome := by
  cases e with
  | set key v =>
    rw [HeaderEdit.apply, Table.get?_upsert, HeaderEdit.leaves]
    by_cases hk : k = key <;> simp [hk]
  | remove key =>
    rw [HeaderEdit.apply, Table.get?_erase, Table.get?_erase, HeaderEdit.leaves]
    by_cases hk : k = key
    · simp [hk]
    · by_cases hlower : k = toLowerAscii key <;> simp [hk, hlower]

theorem present_edits (t : ForwardHeaders) (edits : List HeaderEdit) (k : String) :
    ((applyEdits t edits).get? k).isSome = edits.foldl (HeaderEdit.leaves k) (t.get? k).isSome := by
  induction edits generalizing t with
  | nil => rfl
  | cons e edits ih =>
    rw [List.foldl_cons, ← present_apply]
    exact ih (e.apply t)

/-- An edit of another name leaves a spelling as it is. -/
theorem leaves_other {name k : String} (hk : toLowerAscii k = name) {e : HeaderEdit} (he : e.names name = false) (there : Bool) :
    e.leaves k there = there := by
  have hkey : toLowerAscii e.key ≠ name := by simpa [HeaderEdit.names, isNamed] using he
  cases e with
  | set key v =>
    have hne : k ≠ key := fun heq => hkey (heq ▸ hk)
    simp [HeaderEdit.leaves, hne]
  | remove key =>
    have hne : k ≠ key := fun heq => hkey (heq ▸ hk)
    have hlower : k ≠ toLowerAscii key := by
      intro heq
      rw [heq, toLowerAscii_toLowerAscii] at hk
      exact hkey hk
    simp [HeaderEdit.leaves, hne, hlower]

theorem foldl_leaves_other {name k : String} (hk : toLowerAscii k = name) {edits : List HeaderEdit}
    (h : edits.any (HeaderEdit.names name) = false) (there : Bool) : edits.foldl (HeaderEdit.leaves k) there = there := by
  induction edits generalizing there with
  | nil => rfl
  | cons e edits ih =>
    rw [List.any_cons, Bool.or_eq_false_iff] at h
    rw [List.foldl_cons, leaves_other hk h.1, ih h.2]

/-- A spelling that no edit sets is not there. -/
theorem standing_unset {k : String} {edits : List HeaderEdit} (h : ∀ key v, HeaderEdit.set key v ∈ edits → k ≠ key) :
    standing k edits = false := by
  unfold standing
  induction edits with
  | nil => rfl
  | cons e edits ih =>
    have hfirst : e.leaves k false = false := by
      cases e with
      | set key v => simp [HeaderEdit.leaves, h key v List.mem_cons_self]
      | remove key => rfl
    rw [List.foldl_cons, hfirst]
    exact ih fun key v hmem => h key v (List.mem_cons_of_mem e hmem)

/-! ## The edits of the rules -/

section Rules

variable (display : Json → String)

/-- The edits of the rules that are applied, one rule after the other. -/
def appliedEdits : List TransformRule → TransformState → List HeaderEdit
  | [], _ => []
  | rule :: rules, st =>
    (if rule.meets display st = some true then (rule.edit display).getD [] else []) ++
      match applyRequestTransform display st rule with
      | some st' => appliedEdits rules st'
      | none => []

variable {display}

theorem applied_headers {st st' : TransformState} {rule : TransformRule} (h : applyRequestTransform display st rule = some st') :
    st'.headers = applyEdits st.headers (if rule.meets display st = some true then (rule.edit display).getD [] else []) := by
  obtain ⟨met, hmet, happly⟩ := Option.bind_eq_some_iff.1 h
  cases met with
  | false =>
    obtain rfl : st = st' := by simpa using happly
    rw [hmet, if_neg (by simp)]
    rfl
  | true =>
    obtain ⟨edits, hedits, rfl⟩ := Option.map_eq_some_iff.1 happly
    rw [hmet, if_pos rfl, hedits, Option.getD_some]

theorem rules_headers {rules : List TransformRule} {st st' : TransformState}
    (h : rules.foldlM (applyRequestTransform display) st = some st') :
    st'.headers = applyEdits st.headers (appliedEdits display rules st) := by
  induction rules generalizing st with
  | nil =>
    obtain rfl : st = st' := by simpa using h
    rfl
  | cons rule rules ih =>
    rw [List.foldlM_cons] at h
    obtain ⟨st₁, hstep, h⟩ := Option.bind_eq_some_iff.1 h
    rw [ih h, appliedEdits, hstep, applyEdits_append, applied_headers hstep]

/-- The last rule of a name that is applied is a removal, without a condition. -/
structure LastRemoval (display : Json → String) (rules : List TransformRule) (start : TransformState) (key : String)
    (earlier : List TransformRule) (rule : TransformRule) (later : List TransformRule) : Prop where
  order : requestRules rules = earlier ++ rule :: later
  removes : rule.type = "REMOVE_HEADER"
  of_key : (rule.config.get? "key").filter Json.truthy = some (.str key)
  unconditional : rule.condition.filter Json.truthy = none
  last : ∀ before after, earlier.foldlM (applyRequestTransform display) start = some before →
    applyRequestTransform display before rule = some after → ¬RulesName display (toLowerAscii key) later after

theorem LastRemoval.present {rules : List TransformRule} {start st : TransformState} {key : String}
    {earlier later : List TransformRule} {rule : TransformRule} (h : LastRemoval display rules start key earlier rule later)
    (hrun : applyRequestTransforms display rules start = some st) {k : String} (hk : toLowerAscii k = toLowerAscii key) :
    (st.headers.get? k).isSome =
      ((appliedEdits display earlier start).foldl (HeaderEdit.leaves k) (start.headers.get? k).isSome &&
        k ≠ key && k ≠ toLowerAscii key) := by
  rw [applyRequestTransforms, h.order, List.foldlM_append] at hrun
  obtain ⟨before, hbefore, hrun⟩ := Option.bind_eq_some_iff.1 hrun
  rw [List.foldlM_cons] at hrun
  obtain ⟨after, hafter, hrun⟩ := Option.bind_eq_some_iff.1 hrun
  obtain ⟨edits, hedits, -, hnames⟩ := rules_edits hrun
  have hother : edits.any (HeaderEdit.names (toLowerAscii key)) = false := by
    rw [← Bool.not_eq_true, hnames]
    exact h.last before after hbefore hafter
  have hmeets : rule.meets display before = some true := by rw [TransformRule.meets, h.unconditional]
  have hedit : rule.edit display = some [.remove key] := by
    rw [TransformRule.edit, h.removes, h.of_key]
    rfl
  have hremoved : after.headers = applyEdits before.headers [.remove key] := by
    rw [applied_headers hafter, if_pos hmeets, hedit, Option.getD_some]
  rw [hedits, present_edits, foldl_leaves_other hk hother, hremoved, present_edits, rules_headers hbefore, present_edits]
  rfl

end Rules

/-! ## The headers of the call -/

/-- The edits before the rules that do not depend on the client's headers. -/
def configuredEdits (W : World) (requestId : String) (route : RuledRoute) (req : BodyRequest) : List HeaderEdit :=
  addHeaderEdits route.row ++ removeHeaderEdits route.row ++ upstreamEdits W route.row ++
    identityEdits route.id requestId req.toReceivedRequest

section Call

variable {W : World} {display : Json → String} {numeral : List Char → List Char}
  {rewrite : Json → JsonParse.Value → Option JsonParse.Value} {requestId : String} {route : RuledRoute}
  {consumedAuthHeader : Option String} {req : BodyRequest} {t : ForwardHeaders} {out : Outgoing}

/-- With rules, the headers of the call are those the rules leave. -/
theorem call_ruled (hcall : clientCall display numeral rewrite W requestId route consumedAuthHeader req = some (t, out))
    (hrules : route.rules ≠ []) : ∃ st,
    applyRequestTransforms display route.rules (transformStart W requestId route consumedAuthHeader req) = some st ∧
      t = st.headers := by
  have hbuffered : requestStream route.toLoadedRoute req.toProxyIncoming = none := by
    have hneed : route.toLoadedRoute.needBufferedBody = true := by
      rw [LoadedRoute.needBufferedBody, route.ruled, decide_eq_true hrules, Bool.or_true]
    unfold requestStream
    split
    · rfl
    · split <;> rfl
  have hbuild := clientCall_headers hcall
  rw [hbuffered, buildHeaders] at hbuild
  obtain ⟨st, hst, rfl⟩ := Option.map_eq_some_iff.1 hbuild
  exact ⟨st, hst, rfl⟩

/-- A client's header is in lower case, so another spelling is there by the edits alone. -/
theorem start_present {k : String} (hk : toLowerAscii k ≠ k) :
    ((transformStart W requestId route consumedAuthHeader req).headers.get? k).isSome =
      standing k (configuredEdits W requestId route req) := by
  have hclient : (clientHeaders consumedAuthHeader req.toReceivedRequest).get? k = none := by
    rw [clientHeaders, Table.get?_filter]
    cases hget : req.headers.get? k with
    | none => rfl
    | some v => exact absurd (req.lowered k v hget) hk
  have hcookie : ∀ t : ForwardHeaders, t.get? k = none → (applyEdits t (cookieEdits t)).get? k = none := by
    intro t ht
    have hne : k ≠ "cookie" := fun heq => hk (by rw [heq]; decide)
    have hsome := present_edits t (cookieEdits t) k
    rw [ht] at hsome
    rw [← Option.not_isSome_iff_eq_none, hsome]
    unfold cookieEdits
    split
    · simp
    · split
      · simp [HeaderEdit.leaves, hne]
      · simp [HeaderEdit.leaves]
  show ((applyEdits _ (configuredEdits W requestId route req)).get? k).isSome = _
  rw [present_edits, hcookie _ hclient]
  rfl

/-- The removed name is gone exactly if before the rule no other spelling of it was set and left. -/
theorem removed_header_gone_iff {key : String} {earlier later : List TransformRule} {rule : TransformRule}
    (hcall : clientCall display numeral rewrite W requestId route consumedAuthHeader req = some (t, out))
    (hlast : LastRemoval display route.rules (transformStart W requestId route consumedAuthHeader req) key earlier rule later) :
    (∀ k, toLowerAscii k = toLowerAscii key → t.get? k = none) ↔
      ∀ k, toLowerAscii k = toLowerAscii key → k ≠ key → k ≠ toLowerAscii key →
        standing k (configuredEdits W requestId route req ++
          appliedEdits display earlier (transformStart W requestId route consumedAuthHeader req)) = false := by
  have hrules : route.rules ≠ [] := by
    intro hnil
    have horder := hlast.order
    rw [hnil] at horder
    simp [requestRules] at horder
  obtain ⟨st, hrun, rfl⟩ := call_ruled hcall hrules
  refine forall_congr' fun k => forall_congr' fun hk => ?_
  rw [← Option.not_isSome_iff_eq_none, hlast.present hrun hk]
  by_cases hkey : k = key
  · simp [hkey]
  · by_cases hlower : k = toLowerAscii key
    · simp [hlower]
    · have hne : toLowerAscii k ≠ k := fun heq => hlower (heq ▸ hk)
      rw [start_present hne]
      simp [hkey, hlower, standing, List.foldl_append]

end Call

/-! ## A removal in another spelling -/

namespace Removing

def rule (key : String) : TransformRule where
  routeId := "orders"
  phase := "REQUEST"
  type := "REMOVE_HEADER"
  name := "untag"
  config := .obj [("key", .str key)]

def route (key : String) : RuledRoute := { Tagged.route with rules := [rule key], ruled := rfl }

def start (key : String) : TransformState := transformStart World.plain "id" (route key) none (Tagged.request "")

/-- The call through a route that removes the header of this key. -/
def call (key : String) : Option (ForwardHeaders × Outgoing) :=
  clientCall (fun _ => "") id (fun _ v => some v) World.plain "id" (route key) none (Tagged.request "")

theorem rules (key : String) : requestRules (route key).rules = [rule key] := by
  have hactive : ((route key).rules.filter fun r => r.phase = "REQUEST" && r.isActive) = [rule key] := rfl
  rw [requestRules, hactive, List.mergeSort_singleton]

theorem last {key : String} (hkey : key ≠ "") :
    LastRemoval (fun _ => "") (route key).rules (start key) key [] (rule key) [] where
  order := rules key
  removes := rfl
  of_key := by
    show (some (Json.str key)).filter Json.truthy = _
    simp [hkey]
  unconditional := rfl
  last := fun _ _ _ _ h => h

theorem called {key : String} (hkey : key ≠ "") : ∃ t out, call key = some (t, out) := by
  have hstep : ∀ st : BodyState, ∃ st', applyBodyTransforms (fun _ => "") (fun _ v => some v) (route key).rules st = some st' := by
    intro st
    have hedit : (rule key).edit (fun _ => "") = some [.remove key] := by
      rw [TransformRule.edit, (last hkey).removes, (last hkey).of_key]
      rfl
    refine ⟨⟨⟨applyEdits st.headers [.remove key], st.queryParams, editAncestry st.headerAncestry [.remove key], st.queryAncestry⟩, st.body⟩, ?_⟩
    rw [applyBodyTransforms, rules, List.foldlM_cons, applyBodyTransform, applyRequestTransform, hedit]
    rfl
  obtain ⟨st, hst⟩ := hstep ⟨start key, none⟩
  refine ⟨applyEdits st.headers (lengthEdits false (Tagged.request "").toReceivedRequest), requestBody id none st.body, ?_⟩
  show Option.bind (applyBodyTransforms (fun _ => "") (fun _ v => some v) (route key).rules ⟨start key, none⟩) _ = _
  rw [hst]
  rfl

end Removing

theorem a_forwarded_header_is_removed : ∃ t out, Removing.call "X-Forwarded-For" = some (t, out) ∧
    ∀ k, toLowerAscii k = toLowerAscii "X-Forwarded-For" → t.get? k = none := by
  obtain ⟨t, out, hcall⟩ := Removing.called (show "X-Forwarded-For" ≠ "" by decide)
  refine ⟨t, out, hcall, (removed_header_gone_iff hcall (Removing.last (by decide))).2 fun k hk hkey _ => ?_⟩
  refine standing_unset fun key v hmem => ?_
  have hkeys : key ∈ ["X-Forwarded-For", "X-Forwarded-Proto", "X-Forwarded-Host", "X-ClusterGate-Route-ID", "X-Request-ID"] := by
    have hall : HeaderEdit.set key v ∈ identityEdits "orders" "id" (Tagged.request "").toReceivedRequest := hmem
    simp only [identityEdits, List.mem_cons, HeaderEdit.set.injEq, List.not_mem_nil, or_false] at hall
    rcases hall with h | h | h | h | h <;> simp [h.1]
  intro heq
  subst heq
  have hothers : ∀ key ∈ ["X-Forwarded-Proto", "X-Forwarded-Host", "X-ClusterGate-Route-ID", "X-Request-ID"],
      toLowerAscii key ≠ toLowerAscii "X-Forwarded-For" := by decide +kernel
  exact hothers k ((List.mem_cons.1 hkeys).resolve_left hkey) hk

theorem a_forwarded_header_stays : ∃ t out, Removing.call "x-forwarded-for" = some (t, out) ∧
    LastRemoval (fun _ => "") (Removing.route "x-forwarded-for").rules (Removing.start "x-forwarded-for") "x-forwarded-for" []
      (Removing.rule "x-forwarded-for") [] ∧
    toLowerAscii "X-Forwarded-For" = toLowerAscii "x-forwarded-for" ∧ (t.get? "X-Forwarded-For").isSome = true := by
  have hlast := Removing.last (show "x-forwarded-for" ≠ "" by decide)
  obtain ⟨t, out, hcall⟩ := Removing.called (show "x-forwarded-for" ≠ "" by decide)
  obtain ⟨st, hrun, rfl⟩ := call_ruled hcall (List.cons_ne_nil _ _)
  refine ⟨_, out, hcall, hlast, by decide, ?_⟩
  have hstanding : standing "X-Forwarded-For"
      (configuredEdits World.plain "id" (Removing.route "x-forwarded-for") (Tagged.request "")) = true := by decide +kernel
  rw [hlast.present hrun (by decide), Removing.start, start_present (by decide), hstanding]
  decide

end ClusterGate
