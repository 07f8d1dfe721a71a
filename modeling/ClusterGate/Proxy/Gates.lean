/-
  ClusterGate.Proxy.Gates — what a proxied request passes before its upstream is contacted
  (`services/proxyService.ts`: `proxyRequest`; `services/loadBalancerService.ts`:
  `selectTarget`).

  The breaker is checked first, and its check may write: it resets an OPEN breaker without
  an instant and half-opens one whose timeout has elapsed. The gates behind it, the
  address, the path, the rate limit, the credentials, the body, the webhook's signature and
  the targets, refuse without recording an outcome, so nothing closes or opens again what
  the check half-opened.
  - `gates_breaker`: what is left of the stored breaker, however a request fares.
  - `refusal_keeps_breaker_iff`: it is unchanged exactly unless the loaded row asks the
    check for a write that the stored row does not hold already.
  - `a_refused_request_half_opens`: a client that is not on the allowlist.
-/

import Mathlib.Algebra.Field.Rat
import ClusterGate.Breaker.Service
import ClusterGate.Proxy.Admission
import ClusterGate.Proxy.RateLimit

namespace ClusterGate

open Lib

/-! ## State and arguments -/

/-- What a request finds and may change: the route's breaker and round-robin index in the
    database, the counters, and the index the process keeps for want of a database. -/
structure Gateway where
  now : Nat
  up : Bool
  breaker : Option Breaker
  counters : Table String RateLimitCounter
  lbRrIndex : Option Nat
  rrIndexMap : Table String Nat

/-- The route as the handler loaded it, with its targets by id. `breaker` is its breaker's
    columns, with dates as instants. -/
structure LoadedRoute where
  id : String
  row : Row
  breaker : Breaker
  targets : List (String × RouteTarget)
  hasTransformRules : Bool

/-- What the body parser left of a request's body. -/
inductive RequestBody
  | buffer (bytes : Base64.Bytes)
  | parsed (text : String)
  /-- A stream, and what reading it gives. -/
  | stream (read : Except Err Base64.Bytes)

structure ProxyIncoming extends Incoming where
  body : RequestBody

/-- What goes to the upstream. -/
structure Forward where
  consumedAuthHeader : Option String
  selectedTargetUrl : String
  selectedTargetId : Option String
  targetPath : String
  body : Option Base64.Bytes

def Err.serviceUnavailable (message : String) : Err := .app ⟨503, "SERVICE_UNAVAILABLE", message, []⟩

/-- A step on the breaker's row. -/
def onBreaker {α : Type} (x : Act BreakerStore Err α) : Act Gateway Err α := fun g =>
  ((x ⟨g.now, g.breaker⟩).1, { g with breaker := (x ⟨g.now, g.breaker⟩).2.route })

/-- A step on the counters. -/
def onCounters {α : Type} (x : Act RateStore Err α) : Act Gateway Err α := fun g =>
  ((x ⟨g.now, g.up, g.counters⟩).1, { g with counters := (x ⟨g.now, g.up, g.counters⟩).2.counters })

/-! ## Targets -/

abbrev Selected := String × String

/-- The url and id of a target. -/
def selected (target : String × RouteTarget) : Selected := (target.2.url, target.1)

/-- The row's index is increased: the database answers, and the index is not the last of
    its 32-bit column. -/
def Gateway.increments (g : Gateway) : Bool := g.up && g.lbRrIndex ≠ some 2147483647

/-- `roundRobin`: the index is the row's, or the process's if it is not increased. -/
def roundRobin (routeId : String) (targets : List (String × RouteTarget)) : Act Gateway Err (Option Selected) := fun g =>
  let pick (idx : Nat) := (targets[idx % targets.length]?).map selected
  if g.increments = true then
    let next := g.lbRrIndex.map (· + 1)
    (.ok (pick (next.getD 0)), { g with lbRrIndex := next })
  else
    let idx := (g.rrIndexMap.get? routeId).getD 0
    (.ok (pick idx), { g with rrIndexMap := g.rrIndexMap.upsert routeId (idx + 1) })

def weightedFrom (random : Rat) : List (String × RouteTarget) → Option (String × RouteTarget)
  | [] => none
  | target :: targets => if random - target.2.weight ≤ 0 then some target else weightedFrom (random - target.2.weight) targets

/-- `weighted`, for a draw of `Math.random()`. -/
def weighted (draw : Rat) (targets : List (String × RouteTarget)) : Option Selected :=
  let totalWeight := targets.foldl (fun sum target => sum + target.2.weight) (0 : Int)
  ((weightedFrom (draw * totalWeight) targets).or targets.getLast?).map selected

/-- `failover`: the first of the lowest priority. -/
def failover (targets : List (String × RouteTarget)) : Option Selected :=
  (targets.mergeSort fun a b => a.2.priority ≤ b.2.priority).head?.map selected

def selectTarget (draw : Rat) (routeId strategy : String) (targets : List (String × RouteTarget)) :
    Act Gateway Err (Option Selected) :=
  let healthy := targets.filter fun target => target.2.isHealthy
  if healthy = [] then pure none
  else if strategy = "ROUND_ROBIN" then roundRobin routeId healthy
  else if strategy = "WEIGHTED" then pure (weighted draw healthy)
  else if strategy = "FAILOVER" then pure (failover healthy)
  else pure (healthy.head?.map selected)

/-! ## The gates -/

/-- A number of a row. -/
def Row.nat (r : Row) (c : Column) : Nat := ((r.val c).int?.getD 0).toNat

/-- `req.ip || req.socket.remoteAddress || ''` -/
def Incoming.clientIp (req : Incoming) : String := orText req.ip (orText req.remoteAddress "")

def passBreaker (route : LoadedRoute) : Act Gateway Err Unit :=
  Act.when (route.breaker.circuitBreakerEnabled = true) do
    let cbResult ← onBreaker (checkCircuitBreaker route.breaker).run
    Act.require (cbResult.allowed = true)
      (.serviceUnavailable "Circuit breaker is OPEN — requests are temporarily blocked")

def passIp (route : LoadedRoute) (req : Incoming) : Act Gateway Err Unit :=
  Act.require (¬(route.row.strings .ipAllowlist ≠ [] ∧ isIpAllowed req.clientIp (route.row.strings .ipAllowlist) = false))
    (.forbidden "Your IP address is not allowed to access this route")

def passPath (route : LoadedRoute) (req : Incoming) : Act Gateway Err Unit :=
  Act.require (¬(route.row.strings .pathAllowlist ≠ [] ∧
      isPathAllowed (route.row.judgedPath req.path) (route.row.strings .pathAllowlist) = false))
    (.app ⟨404, "PATH_NOT_ALLOWED", "This path is not exposed by the route", []⟩)

def passRate (route : LoadedRoute) (req : Incoming) : Act Gateway Err Unit :=
  Act.when (route.row.flag .rateLimitEnabled = true ∧ 0 < route.row.nat .rateLimitMax) do
    let result ← onCounters
      (checkRateLimit route.id req.clientIp (route.row.nat .rateLimitMax) (route.row.nat .rateLimitWindow) false).run
    Act.require (result.allowed = true) (.tooManyRequests "Rate limit exceeded")

def passAuth (W : World) (keys : ApiKeys) (route : LoadedRoute) (req : Incoming) : Act Gateway Err (Option String) :=
  if route.row.guarded = true then Act.ofExcept (validateRouteAuth W keys route.id route.row req) else pure none

/-- The body as far as it is buffered: a stream is read only where a signature or a
    transform needs it. -/
def acquireBody (route : LoadedRoute) (req : ProxyIncoming) : Act Gateway Err (Option Base64.Bytes) :=
  if req.method ∉ ["POST", "PUT", "PATCH"] then pure none
  else match req.body with
    | .buffer bytes => pure (if bytes = [] then none else some bytes)
    | .parsed text => pure (some (utf8Bytes text))
    | .stream read =>
      if (route.row.text .webhookSecret).any (· ≠ "") || route.hasTransformRules then do
        let bytes ← Act.ofExcept read
        pure (if bytes = [] then none else some bytes)
      else pure none

/-- `validateWebhookSignature`. `hmac` is HMAC-SHA256 in hexadecimal. -/
def validateWebhookSignature (hmac : (secret body : String) → String) (body secret signature : String) : Bool :=
  signature = "sha256=" ++ hmac secret body

def passWebhook (W : World) (hmac : (secret body : String) → String) (route : LoadedRoute) (req : Incoming)
    (rawBody : Option Base64.Bytes) : Act Gateway Err Unit :=
  match (route.row.text .webhookSecret).filter (· ≠ "") with
  | none => pure ()
  | some stored => do
    let signature := orText (req.header "x-hub-signature-256") (orText (req.header "x-webhook-signature") "")
    Act.require (signature ≠ "") (.unauthorized "Missing webhook signature")
    let body := (rawBody.map (utf8Text W)).getD ""
    let secret := (decryptSecret W (some stored)).getD ""
    Act.require (validateWebhookSignature hmac body secret signature = true) (.unauthorized "Invalid webhook signature")

/-- The target's url, and its id if it is one of the route's targets. -/
def passTarget (draw : Rat) (route : LoadedRoute) : Act Gateway Err (String × Option String) :=
  if route.targets = [] then pure (route.row.string .targetUrl, none)
  else do
    let found ← selectTarget draw route.id (route.row.string .lbStrategy) route.targets
    let target ← Act.orThrow found (.serviceUnavailable "No healthy targets available")
    pure (target.1, some target.2)

/-- `proxyRequest`, up to the call of the upstream. -/
def proxyRequest (W : World) (hmac : (secret body : String) → String) (keys : ApiKeys) (draw : Rat) (route : LoadedRoute)
    (req : ProxyIncoming) : Act Gateway Err Forward := do
  passBreaker route
  passIp route req.toIncoming
  passPath route req.toIncoming
  passRate route req.toIncoming
  let consumedAuthHeader ← passAuth W keys route req.toIncoming
  let rawBody ← acquireBody route req
  passWebhook W hmac route req.toIncoming rawBody
  let (selectedTargetUrl, selectedTargetId) ← passTarget draw route
  pure ⟨consumedAuthHeader, selectedTargetUrl, selectedTargetId, route.row.targetPath W req.path, rawBody⟩

/-! ## What the gates leave of the breaker -/

/-- Whatever its outcome, the stored breaker is what it was. -/
def KeepsBreaker {α : Type} (x : Act Gateway Err α) : Prop := ∀ g, (x g).2.breaker = g.breaker

section Keeps

variable {α β : Type}

theorem keeps_pure (a : α) : KeepsBreaker (pure a) := fun _ => rfl

theorem keeps_ofExcept (x : Except Err α) : KeepsBreaker (Act.ofExcept x) := fun _ => rfl

theorem keeps_bind {x : Act Gateway Err α} {f : α → Act Gateway Err β} (hx : KeepsBreaker x)
    (hf : ∀ a, KeepsBreaker (f a)) : KeepsBreaker (x >>= f) := by
  intro g
  have hg := hx g
  rw [Act.bind_run]
  cases hr : x g with
  | mk outcome g' =>
    rw [hr] at hg
    cases outcome with
    | error e => exact hg
    | ok a => exact (hf a g').trans hg

theorem keeps_require (c : Prop) [Decidable c] (e : Err) : KeepsBreaker (Act.require c e) := by
  unfold Act.require
  split
  · exact keeps_pure ()
  · exact keeps_ofExcept (.error e)

theorem keeps_when (c : Prop) [Decidable c] {x : Act Gateway Err Unit} (hx : KeepsBreaker x) :
    KeepsBreaker (Act.when c x) := by
  unfold Act.when
  split
  · exact hx
  · exact keeps_pure ()

theorem keeps_orThrow (o : Option α) (e : Err) : KeepsBreaker (Act.orThrow o e) := by
  cases o with
  | none => exact keeps_ofExcept (.error e)
  | some a => exact keeps_pure a

theorem keeps_counters (x : Act RateStore Err α) : KeepsBreaker (onCounters x) := fun _ => rfl

theorem passRate_keeps (route : LoadedRoute) (req : Incoming) : KeepsBreaker (passRate route req) :=
  keeps_when _ (keeps_bind (keeps_counters _) fun _ => keeps_require _ _)

theorem passAuth_keeps (W : World) (keys : ApiKeys) (route : LoadedRoute) (req : Incoming) :
    KeepsBreaker (passAuth W keys route req) := by
  unfold passAuth
  split
  · exact keeps_ofExcept _
  · exact keeps_pure _

theorem acquireBody_keeps (route : LoadedRoute) (req : ProxyIncoming) : KeepsBreaker (acquireBody route req) := by
  unfold acquireBody
  split
  · exact keeps_pure _
  · split
    · exact keeps_pure _
    · exact keeps_pure _
    · split
      · exact keeps_bind (keeps_ofExcept _) fun _ => keeps_pure _
      · exact keeps_pure _

theorem passWebhook_keeps (W : World) (hmac : String → String → String) (route : LoadedRoute) (req : Incoming)
    (rawBody : Option Base64.Bytes) : KeepsBreaker (passWebhook W hmac route req rawBody) := by
  unfold passWebhook
  split
  · exact keeps_pure _
  · exact keeps_bind (keeps_require _ _) fun _ => keeps_require _ _

theorem roundRobin_keeps (routeId : String) (targets : List (String × RouteTarget)) :
    KeepsBreaker (roundRobin routeId targets) := by
  intro g
  unfold roundRobin
  dsimp only
  split <;> rfl

theorem selectTarget_keeps (draw : Rat) (routeId strategy : String) (targets : List (String × RouteTarget)) :
    KeepsBreaker (selectTarget draw routeId strategy targets) := by
  unfold selectTarget
  dsimp only
  split
  · exact keeps_pure _
  split
  · exact roundRobin_keeps _ _
  split
  · exact keeps_pure _
  split
  · exact keeps_pure _
  · exact keeps_pure _

theorem passTarget_keeps (draw : Rat) (route : LoadedRoute) : KeepsBreaker (passTarget draw route) := by
  unfold passTarget
  split
  · exact keeps_pure _
  · exact keeps_bind (selectTarget_keeps _ _ _ _) fun _ => keeps_bind (keeps_orThrow _ _) fun _ => keeps_pure _

end Keeps

section Gates

variable (W : World) (hmac : (secret body : String) → String) (keys : ApiKeys) (draw : Rat) (route : LoadedRoute)
  (req : ProxyIncoming)

theorem passBreaker_breaker {g : Gateway} {r : Breaker} (hr : g.breaker = some r) :
    (passBreaker route g).2.breaker = some (route.breaker.checked g.now r) := by
  unfold passBreaker Act.when
  split
  · have hrun : onBreaker (checkCircuitBreaker route.breaker).run g =
        (.ok ⟨!route.breaker.holdsBack g.now, checkedState route.breaker g.now⟩,
          { g with breaker := some (route.breaker.checked g.now r) }) := by
      unfold onBreaker
      rw [hr, check_spec]
    rw [Act.bind_run, hrun]
    exact keeps_require _ _ _
  · rename_i he
    have hsame : route.breaker.checked g.now = id := by simp [Breaker.checked, he]
    rw [hsame]
    exact hr

/-- However a request fares, the check of the row it was given is all that moves the breaker. -/
theorem gates_breaker {g : Gateway} {r : Breaker} (hr : g.breaker = some r) :
    (proxyRequest W hmac keys draw route req g).2.breaker = some (route.breaker.checked g.now r) := by
  have hrest : ∀ u : Unit, KeepsBreaker (do
      passIp route req.toIncoming
      passPath route req.toIncoming
      passRate route req.toIncoming
      let consumedAuthHeader ← passAuth W keys route req.toIncoming
      let rawBody ← acquireBody route req
      passWebhook W hmac route req.toIncoming rawBody
      let (selectedTargetUrl, selectedTargetId) ← passTarget draw route
      pure (⟨consumedAuthHeader, selectedTargetUrl, selectedTargetId, route.row.targetPath W req.path, rawBody⟩ : Forward)) := by
    intro _
    refine keeps_bind (keeps_require _ _) fun _ => keeps_bind (keeps_require _ _) fun _ =>
      keeps_bind (passRate_keeps route _) fun _ => keeps_bind (passAuth_keeps W keys route _) fun _ =>
        keeps_bind (acquireBody_keeps route req) fun _ => keeps_bind (passWebhook_keeps W hmac route _ _) fun _ =>
          keeps_bind (passTarget_keeps draw route) fun _ => keeps_pure _
  have hfirst := passBreaker_breaker route hr
  unfold proxyRequest
  rw [Act.bind_run]
  cases hp : passBreaker route g with
  | mk outcome g' =>
    rw [hp] at hfirst
    cases outcome with
    | error e => exact hfirst
    | ok u => exact (hrest u g').trans hfirst

end Gates

/-- The check of the loaded row asks for a write. -/
def Breaker.asksForWrite (loaded : Breaker) (now : Int) : Prop :=
  loaded.circuitBreakerEnabled = true ∧ loaded.cbState = .OPEN ∧
    ∀ openedAt, loaded.cbOpenedAt = some openedAt → now - openedAt ≥ loaded.cbRecoveryTimeout

/-- The stored row holds already what the check of the loaded one writes. -/
def Breaker.heldAlready (loaded stored : Breaker) : Prop :=
  match loaded.cbOpenedAt with
  | none => stored.cbState = .CLOSED ∧ stored.cbFailureCount = 0 ∧ stored.cbOpenedAt = none ∧ stored.cbLastFailureAt = none
  | some _ => stored.cbState = .HALF_OPEN

theorem checked_same (loaded stored : Breaker) (now : Int) :
    loaded.checked now stored = stored ↔ ¬loaded.asksForWrite now ∨ loaded.heldAlready stored := by
  unfold Breaker.checked Breaker.asksForWrite Breaker.heldAlready
  by_cases hopen : loaded.circuitBreakerEnabled = true ∧ loaded.cbState = .OPEN
  · rw [if_pos hopen]
    cases ho : loaded.cbOpenedAt with
    | none =>
      have hreset : stored.reset = stored ↔ stored.cbState = .CLOSED ∧ stored.cbFailureCount = 0 ∧
          stored.cbOpenedAt = none ∧ stored.cbLastFailureAt = none := by
        obtain ⟨enabled, threshold, timeout, state, count, lastFailureAt, openedAt⟩ := stored
        simp only [Breaker.reset, Breaker.mk.injEq, true_and, eq_comm]
        tauto
      simpa [hopen.1, hopen.2] using hreset
    | some openedAt =>
      dsimp only
      by_cases hT : now - openedAt ≥ loaded.cbRecoveryTimeout
      · have hhalf : stored.halfOpened = stored ↔ stored.cbState = .HALF_OPEN := by
          obtain ⟨enabled, threshold, timeout, state, count, lastFailureAt, openedAt⟩ := stored
          simp [Breaker.halfOpened, eq_comm]
        rw [if_pos hT, hhalf]
        refine ⟨.inr, fun h => h.resolve_left fun hn => hn ⟨hopen.1, hopen.2, ?_⟩⟩
        intro t ht
        cases ht
        exact hT
      · rw [if_neg hT]
        exact iff_of_true rfl (.inl fun h => hT (h.2.2 openedAt rfl))
  · rw [if_neg hopen]
    exact iff_of_true rfl (.inl fun h => hopen ⟨h.1, h.2.1⟩)

theorem refusal_keeps_breaker_iff (W : World) (hmac : (secret body : String) → String) (keys : ApiKeys) (draw : Rat)
    (route : LoadedRoute) (req : ProxyIncoming) (g g' : Gateway) (e : Err) (r : Breaker) (hr : g.breaker = some r)
    (hrefused : proxyRequest W hmac keys draw route req g = (.error e, g')) :
    g'.breaker = g.breaker ↔ ¬route.breaker.asksForWrite g.now ∨ route.breaker.heldAlready r := by
  have hleft := gates_breaker W hmac keys draw route req hr
  rw [hrefused] at hleft
  rw [hr, ← checked_same, hleft, Option.some.injEq]

/-! ## A client that is not on the list -/

/-- A published route open to one address, with this breaker. -/
def officeRoute (breaker : Breaker) : LoadedRoute where
  id := "chat"
  row := Row.ofFields
    [(.name, .str "chat"), (.publicPath, .str "/r/chat"), (.targetUrl, .str "http://upstream"), (.isActive, .bool true),
     (.status, .str "PUBLISHED"), (.ipAllowlist, .arr [.str "10.0.0.1"]), (.circuitBreakerEnabled, .bool true)]
    (by intro c; cases c <;> rfl)
  breaker := breaker
  targets := []
  hasTransformRules := false

/-- A request from another address. -/
def strangersRequest : ProxyIncoming where
  method := "GET"
  url := "/r/chat"
  path := "/chat"
  header _ := none
  ip := some "10.0.0.2"
  remoteAddress := some "10.0.0.2"
  body := .buffer []

/-- The route as it is stored, a second after the start. -/
def officeGateway (breaker : Breaker) : Gateway := ⟨1000, true, some breaker, .empty, some 0, .empty⟩

/-- Nothing has failed, or five requests have, at 0. -/
def quietBreaker : Breaker := ⟨true, 5, 1000, .CLOSED, 0, none, none⟩

def openBreaker : Breaker := ⟨true, 5, 1000, .OPEN, 5, some 0, some 0⟩

theorem stranger_refused (breaker : Breaker) (h : breaker.holdsBack 1000 = false) :
    (proxyRequest World.plain (fun _ body => body) noKeys 0 (officeRoute breaker) strangersRequest (officeGateway breaker)).1 =
      .error (.forbidden "Your IP address is not allowed to access this route") := by
  have hlisted : ¬¬((officeRoute breaker).row.strings .ipAllowlist ≠ [] ∧
      isIpAllowed strangersRequest.clientIp ((officeRoute breaker).row.strings .ipAllowlist) = false) := by
    rw [not_not]
    show ["10.0.0.1"] ≠ [] ∧ isIpAllowed strangersRequest.clientIp ["10.0.0.1"] = false
    decide +kernel
  have hfirst : ∃ g, passBreaker (officeRoute breaker) (officeGateway breaker) = (.ok (), g) := by
    unfold passBreaker Act.when
    split
    · refine ⟨{ officeGateway breaker with breaker := some (breaker.checked 1000 breaker) }, ?_⟩
      rw [Act.bind_run, onBreaker, officeGateway]
      dsimp only [officeRoute]
      rw [check_spec]
      dsimp only
      have hnow : ((1000 : Nat) : Int) = 1000 := rfl
      rw [hnow, h]
      rfl
    · exact ⟨_, rfl⟩
  obtain ⟨g, hfirst⟩ := hfirst
  rw [proxyRequest, Act.bind_run, hfirst]
  dsimp only
  rw [passIp, Act.require_bind_not hlisted]
  rfl

/-- The stranger's request, and what it leaves. -/
def strangerRun (breaker : Breaker) : Except Err Forward × Gateway :=
  proxyRequest World.plain (fun _ body => body) noKeys 0 (officeRoute breaker) strangersRequest (officeGateway breaker)

theorem refusal_keeps_breaker_iff_quiet : (strangerRun quietBreaker).2.breaker = some quietBreaker := by
  refine (refusal_keeps_breaker_iff World.plain (fun _ body => body) noKeys 0 (officeRoute quietBreaker) strangersRequest
    (officeGateway quietBreaker) (strangerRun quietBreaker).2 _ quietBreaker rfl
    (Prod.ext (stranger_refused quietBreaker (by decide)) rfl)).2 (.inl ?_)
  intro h
  exact absurd h.2.1 (by decide)

theorem a_refused_request_half_opens :
    ¬∀ (W : World) (hmac : (secret body : String) → String) (keys : ApiKeys) (draw : Rat) (route : LoadedRoute)
      (req : ProxyIncoming) (g g' : Gateway) (e : Err), g.breaker = some route.breaker →
      proxyRequest W hmac keys draw route req g = (.error e, g') → g'.breaker = g.breaker := by
  intro h
  have hrefused := stranger_refused openBreaker (by decide)
  have hsame := h World.plain (fun _ body => body) noKeys 0 (officeRoute openBreaker) strangersRequest
    (officeGateway openBreaker) (strangerRun openBreaker).2 _ rfl (Prod.ext hrefused rfl)
  have hleft := gates_breaker World.plain (fun _ body => body) noKeys 0 (officeRoute openBreaker) strangersRequest
    (g := officeGateway openBreaker) (r := openBreaker) rfl
  exact absurd (hsame.symm.trans hleft) (by decide)

end ClusterGate
