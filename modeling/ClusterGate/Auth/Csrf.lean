/-
  ClusterGate.Auth.Csrf — the double-submit check in front of the API
  (`middleware/csrf.ts`), and the session check behind it.

  A page of another site can make the browser send the session cookie, and nothing else of
  ours: so a state-changing request that counts on the cookie has to repeat the `cg_csrf`
  cookie in a header, and one that counts on a Bearer token need not. The middleware asks
  which of the two a request counts on, and so does `authenticateRequest` behind it.

  They do not ask the same. The middleware takes any Authorization header that starts with
  `Bearer ` for Bearer authentication; behind it the cookie comes first, and such a header
  is not looked at.
  - `cookie_session_is_covered_iff`: a request the cookie signs in has passed the check
    exactly when it has no such header, or repeats the cookie all the same.
  - `a_bearer_header_lifts_the_check`: a cookie session, `Authorization: Bearer x`, and no
    CSRF header.
-/

import ClusterGate.Auth.Authenticate

namespace ClusterGate.Auth

open Lib Lib.Act

/-! ## The middleware -/

def CSRF_COOKIE : String := "cg_csrf"

def STATE_CHANGING_METHODS : List String := ["POST", "PUT", "PATCH", "DELETE"]

def EXEMPT_PATHS : List String := ["/api/health", "/api/traffic/live", "/metrics"]

/-- A request with its path and its `x-csrf-token` header. -/
structure ApiRequest extends Request where
  path : String
  csrfHeader : Option Token := none
  deriving DecidableEq

/-- What `res.cookie` is called with. -/
structure CsrfCookie where
  value : String
  httpOnly : Bool := false
  secure : Bool
  sameSite : String := "lax"
  path : String := "/"
  maxAge : Nat := 7 * 24 * 60 * 60 * 1000
  deriving DecidableEq

def ApiRequest.stateChanging (req : ApiRequest) : Bool := STATE_CHANGING_METHODS.contains req.method

def ApiRequest.exempt (req : ApiRequest) : Bool := EXEMPT_PATHS.any fun p => Text.startsWith req.path p

/-- `req.headers.authorization?.startsWith('Bearer ')` -/
def ApiRequest.bearer (req : ApiRequest) : Bool :=
  match req.authorization with
  | some (.bearer _) => true
  | _ => false

/-- `req.cookies[CSRF_COOKIE]`, if it is not empty. -/
def csrfCookie (req : ApiRequest) : Option Token :=
  ((req.cookies.find? fun p => p.1 = CSRF_COOKIE).map Prod.snd).filter Token.truthy

/-- The header repeats the cookie, and neither is empty. -/
def ApiRequest.repeatsCookie (req : ApiRequest) : Bool :=
  match csrfCookie req, req.csrfHeader.filter Token.truthy with
  | some cookieToken, some headerToken => cookieToken = headerToken
  | _, _ => false

/-- The cookie the response sets, `token` being freshly generated, and whether the request
    goes on. -/
def csrfProtection (isProd : Bool) (token : String) (req : ApiRequest) : Option CsrfCookie × Except Err Unit :=
  (if (csrfCookie req).isSome then none else some { value := token, secure := isProd },
   if req.stateChanging = false then .ok ()
   else if req.exempt then .ok ()
   else if req.bearer then .ok ()
   else if cookieToken req.toRequest = none then .ok ()
   else if req.repeatsCookie then .ok ()
   else .error (.app ⟨403, "CSRF_VALIDATION_FAILED", "CSRF token validation failed", []⟩))

/-- The two middlewares in the order a request meets them. -/
def letIn (isProd : Bool) (token : String) (env : Env) (now : Nat) (options : AuthenticateOptions) (req : ApiRequest) :
    Handler AuthUser := do
  ofExcept (csrfProtection isProd token req).2
  authenticateRequest env now options req.toRequest

/-! ## Which requests go on -/

section Agreement

variable {isProd : Bool} {token : String} {env : Env} {now : Nat} {options : AuthenticateOptions} {req : ApiRequest}
  {s : State}

/-- A state-changing request on a path that is not exempt goes on for one of three reasons. -/
theorem csrfProtection_ok (hm : req.stateChanging = true) (hp : req.exempt = false) :
    (csrfProtection isProd token req).2 = .ok () ↔
      req.bearer = true ∨ cookieToken req.toRequest = none ∨ req.repeatsCookie = true := by
  simp only [csrfProtection, hm, hp, Bool.true_eq_false, Bool.false_eq_true, if_false]
  cases hb : req.bearer with
  | true => simp
  | false =>
    rcases hc : cookieToken req.toRequest with _ | t
    · simp
    · cases hr : req.repeatsCookie <;> simp

theorem letIn_succeeds :
    Succeeds (letIn isProd token env now options req) s ↔
      (csrfProtection isProd token req).2 = .ok () ∧ Succeeds (authenticateRequest env now options req.toRequest) s := by
  unfold letIn
  rcases h : (csrfProtection isProd token req).2 with e | u
  · simp [succeeds_iff]
  · simp [succeeds_iff]

/-- The request that the cookie signs in carries the header, and it is the cookie's value:
    what is asked of every request both let through. -/
def Covered (isProd : Bool) (token : String) (env : Env) (now : Nat) (options : AuthenticateOptions) (s : State)
    (req : ApiRequest) : Prop :=
  Succeeds (letIn isProd token env now options req) s → (cookieToken req.toRequest).isSome = true →
    ∃ t, req.csrfHeader = some t ∧ csrfCookie req = some t

theorem repeatsCookie_iff : req.repeatsCookie = true ↔ ∃ t, req.csrfHeader = some t ∧ csrfCookie req = some t := by
  unfold ApiRequest.repeatsCookie
  constructor
  · intro h
    split at h
    · rename_i c d hc hd
      obtain ⟨hd, -⟩ := Option.filter_eq_some_iff.1 hd
      have hcd : c = d := by simpa using h
      exact ⟨d, hd, hcd ▸ hc⟩
    · cases h
  · rintro ⟨t, hh, hc⟩
    have ht : t.truthy = true := (Option.filter_eq_some_iff.1 hc).2
    simp [hh, hc, Option.filter, ht]

/-- Without a Bearer header the two agree, for every combination of the rest. -/
theorem covered_of_no_bearer (hm : req.stateChanging = true) (hp : req.exempt = false) (hb : req.bearer = false) :
    Covered isProd token env now options s req := by
  intro hs hc
  obtain ⟨hok, -⟩ := letIn_succeeds.1 hs
  rcases (csrfProtection_ok hm hp).1 hok with h | h | h
  · exact absurd h (by simp [hb])
  · exact absurd hc (by simp [h])
  · exact repeatsCookie_iff.1 h

/-- With one the middleware lets everything through. -/
theorem bearer_passes (hb : req.bearer = true) : (csrfProtection isProd token req).2 = .ok () := by
  unfold csrfProtection
  simp only [hb, if_true]
  split
  · rfl
  · split <;> rfl

/-- Of the state-changing requests whose cookie the session check accepts, those are
    covered that have no Bearer header, or that repeat the cookie all the same. -/
theorem cookie_session_is_covered_iff (hm : req.stateChanging = true) (hp : req.exempt = false)
    (hc : (cookieToken req.toRequest).isSome = true)
    (ha : Succeeds (authenticateRequest env now options req.toRequest) s) :
    Covered isProd token env now options s req ↔ (req.bearer = true → req.repeatsCookie = true) := by
  constructor
  · intro h hb
    exact repeatsCookie_iff.2 (h (letIn_succeeds.2 ⟨bearer_passes hb, ha⟩) hc)
  · intro h
    cases hb : req.bearer with
    | false => exact covered_of_no_bearer hm hp hb
    | true =>
      intro _ _
      exact repeatsCookie_iff.1 (h hb)

end Agreement

/-! ## Two requests -/

namespace Posting

def env : Env where
  bcryptCompare password hash := password = hash
  bcryptHash password := password
  totpValidate _ _ _ _ := false
  deriveClientToken _ := "mac"
  isEmail email := Text.includes email "@"
  jwtExpiresIn := 604800
  tokenLifetimeMs := 604800000
  apiClientTokenRequired := none

def admin : User where
  email := "admin@corp.example"
  passwordHash := "Correct-Horse-1"
  name := "Admin"
  role := .ADMIN
  isActive := true

def claims : Claims where
  userId := "u1"
  tokenVersion := some 0
  sid := some "s1"
  iat := 1000
  exp := 605800

def state : State :=
  { users := Table.empty.insert "u1" admin
    sessions := Table.empty.insert "s1" (newSession env 1000000 "u1" {})
    invites := Table.empty
    lastTouch := Table.empty
    minted := [⟨claims, none⟩]
    passed := []
    nextLogin := 0 }

/-- A new route, posted by the UI with both cookies and the client token. -/
def request (authorization : Option Authorization) (csrfHeader : Option Token) : ApiRequest :=
  { method := "POST", path := "/api/routes"
    cookies := [("cg_session", .signed claims), ("cg_csrf", .text "5ca1ab1e")]
    authorization := authorization
    clientTokenHeader := some "mac"
    csrfHeader := csrfHeader }

end Posting

/-- What the UI sends is covered. -/
theorem the_ui_is_covered :
    Covered true "f00d" Posting.env 1002000 {} Posting.state (Posting.request none (some (.text "5ca1ab1e"))) :=
  (cookie_session_is_covered_iff (by decide) (by decide) (by decide) ⟨_, _, rfl⟩).2 fun h => absurd h (by decide)

/-- The cookie signs the request in, and the header in front of it lifts the check. -/
theorem a_bearer_header_lifts_the_check :
    ¬∀ (isProd : Bool) (token : String) (env : Env) (now : Nat) (options : AuthenticateOptions) (s : State)
        (req : ApiRequest), req.stateChanging = true → req.exempt = false → Covered isProd token env now options s req := by
  intro h
  have hs : Succeeds (letIn true "f00d" Posting.env 1002000 {} (Posting.request (some (.bearer (.text "x"))) none))
      Posting.state := ⟨_, _, rfl⟩
  obtain ⟨t, hh, -⟩ := h _ _ _ _ _ _ _ (by decide) (by decide) hs (by decide)
  cases hh

end ClusterGate.Auth
