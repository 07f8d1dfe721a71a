/-
  ClusterGate.Auth.Authenticate — the middleware in front of every API handler
  (`middleware/authenticate.ts`, `lib/clientToken.ts`).

  The session cookie counts before the Authorization header. Its token has to verify,
  name an active user and that user's token version, and, if it carries a session id, a
  live session; a cookie must also be the only one of its name and come with proof that
  the call is the UI's. What the token was signed for is not looked at.
  - `accepts_iff`: what the middleware asks of a token without a session id.
-/

import ClusterGate.Auth.Login

namespace ClusterGate.Auth

open Lib Lib.Act

inductive Authorization
  | bearer (token : Token)
  | other (value : String)
  deriving DecidableEq

/-- What the middleware reads of a request; `cookies` are the parts of the Cookie
    header with their trimmed names, in order. -/
structure Request where
  method : String
  cookies : List (String × Token) := []
  authorization : Option Authorization := none
  clientTokenHeader : Option String := none
  clientTokenQuery : Option String := none
  secFetchMode : Option String := none
  secFetchDest : Option String := none
  accept : Option String := none
  ip : Option String := none
  deriving DecidableEq

structure AuthenticateOptions where
  skipClientToken : Bool := false

/-- `req.user`. -/
structure AuthUser where
  userId : String
  email : String
  role : Role
  sessionId : Option String
  deriving DecidableEq

/-! ## The client token -/

def isValidClientToken (env : Env) (sessionJwt : Token) (candidate : Option String) : Bool :=
  match candidate with
  | some given => given ≠ "" && given = env.deriveClientToken sessionJwt
  | none => false

def clientTokenRequired (env : Env) : Bool :=
  match env.apiClientTokenRequired with
  | none => true
  | some raw => !(["false", "0", "no", "off"].contains (Text.toLowerAscii raw))

def isTopLevelNavigation (req : Request) : Bool :=
  (req.method = "GET" || req.method = "HEAD") && req.secFetchMode = some "navigate" &&
    req.secFetchDest = some "document"

def countSessionCookies (req : Request) : Nat := (req.cookies.filter fun p => p.1 = "cg_session").length

def hasClientProof (env : Env) (req : Request) (sessionJwt : Token) : Bool :=
  isValidClientToken env sessionJwt req.clientTokenHeader || isTopLevelNavigation req ||
    (req.method = "GET" && Text.includes (req.accept.getD "") "text/event-stream" &&
      isValidClientToken env sessionJwt req.clientTokenQuery)

/-! ## The middleware -/

/-- `req.cookies?.cg_session`, the first of its name, if it is not empty. -/
def cookieToken (req : Request) : Option Token :=
  ((req.cookies.find? fun p => p.1 = "cg_session").map Prod.snd).filter Token.truthy

/-- The token a request is judged by: the cookie's, or else the Bearer token. -/
def requestToken (req : Request) : Option Token :=
  (cookieToken req).or (match req.authorization with
    | some (.bearer t) => some t
    | _ => none)

/-- A cookie session must prove that the call comes from the UI. -/
def cookieProven (env : Env) (options : AuthenticateOptions) (req : Request) : Bool :=
  match cookieToken req with
  | none => true
  | some t => options.skipClientToken || !clientTokenRequired env || hasClientProof env req t

def authenticateRequest (env : Env) (now : Nat) (options : AuthenticateOptions) (req : Request) :
    Handler AuthUser := do
  let token ← orThrow ((requestToken req).filter Token.truthy) .unauthorized
  require ((cookieToken req).isSome → countSessionCookies req ≤ 1) (.unauthorized "Ambiguous session cookie")
  let s ← read
  let payload ← orThrow (verifyToken s now token) (.unauthorized "Invalid or expired token")
  let user ← orThrow ((s.users.get? payload.userId).filter User.isActive)
    (.unauthorized "Account not found or deactivated")
  require (payload.tokenVersion = none ∨ payload.tokenVersion = some user.tokenVersion)
    (.unauthorized "Session has been revoked")
  match payload.sid.filter (· ≠ "") with
  | some sid => do
    let ok ← validateSession now sid req.ip
    require ok (.unauthorized "Session has been revoked")
  | none => pure ()
  require (cookieProven env options req)
    (.app ⟨401, "CLIENT_TOKEN_REQUIRED", "Missing or invalid client token", []⟩)
  pure ⟨payload.userId, user.email, user.role, payload.sid⟩

/-- The middleware writes nothing but the session's last contact. -/
theorem authenticateRequest_frame {env : Env} {now : Nat} {options : AuthenticateOptions} {req : Request} {s : State} :
    Keeps (authenticateRequest env now options req) (fun s' => s'.minted = s.minted ∧ s'.passed = s.passed) s := by
  simp only [Keeps, authenticateRequest, wp_bind, wp_orThrow, wp_require, wp_read, and_self, implies_true, and_true]
  intro token _ _ payload _ user _ _
  split
  · simp only [validateSession, wp_bind, wp_read]
    split
    · simp
    · rw [wp_ite]
      simp
  · simp

/-- Which requests with the claims `c`, signed without a session id, are let through. -/
theorem accepts_iff {env : Env} {now : Nat} {options : AuthenticateOptions} {req : Request} {s : State} {c : Claims}
    (ht : requestToken req = some (.signed c)) (hs : c.sid = none) :
    Succeeds (authenticateRequest env now options req) s ↔
      ((cookieToken req).isSome → countSessionCookies req ≤ 1) ∧ verifyToken s now (.signed c) = some c ∧
      (∃ user, s.users.get? c.userId = some user ∧ user.isActive = true ∧
        (c.tokenVersion = none ∨ c.tokenVersion = some user.tokenVersion)) ∧
      cookieProven env options req = true := by
  have htok : (requestToken req).filter Token.truthy = some (.signed c) := by rw [ht]; rfl
  simp only [authenticateRequest, htok, succeeds_orThrow_bind, succeeds_require_bind, succeeds_read_bind,
    Option.some.injEq, exists_eq_left', Option.filter_eq_some_iff]
  refine and_congr_right fun _ => ?_
  constructor
  · rintro ⟨p, hp, user, ⟨hu, ha⟩, hv, h⟩
    obtain rfl : c = p := by simpa using (jwtVerify_some hp).1
    simp only [hs, Option.filter_none, succeeds_require_bind] at h
    exact ⟨hp, ⟨user, hu, ha, hv⟩, h.1⟩
  · rintro ⟨hp, ⟨user, hu, ha, hv⟩, hc⟩
    refine ⟨c, hp, user, ⟨hu, ha⟩, hv, ?_⟩
    simp only [hs, Option.filter_none, succeeds_require_bind, succeeds_pure, and_true]
    exact hc

end ClusterGate.Auth
