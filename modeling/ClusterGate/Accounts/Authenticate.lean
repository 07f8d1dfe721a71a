/-
  ClusterGate.Accounts.Authenticate — the middleware step by step
  (`middleware/authenticate.ts`).

  The token is verified as the request comes in; the row of its user is read in one step
  and the row of its session in the next, which is the last.
  - `tells_authenticateRequest`: its steps write nothing but a session's last contact, and
    what a request has seen that is let through (`Authenticated`).
-/

import ClusterGate.Accounts.Login

namespace ClusterGate.Accounts

open Lib Lib.Act Async Auth

/-- The claims of the token a request comes with. -/
def presented (req : Request) : Query Claims := atNow fun now => do
  let token ← orThrow ((requestToken req).filter Token.truthy) .unauthorized
  require ((cookieToken req).isSome → countSessionCookies req ≤ 1) (.unauthorized "Ambiguous session cookie")
  let s ← read
  orThrow (verifyToken s now token) (.unauthorized "Invalid or expired token")

/-- The user still exists and is active, and the version is the row's. -/
def tokenUser (payload : Claims) : Query User := do
  let user ← findUser payload.userId
  let user ← orThrow (user.filter User.isActive) (.unauthorized "Account not found or deactivated")
  require (payload.tokenVersion = none ∨ payload.tokenVersion = some user.tokenVersion)
    (.unauthorized "Session has been revoked")
  pure user

/-- A token with a session id must map to a live session. -/
def checkSession (payload : Claims) (ip : Option String) : Service Unit :=
  match payload.sid.filter (· ≠ "") with
  | some sid => do
    let ok ← validateSession sid ip
    require ok (.unauthorized "Session has been revoked")
  | none => pure ()

def authenticateRequest (env : Env) (options : AuthenticateOptions) (req : Request) : Service AuthUser := do
  let payload ← await (presented req)
  let user ← await (tokenUser payload)
  checkSession payload req.ip
  require (cookieProven env options req)
    (.app ⟨401, "CLIENT_TOKEN_REQUIRED", "Missing or invalid client token", []⟩)
  pure ⟨payload.userId, user.email, user.role, payload.sid⟩

/-! ## What each step does -/

/-- There is such a session, neither revoked nor expired. -/
def Store.live (s : Store) (sid : String) : Bool :=
  (s.sessions.get? sid).any fun r => r.revokedAt.isNone && s.now ≤ r.expiresAt

theorem live_row {s : Store} {sid : String} (h : s.live sid = true) :
    ∃ r, s.sessions.get? sid = some r ∧ r.revokedAt = none := by
  unfold Store.live at h
  cases hrow : s.sessions.get? sid with
  | none =>
    rw [hrow] at h
    cases h
  | some r =>
    rw [hrow, Option.any_some, Bool.and_eq_true] at h
    exact ⟨r, rfl, Option.isNone_iff_eq_none.1 h.1⟩

/-- A session is seen again. -/
def Store.touch (sid : String) (ip : Option String) (s : Store) : Store :=
  { s with lastTouch := (s.lastTouch.erase sid).insert sid s.now, sessions := s.sessions.modify sid fun r => r.seen s.now ip }

/-- A step of the middleware. -/
inductive AuthStep : Store → Store → Prop
  | same (s : Store) : AuthStep s s
  | touch (s : Store) (sid : String) (ip : Option String) : AuthStep s (s.touch sid ip)

/-- The token verifies. -/
structure Presented (req : Request) (s : Store) (payload : Claims) : Prop where
  token : requestToken req = some (.signed payload)
  minted : ∃ m ∈ s.minted, m.claims = payload

/-- The row of the token's user is of its version. -/
structure Current (payload : Claims) (s : Store) (user : User) : Prop where
  row : s.users.get? payload.userId = some user
  version : payload.tokenVersion = none ∨ payload.tokenVersion = some user.tokenVersion

/-- What a request has seen that is let through. -/
inductive Authenticated (req : Request) : List Store → Prop
  | bare (s₀ s₁ : Store) (payload : Claims) (user : User) (presented : Presented req s₀ payload)
      (current : Current payload s₁ user) (unnamed : payload.sid.filter (· ≠ "") = none) : Authenticated req [s₀, s₁]
  | session (s₀ s₁ s₂ : Store) (payload : Claims) (user : User) (sid : String) (presented : Presented req s₀ payload)
      (current : Current payload s₁ user) (named : payload.sid = some sid) (live : s₂.live sid = true) :
      Authenticated req [s₀, s₁, s₂]

theorem validateSession_wp {sid : String} {ip : Option String} {s : Store} {Q : Bool → Store → Prop} {E : Err → Store → Prop}
    (hdead : Q false s) (hlive : s.live sid = true → Q true s ∧ Q true (s.touch sid ip)) :
    wp (atNow fun now => Auth.validateSession now sid ip) Q E s := by
  simp only [Auth.validateSession, wp_atNow, wp_bind, wp_read]
  cases hrow : s.sessions.get? sid with
  | none => exact hdead
  | some r =>
    simp only [wp_ite, wp_when, wp_bind, wp_modify, wp_pure]
    refine ⟨fun _ => hdead, fun h => ?_⟩
    obtain ⟨hrevoked, hexpired⟩ := not_or.1 h
    have hl : s.live sid = true := by
      rw [Store.live, hrow, Option.any_some, Bool.and_eq_true]
      exact ⟨by rw [Option.isNone_iff_eq_none]; exact Option.not_isSome_iff_eq_none.1 hrevoked,
        decide_eq_true (Nat.le_of_not_lt hexpired)⟩
    exact ⟨fun _ => (hlive hl).2, fun _ => (hlive hl).1⟩

theorem tells_authenticateRequest (env : Env) (options : AuthenticateOptions) (req : Request) :
    Tells (fun _ => AuthStep) (fun seen _ => Authenticated req seen) [] (authenticateRequest env options req) := by
  simp only [authenticateRequest, tells_bind]
  rw [tells_await_wp]
  intro s₀
  simp only [presented, wp_atNow, wp_bind, wp_orThrow, wp_require, wp_read]
  refine ⟨fun token htoken => ⟨fun _ => ⟨fun payload hpayload => ⟨.same s₀, ?_⟩, fun _ => .same s₀⟩, fun _ => .same s₀⟩,
    fun _ => .same s₀⟩
  obtain ⟨rfl, hminted, -⟩ := jwtVerify_some hpayload
  have hpresented : Presented req s₀ payload := ⟨(Option.filter_eq_some_iff.1 htoken).1, hminted⟩
  rw [tells_await_wp]
  intro s₁
  simp only [tokenUser, wp_bind, wp_findUser, wp_orThrow, wp_require, wp_pure]
  refine ⟨fun user huser => ⟨fun hversion => ⟨.same s₁, ?_⟩, fun _ => .same s₁⟩, fun _ => .same s₁⟩
  have hcurrent : Current payload s₁ user := ⟨(Option.filter_eq_some_iff.1 huser).1, hversion⟩
  unfold checkSession
  cases hsid : payload.sid.filter (· ≠ "") with
  | none =>
    simp only [tells_pure, tells_require]
    exact fun _ => .bare s₀ s₁ payload user hpresented hcurrent hsid
  | some sid =>
    simp only [validateSession, tells_bind]
    rw [tells_await_wp]
    refine fun s₂ => validateSession_wp ⟨.same s₂, ?_⟩ fun hlive => ⟨⟨.same s₂, ?_⟩, .touch s₂ sid req.ip, ?_⟩
    · rw [tells_require]
      rintro ⟨⟩
    · simp only [tells_require, tells_pure]
      exact fun _ _ => .session s₀ s₁ s₂ payload user sid hpresented hcurrent (Option.filter_eq_some_iff.1 hsid).1 hlive
    · simp only [tells_require, tells_pure]
      exact fun _ _ => .session s₀ s₁ s₂ payload user sid hpresented hcurrent (Option.filter_eq_some_iff.1 hsid).1 hlive

end ClusterGate.Accounts
