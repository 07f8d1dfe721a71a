/-
  ClusterGate.Auth.SecondFactor — the second-factor gate over runs of the auth endpoints
  and of API requests.

  A step is a request to one of the minting handlers or an API request; whatever an
  accepted API request does to users, sessions and invites is arbitrary (`effect`), since
  no handler behind the middleware signs a token. The gate asks of every accepted
  request that the login its token was minted for, if 2FA was enabled then, has passed
  the code check, and that the token is no challenge token.

  As built, `verifyToken` takes any token of the server's and the middleware never reads
  its purpose, so the challenge token that POST /login hands out before the code check
  is itself a credential while it lives:
  - `the_challenge_token_is_a_session`: a login, then an API call with its temp token.
  - `second_factor_gate`: this is the only way. A run keeps the gate exactly when no API
    request presents a live challenge token in a way the middleware admits.
-/

import ClusterGate.Auth.Authenticate
import ClusterGate.Lib.Run

namespace ClusterGate.Auth

open Lib Lib.Act

/-- A request, with the time it is handled at and the random values it draws. -/
inductive Step
  | setup (now : Nat) (email password name : String) (ctx : SessionContext) (userId sessionId : String)
  | acceptInvite (now : Nat) (token name password : String) (ctx : SessionContext) (userId sessionId : String)
  | login (now : Nat) (email password : String) (ctx : SessionContext) (sessionId nonce : String)
  | verify (now : Nat) (tempToken : Token) (code : String) (ctx : SessionContext) (sessionId : String)
  | api (now : Nat) (options : AuthenticateOptions) (req : Request) (effect : AuthUser → Db → Db)

/-- An API request: the handler runs if the middleware lets it through. -/
def api (env : Env) (now : Nat) (options : AuthenticateOptions) (req : Request) (effect : AuthUser → Db → Db) :
    Handler Unit := do
  let user ← authenticateRequest env now options req
  modify fun s => { s with toDb := effect user s.toDb }

def step (env : Env) (s : State) : Step → State
  | .setup now email password name ctx userId sid => (setup env now email password name ctx userId sid s).2
  | .acceptInvite now token name password ctx userId sid =>
    (acceptInvite env now token name password ctx userId sid s).2
  | .login now email password ctx sid nonce => (passwordLogin env now email password ctx sid nonce s).2
  | .verify now tempToken code ctx sid => (twoFactorVerify env now tempToken code ctx sid s).2
  | .api now options req effect => (api env now options req effect s).2

/-- Of a request that is let through: the login its token was minted for has passed the
    second factor if that was enabled at the login, and the token is no challenge token. -/
def GateHolds (env : Env) (s : State) : Step → Prop
  | .api now options req _ => Succeeds (authenticateRequest env now options req) s →
      ∀ m ∈ s.minted, requestToken req = some (.signed m.claims) →
        (∀ l, m.login = some l → l.twoFactorEnabled = true → l.id ∈ s.passed) ∧ m.claims.purpose ≠ some "2fa"
  | _ => True

/-- An API request is judged by a challenge token that is still live: signed by the
    server and unexpired, for an active user whose token version has not moved; and if it
    comes in the cookie, the cookie is the only one and proven. -/
def PresentsLiveChallenge (env : Env) (s : State) : Step → Prop
  | .api now options req _ => ∃ c, requestToken req = some (.signed c) ∧ c.purpose = some "2fa" ∧
      verifyToken s now (.signed c) = some c ∧
      (∃ user, s.users.get? c.userId = some user ∧ user.isActive = true ∧
        (c.tokenVersion = none ∨ c.tokenVersion = some user.tokenVersion)) ∧
      ((cookieToken req).isSome → countSessionCookies req ≤ 1) ∧ cookieProven env options req = true
  | _ => False

/-! ## One step -/

theorem step_gated {env : Env} {s : State} (e : Step) (h : Gated s) : Gated (step env s e) := by
  cases e with
  | setup => exact wp_final (setup_gated h)
  | acceptInvite => exact wp_final (acceptInvite_gated h)
  | login => exact wp_final (passwordLogin_gated h)
  | verify => exact wp_final (twoFactorVerify_gated h)
  | api now options req effect =>
    refine wp_final (P := Gated) ?_
    simp only [api, wp_bind]
    exact wp_mono authenticateRequest_frame (fun _ _ ht => h.of_same ht.1 ht.2) fun _ _ ht => h.of_same ht.1 ht.2

/-- Over tokens minted as the handlers mint them, a step breaks the gate exactly by
    presenting a live challenge token. -/
theorem gateHolds_iff {env : Env} {s : State} {e : Step} (h : Gated s) :
    GateHolds env s e ↔ ¬ PresentsLiveChallenge env s e := by
  cases e with
  | api now options req effect =>
    constructor
    · rintro hg ⟨c, ht, hp, hv, hu, h1, hc⟩
      obtain ⟨-, ⟨m, hm, rfl⟩, -⟩ := jwtVerify_some hv
      rcases h m hm with ⟨hp', -⟩ | ⟨-, hsid⟩
      · rw [hp] at hp'; cases hp'
      · exact (hg ((accepts_iff ht hsid).2 ⟨h1, hv, hu, hc⟩) m hm ht).2 hp
    · intro hn hok m hm ht
      rcases h m hm with ⟨hp, hl⟩ | ⟨hp, hsid⟩
      · exact ⟨hl, by rw [hp]; simp⟩
      · obtain ⟨h1, hv, hu, hc⟩ := (accepts_iff ht hsid).1 hok
        exact absurd ⟨m.claims, ht, hp, hv, hu, h1, hc⟩ hn
  | _ => simp [GateHolds, PresentsLiveChallenge]

/-! ## Runs -/

/-- A run keeps the second-factor gate exactly when no API request in it presents a live
    challenge token. -/
theorem second_factor_gate (env : Env) (db : Db) (es : List Step) :
    Along (step env) (GateHolds env) (initial db) es ↔
      Along (step env) (fun s e => ¬ PresentsLiveChallenge env s e) (initial db) es :=
  along_iff (I := Gated) (fun _ e h => step_gated e h) (fun _ _ h => gateHolds_iff h) (gated_initial db)

namespace Skipped

/-- A password matches its own text; no code is ever right. -/
def env : Env where
  bcryptCompare password hash := password = hash
  bcryptHash password := password
  totpValidate _ _ _ _ := false
  deriveClientToken _ := "mac"
  isEmail email := Text.includes email "@"
  jwtExpiresIn := 604800
  tokenLifetimeMs := 604800000
  apiClientTokenRequired := none

def admin : User where
  email := "admin@corp.example"
  passwordHash := "Correct-Horse-1"
  name := "Admin"
  role := .ADMIN
  isActive := true
  twoFactorSecret := some "JBSWY3DPEHPK3PXP"
  twoFactorEnabled := true

def db : Db := ⟨Table.empty.insert "u1" admin, Table.empty, Table.empty, Table.empty⟩

/-- What POST /login answers as `tempToken`. -/
def tempToken : Claims where
  userId := "u1"
  purpose := some "2fa"
  nonce := some "n0"
  tokenVersion := some 0
  iat := 1000
  exp := 1300

def login : Step := .login 1000000 "admin@corp.example" "Correct-Horse-1" {} "s1" "n0"

/-- GET /api/users with the temp token as Bearer, two seconds later. -/
def call : Step :=
  .api 1002000 {} { method := "GET", authorization := some (.bearer (.signed tempToken)) } fun _ db => db

end Skipped

/-- The password alone opens the API: the challenge token of a login that never reached
    the code check is accepted as a session. -/
theorem the_challenge_token_is_a_session :
    ¬ ∀ (env : Env) (db : Db) (es : List Step), Along (step env) (GateHolds env) (initial db) es := by
  intro h
  have run := h Skipped.env Skipped.db ([Skipped.login] ++ Skipped.call :: [])
  have hg := along_at run
  replace hg := hg ⟨⟨"u1", "admin@corp.example", .ADMIN, none⟩, _, rfl⟩
  exact (hg ⟨Skipped.tempToken, some ⟨0, "u1", true⟩⟩ List.mem_cons_self rfl).2 rfl

end ClusterGate.Auth
