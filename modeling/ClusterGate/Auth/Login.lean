/-
  ClusterGate.Auth.Login — the handlers that mint tokens (`routes/auth.router.ts`), with
  the services they call (`authService.ts`, `inviteService.ts`, `twoFactorService.ts`).

  Four handlers mint: setup and accept-invite a session token for the account they
  create; login a session token, or for a user with 2FA the challenge token; the 2FA
  verify step a session token once the code is right. A random value a handler draws
  (an id, the challenge nonce) is an argument of the handler.
  - `passwordLogin_gated`, `twoFactorVerify_gated`, `setup_gated`, `acceptInvite_gated`:
    each keeps `Gated`: a session token is minted only for a login that needs no second
    factor or has passed it, and a challenge token carries no session id.
-/

import ClusterGate.Auth.Store

namespace ClusterGate.Auth

open Lib Lib.Act

/-! ## The password -/

/-- `validatePassword`'s findings. -/
def validatePassword (password : String) : List String :=
  let cs := password.toList
  (if Text.utf16Length password < 12 then ["Must be at least 12 characters"] else []) ++
  (if cs.any Char.isUpper then [] else ["Must contain at least one uppercase letter"]) ++
  (if cs.any Char.isLower then [] else ["Must contain at least one lowercase letter"]) ++
  (if cs.any Char.isDigit then [] else ["Must contain at least one number"]) ++
  (if cs.any fun c => !c.isAlphanum then [] else ["Must contain at least one special character"])

/-- `email.toLowerCase().trim()`; the schemas admit ASCII addresses only. -/
def normalizeEmail (email : String) : String := Text.trim (Text.toLowerAscii email)

/-- The model's record of a password that was checked. -/
def beginLogin (userId : String) (user : User) : Handler Login := do
  let s ← read
  modify fun s => { s with nextLogin := s.nextLogin + 1 }
  pure ⟨s.nextLogin, userId, user.twoFactorEnabled⟩

structure LoginResult where
  userId : String
  user : User
  token : Token
  login : Login

/-- `authService.login`: no token yet for a user with 2FA. -/
def login (env : Env) (now : Nat) (email password : String) (ctx : SessionContext) (sessionId : String) :
    Handler LoginResult := do
  let s ← read
  let (id, user) ← orThrow (s.users.find? fun _ u => u.email = normalizeEmail email)
    (.unauthorized "Invalid email or password")
  require user.isActive (.unauthorized "Invalid email or password")
  require (env.bcryptCompare password user.passwordHash) (.unauthorized "Invalid email or password")
  let login ← beginLogin id user
  if user.twoFactorEnabled then
    pure ⟨id, user, .text "", login⟩
  else do
    modify fun s => { s with users := s.users.modify id fun u => { u with lastLoginAt := some now } }
    let token ← issueSession env now id user ctx sessionId (some login)
    pure ⟨id, { user with lastLoginAt := some now }, token, login⟩

/-! ## The second factor -/

/-- `startLoginChallenge`: the single-use nonce of a pending login, stored on the user. -/
def startLoginChallenge (userId nonce : String) : Handler String := do
  modify fun s => { s with users := s.users.modify userId fun u => { u with twoFactorChallenge := some nonce } }
  pure nonce

def MAX_2FA_ATTEMPTS : Nat := 5
def LOCKOUT_MS : Nat := 15 * 60 * 1000

def onVerifySuccess (userId : String) (recoveryCodes : List String) : Handler Unit :=
  modify fun s => { s with users := s.users.modify userId fun u => { u with
    recoveryCodes, twoFactorFailedAttempts := 0, twoFactorLockedUntil := none, twoFactorChallenge := none } }

def onVerifyFailure (userId : String) (currentAttempts now : Nat) : Handler Unit :=
  modify fun s => { s with users := s.users.modify userId fun u =>
    if currentAttempts + 1 ≥ MAX_2FA_ATTEMPTS then
      { u with twoFactorFailedAttempts := 0, twoFactorLockedUntil := some (now + LOCKOUT_MS) }
    else { u with twoFactorFailedAttempts := currentAttempts + 1 } }

/-- The recovery codes left once the first that matches `token` is used. -/
def useRecoveryCode (env : Env) (token : String) : List String → Option (List String)
  | [] => none
  | code :: codes =>
    if env.bcryptCompare token code then some codes else (useRecoveryCode env token codes).map (code :: ·)

/-- `twoFactorService.verifyToken`: a TOTP code, or a recovery code, which it consumes. -/
def verify2FAToken (env : Env) (now : Nat) (userId token : String) : Handler Bool := do
  let s ← read
  let user ← orThrow (s.users.get? userId) (.notFound "User")
  let secret ← orThrow (if user.twoFactorEnabled then user.twoFactorSecret.filter (· ≠ "") else none)
    (.badRequest "Two-factor authentication is not enabled")
  let lockedUntil := user.twoFactorLockedUntil.getD 0
  require (lockedUntil ≤ now) (.tooManyRequests ("Too many failed 2FA attempts. Try again in " ++
    toString ((lockedUntil - now + 59999) / 60000) ++ " minute(s)."))
  if env.totpValidate secret user.email token now then do
    onVerifySuccess userId user.recoveryCodes
    pure true
  else match useRecoveryCode env token user.recoveryCodes with
    | some codes => do
      onVerifySuccess userId codes
      pure true
    | none => do
      onVerifyFailure userId user.twoFactorFailedAttempts now
      pure false

/-! ## The handlers -/

/-- POST /login: a session token, or the challenge token when 2FA is enabled. -/
def passwordLogin (env : Env) (now : Nat) (email password : String) (ctx : SessionContext)
    (sessionId nonce : String) : Handler Token := do
  require (env.isEmail email) (.zod [⟨"email", some "Invalid email address"⟩])
  require (password ≠ "") (.zod [⟨"password", some "Password is required"⟩])
  let result ← login env now email password ctx sessionId
  if result.user.twoFactorEnabled then do
    let nonce ← startLoginChallenge result.userId nonce
    signShortLivedToken now result.userId "2fa" nonce result.user.tokenVersion (some result.login)
  else
    pure result.token

/-- The login a token was minted for. -/
def loginOf (s : State) (c : Claims) : Option Login := (s.minted.find? fun m => m.claims = c).bind Mint.login

/-- The model's record of a login whose code was verified. -/
def passLogin (l : Option Login) : Handler Unit :=
  modify fun s => { s with passed := (l.map Login.id).toList ++ s.passed }

/-- POST /2fa/verify: the temp token's challenge must be the user's pending one; the
    session is issued once the code is verified. -/
def twoFactorVerify (env : Env) (now : Nat) (tempToken : Token) (code : String) (ctx : SessionContext)
    (sessionId : String) : Handler Token := do
  require tempToken.truthy (.zod [⟨"tempToken", some "Temporary token is required"⟩])
  require (code ≠ "") (.zod [⟨"code", some "Verification code is required"⟩])
  let s ← read
  let payload ← orThrow (verifyShortLivedToken s now tempToken "2fa") (.unauthorized "Invalid or expired 2FA token")
  let challengeUser ← orThrow (s.users.get? payload.userId) (.unauthorized "Invalid or expired 2FA token")
  require (payload.nonce.getD "" ≠ "" ∧ challengeUser.twoFactorChallenge = payload.nonce ∧
      payload.tokenVersion = some challengeUser.tokenVersion) (.unauthorized "Invalid or expired 2FA token")
  let valid ← verify2FAToken env now payload.userId code
  require valid (.unauthorized "Invalid verification code")
  passLogin (loginOf s payload)
  let s' ← read
  let user ← orThrow (s'.users.get? payload.userId) (.unauthorized "Account not found or deactivated")
  require user.isActive (.unauthorized "Account not found or deactivated")
  modify fun s => { s with users := s.users.modify payload.userId fun u => { u with lastLoginAt := some now } }
  issueSession env now payload.userId user ctx sessionId (loginOf s payload)

/-- POST /setup: the first account. -/
def setup (env : Env) (now : Nat) (email password name : String) (ctx : SessionContext)
    (userId sessionId : String) : Handler Token := do
  require (env.isEmail email) (.zod [⟨"email", some "Invalid email address"⟩])
  require (12 ≤ Text.utf16Length password) (.zod [⟨"password", some "Password must be at least 12 characters"⟩])
  require (name ≠ "") (.zod [⟨"name", some "Name is required"⟩])
  require (validatePassword password = [])
    (.badRequest "Password does not meet requirements" (validatePassword password))
  let s ← read
  require (s.users.rows = []) (.forbidden "Setup has already been completed")
  let user : User := { email := normalizeEmail email, passwordHash := env.bcryptHash password, name,
                       role := .ADMIN, isActive := true }
  modify fun s => { s with users := s.users.insert userId user }
  issueSession env now userId user ctx sessionId none

/-- POST /accept-invite: the account an unused, unexpired invite is for. -/
def acceptInvite (env : Env) (now : Nat) (token name password : String) (ctx : SessionContext)
    (userId sessionId : String) : Handler Token := do
  require (token ≠ "") (.zod [⟨"token", some "Token is required"⟩])
  require (name ≠ "") (.zod [⟨"name", some "Name is required"⟩])
  require (12 ≤ Text.utf16Length password) (.zod [⟨"password", some "Password must be at least 12 characters"⟩])
  require (validatePassword password = [])
    (.badRequest "Password does not meet requirements" (validatePassword password))
  let s ← read
  let invite ← orThrow (s.invites.get? token) (.notFound "Invite")
  require invite.usedAt.isNone (.badRequest "This invite has already been used")
  require (now ≤ invite.expiresAt) (.badRequest "This invite has expired")
  require (¬ s.users.any fun _ u => u.email = invite.email) (.conflict "An account with this email already exists")
  let user : User := { email := invite.email, passwordHash := env.bcryptHash password, name,
                       role := invite.role, isActive := true }
  modify fun s => { s with invites := s.invites.modify token fun i => { i with usedAt := some now },
                           users := s.users.insert userId user }
  issueSession env now userId user ctx sessionId none

/-! ## What the handlers mint -/

/-- A token is a session token whose login, if 2FA was enabled then, has passed it, or a
    challenge token, which names no session. -/
def Mint.Gated (passed : List Nat) (m : Mint) : Prop :=
  (m.claims.purpose = none ∧ ∀ l, m.login = some l → l.twoFactorEnabled = true → l.id ∈ passed) ∨
    (m.claims.purpose = some "2fa" ∧ m.claims.sid = none)

def Gated (s : State) : Prop := ∀ m ∈ s.minted, m.Gated s.passed

/-- What a handler keeps whether it returns or throws. -/
abbrev Keeps {α : Type} (x : Handler α) (P : State → Prop) (s : State) : Prop := wp x (fun _ => P) (fun _ => P) s

theorem Mint.Gated.mono {m : Mint} {p q : List Nat} (h : m.Gated p) (hpq : p ⊆ q) : m.Gated q :=
  h.imp (fun ⟨hp, hl⟩ => ⟨hp, fun l h1 h2 => hpq (hl l h1 h2)⟩) id

theorem gated_initial (db : Db) : Gated (initial db) := by
  intro m hm
  cases hm

theorem Gated.of_same {s s' : State} (h : Gated s) (hm : s'.minted = s.minted) (hp : s'.passed = s.passed) :
    Gated s' := by
  intro m h'
  rw [hp]
  exact h m (hm ▸ h')

theorem issueSession_gated {env : Env} {now : Nat} {userId : String} {user : User} {ctx : SessionContext}
    {sid : String} {login : Option Login} {s : State} (h : Gated s)
    (hl : ∀ l, login = some l → l.twoFactorEnabled = true → l.id ∈ s.passed) :
    Keeps (issueSession env now userId user ctx sid login) Gated s := by
  simp only [issueSession, signToken, mint, wp_bind, wp_modify, wp_pure]
  intro m hm
  rcases List.mem_cons.1 hm with rfl | hm
  · exact .inl ⟨rfl, hl⟩
  · exact h m hm

/-- The check of the code writes the user's row only. -/
theorem verify2FAToken_frame {env : Env} {now : Nat} {userId token : String} {s : State} :
    Keeps (verify2FAToken env now userId token) (fun s' => s'.minted = s.minted ∧ s'.passed = s.passed) s := by
  simp only [Keeps, verify2FAToken, onVerifySuccess, onVerifyFailure, wp_bind, wp_read, wp_orThrow, wp_require, wp_ite,
    wp_modify, wp_pure, and_self, implies_true, true_and, and_true]
  intro user _ secret _ _ _
  split <;> simp

theorem login_gated {env : Env} {now : Nat} {email password : String} {ctx : SessionContext} {sid : String} {s : State}
    (h : Gated s) : Keeps (login env now email password ctx sid) Gated s := by
  simp only [Keeps, login, beginLogin, wp_bind, wp_read, wp_orThrow, wp_require, wp_ite, wp_modify, wp_pure]
  have h' : ∀ n us, Gated { s with nextLogin := n, users := us } := fun n us => h.of_same rfl rfl
  refine ⟨fun found _ => ?_, fun _ => h⟩
  obtain ⟨id, user⟩ := found
  refine ⟨fun _ => ⟨fun _ => ⟨fun _ => h' _ _, fun h2 => ?_⟩, fun _ => h⟩, fun _ => h⟩
  refine issueSession_gated (h' _ _) ?_
  intro l hlogin hl
  cases hlogin
  exact absurd hl h2

theorem passwordLogin_gated {env : Env} {now : Nat} {email password : String} {ctx : SessionContext}
    {sid nonce : String} {s : State} (h : Gated s) : Keeps (passwordLogin env now email password ctx sid nonce) Gated s := by
  simp only [Keeps, passwordLogin, wp_bind, wp_require]
  refine ⟨fun _ => ⟨fun _ => ?_, fun _ => h⟩, fun _ => h⟩
  refine wp_mono (login_gated h) (fun result t ht => ?_) fun _ _ ht => ht
  simp only [wp_ite, wp_bind, startLoginChallenge, signShortLivedToken, mint, wp_modify, wp_pure]
  refine ⟨fun _ m hm => ?_, fun _ => ht⟩
  rcases List.mem_cons.1 hm with rfl | hm
  · exact .inr ⟨rfl, rfl⟩
  · exact ht m hm

/-- The session of the verify step is minted for a login that has just passed. -/
theorem twoFactorVerify_gated {env : Env} {now : Nat} {tempToken : Token} {code : String} {ctx : SessionContext}
    {sid : String} {s : State} (h : Gated s) : Keeps (twoFactorVerify env now tempToken code ctx sid) Gated s := by
  simp only [Keeps, twoFactorVerify, wp_bind, wp_require, wp_read, wp_orThrow]
  refine ⟨fun _ => ⟨fun _ => ⟨fun payload _ => ⟨fun user _ => ⟨fun _ => ?_, fun _ => h⟩, fun _ => h⟩, fun _ => h⟩,
    fun _ => h⟩, fun _ => h⟩
  refine wp_mono verify2FAToken_frame (fun valid t ht => ?_) fun _ t ht => h.of_same ht.1 ht.2
  obtain ⟨hm, hp⟩ := ht
  simp only [passLogin, wp_bind, wp_require, wp_read, wp_orThrow, wp_modify]
  have ht : Gated t := h.of_same hm hp
  have ht' : Gated { t with passed := ((loginOf s payload).map Login.id).toList ++ t.passed } := fun m hm =>
    (ht m hm).mono (List.subset_append_right _ _)
  refine ⟨fun _ => ⟨fun user _ => ⟨fun _ => ?_, fun _ => ht'⟩, fun _ => ht'⟩, fun _ => ht⟩
  refine issueSession_gated (ht'.of_same rfl rfl) fun l hl _ => ?_
  simp [hl]

theorem setup_gated {env : Env} {now : Nat} {email password name : String} {ctx : SessionContext}
    {userId sid : String} {s : State} (h : Gated s) :
    Keeps (setup env now email password name ctx userId sid) Gated s := by
  simp only [Keeps, setup, wp_bind, wp_require, wp_read, wp_modify, h, implies_true, and_true]
  intro _ _ _ _ _
  exact issueSession_gated (h.of_same rfl rfl) (by simp)

theorem acceptInvite_gated {env : Env} {now : Nat} {token name password : String} {ctx : SessionContext}
    {userId sid : String} {s : State} (h : Gated s) :
    Keeps (acceptInvite env now token name password ctx userId sid) Gated s := by
  simp only [Keeps, acceptInvite, wp_bind, wp_require, wp_read, wp_orThrow, wp_modify, h, implies_true, and_true]
  intro _ _ _ _ invite _ _ _ _
  exact issueSession_gated (h.of_same rfl rfl) (by simp)

end ClusterGate.Auth
