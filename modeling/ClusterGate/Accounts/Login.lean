/-
  ClusterGate.Accounts.Login — signing in step by step (`services/authService.ts`: `login`;
  `routes/auth.router.ts`: `POST /login`, `POST /2fa/verify`).

  A password is checked against the row the login reads, and what is signed later carries
  the version of that row. The second half of a two-step login checks its temp token and
  the user's challenge, then the code, and reads the row again for the session.
  - `Store.begin`, `Store.challenge`, `Store.startSession`, `Store.sign`: what the steps
    that write leave.
  - `tells_passwordLogin`, `tells_confirmed`, `tells_finish`, `tells_twoFactorVerify`: what
    each step does, told from what its call has seen.
-/

import ClusterGate.Accounts.TwoFactor

namespace ClusterGate.Accounts

open Lib Lib.Act Async Auth

/-! ## The password -/

/-- The row whose password is right, and the model's record of it. -/
def checkPassword (env : Env) (email password : String) : Query (String × User × Login) := do
  let s ← read
  let (id, user) ← orThrow (s.users.find? fun _ u => u.email = normalizeEmail email)
    (.unauthorized "Invalid email or password")
  require user.isActive (.unauthorized "Invalid email or password")
  require (env.bcryptCompare password user.passwordHash) (.unauthorized "Invalid email or password")
  let login ← lift (beginLogin id user)
  modify fun s => { s with checked := (login, user.tokenVersion) :: s.checked }
  pure (id, user, login)

def lastLogin (now : Nat) (u : User) : User := { u with lastLoginAt := some now }

def updateLastLogin (id : String) : Query User := fun s => updateUserRow id (lastLogin s.now) s

/-- `authService.login`: no token yet for a user with 2FA. -/
def login (env : Env) (email password : String) (ctx : SessionContext) (sessionId : String) : Service LoginResult := do
  let (id, user, login) ← await (checkPassword env email password)
  if user.twoFactorEnabled = true then pure ⟨id, user, .text "", login⟩
  else do
    let user' ← await (updateLastLogin id)
    let token ← issueSession env id user ctx sessionId (some login)
    pure ⟨id, { user with lastLoginAt := user'.lastLoginAt }, token, login⟩

def challengedWith (nonce : String) (u : User) : User := { u with twoFactorChallenge := some nonce }

def startLoginChallenge (userId nonce : String) : Query String := do
  let _ ← updateUserRow userId (challengedWith nonce)
  modify fun s => { s with challenged := (nonce, userId) :: s.challenged }
  pure nonce

/-- POST /login: a session token, or the challenge token when 2FA is enabled. -/
def passwordLogin (env : Env) (email password : String) (ctx : SessionContext) (sessionId nonce : String) :
    Service Token := do
  require (env.isEmail email) (.zod [⟨"email", some "Invalid email address"⟩])
  require (password ≠ "") (.zod [⟨"password", some "Password is required"⟩])
  let result ← login env email password ctx sessionId
  if result.user.twoFactorEnabled = true then do
    let nonce ← await (startLoginChallenge result.userId nonce)
    await (atNow fun now => signShortLivedToken now result.userId "2fa" nonce result.user.tokenVersion (some result.login))
  else pure result.token

/-! ## The second factor -/

/-- `verifyShortLivedToken`, with the login the token was minted for. -/
def tempTokenClaims (tempToken : Token) : Query (Claims × Option Login) := atNow fun now => do
  let s ← read
  let payload ← orThrow (verifyShortLivedToken s now tempToken "2fa") (.unauthorized "Invalid or expired 2FA token")
  pure (payload, loginOf s payload)

/-- The temp token's nonce must be the stored challenge, and its version the row's. -/
def enforceChallenge (payload : Claims) : Query Unit := do
  let user ← findUser payload.userId
  let challengeUser ← orThrow user (.unauthorized "Invalid or expired 2FA token")
  require (payload.nonce.getD "" ≠ "" ∧ challengeUser.twoFactorChallenge = payload.nonce ∧
    payload.tokenVersion = some challengeUser.tokenVersion) (.unauthorized "Invalid or expired 2FA token")

/-- `POST /2fa/verify` up to the code. -/
def confirmed (env : Env) (tempToken : Token) (code : String) : Service (Claims × Option Login) := do
  require tempToken.truthy (.zod [⟨"tempToken", some "Temporary token is required"⟩])
  require (code ≠ "") (.zod [⟨"code", some "Verification code is required"⟩])
  let (payload, login) ← await (tempTokenClaims tempToken)
  await (enforceChallenge payload)
  let valid ← verify2FAToken env payload.userId code payload.nonce
  require valid (.unauthorized "Invalid verification code")
  pure (payload, login)

/-- The row is read again; the record of the login is the model's. -/
def passedUser (userId : String) (login : Option Login) : Query User := do
  lift (passLogin login)
  let user ← findUser userId
  orThrow (user.filter User.isActive) (.unauthorized "Account not found or deactivated")

def twoFactorVerify (env : Env) (tempToken : Token) (code : String) (ctx : SessionContext) (sessionId : String) :
    Service Token := do
  let (payload, login) ← confirmed env tempToken code
  let user ← await (passedUser payload.userId login)
  let _ ← await (updateLastLogin payload.userId)
  issueSession env payload.userId user ctx sessionId login

/-! ## What the steps write -/

def Store.begin (id : String) (user : User) (s : Store) : Store :=
  { s with nextLogin := s.nextLogin + 1,
           checked := (⟨s.nextLogin, id, user.twoFactorEnabled⟩, user.tokenVersion) :: s.checked }

def Store.challenge (userId nonce : String) (s : Store) : Store :=
  { s.writeUser userId (challengedWith nonce) with challenged := (nonce, userId) :: s.challenged }

def Store.sign (m : Mint) (s : Store) : Store := { s with minted := m :: s.minted }

def Store.pass (login : Option Login) (s : Store) : Store := { s with passed := (login.map Login.id).toList ++ s.passed }

/-- The claims of a temp token. -/
def challengeClaims (now : Nat) (userId nonce : String) (tokenVersion : Nat) : Claims :=
  { userId, purpose := some "2fa", nonce := some nonce, tokenVersion := some tokenVersion,
    iat := now / 1000, exp := now / 1000 + 300 }

/-- The active user with that address and password. -/
structure PasswordRight (env : Env) (email password : String) (s : Store) (id : String) (user : User) : Prop where
  found : (s.users.find? fun _ u => u.email = normalizeEmail email) = some (id, user)
  active : user.isActive = true
  right : env.bcryptCompare password user.passwordHash = true

/-- The login that is begun with that row. -/
def loginAt (s : Store) (id : String) (user : User) : Login := ⟨s.nextLogin, id, user.twoFactorEnabled⟩

/-- A temp token that has verified, and is the user's pending challenge. -/
structure Challenged (tempToken : Token) (tokened checked : Store) (payload : Claims) (login : Option Login) : Prop where
  token : tempToken = .signed payload
  minted : ∃ m ∈ tokened.minted, m.claims = payload
  login_eq : login = loginOf tokened.toState payload
  nonce : payload.nonce.getD "" ≠ ""
  row : ∃ u, checked.users.get? payload.userId = some u ∧ u.twoFactorChallenge = payload.nonce ∧
    payload.tokenVersion = some u.tokenVersion

/-! ## What each step does -/

/-- A step of `POST /login`. -/
inductive LoginStep (env : Env) (email password : String) (ctx : SessionContext) (sessionId nonce : String) :
    List Store → Store → Store → Prop
  | refused (s : Store) (wrong : ∀ id user, ¬PasswordRight env email password s id user) :
      LoginStep env email password ctx sessionId nonce [] s s
  /-- A later step that reads, or is refused. -/
  | same (s₀ : Store) (seen : List Store) (s : Store) : LoginStep env email password ctx sessionId nonce (s₀ :: seen) s s
  | password (s : Store) (id : String) (user : User) (right : PasswordRight env email password s id user) :
      LoginStep env email password ctx sessionId nonce [] s (s.begin id user)
  | loggedIn (s₀ s : Store) (id : String) (user : User) (right : PasswordRight env email password s₀ id user)
      (row : (s.users.get? id).isSome) :
      LoginStep env email password ctx sessionId nonce [s₀] s (s.writeUser id (lastLogin s.now))
  | session (s₀ s₁ s₂ s : Store) (id : String) (user : User) (right : PasswordRight env email password s₀ id user)
      (free : s.sessions.get? sessionId = none) :
      LoginStep env email password ctx sessionId nonce [s₀, s₁, s₂] s
        (s.startSession env id user ctx sessionId s₂.now (some (loginAt s₀ id user)))
  | challenge (s₀ s : Store) (id : String) (user : User) (right : PasswordRight env email password s₀ id user)
      (row : (s.users.get? id).isSome) :
      LoginStep env email password ctx sessionId nonce [s₀] s (s.challenge id nonce)
  | signed (s₀ s₁ s : Store) (id : String) (user : User) (right : PasswordRight env email password s₀ id user) :
      LoginStep env email password ctx sessionId nonce [s₀, s₁] s
        (s.sign ⟨challengeClaims s.now id nonce user.tokenVersion, some (loginAt s₀ id user)⟩)

/-- A step of `confirmed`. -/
inductive ConfirmStep (env : Env) (tempToken : Token) (code : String) : List Store → Store → Store → Prop
  | token (s : Store) : ConfirmStep env tempToken code [] s s
  | check (s₀ s : Store) : ConfirmStep env tempToken code [s₀] s s
  | verify (s₀ s₁ : Store) (more : List Store) (s s' : Store) (payload : Claims) (login : Option Login)
      (challenged : Challenged tempToken s₀ s₁ payload login)
      (step : VerifyStep env payload.userId code payload.nonce more s s') :
      ConfirmStep env tempToken code (s₀ :: s₁ :: more) s s'

/-- What a call has seen whose code was accepted. -/
inductive Confirmed (env : Env) (tempToken : Token) (code : String) : List Store → Claims × Option Login → Prop
  | right (s₀ s₁ : Store) (more : List Store) (payload : Claims) (login : Option Login)
      (challenged : Challenged tempToken s₀ s₁ payload login) (done : VerifyDone env payload.userId code more true) :
      Confirmed env tempToken code (s₀ :: s₁ :: more) (payload, login)

/-- A step of what follows the code. -/
inductive FinishStep (env : Env) (payload : Claims) (login : Option Login) (ctx : SessionContext) (sessionId : String) :
    List Store → Store → Store → Prop
  /-- A step that reads, or is refused. -/
  | same (seen : List Store) (s : Store) : FinishStep env payload login ctx sessionId seen s s
  | passed (s : Store) : FinishStep env payload login ctx sessionId [] s (s.pass login)
  | loggedIn (found s : Store) (row : (s.users.get? payload.userId).isSome) :
      FinishStep env payload login ctx sessionId [found] s (s.writeUser payload.userId (lastLogin s.now))
  | session (found touched clocked s : Store) (user : User) (row : found.users.get? payload.userId = some user)
      (active : user.isActive = true) (free : s.sessions.get? sessionId = none) :
      FinishStep env payload login ctx sessionId [found, touched, clocked] s
        (s.startSession env payload.userId user ctx sessionId clocked.now login)

/-- A step of `POST /2fa/verify`. -/
inductive TwoFactorStep (env : Env) (tempToken : Token) (code : String) (ctx : SessionContext) (sessionId : String) :
    List Store → Store → Store → Prop
  | confirm (seen : List Store) (s s' : Store) (unconfirmed : past (confirmed env tempToken code) seen = none)
      (step : ConfirmStep env tempToken code seen s s') : TwoFactorStep env tempToken code ctx sessionId seen s s'
  | finish (pre more : List Store) (s s' : Store) (payload : Claims) (login : Option Login)
      (done : Confirmed env tempToken code pre (payload, login))
      (confirmed : ∀ more, past (confirmed env tempToken code) (pre ++ more) = some ((payload, login), more))
      (step : FinishStep env payload login ctx sessionId more s s') :
      TwoFactorStep env tempToken code ctx sessionId (pre ++ more) s s'

/-! ## The programs -/

theorem updateLastLogin_state (id : String) (s : Store) :
    (updateLastLogin id s).2 = if (s.users.get? id).isSome then s.writeUser id (lastLogin s.now) else s :=
  updateUserRow_state id (lastLogin s.now) s

theorem checkPassword_wp {env : Env} {email password : String} {s : Store} {Q : String × User × Login → Store → Prop}
    {E : Err → Store → Prop} (hwrong : (∀ id user, ¬PasswordRight env email password s id user) → ∀ e, E e s)
    (hright : ∀ id user, PasswordRight env email password s id user → Q (id, user, loginAt s id user) (s.begin id user)) :
    wp (checkPassword env email password) Q E s := by
  simp only [checkPassword, beginLogin, wp_bind, wp_read, wp_orThrow, wp_require, wp_lift, wp_modify, wp_pure]
  refine ⟨?_, fun hnone => hwrong (fun id user h => ?_) _⟩
  · rintro ⟨id, user⟩ hfound
    have hrow : ∀ id' user', PasswordRight env email password s id' user' → user' = user := by
      intro id' user' h
      have heq := Option.some.inj (h.found.symm.trans hfound)
      exact (Prod.mk.inj heq).2
    refine ⟨fun hactive => ⟨fun hpassword => hright id user ⟨hfound, hactive, hpassword⟩, fun hpassword => ?_⟩, fun hactive => ?_⟩
    · exact hwrong (fun id' user' h => hpassword (hrow id' user' h ▸ h.right)) _
    · exact hwrong (fun id' user' h => hactive (hrow id' user' h ▸ h.active)) _
  · rw [h.found] at hnone
    cases hnone

theorem startLoginChallenge_wp {userId nonce : String} {s : Store} {Q : String → Store → Prop} {E : Err → Store → Prop}
    (hsame : ∀ e, E e s) (hrow : (s.users.get? userId).isSome → Q nonce (s.challenge userId nonce)) :
    wp (startLoginChallenge userId nonce) Q E s := by
  simp only [startLoginChallenge, wp_bind]
  cases hfound : s.users.get? userId with
  | none =>
    have hrefused : updateUserRow userId (challengedWith nonce) s = (.error (.prisma "P2025"), s) := by
      rw [updateUserRow, hfound]
    rw [wp, hrefused]
    exact hsame _
  | some u =>
    have hwritten : updateUserRow userId (challengedWith nonce) s =
        (.ok (challengedWith nonce u), s.writeUser userId (challengedWith nonce)) := by
      rw [updateUserRow, hfound]
    rw [wp, hwritten]
    exact hrow (by rw [hfound]; rfl)

theorem tells_passwordLogin (env : Env) (email password : String) (ctx : SessionContext) (sessionId nonce : String) :
    Tells (LoginStep env email password ctx sessionId nonce) (fun _ _ => True) []
      (passwordLogin env email password ctx sessionId nonce) := by
  simp only [passwordLogin, login, tells_bind, tells_require]
  intro _ _
  rw [tells_await_wp]
  refine fun s₀ => checkPassword_wp (fun wrong _ => .refused s₀ wrong) fun id user right => ⟨.password s₀ id user right, ?_⟩
  rw [tells_ite]
  refine ⟨fun two => ?_, fun one => ?_⟩
  · rw [tells_pure, tells_ite]
    refine ⟨fun _ => ?_, fun h => absurd two h⟩
    rw [tells_bind, tells_await_wp]
    refine fun s₁ => startLoginChallenge_wp (fun _ => .same _ _ _) fun row => ⟨.challenge s₀ s₁ id user right row, ?_⟩
    rw [tells_await]
    exact fun s => ⟨.signed s₀ s₁ s id user right, fun _ _ => trivial⟩
  · simp only [issueSession, tells_bind, tells_await (updateLastLogin _), tells_await clock]
    refine fun s₁ => ⟨?_, fun user' _ s₂ => ⟨.same _ _ _, fun now hnow => ?_⟩⟩
    · rw [updateLastLogin_state]
      split
      · rename_i row
        exact .loggedIn s₀ s₁ id user right row
      · exact .same _ _ _
    · obtain rfl : s₂.now = now := Except.ok.inj hnow
      refine tells_mono (tells_createSession (fun s => .same _ _ s) fun s free => .session s₀ s₁ s₂ s id user right free)
        (fun _ _ _ h => h) fun _ _ _ => ?_
      rw [tells_pure, tells_ite]
      exact ⟨fun two => absurd two one, fun _ => trivial⟩

theorem tells_confirmed (env : Env) (tempToken : Token) (code : String) :
    Tells (ConfirmStep env tempToken code) (Confirmed env tempToken code) [] (confirmed env tempToken code) := by
  simp only [confirmed, tells_bind, tells_require]
  intro _ _
  rw [tells_await_wp]
  intro s₀
  simp only [tempTokenClaims, wp_atNow, wp_bind, wp_read, wp_orThrow, wp_pure]
  refine ⟨fun payload hpayload => ⟨.token s₀, ?_⟩, fun _ => .token s₀⟩
  obtain ⟨hverified, -⟩ := Option.filter_eq_some_iff.1 hpayload
  obtain ⟨htoken, hminted, -⟩ := jwtVerify_some hverified
  rw [tells_await_wp]
  intro s₁
  simp only [enforceChallenge, wp_bind, wp_findUser, wp_orThrow, wp_require]
  refine ⟨fun u hu => ⟨fun hchecked => ⟨.check s₀ s₁, ?_⟩, fun _ => .check s₀ s₁⟩, fun _ => .check s₀ s₁⟩
  obtain ⟨hnonce, hstored, hversion⟩ := hchecked
  have challenged : Challenged tempToken s₀ s₁ payload (loginOf s₀.toState payload) :=
    ⟨htoken, hminted, rfl, hnonce, u, hu, hstored, hversion⟩
  refine tells_shift [s₀, s₁] (verifies env payload.userId code payload.nonce)
    (fun seen s s' h => .verify s₀ s₁ seen s s' payload _ challenged h) fun seen valid hdone => ?_
  intro hvalid
  rw [hvalid] at hdone
  exact .right s₀ s₁ seen payload _ challenged hdone

/-- The step with which a code is accepted. -/
theorem ConfirmStep.accepted {env : Env} {tempToken : Token} {code : String} {seen : List Store} {s s' : Store}
    {payload : Claims} {login : Option Login} (h : ConfirmStep env tempToken code seen s s')
    (done : Confirmed env tempToken code (seen ++ [s]) (payload, login)) :
    ∃ s₀ s₁ found clocked codes, seen = [s₀, s₁, found, clocked] ∧ Challenged tempToken s₀ s₁ payload login ∧
      codeRight env payload.userId code found clocked = true ∧ s' = s.accept payload.userId codes payload.nonce := by
  generalize hall : seen ++ [s] = all at done
  cases done with
  | right s₀ s₁ more _ _ challenged done =>
    cases h with
    | token => cases hall
    | check =>
      cases hall
      cases done
    | verify t₀ t₁ more' _ _ payload' login' challenged' step =>
      obtain ⟨hs₀, hs₁⟩ := List.cons.inj hall
      obtain ⟨rfl, rfl⟩ := List.cons.inj hs₁
      subst hs₀
      obtain rfl : payload' = payload := Token.signed.inj (challenged'.token.symm.trans challenged.token)
      obtain ⟨found, clocked, codes, rfl, hright, -, rfl⟩ := step.accepted done
      exact ⟨t₀, t₁, found, clocked, codes, rfl, challenged, hright, rfl⟩

/-- What follows the code. -/
theorem tells_finish (env : Env) (payload : Claims) (login : Option Login) (ctx : SessionContext) (sessionId : String) :
    Tells (FinishStep env payload login ctx sessionId) (fun _ _ => True) [] (do
      let user ← await (passedUser payload.userId login)
      let _ ← await (updateLastLogin payload.userId)
      issueSession env payload.userId user ctx sessionId login : Service Token) := by
  simp only [issueSession, tells_bind]
  rw [tells_await_wp]
  intro found
  simp only [passedUser, passLogin, wp_bind, wp_lift, wp_modify, wp_findUser, wp_orThrow]
  refine ⟨fun user huser => ⟨.passed found, ?_⟩, fun _ => .passed found⟩
  obtain ⟨hrow, hactive⟩ := Option.filter_eq_some_iff.1 huser
  simp only [tells_await (updateLastLogin _), tells_await clock]
  refine fun touched => ⟨?_, fun _ _ clocked => ⟨.same _ _, fun now hnow => ?_⟩⟩
  · rw [updateLastLogin_state]
    split
    · rename_i row
      exact .loggedIn found touched row
    · exact .same _ _
  · obtain rfl : clocked.now = now := Except.ok.inj hnow
    exact tells_createSession (fun s => .same _ s) fun s free => .session found touched clocked s user hrow hactive free

theorem tells_twoFactorVerify (env : Env) (tempToken : Token) (code : String) (ctx : SessionContext) (sessionId : String) :
    Tells (TwoFactorStep env tempToken code ctx sessionId) (fun _ _ => True) []
      (twoFactorVerify env tempToken code ctx sessionId) :=
  tells_past (tells_confirmed env tempToken code) (fun seen s s' unconfirmed h => .confirm seen s s' unconfirmed h)
    fun pre b done hpast => tells_shift pre (tells_finish env b.1 b.2 ctx sessionId)
      (fun more s s' h => .finish pre more s s' b.1 b.2 done hpast h) fun _ _ _ => trivial

end ClusterGate.Accounts
