/-
  ClusterGate.Auth.Store — users, sessions, invites and the tokens the server signs
  (`lib/jwt.ts`, `services/sessionService.ts`).

  A token is symbolic: `signed c` is the text `jwt.sign` gives for the claims `c` under
  the server's secret, `text` any other string. Signing is unforgeable: a signature
  verifies only if the server made it, so the state remembers what it signed (`minted`).
  Session tokens and 2FA challenge tokens are signed with one secret and one issuer.

  Each mint is recorded with the login it belongs to (`Login`: the user and whether the
  second factor was enabled when the password was checked); `passed` lists the logins
  whose code was verified. These records are the model's, nothing in the code reads them.
-/

import ClusterGate.Errors
import ClusterGate.Caller
import ClusterGate.Lib.Act
import ClusterGate.Lib.Table
import ClusterGate.Lib.Text

namespace ClusterGate.Auth

open Lib Lib.Act

structure User where
  email : String
  passwordHash : String
  name : String
  role : Role
  isActive : Bool
  twoFactorSecret : Option String := none
  twoFactorEnabled : Bool := false
  recoveryCodes : List String := []
  twoFactorChallenge : Option String := none
  twoFactorFailedAttempts : Nat := 0
  /-- Milliseconds since the epoch, as every time here. -/
  twoFactorLockedUntil : Option Nat := none
  tokenVersion : Nat := 0
  lastLoginAt : Option Nat := none
  deriving DecidableEq

structure Session where
  userId : String
  ip : Option String
  userAgent : Option String
  lastSeenAt : Nat
  expiresAt : Nat
  revokedAt : Option Nat := none
  deriving DecidableEq

structure InviteToken where
  email : String
  role : Role
  expiresAt : Nat
  usedAt : Option Nat := none
  deriving DecidableEq

/-! ## Tokens -/

/-- What a signed token says: `JWTPayload` and `ShortLivedPayload` in one record, a
    claim its kind does not carry being absent. -/
structure Claims where
  userId : String
  email : Option String := none
  role : Option Role := none
  purpose : Option String := none
  nonce : Option String := none
  tokenVersion : Option Nat := none
  sid : Option String := none
  /-- Seconds since the epoch. -/
  iat : Nat
  exp : Nat
  deriving DecidableEq

inductive Token
  | signed (claims : Claims)
  | text (s : String)
  deriving DecidableEq

/-- The empty text is falsy; a signed token never is. -/
def Token.truthy : Token → Bool
  | .signed _ => true
  | .text s => s ≠ ""

/-- A login: whose password was checked, and whether 2FA was enabled at that moment. -/
structure Login where
  id : Nat
  userId : String
  twoFactorEnabled : Bool
  deriving DecidableEq

/-- A signed token and the login it was minted for (none: setup, accepted invite). -/
structure Mint where
  claims : Claims
  login : Option Login
  deriving DecidableEq

/-- What the handlers store, `lastTouch` being the session service's in-memory map. -/
structure Db where
  users : Table String User
  sessions : Table String Session
  invites : Table String InviteToken
  lastTouch : Table String Nat

structure State extends Db where
  minted : List Mint
  passed : List Nat
  nextLogin : Nat

/-- A server that has signed nothing yet, over any database. -/
def initial (db : Db) : State := { db with minted := [], passed := [], nextLogin := 0 }

/-- What the code takes from outside its sources: bcrypt, TOTP, the HMAC of a session
    token, zod's pattern for an email address, and the configuration. -/
structure Env where
  bcryptCompare : (password hash : String) → Bool
  bcryptHash : String → String
  /-- `createTOTP(secret, email).validate({ token, window: 1 }) !== null` at a time. -/
  totpValidate : (secret email token : String) → (now : Nat) → Bool
  deriveClientToken : Token → String
  isEmail : String → Bool
  /-- `JWT_EXPIRES_IN`, in seconds. -/
  jwtExpiresIn : Nat
  tokenLifetimeMs : Nat
  apiClientTokenRequired : Option String

/-- The caller's address and agent, as the session row keeps them. -/
structure SessionContext where
  ip : Option String := none
  userAgent : Option String := none

abbrev Handler (α : Type) := Act State Err α

def mint (claims : Claims) (login : Option Login) : Handler Token := do
  modify fun s => { s with minted := ⟨claims, login⟩ :: s.minted }
  pure (.signed claims)

/-- `signToken`: the claims of a session token. -/
def signToken (env : Env) (now : Nat) (userId : String) (user : User) (sid : String) (login : Option Login) :
    Handler Token :=
  mint { userId, email := some user.email, role := some user.role, tokenVersion := some user.tokenVersion,
         sid := some sid, iat := now / 1000, exp := now / 1000 + env.jwtExpiresIn } login

/-- `signShortLivedToken`, with its default of five minutes. -/
def signShortLivedToken (now : Nat) (userId purpose nonce : String) (tokenVersion : Nat) (login : Option Login) :
    Handler Token :=
  mint { userId, purpose := some purpose, nonce := some nonce, tokenVersion := some tokenVersion,
         iat := now / 1000, exp := now / 1000 + 300 } login

/-- `jwt.verify`: the claims of a token the server signed and that has not expired. -/
def jwtVerify (minted : List Mint) (now : Nat) : Token → Option Claims
  | .signed c => if (∃ m ∈ minted, m.claims = c) ∧ now / 1000 < c.exp then some c else none
  | .text _ => none

/-- `verifyToken`: any token of the server's verifies. -/
def verifyToken (s : State) (now : Nat) (token : Token) : Option Claims := jwtVerify s.minted now token

/-- `verifyShortLivedToken`: the purpose has to match. -/
def verifyShortLivedToken (s : State) (now : Nat) (token : Token) (expectedPurpose : String) : Option Claims :=
  (jwtVerify s.minted now token).filter fun c => c.purpose = some expectedPurpose

theorem jwtVerify_some {minted : List Mint} {now : Nat} {t : Token} {c : Claims} (h : jwtVerify minted now t = some c) :
    t = .signed c ∧ (∃ m ∈ minted, m.claims = c) ∧ now / 1000 < c.exp := by
  cases t with
  | text => cases h
  | signed d =>
    simp only [jwtVerify, Option.ite_none_right_eq_some, Option.some.injEq] at h
    obtain ⟨h, rfl⟩ := h
    exact ⟨rfl, h⟩

/-! ## Sessions -/

/-- The row `issueSession` creates. -/
def newSession (env : Env) (now : Nat) (userId : String) (ctx : SessionContext) : Session where
  userId := userId
  ip := ctx.ip.map fun ip => String.ofList (ip.toList.take 64)
  userAgent := ctx.userAgent.map fun ua => String.ofList (ua.toList.take 512)
  lastSeenAt := now
  expiresAt := now + env.tokenLifetimeMs

/-- `issueSession`: a session row, and a token carrying its id. -/
def issueSession (env : Env) (now : Nat) (userId : String) (user : User) (ctx : SessionContext) (sessionId : String)
    (login : Option Login) : Handler Token := do
  modify fun s => { s with sessions := s.sessions.insert sessionId (newSession env now userId ctx) }
  signToken env now userId user sessionId login

def TOUCH_INTERVAL_MS : Nat := 60000

/-- The row of a session seen again, with the address it came from. -/
def Session.seen (r : Session) (now : Nat) (ip : Option String) : Session :=
  { r with lastSeenAt := now,
           ip := match ip with
             | some ip => if ip = "" then r.ip else some (String.ofList (ip.toList.take 64))
             | none => r.ip }

/-- `validateSession`: a live session row, touched at most once a minute. -/
def validateSession (now : Nat) (sessionId : String) (ip : Option String) : Handler Bool := do
  let s ← read
  match s.sessions.get? sessionId with
  | none => pure false
  | some session =>
    if session.revokedAt.isSome ∨ session.expiresAt < now then
      pure false
    else do
      when (now - (s.lastTouch.get? sessionId).getD 0 > TOUCH_INTERVAL_MS)
        (modify fun s => { s with lastTouch := (s.lastTouch.erase sessionId).insert sessionId now,
                                  sessions := s.sessions.modify sessionId fun r => r.seen now ip })
      pure true

end ClusterGate.Auth
