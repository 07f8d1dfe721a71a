/-
  ClusterGate.Accounts.Sessions — login sessions step by step
  (`services/sessionService.ts`).

  The steps are those of `Auth.Store` where it has them, at the time of the step: a row is
  created and its token signed, a row is looked up and touched. A time that is only stored
  is taken at the write, one that is compared when it is read.
-/

import ClusterGate.Accounts.Store

namespace ClusterGate.Accounts

open Lib Lib.Act Async Auth

/-- A handler of `Auth.Store` as one step. -/
def lift {α : Type} (x : Handler α) : Query α := fun s => ((x s.toState).1, { s with toState := (x s.toState).2 })

/-- One that asks for the time. -/
def atNow {α : Type} (x : Nat → Handler α) : Query α := fun s => lift (x s.now) s

@[simp] theorem wp_lift {α : Type} {x : Handler α} {s : Store} {Q : α → Store → Prop} {E : Err → Store → Prop} :
    wp (lift x) Q E s ↔ wp x (fun a t => Q a { s with toState := t }) (fun e t => E e { s with toState := t }) s.toState := by
  unfold wp lift
  rcases x s.toState with ⟨_ | _, _⟩ <;> rfl

@[simp] theorem wp_atNow {α : Type} {x : Nat → Handler α} {s : Store} {Q : α → Store → Prop} {E : Err → Store → Prop} :
    wp (atNow x) Q E s ↔
      wp (x s.now) (fun a t => Q a { s with toState := t }) (fun e t => E e { s with toState := t }) s.toState := wp_lift

/-- `session.create`, and the token that carries its id. -/
def createSession (env : Env) (userId : String) (user : User) (ctx : SessionContext) (sessionId : String)
    (startedAt : Nat) (login : Option Login) : Query Token := do
  let s ← read
  require ((s.sessions.get? sessionId).isNone) (.prisma "P2002")
  require ((s.users.get? userId).isSome) (.prisma "P2003")
  modify fun s => { s with sessions := s.sessions.insert sessionId (newSession env startedAt userId ctx) }
  atNow fun now => signToken env now userId user sessionId login

/-- The claims `signToken` signs. -/
def sessionClaims (env : Env) (now : Nat) (userId : String) (user : User) (sid : String) : Claims :=
  { userId, email := some user.email, role := some user.role, tokenVersion := some user.tokenVersion, sid := some sid,
    iat := now / 1000, exp := now / 1000 + env.jwtExpiresIn }

/-- The row and the token of a new session. -/
def Store.startSession (env : Env) (userId : String) (user : User) (ctx : SessionContext) (sessionId : String)
    (startedAt : Nat) (login : Option Login) (s : Store) : Store :=
  { s with sessions := s.sessions.insert sessionId (newSession env startedAt userId ctx),
           minted := ⟨sessionClaims env s.now userId user sessionId, login⟩ :: s.minted }

/-- The session that is created, or refused for its key. -/
theorem createSession_state (env : Env) (userId : String) (user : User) (ctx : SessionContext) (sessionId : String)
    (startedAt : Nat) (login : Option Login) (s : Store) :
    (createSession env userId user ctx sessionId startedAt login s).2 =
      if (s.sessions.get? sessionId).isNone ∧ (s.users.get? userId).isSome then
        s.startSession env userId user ctx sessionId startedAt login
      else s := by
  refine wp_final (P := fun t : Store => t = _) ?_
  simp only [createSession, signToken, mint, wp_bind, wp_read, wp_require, wp_modify, wp_atNow, wp_pure]
  refine ⟨fun hfree => ⟨fun hrow => ?_, fun hrow => ?_⟩, fun hfree => ?_⟩
  · rw [if_pos ⟨hfree, hrow⟩]
    rfl
  · rw [if_neg fun h => hrow h.2]
  · rw [if_neg fun h => hfree h.1]

def issueSession (env : Env) (userId : String) (user : User) (ctx : SessionContext) (sessionId : String)
    (login : Option Login) : Service Token := do
  let now ← await clock
  await (createSession env userId user ctx sessionId now login)

/-- A session is created, or the step is refused. -/
theorem tells_createSession {env : Env} {userId : String} {user : User} {ctx : SessionContext} {sessionId : String}
    {startedAt : Nat} {login : Option Login} {R : List Store → Store → Store → Prop} {seen : List Store}
    (hsame : ∀ s, R seen s s)
    (hnew : ∀ s, s.sessions.get? sessionId = none → R seen s (s.startSession env userId user ctx sessionId startedAt login)) :
    Tells R (fun _ _ => True) seen (await (createSession env userId user ctx sessionId startedAt login)) := by
  rw [tells_await]
  refine fun s => ⟨?_, fun _ _ => trivial⟩
  rw [createSession_state]
  split
  · rename_i h
    exact hnew s (Option.isNone_iff_eq_none.1 h.1)
  · exact hsame s

/-- The row is looked up; a live one is touched at most once a minute. -/
def validateSession (sessionId : String) (ip : Option String) : Service Bool :=
  await (atNow fun now => Auth.validateSession now sessionId ip)

/-- A session that is not revoked yet is revoked. -/
def Session.revoked (now : Nat) (r : Session) : Session :=
  if r.revokedAt.isNone then { r with revokedAt := some now } else r

/-- `session.updateMany`; `ids` are the sessions meant, for the model's record. -/
def Store.revokeSessions (p : String → Session → Bool) (ids : List String) (s : Store) : Store :=
  { s with sessions := s.sessions.mapRows fun id r => if p id r then Session.revoked s.now r else r,
           revokedIds := ids ++ s.revokedIds }

def sessionOf (userId sessionId : String) : Query Unit := do
  let s ← read
  require ((s.sessions.get? sessionId).any (fun r => r.userId = userId) = true) (.notFound "Session")

theorem sessionOf_state (userId sessionId : String) (s : Store) : (sessionOf userId sessionId s).2 = s := by
  refine wp_final (P := fun t => t = s) ?_
  simp only [sessionOf, wp_bind, wp_read, wp_require, implies_true, and_self]

def revokeSession (userId sessionId : String) : Service Unit := do
  await (sessionOf userId sessionId)
  await (modify (Store.revokeSessions (fun id _ => id = sessionId) [sessionId]))
  await (modify fun s => { s with lastTouch := s.lastTouch.erase sessionId })

/-- A session of the user's that is not the kept one. -/
def isOther (userId keepSessionId id : String) (r : Session) : Bool := r.userId = userId && id ≠ keepSessionId

def revokeOtherSessions (userId keepSessionId : String) : Service Unit :=
  await (modify fun s => s.revokeSessions (isOther userId keepSessionId)
    ((s.sessions.filter (isOther userId keepSessionId)).rows.map Prod.fst))

/-- `session.deleteMany`: what has expired or was revoked. -/
def Store.purgeSessions (now : Nat) (s : Store) : Store :=
  { s with sessions := s.sessions.filter fun _ r => !(r.expiresAt < now || r.revokedAt.isSome) }

def cleanupSessions : Service Unit := do
  let now ← await clock
  await (modify (Store.purgeSessions now))

end ClusterGate.Accounts
