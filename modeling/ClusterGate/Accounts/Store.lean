/-
  ClusterGate.Accounts.Store — what the account services share, one database call at a time.

  `Auth.Store` runs each handler in one go. Here a handler gives up its turn at every
  `await`, and other requests run before it goes on: the store is the one of `Auth.Store`
  with the clock, the organizations and their members, and a handler is an `Async` over it.
  One database call is one atomic step, and reading the clock is one: time passes between
  a call's steps as it likes (`elapse`).

  The columns of the client keep their rules: a write of a row that is gone is refused
  (`P2025`), so is a second row under a unique key (`P2002`) and one that refers to a row
  that is not there (`P2003`). Each write of a user row sets its `updatedAt`.
-/

import ClusterGate.Auth.Authenticate
import ClusterGate.Lib.History

namespace ClusterGate.Accounts

open Lib Lib.Act Auth

structure Organization where
  name : String
  slug : String
  description : Option String := none
  deriving DecidableEq

structure OrgMembership where
  userId : String
  organizationId : String
  role : OrgRole
  deriving DecidableEq

structure Store extends State where
  now : Nat
  /-- The column of that name of the user rows. -/
  updatedAt : String → Nat := fun _ => 0
  /-- The token of each invite, by the id of its row. -/
  inviteIds : Table String String := .empty
  organizations : Table String Organization := .empty
  orgMemberships : Table String OrgMembership := .empty
  /-- The challenge nonces that were stored, with their users, and those whose code was
      accepted; the logins, with the version of the row whose password they checked; the
      sessions that were revoked. These records are the model's, as `minted` and `passed` are. -/
  challenged : List (String × String) := []
  verified : List String := []
  checked : List (Login × Nat) := []
  revokedIds : List String := []

/-- A step of a service. -/
abbrev Query (α : Type) := Act Store Err α

/-- A service, step by step. -/
abbrev Service (α : Type) := Async Store Err α

/-- `ms` milliseconds pass. -/
def Store.elapse (ms : Nat) (s : Store) : Store := { s with now := s.now + ms }

@[simp] theorem Store.elapse_now (ms : Nat) (s : Store) : (s.elapse ms).now = s.now + ms := rfl
@[simp] theorem Store.elapse_users (ms : Nat) (s : Store) : (s.elapse ms).users = s.users := rfl

def clock : Query Nat := fun s => (.ok s.now, s)

@[simp] theorem wp_clock {s : Store} {Q : Nat → Store → Prop} {E : Err → Store → Prop} : wp clock Q E s ↔ Q s.now s := Iff.rfl

/-! ## Users -/

/-- `user.update({ where: { id }, data })`. -/
def Store.writeUser (id : String) (data : User → User) (s : Store) : Store :=
  { s with users := s.users.modify id data,
           updatedAt := fun u => if u = id then s.now else s.updatedAt u }

@[simp] theorem Store.writeUser_users (id : String) (data : User → User) (s : Store) :
    (s.writeUser id data).users = s.users.modify id data := rfl
@[simp] theorem Store.writeUser_now (id : String) (data : User → User) (s : Store) : (s.writeUser id data).now = s.now := rfl

def findUser (id : String) : Query (Option User) := fun s => (.ok (s.users.get? id), s)

@[simp] theorem wp_findUser {id : String} {s : Store} {Q : Option User → Store → Prop} {E : Err → Store → Prop} :
    wp (findUser id) Q E s ↔ Q (s.users.get? id) s := Iff.rfl

/-- `findUnique`, and the error of a service that needs the row. -/
def userById (id : String) : Query User := do
  let user ← findUser id
  orThrow user (.notFound "User")

def updateUserRow (id : String) (data : User → User) : Query User := fun s =>
  match s.users.get? id with
  | none => (.error (.prisma "P2025"), s)
  | some user => (.ok (data user), s.writeUser id data)

theorem userById_state (id : String) (s : Store) : (userById id s).2 = s := by
  show (orThrow (s.users.get? id) (.notFound "User") s : Except Err User × Store).2 = s
  cases s.users.get? id <;> rfl

theorem userById_ok {id : String} {s : Store} {user : User} : (userById id s).1 = .ok user ↔ s.users.get? id = some user := by
  show (orThrow (s.users.get? id) (.notFound "User") s : Except Err User × Store).1 = .ok user ↔ _
  cases s.users.get? id with
  | none => exact iff_of_false (by rintro ⟨⟩) (by rintro ⟨⟩)
  | some u =>
    show (Except.ok u : Except Err User) = .ok user ↔ some u = some user
    rw [Except.ok.injEq, Option.some.injEq]

/-- The write of a user row that is there, or no write. -/
theorem updateUserRow_state (id : String) (data : User → User) (s : Store) :
    (updateUserRow id data s).2 = if (s.users.get? id).isSome then s.writeUser id data else s := by
  unfold updateUserRow
  cases s.users.get? id <;> rfl

/-! ## Who calls -/

/-- `authenticate` and `authorize`: the caller's row when the request comes in, with what
    the token and its session have to be left aside. -/
def authorized (userId : String) (roles : List Role) : Query Caller := do
  let user ← findUser userId
  let user ← orThrow (user.filter User.isActive) (.unauthorized "Account not found or deactivated")
  require (user.role ∈ roles) .forbidden
  pure ⟨userId, user.role⟩

theorem authorized_state (userId : String) (roles : List Role) (s : Store) : (authorized userId roles s).2 = s := by
  refine wp_final (P := fun t => t = s) ?_
  simp only [authorized, wp_bind, wp_findUser, wp_orThrow, wp_require, wp_pure, implies_true, and_self]

end ClusterGate.Accounts
