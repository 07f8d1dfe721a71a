/-
  ClusterGate.Caller — who makes a request: the user's id and system role, and the role
  a user can have in an organization.
-/

namespace ClusterGate

inductive Role
  | ADMIN | OPERATOR | VIEWER
  deriving DecidableEq

inductive OrgRole
  | OWNER | ADMIN | MEMBER
  deriving DecidableEq

/-- `req.user`, as far as the route endpoints read it. -/
structure Caller where
  userId : String
  role : Role
  deriving DecidableEq

end ClusterGate
