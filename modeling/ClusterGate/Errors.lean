/-
  ClusterGate.Errors — what a handler throws: the application's own errors
  (`lib/errors.ts`), a failed schema check, or an error of the database client, as the
  error handler tells them apart (`middleware/errorHandler.ts`).
-/

namespace ClusterGate

structure AppError where
  statusCode : Nat
  code : String
  message : String
  details : List String := []
  deriving DecidableEq

/-- One finding of a schema check: the field, and the schema's message where it has one
    of its own. -/
structure Issue where
  field : String
  message : Option String := none
  deriving DecidableEq

inductive Err
  | app (e : AppError)
  | zod (issues : List Issue)
  /-- A known request error of the client: `P2002` unique, `P2003` foreign key, `P2025` no record. -/
  | prisma (code : String)
  /-- The client refuses the query: a value of the wrong type. -/
  | prismaValidation
  deriving DecidableEq

namespace Err

def badRequest (message : String) (details : List String := []) : Err := .app ⟨400, "BAD_REQUEST", message, details⟩
def unauthorized (message : String := "Authentication required") : Err := .app ⟨401, "UNAUTHORIZED", message, []⟩
def forbidden (message : String := "Insufficient permissions") : Err := .app ⟨403, "FORBIDDEN", message, []⟩
def notFound (resource : String := "Resource") : Err := .app ⟨404, "NOT_FOUND", resource ++ " not found", []⟩
def conflict (message : String) : Err := .app ⟨409, "CONFLICT", message, []⟩
def tooManyRequests (message : String := "Too many requests") : Err := .app ⟨429, "TOO_MANY_REQUESTS", message, []⟩
def internal (message : String := "Internal server error") : Err := .app ⟨500, "INTERNAL_ERROR", message, []⟩

end Err

end ClusterGate
