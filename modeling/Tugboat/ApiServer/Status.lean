import Tugboat.Store.ResourceStore

/-!
# Status responses

The error responses of the API server: an HTTP code with its reason, a message and optional
details.  The constructors carry the source's names; `StatusResponse.ofStoreError` is the
translation of every store error.  The remaining fields of the response are the same for all
errors and are left out.
-/

namespace Tugboat

open Json

/-- A failed request's response. -/
structure StatusResponse where
  message : String
  reason : String
  code : ℕ
  details : Option Value := none
  deriving DecidableEq, Repr

namespace StatusResponse

def badRequest (message : String) (details : Option Value := none) : StatusResponse :=
  { message, reason := "BadRequest", code := 400, details }

def unauthorized (message : String) (details : Option Value := none) : StatusResponse :=
  { message, reason := "Unauthorized", code := 401, details }

def forbidden (message : String) (details : Option Value := none) : StatusResponse :=
  { message, reason := "Forbidden", code := 403, details }

def notFound (message : String) (details : Option Value := none) : StatusResponse :=
  { message, reason := "NotFound", code := 404, details }

def conflict (message : String) (details : Option Value := none) : StatusResponse :=
  { message, reason := "Conflict", code := 409, details }

def invalid (message : String) (details : Option Value := none) : StatusResponse :=
  { message, reason := "Invalid", code := 422, details }

def internalError (message : String) (details : Option Value := none) : StatusResponse :=
  { message, reason := "InternalError", code := 500, details }

def ofStoreError : StoreError → StatusResponse
  | .fieldMissing _ => badRequest "Missing required field"
  | .invalidField field reason =>
    badRequest "Invalid field value"
      (some (.object [("field", .string field), ("reason", .string reason)]))
  | .etcd => internalError "Etcd access error"
  | .optimisticLockFailed revision =>
    conflict "Resources are conflicted"
      (some (.object [("revision", .number (.int revision))]))

/-- The response when an object cannot be written as JSON or read from it.  The text of the
JSON library's own error, which the source puts into the details, is left out. -/
def jsonError : StatusResponse := internalError "Failed to serialize to JSON"

end StatusResponse

end Tugboat
