/-!
# Domain errors and integrity errors

Services raise `DomainError`s; the database raises `IntegrityError`s, which
`translateIntegrityError` turns into the domain error the API answers. `Failure` is anything that
ends a transaction with a rollback, and `Failure.problem` the answer it becomes.
-/

set_option autoImplicit false

namespace SmartLogistics.Platform

/-- An expected, business-level failure: the HTTP status, the machine-readable code and the text. -/
structure DomainError where
  statusCode : Nat
  code : String
  message : String
  deriving DecidableEq, Repr

/-- `NotFoundError`. -/
def notFoundError (message : String) : DomainError := ⟨404, "not_found", message⟩

/-- `ConflictError`. -/
def conflictError (message : String) : DomainError := ⟨409, "conflict", message⟩

/-- `PermissionDeniedError`. -/
def permissionDeniedError (message : String) : DomainError := ⟨403, "permission_denied", message⟩

/-- `InvalidReferenceError`. -/
def invalidReferenceError (message : String) : DomainError := ⟨409, "invalid_reference", message⟩

/-- `ConstraintViolationError`. -/
def constraintViolationError (message : String) : DomainError :=
  ⟨422, "constraint_violation", message⟩

/-- `ConcurrentUpdateError`, with its default text. -/
def concurrentUpdateError : DomainError :=
  ⟨409, "concurrent_update", "Someone else changed this record first. Re-read it and try again."⟩

/-- The SQLSTATE of a violated constraint. -/
inductive SqlState
  | uniqueViolation
  | foreignKeyViolation
  | checkViolation
  | notNullViolation
  | other
  deriving DecidableEq, Repr

/-- A constraint violation reported by the database. -/
structure IntegrityError where
  sqlstate : SqlState
  constraintName : String
  deriving DecidableEq, Repr

/-- The domain error a constraint violation becomes, with a service's own messages. -/
def translateIntegrityError (error : IntegrityError) (messages : String → Option String) :
    DomainError :=
  let message := messages error.constraintName
  match error.sqlstate with
  | .uniqueViolation => conflictError (message.getD "That value is already in use.")
  | .foreignKeyViolation =>
    invalidReferenceError (message.getD "A referenced record does not exist.")
  | .checkViolation | .notNullViolation =>
    constraintViolationError (message.getD "The request violates a data rule.")
  | .other => conflictError (message.getD "The request conflicts with existing data.")

/-- What rolls a transaction back. -/
inductive Failure
  /-- A service raised. -/
  | domain (error : DomainError)
  /-- The database refused a write. -/
  | integrity (error : IntegrityError)
  /-- A versioned update matched no row. -/
  | staleData
  /-- A lookup in a Python dict failed. -/
  | keyError
  deriving DecidableEq, Repr

/-- The answer a failure becomes. -/
def Failure.problem (messages : String → Option String) : Failure → DomainError
  | .domain error => error
  | .integrity error => translateIntegrityError error messages
  | .staleData => concurrentUpdateError
  | .keyError => ⟨500, "internal_error", "Internal Server Error"⟩

end SmartLogistics.Platform
