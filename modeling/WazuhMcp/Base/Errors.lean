import Mathlib.Data.Nat.Notation

/-!
# Exceptions

The exceptions that the server raises or lets through. `WazuhError` is the one a client may see: its
code is one of `SAFE_CODES`, which the constructor of the source checks and the type `SafeCode`
states. An `Exn` is whatever a `raise` or an awaited operation may produce, split the way the
`except` clauses of the source split it: `WazuhError`, pydantic's `ValidationError`, any other
`Exception`, and a `BaseException` that is not an `Exception`, such as a cancellation.
-/

namespace WazuhMcp

/-- `SAFE_CODES` -/
inductive SafeCode where
  | authExpired
  | forbidden
  | rateLimited
  | invalidQuery
  | upstreamError
  | notFound
  | upstreamTimeout
  deriving DecidableEq, Repr

/-- The code as it appears in messages, audit events and metric labels. -/
def SafeCode.text : SafeCode → String
  | .authExpired => "auth_expired"
  | .forbidden => "forbidden"
  | .rateLimited => "rate_limited"
  | .invalidQuery => "invalid_query"
  | .upstreamError => "upstream_error"
  | .notFound => "not_found"
  | .upstreamTimeout => "upstream_timeout"

/-- `WazuhError`: an error whose code is safe to show. -/
structure WazuhError where
  code : SafeCode
  message : String
  statusCode : ℕ
  scope : Option String := none
  deriving DecidableEq, Repr

/-- `AuthError` and its subclasses, with the detail that only goes to the logs. -/
inductive AuthError where
  | invalidToken (detail : String)
  | expiredToken (detail : String)
  | unknownIssuer (detail : String)
  | missingClaim (claimName : String) (detail : String)
  | apiKeyRevoked (detail : String)
  deriving DecidableEq, Repr

/-- `AuthError.http_status` -/
def AuthError.httpStatus : AuthError → ℕ
  | .missingClaim _ _ => 403
  | _ => 401

/-- `AuthError.public_message` -/
def AuthError.publicMessage : AuthError → String
  | .invalidToken _ => "invalid_token"
  | .expiredToken _ => "invalid_token"
  | .unknownIssuer _ => "unauthorized"
  | .missingClaim _ _ => "forbidden"
  | .apiKeyRevoked _ => "unauthorized"

/-- Anything that can be raised. -/
inductive Exn where
  | wazuh (e : WazuhError)
  | auth (e : AuthError)
  /-- pydantic's `ValidationError` -/
  | validation
  /-- FastMCP's `ToolError` -/
  | tool (message : String)
  /-- any other `Exception`, by its class -/
  | exception (name : String)
  /-- a `BaseException` that is no `Exception`, by its class -/
  | base (name : String)
  deriving DecidableEq, Repr

namespace Exn

/-- Whether `except Exception` catches it. -/
def isException : Exn → Bool
  | .base _ => false
  | _ => true

/-- Whether `except WazuhError` catches it. -/
def isWazuhError : Exn → Bool
  | .wazuh _ => true
  | _ => false

/-- Whether `except AuthError` catches it. -/
def isAuthError : Exn → Bool
  | .auth _ => true
  | _ => false

/-- Whether `except httpx.TimeoutException` catches it. -/
def isTimeout : Exn → Bool
  | .exception name =>
    name ∈ ["TimeoutException", "ConnectTimeout", "ReadTimeout", "WriteTimeout", "PoolTimeout"]
  | _ => false

/-- `asyncio.CancelledError` -/
def cancelled : Exn := .base "CancelledError"

/-- `KeyError` -/
def keyError : Exn := .exception "KeyError"

/-- `AttributeError` -/
def attributeError : Exn := .exception "AttributeError"

/-- `TypeError` -/
def typeError : Exn := .exception "TypeError"

/-- `LookupError` -/
def lookupError : Exn := .exception "LookupError"

/-- `ValueError` -/
def valueError : Exn := .exception "ValueError"

end Exn

/-- What code that knows nothing of `WazuhError` may raise: the HTTP library, the secret stores, the
event loop. -/
structure ForeignExn where
  exn : Exn
  foreign : exn.isWazuhError = false

theorem ForeignExn.exn_ne_wazuh (x : ForeignExn) (e : WazuhError) : x.exn ≠ .wazuh e := by
  intro h
  have hforeign := x.foreign
  rw [h] at hforeign
  cases hforeign

end WazuhMcp
