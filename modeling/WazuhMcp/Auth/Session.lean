import WazuhMcp.Base.Errors

/-!
# Sessions

The identity that is carried through every tool call. A session is built by a session factory and
never changes afterwards.
-/

namespace WazuhMcp

/-- `AuthMethod` -/
inductive AuthMethod where
  | config
  | oauth
  | apiKey
  deriving DecidableEq, Repr

/-- `Session` -/
structure Session where
  userId : String
  tenantId : String
  rbacRole : String
  authMethod : AuthMethod
  wazuhUser : Option String := none
  deriving DecidableEq, Repr

/-- `current_session()`, of what `CURRENT_SESSION` holds in the context. -/
def currentSession (ctx : Option Session) : Except Exn Session :=
  ctx.elim (.error Exn.lookupError) .ok

end WazuhMcp
