import WazuhMcp.Auth.Session
import WazuhMcp.Wazuh.Upstream

/-!
# Audit events and metrics

What `MultiSinkAuditEmitter.emit` is called with, and the programs that may call it besides taking
the steps of the clients: the policy resolvers, the tool handlers in their wiring, the resources and
the prompts.
-/

namespace WazuhMcp

open Interact

/-- The `outcome` of an audit event. -/
inductive AuditOutcome where
  | ok
  | error
  | writeRequested
  deriving DecidableEq, Repr

/-- The `error_code` of an audit event. -/
inductive ErrorCode where
  | safe (code : SafeCode)
  | parseError
  | internal
  | cancelled
  deriving DecidableEq, Repr

/-- The outcome label of `mcp_tool_calls_total`. -/
inductive CallOutcome where
  | ok
  | safe (code : SafeCode)
  | parseError
  | error
  | cancelled
  deriving DecidableEq, Repr

/-- An audit event, as far as the caller of `emit` determines it. -/
structure AuditEvent where
  tool : String
  user : String
  tenant : String
  rbacRole : String
  args : JsonObject
  outcome : AuditOutcome
  resultCount : ℕ := 0
  durationMs : ℤ := 0
  errorCode : Option ErrorCode := none
  errorReason : Option String := none

/-- The event of a session's call, with nothing but its outcome. -/
def Session.auditEvent (session : Session) (tool : String) (args : JsonObject)
    (outcome : AuditOutcome) : AuditEvent where
  tool := tool
  user := session.userId
  tenant := session.tenantId
  rbacRole := session.rbacRole
  args := args
  outcome := outcome

/-- The event of a session's call that has failed before there was anything to measure. -/
def Session.failureEvent (session : Session) (tool : String) (args : JsonObject)
    (code : ErrorCode) : AuditEvent :=
  { session.auditEvent tool args .error with errorCode := some code }

/-- A step of the code above the clients. -/
inductive AppOp where
  | up (op : UpOp)
  /-- `audit.emit(...)` -/
  | emit (event : AuditEvent)

/-- What a step may come to. -/
@[reducible] def AppOp.Result : AppOp → Type
  | .up op => op.Result
  | .emit _ => Unit

/-- A program above the clients. -/
abbrev AppProg := Prog AppOp AppOp.Result Exn

/-- A step of a program above the clients, with what it came to. -/
abbrev AppEvent := Event AppOp AppOp.Result

/-- A program of the clients, as a program above them. -/
def UpProg.lift {α : Type} (p : UpProg α) : AppProg α := Prog.embed .up p

instance : MonadLift UpProg AppProg := ⟨UpProg.lift⟩

/-- The request that the step sends, if it sends one. -/
def AppOp.request : AppOp → Option UpRequest
  | .up op => op.request
  | .emit _ => none

/-- The requests of a trace, in order. -/
def sent (tr : List AppEvent) : List UpRequest := tr.filterMap fun ev => ev.op.request

@[simp] theorem sent_nil : sent [] = [] := rfl

@[simp] theorem sent_cons (ev : AppEvent) (tr : List AppEvent) :
    sent (ev :: tr) = ev.op.request.toList ++ sent tr := by
  rw [sent, List.filterMap_cons]
  cases ev.op.request <;> rfl

@[simp] theorem sent_append (tr tr' : List AppEvent) : sent (tr ++ tr') = sent tr ++ sent tr' :=
  List.filterMap_append

@[simp] theorem sent_embed (tr : List UpEvent) : sent (tr.map (Event.embed .up)) = requests tr := by
  rw [sent, requests, List.filterMap_map]
  rfl

/-- `audit.emit(...)` -/
def AppProg.emit (event : AuditEvent) : AppProg Unit := .op (.emit event) fun _ => .ret ()

end WazuhMcp
