import WazuhMcp.Rbac.Policy

/-!
# The instrumented tool

`instrumented_tool` wraps a tool handler: the RBAC guard, the rate limiter, then the handler, with an
audit event and a metric for each way the call may end.

A wrapped tool is a program over its own steps and, as inner steps, those of the policy it consults
and of the handler it wraps (`ToolOp`). To speak of any handler at all, it is taken to be one awaited
step that may come to anything (`HandlerOp`).
-/

namespace WazuhMcp

open Interact

/-! ## Steps -/

/-- What `limiter.acquire` comes to: whether it has taken a token, even if it raises then, and
whether it raises. -/
structure Acquired where
  took : Bool
  outcome : Except Exn Unit

/-- A step of a wrapped tool. -/
inductive ToolOp (E : Type) where
  /-- `await limiter.acquire(tenant_id, session_id)` -/
  | acquire (tenantId sessionId : String)
  /-- `mcp_tool_calls_total` -/
  | addCalls (tenant tool : String) (outcome : CallOutcome)
  /-- `rate_limited_total` -/
  | addRateLimited (tenant scope : String)
  /-- `mcp_tool_duration_seconds` -/
  | recordDuration (elapsed : ℚ) (tenant tool : String)
  /-- `time.perf_counter()`, in seconds -/
  | perfCounter
  | emit (event : AuditEvent)
  | inner (op : E)

/-- What a step may come to. -/
@[reducible] def ToolOp.Result {E : Type} (R : E → Type) : ToolOp E → Type
  | .acquire _ _ => Acquired
  | .perfCounter => ℚ
  | .inner op => R op
  | _ => Unit

/-- A program over the steps of a wrapped tool. -/
abbrev ToolProg (E : Type) (R : E → Type) := Prog (ToolOp E) (ToolOp.Result R) Exn

/-- A step of a wrapped tool, with what it came to. -/
abbrev ToolEvent (E : Type) (R : E → Type) := Event (ToolOp E) (ToolOp.Result R)

namespace ToolProg

variable {E : Type} {R : E → Type} {α : Type}

/-- The inner steps of a policy or a handler. -/
def inner (p : Prog E R Exn α) : ToolProg E R α := Prog.embed .inner p

/-- `counters["mcp_tool_calls_total"].add(1, {...})` -/
def addCalls (tenant tool : String) (outcome : CallOutcome) : ToolProg E R Unit :=
  .op (.addCalls tenant tool outcome) fun _ => .ret ()

/-- `counters["rate_limited_total"].add(1, {...})` -/
def addRateLimited (tenant scope : String) : ToolProg E R Unit :=
  .op (.addRateLimited tenant scope) fun _ => .ret ()

/-- `counters["mcp_tool_duration_seconds"].record(elapsed, {...})` -/
def recordDuration (elapsed : ℚ) (tenant tool : String) : ToolProg E R Unit :=
  .op (.recordDuration elapsed tenant tool) fun _ => .ret ()

/-- `time.perf_counter()` -/
def perfCounter : ToolProg E R ℚ := .op .perfCounter .ret

/-- `audit.emit(...)` -/
def emit (event : AuditEvent) : ToolProg E R Unit := .op (.emit event) fun _ => .ret ()

end ToolProg

/-! ## The wrapper -/

/-- The arguments of `instrumented_tool`. `listLen` says how long an attribute of a result is, if the
result has it and it is a list. -/
structure InstrumentedTool (E : Type) (R : E → Type) (α : Type) where
  toolName : String
  handler : JsonObject → Prog E R Exn α
  rbacPolicy : Session → Prog E R Exn Policy
  listLen : α → String → Option ℕ

/-- The label and the error code under which an exception of the handler is reported. -/
def reportedAs : Exn → CallOutcome × ErrorCode
  | .wazuh e => (.safe e.code, .safe e.code)
  | .validation => (.parseError, .parseError)
  | .base _ => (.cancelled, .cancelled)
  | _ => (.error, .internal)

/-- The attributes of a result that are counted, the first that is a list. -/
def countedAttrs : List String :=
  ["alerts", "agents", "items", "results", "vulnerabilities", "techniques", "events"]

namespace InstrumentedTool

variable {E : Type} {R : E → Type} {α : Type} (t : InstrumentedTool E R α) (session : Session)
  (kwargs : JsonObject)

/-- The error of a call that RBAC denies. -/
def forbidden : WazuhError where
  code := .forbidden
  message := t.toolName ++ " not permitted for role " ++ Json.reprStr session.rbacRole
  statusCode := 403

/-- The end of a call that RBAC denies. -/
def deny : ToolProg E R α := do
  ToolProg.emit (session.failureEvent t.toolName kwargs (.safe .forbidden))
  ToolProg.addCalls session.tenantId t.toolName (.safe .forbidden)
  .raise (.wazuh (t.forbidden session))

/-- The end of a call that the limiter refuses. -/
def refuse (rle : WazuhError) : ToolProg E R Unit := do
  let scope := if rle.scope = some "rate_limit:tenant" then "tenant" else "session"
  ToolProg.addRateLimited session.tenantId scope
  ToolProg.addCalls session.tenantId t.toolName (.safe .rateLimited)
  ToolProg.emit (session.failureEvent t.toolName kwargs (.safe .rateLimited))
  .raise (.wazuh rle)

/-- The limiter step. Only a `WazuhError` is caught. -/
def rateLimit : ToolProg E R Unit :=
  .op (.acquire session.tenantId session.userId) fun ans =>
    match ans.outcome with
    | .ok _ => .ret ()
    | .error (.wazuh rle) => t.refuse session kwargs rle
    | .error x => .raise x

/-- A write tool announces the call before its handler runs. -/
def announce : ToolProg E R Unit :=
  if Text.startsWith t.toolName "write." then
    ToolProg.emit (session.auditEvent t.toolName kwargs .writeRequested)
  else
    pure ()

/-- `result_count` of a result -/
def resultCount (result : α) : ℕ := (countedAttrs.findSome? (t.listLen result)).getD 0

/-- The completion event of a call that has run its handler. -/
def completion (out : Except Exn α) (durationMs : ℤ) : AuditEvent :=
  match out with
  | .ok result =>
    { session.auditEvent t.toolName kwargs .ok with
      resultCount := t.resultCount result
      durationMs := durationMs }
  | .error x =>
    { session.auditEvent t.toolName kwargs .error with
      durationMs := durationMs
      errorCode := some (reportedAs x).2 }

/-- The label of a call that has run its handler. -/
def outcomeLabel : Except Exn α → CallOutcome
  | .ok _ => .ok
  | .error x => (reportedAs x).1

/-- The end of a call that has run its handler. -/
def complete (start : ℚ) (out : Except Exn α) : ToolProg E R α := do
  let stop ← ToolProg.perfCounter
  ToolProg.addCalls session.tenantId t.toolName (outcomeLabel out)
  ToolProg.recordDuration (stop - start) session.tenantId t.toolName
  ToolProg.emit (t.completion session kwargs out (elapsedMs start stop))
  Prog.ofExcept out

/-- `_inner(**kwargs)`, with what `CURRENT_SESSION` holds. -/
def call (ctx : Option Session) : ToolProg E R α := do
  let session ← currentSession ctx
  let policy ← ToolProg.inner (t.rbacPolicy session)
  if isAllowed session t.toolName policy then
    t.rateLimit session kwargs
    let start ← ToolProg.perfCounter
    t.announce session kwargs
    let out ← (ToolProg.inner (t.handler kwargs)).attempt
    t.complete session kwargs start out
  else
    t.deny session kwargs

/-! ## What a call does

The steps of each part of the wrapper, and `all_call`, which says what a whole call comes to in terms
of its policy and its handler. -/

/-- The steps of a call that RBAC denies. -/
def denied : List (ToolEvent E R) :=
  [⟨.emit (session.failureEvent t.toolName kwargs (.safe .forbidden)), ()⟩,
    ⟨.addCalls session.tenantId t.toolName (.safe .forbidden), ()⟩]

/-- The steps of a call after its limiter has raised. -/
def refused : Exn → List (ToolEvent E R)
  | .wazuh rle =>
    [⟨.addRateLimited session.tenantId
        (if rle.scope = some "rate_limit:tenant" then "tenant" else "session"), ()⟩,
      ⟨.addCalls session.tenantId t.toolName (.safe .rateLimited), ()⟩,
      ⟨.emit (session.failureEvent t.toolName kwargs (.safe .rateLimited)), ()⟩]
  | _ => []

/-- The announcement of a write tool. -/
def announced : List (ToolEvent E R) :=
  if Text.startsWith t.toolName "write." then
    [⟨.emit (session.auditEvent t.toolName kwargs .writeRequested), ()⟩]
  else []

/-- The steps of a call after its handler. -/
def completed (start stop : ℚ) (out : Except Exn α) : List (ToolEvent E R) :=
  [⟨.perfCounter, stop⟩, ⟨.addCalls session.tenantId t.toolName (outcomeLabel out), ()⟩,
    ⟨.recordDuration (stop - start) session.tenantId t.toolName, ()⟩,
    ⟨.emit (t.completion session kwargs out (elapsedMs start stop)), ()⟩]

variable {t session kwargs}

theorem all_deny (Q : List (ToolEvent E R) → Except Exn α → Prop) :
    (t.deny session kwargs).All Q ↔
      Q (t.denied session kwargs) (.error (.wazuh (t.forbidden session))) :=
  ⟨fun h => h () (), fun h _ _ => h⟩

theorem all_announce (Q : List (ToolEvent E R) → Except Exn Unit → Prop) :
    (t.announce session kwargs).All Q ↔ Q (t.announced session kwargs) (.ok ()) := by
  rw [announce, announced]
  split
  · exact ⟨fun h => h (), fun h _ => h⟩
  · exact Iff.rfl

theorem all_complete (start : ℚ) (out : Except Exn α)
    (Q : List (ToolEvent E R) → Except Exn α → Prop) :
    (t.complete session kwargs start out).All Q ↔
      ∀ stop, Q (t.completed session kwargs start stop out) out := by
  cases out with
  | ok result => exact ⟨fun h stop => h stop () () (), fun h stop _ _ _ => h stop⟩
  | error x => exact ⟨fun h stop => h stop () () (), fun h stop _ _ _ => h stop⟩

theorem all_rateLimit (Q : List (ToolEvent E R) → Except Exn Unit → Prop) :
    (t.rateLimit session kwargs).All Q ↔ ∀ ans : Acquired,
      let acquired : ToolEvent E R := ⟨.acquire session.tenantId session.userId, ans⟩
      match ans.outcome with
      | .ok _ => Q [acquired] (.ok ())
      | .error x => Q (acquired :: t.refused session kwargs x) (.error x) := by
  refine forall_congr' fun ans => ?_
  obtain ⟨took, x | _⟩ := ans
  · cases x with
    | wazuh rle => exact ⟨fun h => h () () (), fun h _ _ _ => h⟩
    | _ => exact Iff.rfl
  · exact Iff.rfl

/-- **What a call comes to**, in terms of its policy and its handler. -/
theorem all_call (Q : List (ToolEvent E R) → Except Exn α → Prop) :
    (t.call kwargs (some session)).All Q ↔ (t.rbacPolicy session).All fun trp policy =>
      match policy with
      | .error x => Q (trp.map (Event.embed .inner)) (.error x)
      | .ok policy =>
        if isAllowed session t.toolName policy then ∀ ans : Acquired,
          let acquired : ToolEvent E R := ⟨.acquire session.tenantId session.userId, ans⟩
          match ans.outcome with
          | .error x =>
            Q (trp.map (Event.embed .inner) ++ acquired :: t.refused session kwargs x) (.error x)
          | .ok _ => ∀ start, (t.handler kwargs).All fun trh out => ∀ stop,
            Q (trp.map (Event.embed .inner) ++ acquired :: ⟨.perfCounter, start⟩ ::
              (t.announced session kwargs ++ (trh.map (Event.embed .inner) ++
                t.completed session kwargs start stop out))) out
        else
          Q (trp.map (Event.embed .inner) ++ t.denied session kwargs)
            (.error (.wazuh (t.forbidden session))) := by
  refine (Prog.all_bind (ToolProg.inner (t.rbacPolicy session)) _ Q).trans
    ((Prog.all_embed _ _ _).trans (Prog.all_congr fun trp policy => ?_))
  cases policy with
  | error x => exact Iff.rfl
  | ok policy =>
    simp only
    split
    · rw [Prog.all_bind, all_rateLimit]
      refine forall_congr' fun ans => ?_
      cases ans.outcome with
      | error x => exact Iff.rfl
      | ok _ =>
        refine forall_congr' fun start => ?_
        refine (Prog.all_bind (t.announce session kwargs) _ _).trans ?_
        rw [all_announce]
        simp only [Prog.all_bind, Prog.all_attempt, ToolProg.inner, Prog.all_embed, all_complete]
        refine Prog.all_congr fun trh out => forall_congr' fun stop => ?_
        simp
    · rw [all_deny]

/-- **The three ways a call goes**: RBAC denies it, the limiter raises, or the handler runs. `Pol` is
what is known of the steps of the policy, and `Han` of those of the handler. -/
inductive CallShape (t : InstrumentedTool E R α) (session : Session) (kwargs : JsonObject)
    (policy : Policy) (Pol : List (Event E R) → Prop)
    (Han : List (Event E R) → Except Exn α → Prop) :
    List (ToolEvent E R) → Except Exn α → Prop
  | denied {trp : List (Event E R)} (hpol : Pol trp)
      (hdenied : isAllowed session t.toolName policy = false) :
      CallShape t session kwargs policy Pol Han
        (trp.map (Event.embed .inner) ++ t.denied session kwargs)
        (.error (.wazuh (t.forbidden session)))
  | refused {trp : List (Event E R)} {ans : Acquired} {x : Exn} (hpol : Pol trp)
      (hallowed : isAllowed session t.toolName policy = true) (hans : ans.outcome = .error x) :
      CallShape t session kwargs policy Pol Han
        (trp.map (Event.embed .inner) ++ ⟨.acquire session.tenantId session.userId, ans⟩ ::
          t.refused session kwargs x) (.error x)
  | handled {trp trh : List (Event E R)} {ans : Acquired} {start stop : ℚ} {out : Except Exn α}
      (hpol : Pol trp) (hallowed : isAllowed session t.toolName policy = true)
      (hans : ans.outcome = .ok ()) (hhan : Han trh out) :
      CallShape t session kwargs policy Pol Han
        (trp.map (Event.embed .inner) ++ ⟨.acquire session.tenantId session.userId, ans⟩ ::
          ⟨.perfCounter, start⟩ :: (t.announced session kwargs ++
            (trh.map (Event.embed .inner) ++ t.completed session kwargs start stop out))) out

/-- Every call goes in one of the three ways. -/
theorem call_shape {policy : Policy} {Pol : List (Event E R) → Prop}
    {Han : List (Event E R) → Except Exn α → Prop}
    (hpol : (t.rbacPolicy session).All fun trp out => Pol trp ∧ out = .ok policy)
    (hhan : (t.handler kwargs).All Han) :
    (t.call kwargs (some session)).All (t.CallShape session kwargs policy Pol Han) := by
  rw [all_call]
  refine hpol.mono fun trp out h => ?_
  obtain ⟨htrp, rfl⟩ := h
  simp only
  split
  · rename_i hallowed
    intro ans
    cases hans : ans.outcome with
    | error x => exact .refused htrp hallowed hans
    | ok _ => exact fun start => hhan.mono fun trh out htrh stop => .handled htrp hallowed hans htrh
  · rename_i hdenied
    exact .denied htrp (by simpa using hdenied)

end InstrumentedTool

end WazuhMcp
