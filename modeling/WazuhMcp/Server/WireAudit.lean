import WazuhMcp.Server.ToolCall

/-!
# Audit completeness of tool calls

Every call of a registered tool should leave exactly one completion event for that tool and one
increment of `mcp_tool_calls_total`, and a write tool that has passed RBAC and the limiter an
announcement before it, whatever its arguments are (`WireAudited`). The accounting is the wrapper's,
and two layers may end a call before the wrapper is reached: the RBAC hook, which emits an event and
counts nothing, and FastMCP's validation of the arguments, which leaves no trace at all.
`wireAudited_iff`: a call is audited exactly when neither does, and the limiter returns or raises a
`WazuhError`.
-/

namespace WazuhMcp

open Interact

/-! ## Events of a tool -/

/-- The audit event that a step emits, whoever takes it. -/
def emission? : ServerEvent → Option AuditEvent
  | ⟨.emit event, _⟩ => some event
  | ⟨.inner (.emit event), _⟩ => some event
  | _ => none

/-- The audit events of a trace that are about a tool, in order. -/
def toolEvents (toolName : String) (tr : List ServerEvent) : List AuditEvent :=
  (tr.filterMap emission?).filter fun event => event.tool = toolName

/-- The completion events of a trace that are about a tool. -/
def completions (toolName : String) (tr : List ServerEvent) : List AuditEvent :=
  (toolEvents toolName tr).filter fun event => event.outcome ≠ .writeRequested

/-- What a call of a tool must leave behind. -/
structure WireAudited (t : Tool) (session : Session) (policy : Policy) (tr : List ServerEvent) :
    Prop where
  completed : ∃ event, completions t.name tr = [event]
  counted : callsCounted tr = 1
  announced : Text.startsWith t.name "write." = true → isAllowed session t.name policy = true →
    LimiterPassed tr → ∃ request event, request.outcome = .writeRequested ∧
      event.outcome ≠ .writeRequested ∧ toolEvents t.name tr = [request, event]

section Reading

variable {toolName : String} {tr tr' : List ServerEvent}

@[simp] theorem toolEvents_append :
    toolEvents toolName (tr ++ tr') = toolEvents toolName tr ++ toolEvents toolName tr' := by
  simp [toolEvents]

/-- A step of the wrapper, whose event is about the tool if it emits one. -/
def OwnStep (toolName : String) : ServerEvent → Prop
  | ⟨.inner _, _⟩ => False
  | ⟨.emit event, _⟩ => event.tool = toolName
  | _ => True

/-- What the wrapper emits about its tool is all that it emits. -/
theorem toolEvents_eq_ownEvents (h : ∀ ev ∈ tr, OwnStep toolName ev) :
    toolEvents toolName tr = ownEvents tr := by
  induction tr with
  | nil => rfl
  | cons ev tr ih =>
    have hev := h ev List.mem_cons_self
    rw [← List.singleton_append, toolEvents_append, ih fun ev' hev' => h ev' (List.mem_cons_of_mem _ hev'),
      ownEvents_append]
    congr 1
    rcases ev with ⟨op, ans⟩
    cases op with
    | emit event =>
      obtain rfl : event.tool = toolName := hev
      simp [toolEvents, emission?, ToolOp.emitted]
    | inner op => exact hev.elim
    | _ => rfl

/-- The policy resolvers emit nothing about a tool. -/
theorem toolEvents_handlerSteps {session : Session} {out : Except Exn ToolResult} (t : Tool)
    {trh : List AppEvent} (h : HandlerSteps session trh out) :
    toolEvents t.name (trh.map (Event.embed .inner)) = [] := by
  refine List.filter_eq_nil_iff.mpr fun event hevent => ?_
  obtain ⟨ev, hev, hemit⟩ := List.mem_filterMap.mp hevent
  obtain ⟨⟨op, ans⟩, hmem, rfl⟩ := List.mem_map.mp hev
  cases op with
  | up op => cases hemit
  | emit event' =>
    obtain rfl : event' = event := Option.some.inj hemit
    obtain rfl := h _ hmem _ rfl
    exact fun htool => Tool.name_ne_resolve t (of_decide_eq_true htool).symm

theorem acquisitions_hookEvents (registry : TenantRegistry) (session : Session)
    (tr : List ServerEvent) :
    acquisitions (hookEvents registry session ++ tr) = acquisitions tr := by
  rw [hookEvents, acquisitions_append, acquisitions_inner, List.nil_append]

theorem callsCounted_hookEvents (registry : TenantRegistry) (session : Session)
    (tr : List ServerEvent) :
    callsCounted (hookEvents registry session ++ tr) = callsCounted tr := by
  rw [callsCounted, hookEvents, labels_append, labels_inner, List.nil_append]
  rfl

theorem handlerSteps_resolveEvents (registry : TenantRegistry) (session : Session)
    (out : Except Exn ToolResult) : HandlerSteps session (resolveEvents registry session) out := by
  intro ev hev event hop
  rw [mem_resolveEvents hev] at hop
  exact (AppOp.emit.inj hop).symm

end Reading

/-! ## The accounting -/

section Accounting

variable {registry : TenantRegistry} {lib : Libraries} {session : Session} {t : Tool}
  {kwargs : JsonObject} {tr : List ServerEvent} {out : Except Exn ToolResult}

/-- All that a call emits about its tool, the wrapper does. -/
theorem toolEvents_of_callShape {policy : Policy}
    (h : (t.instrumented (.ofRegistry registry) (some session) lib).CallShape session kwargs policy
      (· = resolveEvents registry session) (HandlerSteps session) tr out) :
    toolEvents t.name (hookEvents registry session ++ tr) = ownEvents tr := by
  have hpolicy : toolEvents t.name (hookEvents registry session) = [] :=
    toolEvents_handlerSteps t (handlerSteps_resolveEvents registry session out)
  rw [toolEvents_append, hpolicy, List.nil_append]
  cases h with
  | @denied trp hpol hdenied =>
    obtain rfl := hpol
    rw [toolEvents_append, ← hookEvents, hpolicy, ownEvents_append, hookEvents, ownEvents_inner]
    refine congrArg _ (toolEvents_eq_ownEvents ?_)
    simp [InstrumentedTool.denied, OwnStep, Session.failureEvent, Session.auditEvent, Tool.instrumented]
  | @refused trp ans x hpol hallowed hans =>
    obtain rfl := hpol
    rw [toolEvents_append, ← hookEvents, hpolicy, ownEvents_append, hookEvents, ownEvents_inner]
    refine congrArg _ (toolEvents_eq_ownEvents ?_)
    cases x <;> simp [InstrumentedTool.refused, OwnStep, Session.failureEvent, Session.auditEvent,
      Tool.instrumented]
  | @handled trp trh ans start stop out hpol hallowed hans hhan =>
    obtain rfl := hpol
    rw [← List.cons_append, ← List.cons_append]
    simp only [toolEvents_append, ownEvents_append, toolEvents_handlerSteps t hhan, ownEvents_inner]
    rw [← hookEvents, hpolicy]
    refine congrArg₂ (fun before after => [] ++ (before ++ ([] ++ after)))
      (toolEvents_eq_ownEvents ?_) (toolEvents_eq_ownEvents ?_)
    · rw [InstrumentedTool.announced]
      split <;> simp [OwnStep, Session.auditEvent, Tool.instrumented]
    · cases out <;> simp [InstrumentedTool.completed, InstrumentedTool.completion, OwnStep,
        Session.auditEvent, Tool.instrumented]

/-- The accounting of the wrapper is what is asked of the whole call. -/
theorem WireAudited.of_accounted {policy : Policy} {Rep : AuditEvent → CallOutcome → Prop}
    (h : Accounted (t.instrumented (.ofRegistry registry) (some session) lib) session kwargs policy tr
      Rep) (htool : toolEvents t.name (hookEvents registry session ++ tr) = ownEvents tr) :
    WireAudited t session policy (hookEvents registry session ++ tr) := by
  have hcounted := h.counted
  obtain ⟨event, -, hne, -, hpassed, hstopped, -⟩ := h.reported
  refine ⟨⟨event, ?_⟩, ?_, fun hwrite hallowed hlimiter => ?_⟩
  · rw [completions, htool]
    by_cases hp : (t.instrumented (.ofRegistry registry) (some session) lib).Passed session policy tr
    · rw [hpassed hp, InstrumentedTool.announcement]
      split <;> simp [hne, Session.auditEvent]
    · simp [hstopped hp, hne]
  · rw [callsCounted_hookEvents, hcounted]
  · have hp : (t.instrumented (.ofRegistry registry) (some session) lib).Passed session policy tr := by
      refine ⟨hallowed, ?_⟩
      rwa [LimiterPassed, acquisitions_hookEvents] at hlimiter
    refine ⟨session.auditEvent t.name kwargs .writeRequested, event, rfl, hne, ?_⟩
    rw [htool, hpassed hp]
    exact congrArg (· ++ [event]) (if_pos hwrite)

/-- A call that is not counted is not audited. -/
theorem not_wireAudited_of_uncounted {policy : Policy} (h : callsCounted tr = 0) :
    ¬ WireAudited t session policy tr := by
  intro haudited
  have hcounted := haudited.counted
  rw [h] at hcounted
  cases hcounted

/-- **A tool call is audited**, whatever the tool and the handler do, exactly when RBAC admits the tool,
FastMCP accepts the arguments, and the limiter, if it is asked, returns or raises a `WazuhError`. -/
theorem wireAudited_iff (registry : TenantRegistry) (lib : Libraries) (session : Session) (t : Tool)
    (arguments : JsonObject) :
    (rbacCallTool (.ofRegistry registry) (some session) lib t.name arguments).All fun tr _ =>
      WireAudited t session (effectivePolicy registry session) tr ↔
        isAllowed session t.name (effectivePolicy registry session) = true ∧
          (∃ kwargs, bindArguments lib.validate t.signature arguments = some kwargs) ∧
          ∀ ans ∈ acquisitions tr, ans.Caught := by
  refine (rbacCallTool_shape registry lib session t.name arguments).mono fun tr out h => ?_
  cases h with
  | hidden hdenied =>
    refine iff_of_false (not_wireAudited_of_uncounted ?_) fun h => Bool.eq_false_iff.mp hdenied h.1
    exact callsCounted_hookEvents ..
  | rejected hallowed hrejected =>
    refine iff_of_false (not_wireAudited_of_uncounted (congrArg List.length (labels_inner _))) fun h => ?_
    obtain ⟨-, ⟨kwargs, haccepted⟩, -⟩ := h
    rw [hrejected t rfl] at haccepted
    cases haccepted
  | @called t' kwargs tr out hallowed hname haccepted hcall =>
    obtain rfl : t' = t := Tool.name_injective hname
    rw [acquisitions_hookEvents]
    refine ⟨fun haudited => ⟨hallowed, ⟨kwargs, haccepted⟩, ?_⟩, fun h => ?_⟩
    · by_contra hnot
      refine not_wireAudited_of_uncounted ?_ haudited
      rw [callsCounted_hookEvents, (hcall.silent hnot).2]
    · exact .of_accounted (hcall.accounts h.2.2) (toolEvents_of_callShape hcall)

/-- A write that is not confirmed is neither counted nor reported. -/
theorem unconfirmed_untraced (registry : TenantRegistry) (lib : Libraries) (session : Session)
    {t : Tool} {arguments : JsonObject} (hwrite : Text.startsWith t.name "write." = true)
    (hallowed : isAllowed session t.name (effectivePolicy registry session) = true)
    (hconfirm : arguments.lookup "confirm" = none) :
    (rbacCallTool (.ofRegistry registry) (some session) lib t.name arguments).All fun tr _ =>
      toolEvents t.name tr = [] ∧ callsCounted tr = 0 := by
  refine (rbacCallTool_shape registry lib session t.name arguments).mono fun tr out h => ?_
  cases h with
  | hidden hdenied => exact absurd hallowed (Bool.eq_false_iff.mp hdenied)
  | @rejected x _ _ =>
    exact ⟨toolEvents_handlerSteps t (handlerSteps_resolveEvents registry session (.error x)),
      congrArg List.length (labels_inner _)⟩
  | @called t' kwargs tr out _ hname haccepted hcall =>
    obtain rfl : t' = t := Tool.name_injective hname
    rw [bindArguments_of_unconfirmed lib.validate hwrite hconfirm] at haccepted
    cases haccepted

/-- An administrator's unconfirmed write leaves no completion event. -/
theorem not_wireAudited_of_unconfirmed :
    let registry : TenantRegistry := .single { tenantId := "acme", defaultRbacRole := "readonly" }
    let lib : Libraries :=
      ⟨fun _ => true, ⟨Text.parseInt, fun _ => none⟩, fun _ => some, fun _ _ => none,
        fun toolName => .tool ("Unknown tool: " ++ toolName)⟩
    let session : Session := ⟨"alice", "acme", "admin", .oauth, none⟩
    let arguments : JsonObject := [("agent_ids", .arr [.str "001"])]
    ¬ (rbacCallTool (.ofRegistry registry) (some session) lib Tool.isolateAgent.name arguments).All
      fun tr _ => WireAudited .isolateAgent session (effectivePolicy registry session) tr := by
  intro registry lib session arguments hall
  have h := (hall.and (unconfirmed_untraced registry lib session (by decide) (by decide) rfl)).run fun
    | .acquire _ _ => ⟨true, .ok ()⟩
    | .perfCounter => (0 : ℚ)
    | .inner (.up op) => servingEnv op
    | .inner (.emit _) => ()
    | .addCalls _ _ _ => ()
    | .addRateLimited _ _ => ()
    | .recordDuration _ _ _ => ()
    | .emit _ => ()
  have hcounted := h.1.counted
  rw [h.2.2] at hcounted
  cases hcounted

end Accounting

end WazuhMcp
