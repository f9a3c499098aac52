import WazuhMcp.Server.Registration

/-!
# What a tool call comes to

A `tools/call` request ends in one of three ways: the RBAC hook hides the tool, FastMCP rejects the
name or the arguments, or the instrumented tool is called (`ToolCallShape`, `rbacCallTool_shape`).
-/

namespace WazuhMcp

open Interact

variable (registry : TenantRegistry) (lib : Libraries) (session : Session) (toolName : String)
  (arguments : JsonObject)

/-- The steps of the RBAC hook before it decides. -/
def hookEvents : List ServerEvent := (resolveEvents registry session).map (Event.embed .inner)

/-- What is known of the steps of a handler: whatever it emits comes from a policy resolver. -/
def HandlerSteps (trh : List AppEvent) (_ : Except Exn ToolResult) : Prop :=
  ∀ ev ∈ trh, ∀ event, ev.op = .emit event → event = resolveMiss session

/-- **The three ways a tool call goes.** -/
inductive ToolCallShape : List ServerEvent → Except Exn ToolResult → Prop
  | hidden (hdenied : isAllowed session toolName (effectivePolicy registry session) = false) :
      ToolCallShape (hookEvents registry session ++
          [⟨.emit (session.failureEvent toolName arguments (.safe .forbidden)), ()⟩])
        (.error (.tool ("Unknown tool: " ++ toolName)))
  | rejected {x : Exn} (hallowed : isAllowed session toolName (effectivePolicy registry session) = true)
      (hrejected : ∀ t : Tool, t.name = toolName →
        bindArguments lib.validate t.signature arguments = none) :
      ToolCallShape (hookEvents registry session) (.error x)
  | called {t : Tool} {kwargs : JsonObject} {tr : List ServerEvent} {out : Except Exn ToolResult}
      (hallowed : isAllowed session toolName (effectivePolicy registry session) = true)
      (hname : t.name = toolName)
      (haccepted : bindArguments lib.validate t.signature arguments = some kwargs)
      (hcall : (t.instrumented (.ofRegistry registry) (some session) lib).CallShape session kwargs
        (effectivePolicy registry session) (· = resolveEvents registry session)
        (HandlerSteps session) tr out) :
      ToolCallShape (hookEvents registry session ++ tr) out

/-- A call of a registered tool goes in one of the three ways of the wrapper. -/
theorem instrumented_shape (t : Tool) (kwargs : JsonObject) :
    ((t.instrumented (.ofRegistry registry) (some session) lib).call kwargs (some session)).All
      ((t.instrumented (.ofRegistry registry) (some session) lib).CallShape session kwargs
        (effectivePolicy registry session) (· = resolveEvents registry session)
        (HandlerSteps session)) := by
  refine InstrumentedTool.call_shape ((all_resolve ..).mpr ⟨rfl, rfl⟩) (Prog.Every.all ?_)
  refine every_handler lib t kwargs ?_ ?_
  · rintro op ans event ⟨⟩
  · rintro event ⟨⟩
    rfl

/-- **Every tool call** goes in one of the three ways. -/
theorem rbacCallTool_shape :
    (rbacCallTool (.ofRegistry registry) (some session) lib toolName arguments).All
      (ToolCallShape registry lib session toolName arguments) := by
  refine (Prog.all_bind (ToolProg.inner (makeRbacPolicy registry session)) _ _).mpr
    ((Prog.all_embed _ _ _).mpr ((all_resolve ..).mpr ?_))
  change Prog.All (if isAllowed session toolName (effectivePolicy registry session) then
    fastmcpCallTool (.ofRegistry registry) (some session) lib toolName arguments else _) _
  split
  · rename_i hallowed
    rw [fastmcpCallTool]
    cases hfound : Tool.ofName? toolName with
    | none =>
      simp only [Prog.all_raise, List.append_nil]
      refine .rejected hallowed fun t hname => ?_
      rw [← hname, Tool.ofName?_name] at hfound
      cases hfound
    | some t =>
      simp only
      cases haccepted : bindArguments lib.validate t.signature arguments with
      | none =>
        simp only [Prog.all_raise, List.append_nil]
        refine .rejected hallowed fun t' hname => ?_
        rw [← hname, Tool.ofName?_name] at hfound
        rwa [Option.some.inj hfound]
      | some kwargs =>
        exact (instrumented_shape registry lib session t kwargs).mono fun tr out hcall =>
          .called hallowed (Tool.name_of_ofName? hfound) haccepted hcall
  · rename_i hdenied
    exact fun _ => .hidden (by simpa using hdenied)

end WazuhMcp
