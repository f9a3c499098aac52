import WazuhMcp.Observability.Accounting
import WazuhMcp.Server.Resources
import WazuhMcp.Server.Signature

/-!
# The registration

What `_register_everything` and `_install_rbac_hooks` put together, and so what each MCP request
does: a tool call goes through the RBAC hook, FastMCP's validation of its arguments, and the
instrumented tool, to the handler closure of the tool; a resource read and a prompt get go to theirs
directly.

* `Tool.handler` is the closure of each tool, all of one shape (`inner`): parse the arguments, take
  the session, consult the tenant's allowlists, acquire a client, run the tool.
* `serve` is what an MCP request does.
* `every_handler`: a closure takes no steps but those of the clients and of the allowlist policies.
-/

namespace WazuhMcp

open Interact

/-! ## Results -/

/-- The result models of the tools. -/
inductive ToolResult where
  | alerts (result : Rows Alert)
  | alert (alert : Alert)
  | agents (result : AgentsResult)
  | agent (agent : Agent)
  | inventory (result : AgentInventoryResult)
  | vulnerabilities (result : Rows Vulnerability)
  | technique (technique : MitreTechnique)
  | techniques (result : MitreSearchResult)
  | clusterStatus (result : ClusterStatusResult)
  | fim (result : Rows FimEvent)
  | write (result : WriteResult)
  | restartManager (result : RestartManagerResult)

/-- The attributes of a result that are counted and are lists. -/
def ToolResult.listLen : ToolResult → String → Option ℕ
  | alerts result, "alerts" => some result.rows.length
  | agents result, "agents" => some result.agents.length
  | inventory result, "items" => some result.items.length
  | vulnerabilities result, "vulnerabilities" => some result.rows.length
  | techniques result, "techniques" => some result.techniques.length
  | fim result, "events" => some result.rows.length
  | _, _ => none

/-! ## Policies and libraries -/

/-- The policies that `_register_everything` is called with. -/
structure Policies where
  rbacPolicy : Session → AppProg Policy
  writeAllowlistPolicy : Option (Session → AppProg (Option (List String)))
  arAllowlistPolicy : Option (Session → AppProg (List String))
  arGroupAllowlistPolicy : Option (Session → AppProg (List String))

/-- The policies that `build_app` and `build_http_app` make of their registry. -/
def Policies.ofRegistry (registry : TenantRegistry) : Policies where
  rbacPolicy := makeRbacPolicy registry
  writeAllowlistPolicy := some (makeWriteAllowlist registry)
  arAllowlistPolicy := some (makeArAllowlist registry)
  arGroupAllowlistPolicy := some (makeArGroupAllowlist registry)

/-- What is left open of the libraries: which patterns compile, how pydantic reads numbers, validates a
value under an annotation, and validates the arguments of a tool as a whole, and what FastMCP raises when
it is called by a name that is not registered. -/
structure Libraries where
  compiles : String → Bool
  py : Pydantic
  validate : Validator
  parse : (t : Tool) → JsonObject → Option (t.Args compiles)
  unknownTool : String → Exn

/-- FastMCP tells of a tool that it does not know in the words that the RBAC hook has for a hidden one. -/
def Libraries.HookWords (lib : Libraries) : Prop :=
  ∀ toolName, lib.unknownTool toolName = .tool ("Unknown tool: " ++ toolName)

/-! ## Handlers -/

variable (pol : Policies) (ctx : Option Session)

/-- The refusal of a write tool that is not allowlisted. -/
def writeForbidden (toolName : String) : WazuhError where
  code := .forbidden
  message := "tool " ++ Json.reprStr toolName ++ " not in tenant write_allowlist"
  statusCode := 403
  scope := some "write_allowlist"

/-- `_check_write_allowed(session, tool_name)` -/
def checkWriteAllowed (session : Session) (toolName : String) : AppProg Unit :=
  match pol.writeAllowlistPolicy with
  | none => pure ()
  | some policy => do
    match ← policy session with
    | none => pure ()
    | some allow => if toolName ∈ allow then pure () else .raise (.wazuh (writeForbidden toolName))

/-- The allowlist of a tool that needs one, or the refusal where none is configured. -/
def requiredAllowlist (policy : Option (Session → AppProg (List String))) (message scope : String)
    (session : Session) : AppProg (List String) :=
  match policy with
  | none => .raise (.wazuh ⟨.forbidden, message, 403, some scope⟩)
  | some policy => policy session

/-- What the closures share. `args` is what `Args(**kwargs)` comes to, `guard` what stands between
taking the session and acquiring the client. -/
def inner {Args Guard α : Type} (args : Option Args) (guard : Session → AppProg Guard)
    (upstream : Upstream) (run : Session → Args → Guard → UpProg α) (wrap : α → ToolResult) :
    AppProg ToolResult := do
  let args ← (args.elim (.error .validation) .ok : Except Exn Args)
  let session ← currentSession ctx
  let allowed ← guard session
  UpProg.acquire upstream session.tenantId
  let result ← run session args allowed
  return wrap result

/-- The closure of a reading tool on the indexer. -/
def indexerInner {Args α : Type} (args : Option Args) (run : Args → UpProg α)
    (wrap : α → ToolResult) : AppProg ToolResult :=
  inner ctx args (fun _ => pure ()) .indexer (fun _ args _ => run args) wrap

/-- The closure of a reading tool on the Server API. -/
def serverApiInner {Args α : Type} (args : Option Args) (run : Session → Args → UpProg α)
    (wrap : α → ToolResult) : AppProg ToolResult :=
  inner ctx args (fun _ => pure ()) .serverApi (fun session args _ => run session args) wrap

/-- The closure of a write tool with no allowlist of its own. -/
def writeInner {Args α : Type} (toolName : String) (args : Option Args)
    (run : Session → Args → UpProg α) (wrap : α → ToolResult) : AppProg ToolResult :=
  inner ctx args (fun session => checkWriteAllowed pol session toolName) .serverApi
    (fun session args _ => run session args) wrap

/-- The guard of `_run_ar_inner`. -/
def arGuard (session : Session) : AppProg (List String) := do
  checkWriteAllowed pol session "write.run_active_response"
  requiredAllowlist pol.arAllowlistPolicy "active-response not configured for this tenant"
    "ar_allowlist" session

/-- `_run_ar_inner` -/
def runArInner (args : Option RunActiveResponseArgs) : AppProg ToolResult :=
  inner ctx args (arGuard pol) .serverApi (fun session args => runActiveResponse session args) .write

/-- The guard of `_run_ar_on_group_inner`. -/
def arGroupGuard (session : Session) : AppProg (List String) := do
  checkWriteAllowed pol session "write.run_active_response_on_group"
  requiredAllowlist pol.arGroupAllowlistPolicy "agent_group_allowlist not configured for this tenant"
    "ar_group_allowlist" session

/-- `_run_ar_on_group_inner` -/
def runArOnGroupInner (args : Option RunActiveResponseOnGroupArgs) : AppProg ToolResult :=
  inner ctx args (arGroupGuard pol) .serverApi (fun session args => runActiveResponseOnGroup session args)
    .write

theorem inner_some {Args Guard α : Type} {session : Session} (args : Args)
    (guard : Session → AppProg Guard) (upstream : Upstream)
    (run : Session → Args → Guard → UpProg α) (wrap : α → ToolResult) :
    inner (some session) (some args) guard upstream run wrap = (do
      let allowed ← guard session
      UpProg.acquire upstream session.tenantId
      let result ← run session args allowed
      return wrap result) := rfl

/-- The run of a closure on accepted arguments, by a session: the guard, the pool, the tool. -/
theorem all_inner {Args Guard α : Type} {session : Session} (args : Args)
    (guard : Session → AppProg Guard) (upstream : Upstream)
    (run : Session → Args → Guard → UpProg α) (wrap : α → ToolResult)
    (Q : List AppEvent → Except Exn ToolResult → Prop) :
    (inner (some session) (some args) guard upstream run wrap).All Q ↔
      (guard session).All fun tr out =>
        match out with
        | .error x => Q tr (.error x)
        | .ok allowed => ∀ ans : Except ForeignExn Unit,
          let acquired : AppEvent := ⟨.up (.acquire upstream session.tenantId), ans⟩
          match ans with
          | .error x => Q (tr ++ [acquired]) (.error x.exn)
          | .ok _ => (run session args allowed).All fun tr' out' =>
            Q (tr ++ acquired :: tr'.map (Event.embed .up)) (out'.map wrap) := by
  rw [inner_some, Prog.all_bind]
  refine Prog.all_congr fun tr out => ?_
  cases out with
  | error x => exact Iff.rfl
  | ok allowed =>
    refine forall_congr' fun ans => ?_
    cases ans with
    | error x => exact Iff.rfl
    | ok _ =>
      refine (Prog.all_bind (UpProg.lift (run session args allowed)) _ _).trans
        ((Prog.all_embed _ _ _).trans (Prog.all_congr fun tr' out' => ?_))
      cases out' with
      | error x => exact Iff.rfl
      | ok result => simp [Except.map]

variable (lib : Libraries)

/-- The handler closure of each tool. -/
def Tool.handler (t : Tool) (kwargs : JsonObject) : AppProg ToolResult :=
  match t, lib.parse t kwargs with
  | searchAlerts, args => indexerInner ctx args (WazuhMcp.searchAlerts lib.py) .alerts
  | getAlert, args => indexerInner ctx args WazuhMcp.getAlert .alert
  | alertsByAgent, args => indexerInner ctx args (WazuhMcp.alertsByAgent lib.py) .alerts
  | alertsByMitre, args => indexerInner ctx args (WazuhMcp.alertsByMitre lib.py) .alerts
  | listAgents, args => serverApiInner ctx args WazuhMcp.listAgents .agents
  | getAgent, args => serverApiInner ctx args WazuhMcp.getAgent .agent
  | agentProcesses, args => serverApiInner ctx args WazuhMcp.agentProcesses .inventory
  | agentPackages, args => serverApiInner ctx args WazuhMcp.agentPackages .inventory
  | agentPorts, args => serverApiInner ctx args WazuhMcp.agentPorts .inventory
  | listVulnerabilitiesByAgent, args =>
    indexerInner ctx args (WazuhMcp.listVulnerabilitiesByAgent lib.py) .vulnerabilities
  | searchVulnerabilities, args =>
    indexerInner ctx args (WazuhMcp.searchVulnerabilities lib.py) .vulnerabilities
  | getMitreTechnique, args => serverApiInner ctx args WazuhMcp.getMitreTechnique .technique
  | searchMitre, args => serverApiInner ctx args WazuhMcp.searchMitre .techniques
  | huntQuery, args => indexerInner ctx args (WazuhMcp.huntQuery lib.py) .alerts
  | pivotByIoc, args => indexerInner ctx args (WazuhMcp.pivotByIoc lib.py) .alerts
  | clusterStatus, args =>
    serverApiInner ctx args (fun _ _ => WazuhMcp.clusterStatus) .clusterStatus
  | fimHistoryForPath, args => indexerInner ctx args (WazuhMcp.fimHistoryForPath lib.py) .fim
  | fimChangesByAgent, args => indexerInner ctx args (WazuhMcp.fimChangesByAgent lib.py) .fim
  | isolateAgent, args => writeInner pol ctx "write.isolate_agent" args WazuhMcp.isolateAgent .write
  | restartAgent, args => writeInner pol ctx "write.restart_agent" args WazuhMcp.restartAgent .write
  | addAgentToGroup, args =>
    writeInner pol ctx "write.add_agent_to_group" args WazuhMcp.addAgentToGroup .write
  | removeAgentFromGroup, args =>
    writeInner pol ctx "write.remove_agent_from_group" args WazuhMcp.removeAgentFromGroup .write
  | createRule, args =>
    writeInner pol ctx "write.create_rule" args (fun session args => WazuhMcp.createRule session args)
      .write
  | updateRule, args =>
    writeInner pol ctx "write.update_rule" args (fun session args => WazuhMcp.updateRule session args)
      .write
  | runActiveResponse, args => runArInner pol ctx args
  | runActiveResponseOnGroup, args => runArOnGroupInner pol ctx args
  | restartManager, args =>
    writeInner pol ctx "write.restart_manager" args WazuhMcp.restartManager .restartManager

/-! ## Requests -/

/-- A program of the whole server. -/
abbrev ServerProg := ToolProg AppOp AppOp.Result

/-- A step of the whole server, with what it came to. -/
abbrev ServerEvent := ToolEvent AppOp AppOp.Result

/-- The instrumented tool that is registered. -/
def Tool.instrumented (t : Tool) : InstrumentedTool AppOp AppOp.Result ToolResult where
  toolName := t.name
  handler := t.handler pol ctx lib
  rbacPolicy := pol.rbacPolicy
  listLen := ToolResult.listLen

/-- `FastMCP.call_tool(name, arguments)`, as far as it decides what is called. -/
def fastmcpCallTool (toolName : String) (arguments : JsonObject) : ServerProg ToolResult :=
  match Tool.ofName? toolName with
  | none => .raise (lib.unknownTool toolName)
  | some t =>
    match bindArguments lib.validate t.signature arguments with
    | none => .raise .validation
    | some kwargs => (t.instrumented pol ctx lib).call kwargs ctx

/-- `_rbac_call_tool(name, arguments)` -/
def rbacCallTool (toolName : String) (arguments : JsonObject) : ServerProg ToolResult := do
  let session ← currentSession ctx
  let policy ← ToolProg.inner (pol.rbacPolicy session)
  if isAllowed session toolName policy then
    fastmcpCallTool pol ctx lib toolName arguments
  else
    ToolProg.emit (session.failureEvent toolName arguments (.safe .forbidden))
    .raise (.tool ("Unknown tool: " ++ toolName))

/-- The registered resources. -/
inductive ResourceUri where
  | rule (ruleId : String)
  | mitreTechnique (techniqueId : String)
  | agentConfig (agentId : String)
  deriving DecidableEq, Repr

/-- The registered prompts. -/
inductive PromptName where
  | triageLastHour
  | investigateAlert (alertId : String)
  | agentPosture (agentId : String)
  deriving DecidableEq, Repr

/-- What a resource closure reads. -/
def ResourceUri.read (session : Session) : ResourceUri → AppProg ResourceContent
  | rule ruleId => readRule.read session ruleId
  | mitreTechnique techniqueId => readMitreTechnique.read session techniqueId
  | agentConfig agentId => readAgentConfig.read session agentId

/-- `_resource_rule`, `_resource_mitre` and `_resource_agent_config` -/
def readResource (uri : ResourceUri) : AppProg ResourceContent := do
  let session ← currentSession ctx
  UpProg.acquire .serverApi session.tenantId
  uri.read session

/-- `_prompt_triage_last_hour`, `_prompt_investigate_alert` and `_prompt_agent_posture` -/
def getPrompt (prompt : PromptName) : AppProg Json := do
  let session ← currentSession ctx
  UpProg.acquire .indexer session.tenantId
  match prompt with
  | .triageLastHour => WazuhMcp.triageLastHour session lib.py
  | .investigateAlert alertId =>
    UpProg.acquire .serverApi session.tenantId
    WazuhMcp.investigateAlert session lib.py alertId
  | .agentPosture agentId =>
    UpProg.acquire .serverApi session.tenantId
    WazuhMcp.agentPosture session lib.py agentId

/-- An MCP request that reaches a registered handler. -/
inductive McpRequest where
  | callTool (toolName : String) (arguments : JsonObject)
  | readResource (uri : ResourceUri)
  | getPrompt (prompt : PromptName)

/-- What an MCP request is answered with. -/
inductive McpResult where
  | tool (result : ToolResult)
  | resource (content : ResourceContent)
  | prompt (message : Json)

/-- What an MCP request does. -/
def serve : McpRequest → ServerProg McpResult
  | .callTool toolName arguments => McpResult.tool <$> rbacCallTool pol ctx lib toolName arguments
  | .readResource uri => McpResult.resource <$> ToolProg.inner (readResource ctx uri)
  | .getPrompt prompt => McpResult.prompt <$> ToolProg.inner (getPrompt ctx lib prompt)

/-! ## What a tool call does -/

section Steps

variable {P : AppEvent → Prop} {registry : TenantRegistry} {session : Session}

theorem every_lift {α : Type} (p : UpProg α) (hup : ∀ op ans, P ⟨.up op, ans⟩) :
    (UpProg.lift p).Every P :=
  Prog.every_embed.mpr (Prog.every_of_forall p fun _ => hup _ _)

theorem every_resolve {α : Type} (missing : α) (read : TenantConfig → α)
    (hmiss : P ⟨.emit (resolveMiss session), ()⟩) : (resolve registry missing read session).Every P := by
  rw [resolve]
  split
  · trivial
  · exact fun _ => ⟨hmiss, trivial⟩

theorem every_checkWriteAllowed (toolName : String)
    (hmiss : P ⟨.emit (resolveMiss session), ()⟩) :
    (checkWriteAllowed (.ofRegistry registry) session toolName).Every P := by
  refine Prog.every_bind (every_resolve _ _ hmiss) fun allow => ?_
  split
  · trivial
  · split <;> trivial

theorem every_inner {Args Guard α : Type} (args : Option Args) {guard : Session → AppProg Guard}
    (upstream : Upstream) (run : Session → Args → Guard → UpProg α) (wrap : α → ToolResult)
    (hguard : (guard session).Every P) (hup : ∀ op ans, P ⟨.up op, ans⟩) :
    (inner (some session) args guard upstream run wrap).Every P := by
  cases args with
  | none => trivial
  | some args =>
    rw [inner_some]
    refine Prog.every_bind hguard fun allowed => ?_
    refine Prog.every_bind (every_lift _ hup) fun _ => ?_
    exact Prog.every_bind (every_lift _ hup) fun _ => trivial

/-- **A handler closure** takes no steps but those of the clients and of the policy resolvers. -/
theorem every_handler (t : Tool) (kwargs : JsonObject) (hup : ∀ op ans, P ⟨.up op, ans⟩)
    (hmiss : P ⟨.emit (resolveMiss session), ()⟩) :
    (t.handler (.ofRegistry registry) (some session) lib kwargs).Every P := by
  have hread : (pure () : AppProg Unit).Every P := trivial
  have hwrite : ∀ toolName, (checkWriteAllowed (.ofRegistry registry) session toolName).Every P :=
    fun toolName => every_checkWriteAllowed toolName hmiss
  cases t with
  | runActiveResponse | runActiveResponseOnGroup =>
    exact every_inner _ _ _ _ (Prog.every_bind (hwrite _) fun _ => every_resolve _ _ hmiss) hup
  | isolateAgent | restartAgent | addAgentToGroup | removeAgentFromGroup | createRule | updateRule
  | restartManager => exact every_inner _ _ _ _ (hwrite _) hup
  | _ => exact every_inner _ _ _ _ hread hup

end Steps

end WazuhMcp
