import WazuhMcp.Foundations.Interpret
import WazuhMcp.Server.Registration

/-!
# Resource reads and prompt gets, call by call

What the handlers of the resources and prompts do, with each call of a pool, of a client or of a tool's
operation taken for one step that may come to anything.

`interpret_resourceCalls`, `interpret_promptCalls`: with the calls spelled out, these are the closures that
are registered. So a run of a registered closure emits what a run of the calls emits, and ends in the same
way (`runs_resource`, `runs_prompt`).
-/

namespace WazuhMcp

open Interact Prog

/-! ## Calls -/

/-- What the handlers call. -/
inductive Call where
  | acquire (upstream : Upstream) (tenantId : String)
  | serverApiGet (path : String) (params : JsonObject) (runAs : Option String)
  | searchAlerts (args : SearchAlertsArgs)
  | getAlert (args : GetAlertArgs)
  | getAgent (args : GetAgentArgs)
  | alertsByAgent (args : AlertsByAgentArgs)
  | listVulnerabilitiesByAgent (args : ListVulnerabilitiesByAgentArgs)
  | monotonic
  | emit (event : AuditEvent)

/-- What a call may come to. -/
@[reducible] def Call.Result : Call → Type
  | .acquire _ _ => Except Exn Unit
  | .serverApiGet _ _ _ => Except Exn Json
  | .searchAlerts _ => Except Exn (Rows Alert)
  | .getAlert _ => Except Exn Alert
  | .getAgent _ => Except Exn Agent
  | .alertsByAgent _ => Except Exn (Rows Alert)
  | .listVulnerabilitiesByAgent _ => Except Exn (Rows Vulnerability)
  | .monotonic => ℚ
  | .emit _ => Unit

/-- A program of calls. -/
abbrev CallProg := Prog Call Call.Result Exn

/-- A call, with what it came to. -/
abbrev CallEvent := Event Call Call.Result

/-- The audit events that a run emits, in order. -/
def CallEvent.emitted : CallEvent → List AuditEvent
  | ⟨.emit event, _⟩ => [event]
  | _ => []

namespace CallProg

def acquire (upstream : Upstream) (tenantId : String) : CallProg Unit :=
  .op (.acquire upstream tenantId) .ofExcept

def serverApiGet (path : String) (params : JsonObject) (runAs : Option String) : CallProg Json :=
  .op (.serverApiGet path params runAs) .ofExcept

def searchAlerts (args : SearchAlertsArgs) : CallProg (Rows Alert) := .op (.searchAlerts args) .ofExcept

def getAlert (args : GetAlertArgs) : CallProg Alert := .op (.getAlert args) .ofExcept

def getAgent (args : GetAgentArgs) : CallProg Agent := .op (.getAgent args) .ofExcept

def alertsByAgent (args : AlertsByAgentArgs) : CallProg (Rows Alert) := .op (.alertsByAgent args) .ofExcept

def listVulnerabilitiesByAgent (args : ListVulnerabilitiesByAgentArgs) : CallProg (Rows Vulnerability) :=
  .op (.listVulnerabilitiesByAgent args) .ofExcept

def monotonic : CallProg ℚ := .op .monotonic .ret

def emit (event : AuditEvent) : CallProg Unit := .op (.emit event) .ret

/-- `try: p except WazuhError` -/
def catchWazuh {α : Type} (p : CallProg α) : CallProg (Except WazuhError α) := do
  match ← p.attempt with
  | .ok a => return .ok a
  | .error (.wazuh e) => return .error e
  | .error x => .raise x

end CallProg

/-! ## Handlers -/

variable (session : Session)

/-- The body of the three resource handlers. -/
def Resource.readCalls (r : Resource) (id : String) : CallProg ResourceContent := do
  require (r.valid id)
  let args : JsonObject := [(r.argName, .str id)]
  match ← CallProg.catchWazuh (CallProg.serverApiGet (r.path id) (r.params id) session.wazuhUser) with
  | .error e =>
    CallProg.emit (session.failureEvent r.tool args (.safe e.code))
    .raise (.wazuh e)
  | .ok body =>
    let data ← r.pick body
    if data.truthy then
      CallProg.emit { session.auditEvent r.tool args .ok with resultCount := 1 }
      let content ← r.content data
      return ⟨content.dumps, r.ttlSeconds⟩
    else
      CallProg.emit (session.failureEvent r.tool args (.safe .notFound))
      .raise (.wazuh ⟨.notFound, r.notFound, 404, none⟩)

/-! The bounds of what the prompts ask for. -/

theorem level_ten : (0 : ℤ) ≤ 10 ∧ (10 : ℤ) ≤ 15 := by decide

theorem size_ten : (1 : ℤ) ≤ 10 ∧ (10 : ℤ) ≤ 100 := by decide

theorem size_twentyFive : (1 : ℤ) ≤ 25 ∧ (25 : ℤ) ≤ 100 := by decide

/-- The message of `triage_last_hour`. -/
def triageText (result : Rows Alert) : String :=
  "Triaging the last hour (min rule level 10).\n\nTOTAL IN RANGE: " ++
    toString result.total ++ " (showing " ++ toString result.rows.length ++ ").\n\nALERTS:\n" ++
    dumpRows Alert.modelDump result.rows ++
    "\n\nSummarise: (a) how many unique rules fired, (b) top agents by " ++
    "count, (c) any ATT&CK clustering, (d) which alerts warrant a " ++
    "deeper investigation. Use get_alert or alerts_by_agent for any you flag."

/-- `triage_last_hour.handle` -/
def triageLastHourCalls : CallProg Json := do
  let started ← CallProg.monotonic
  let search := CallProg.searchAlerts
    { timeRange := "1h", minLevel := some ⟨10, level_ten⟩, size := ⟨25, size_twentyFive⟩ }
  match ← CallProg.catchWazuh search with
  | .error e =>
    return makeUserMessage
      ("Triage fetch failed (" ++ e.code.text ++ "). Retry or check upstream.")
  | .ok result =>
    let ended ← CallProg.monotonic
    CallProg.emit { session.auditEvent "prompt.triage_last_hour" [] .ok with
      resultCount := result.rows.length
      durationMs := elapsedMs started ended }
    return makeUserMessage (triageText result)

/-- The agent of an alert, as `investigate_alert` shows it. -/
def agentBlockCalls (agentId : String) : CallProg String := do
  let agent ← CallProg.catchWazuh do
    let agentId ← sizedField 1 16 agentId
    CallProg.getAgent ⟨agentId⟩
  return match agent with
    | .ok agent => agent.modelDump.dumps
    | .error _ => "(agent lookup unavailable)"

/-- The neighbors of an alert, as `investigate_alert` shows them. -/
def neighborsBlockCalls (agentId : String) : CallProg String := do
  let neighbors ← CallProg.catchWazuh do
    let agentId ← sizedField 1 16 agentId
    CallProg.alertsByAgent { agentId := agentId, timeRange := "1h", size := ⟨10, size_ten⟩ }
  return match neighbors with
    | .ok neighbors => dumpRows Alert.modelDump neighbors.rows
    | .error _ => "(no neighbors)"

/-- The message of `investigate_alert`. -/
def investigateText (alertId : String) (alert : Alert) (agent neighbors : String) : String :=
  "Investigating Wazuh alert " ++ alertId ++ ".\n\nALERT:\n" ++
    alert.modelDump.dumps ++ "\n\nAGENT:\n" ++ agent ++
    "\n\nNEIGHBORS (last hour, same agent):\n" ++ neighbors ++
    "\n\nBased on the above: summarise the alert, note any notable neighbor " ++
    "patterns, and recommend the next SOC actions. Use the other " ++
    "wazuh-mcp tools if you need more context."

/-- The agent and the neighbors of an alert that names an agent. -/
def alertContextCalls (agentId : String) : CallProg (String × String) :=
  if agentId = "" then pure ("(agent lookup unavailable)", "(no neighbors)")
  else do
    let agent ← agentBlockCalls agentId
    let neighbors ← neighborsBlockCalls agentId
    pure (agent, neighbors)

/-- `investigate_alert.handle` -/
def investigateAlertCalls (alertId : String) : CallProg Json := do
  let args : JsonObject := [("alert_id", .str alertId)]
  let started ← CallProg.monotonic
  CallProg.emit (session.auditEvent "prompt.investigate_alert" args .ok)
  let alert ← CallProg.catchWazuh do
    let alertId ← sizedField 1 128 alertId
    CallProg.getAlert ⟨alertId⟩
  match alert with
  | .error e =>
    if e.code = .notFound then
      return makeUserMessage
        ("Alert " ++ Json.reprStr alertId ++ " not found. Ask the user for a valid alert id.")
    else
      .raise (.wazuh e)
  | .ok alert =>
    let (agent, neighbors) ← alertContextCalls (alert.agent.id.getD "")
    let ended ← CallProg.monotonic
    CallProg.emit { session.auditEvent "prompt.investigate_alert" args .ok with
      resultCount := 1
      durationMs := elapsedMs started ended }
    return makeUserMessage (investigateText alertId alert agent neighbors)

/-- The last day's alerts, as `agent_posture` shows them. -/
def alertsBlockCalls (agentId : String) : CallProg String := do
  let alerts ← CallProg.catchWazuh do
    let agentId ← sizedField 1 16 agentId
    CallProg.alertsByAgent { agentId := agentId, timeRange := "24h", size := ⟨25, size_twentyFive⟩ }
  return match alerts with
    | .ok alerts => "total_in_range=" ++ toString alerts.total ++ ", showing=" ++
        toString alerts.rows.length ++ ":\n" ++ dumpRows Alert.modelDump alerts.rows
    | .error _ => "(alerts unavailable)"

/-- The vulnerabilities, as `agent_posture` shows them. -/
def vulnBlockCalls (agentId : String) : CallProg String := do
  let vulns ← CallProg.catchWazuh do
    let agentId ← sizedField 1 16 agentId
    CallProg.listVulnerabilitiesByAgent { agentId := agentId, size := ⟨25, size_twentyFive⟩ }
  return match vulns with
    | .ok vulns => "total=" ++ toString vulns.total ++ ", showing=" ++
        toString vulns.rows.length ++ ":\n" ++ dumpRows Vulnerability.modelDump vulns.rows
    | .error _ => "(vulns unavailable)"

/-- The message of `agent_posture`. -/
def postureText (agentId : String) (agent : Agent) (alerts vulns : String) : String :=
  "Agent posture for " ++ agentId ++ ".\n\nAGENT:\n" ++ agent.modelDump.dumps ++
    "\n\nLAST-24H ALERTS:\n" ++ alerts ++ "\n\nVULNERABILITIES:\n" ++ vulns ++
    "\n\nSummarise the security posture: recent alert patterns, unpatched " ++
    "critical vulns, and any immediate follow-ups the SOC should take."

/-- `agent_posture.handle` -/
def agentPostureCalls (agentId : String) : CallProg Json := do
  let started ← CallProg.monotonic
  let agent ← CallProg.catchWazuh do
    let agentId ← sizedField 1 16 agentId
    CallProg.getAgent ⟨agentId⟩
  match agent with
  | .error e =>
    if e.code = .notFound then
      return makeUserMessage
        ("Agent " ++ Json.reprStr agentId ++ " not found. Ask the user for a valid agent id.")
    else
      .raise (.wazuh e)
  | .ok agent =>
    let alerts ← alertsBlockCalls agentId
    let vulns ← vulnBlockCalls agentId
    let ended ← CallProg.monotonic
    CallProg.emit { session.auditEvent "prompt.agent_posture" [("agent_id", .str agentId)] .ok with
      resultCount := 1
      durationMs := elapsedMs started ended }
    return makeUserMessage (postureText agentId agent alerts vulns)

/-! ## Accesses -/

/-- The resource that a URI is read from. -/
def ResourceUri.resource : ResourceUri → Resource
  | rule _ => readRule
  | mitreTechnique _ => readMitreTechnique
  | agentConfig _ => readAgentConfig

/-- The identifier in a URI. -/
def ResourceUri.id : ResourceUri → String
  | rule ruleId => ruleId
  | mitreTechnique techniqueId => techniqueId
  | agentConfig agentId => agentId

/-- The closure of a resource. -/
def ResourceUri.calls (uri : ResourceUri) : CallProg ResourceContent := do
  CallProg.acquire .serverApi session.tenantId
  uri.resource.readCalls session uri.id

/-- The closure of a prompt. -/
def PromptName.calls : PromptName → CallProg Json
  | .triageLastHour => do
    CallProg.acquire .indexer session.tenantId
    triageLastHourCalls session
  | .investigateAlert alertId => do
    CallProg.acquire .indexer session.tenantId
    CallProg.acquire .serverApi session.tenantId
    investigateAlertCalls session alertId
  | .agentPosture agentId => do
    CallProg.acquire .indexer session.tenantId
    CallProg.acquire .serverApi session.tenantId
    agentPostureCalls session agentId

/-! ## The calls spelled out -/

/-- What each call does. -/
def Call.spelled (py : Pydantic) : ∀ c : Call, AppProg c.Result
  | .acquire upstream tenantId => (UpProg.lift (UpProg.acquire upstream tenantId)).attempt
  | .serverApiGet path params runAs => (UpProg.lift (ServerApiClient.get path params runAs)).attempt
  | .searchAlerts args => (UpProg.lift (WazuhMcp.searchAlerts py args)).attempt
  | .getAlert args => (UpProg.lift (WazuhMcp.getAlert args)).attempt
  | .getAgent args => (UpProg.lift (WazuhMcp.getAgent session args)).attempt
  | .alertsByAgent args => (UpProg.lift (WazuhMcp.alertsByAgent py args)).attempt
  | .listVulnerabilitiesByAgent args =>
    (UpProg.lift (WazuhMcp.listVulnerabilitiesByAgent py args)).attempt
  | .monotonic => UpProg.lift UpProg.monotonic
  | .emit event => AppProg.emit event

variable {session} {py : Pydantic}

theorem Call.quiet_spelled (c : Call) : (c.spelled session py).Quiet := by
  cases c with
  | monotonic => exact fun _ => rfl
  | emit event => exact fun _ => rfl
  | _ => exact quiet_attempt _

namespace CallProg

theorem interpret_acquire (upstream : Upstream) (tenantId : String) :
    (acquire upstream tenantId).interpret (Call.spelled session py)
      = UpProg.lift (UpProg.acquire upstream tenantId) :=
  attempt_bind_interpret _

theorem interpret_serverApiGet (path : String) (params : JsonObject) (runAs : Option String) :
    (serverApiGet path params runAs).interpret (Call.spelled session py)
      = UpProg.lift (ServerApiClient.get path params runAs) :=
  attempt_bind_interpret _

theorem interpret_searchAlerts (args : SearchAlertsArgs) :
    (searchAlerts args).interpret (Call.spelled session py)
      = UpProg.lift (WazuhMcp.searchAlerts py args) :=
  attempt_bind_interpret _

theorem interpret_getAlert (args : GetAlertArgs) :
    (getAlert args).interpret (Call.spelled session py) = UpProg.lift (WazuhMcp.getAlert args) :=
  attempt_bind_interpret _

theorem interpret_getAgent (args : GetAgentArgs) :
    (getAgent args).interpret (Call.spelled session py)
      = UpProg.lift (WazuhMcp.getAgent session args) :=
  attempt_bind_interpret _

theorem interpret_alertsByAgent (args : AlertsByAgentArgs) :
    (alertsByAgent args).interpret (Call.spelled session py)
      = UpProg.lift (WazuhMcp.alertsByAgent py args) :=
  attempt_bind_interpret _

theorem interpret_listVulnerabilitiesByAgent (args : ListVulnerabilitiesByAgentArgs) :
    (listVulnerabilitiesByAgent args).interpret (Call.spelled session py)
      = UpProg.lift (WazuhMcp.listVulnerabilitiesByAgent py args) :=
  attempt_bind_interpret _

theorem interpret_catchWazuh {α : Type} {p : CallProg α} {q : UpProg α}
    (h : p.interpret (Call.spelled session py) = UpProg.lift q) :
    (catchWazuh p).interpret (Call.spelled session py) = WazuhMcp.catchWazuh q := by
  unfold catchWazuh WazuhMcp.catchWazuh
  rw [interpret_bind, interpret_attempt Call.quiet_spelled, h]
  congr 1
  funext out
  rcases out with (e | e | _ | e | e | e) | a <;> rfl

/-- The argument is checked inside of the `try`. -/
theorem interpret_checked {α β : Type} {out : Except Exn α} {p : α → CallProg β} {q : α → UpProg β}
    (h : ∀ a, (p a).interpret (Call.spelled session py) = UpProg.lift (q a)) :
    (do let a ← out; p a : CallProg β).interpret (Call.spelled session py)
      = UpProg.lift (do let a ← out; q a) := by
  show (ofExcept out >>= p).interpret _ = UpProg.lift (ofExcept out >>= q)
  unfold UpProg.lift
  rw [interpret_bind, interpret_ofExcept, embed_bind, embed_ofExcept]
  exact congrArg (ofExcept out >>= ·) (funext h)

end CallProg

theorem interpret_readCalls (r : Resource) (id : String) :
    (r.readCalls session id).interpret (Call.spelled session py) = r.read session id := by
  unfold Resource.readCalls Resource.read
  rw [interpret_bind]
  congr 1
  · exact interpret_ofExcept _
  funext _
  rw [interpret_bind, CallProg.interpret_catchWazuh (CallProg.interpret_serverApiGet _ _ _)]
  congr 1
  funext out
  cases out with
  | error e => rfl
  | ok body =>
    show (ofExcept (r.pick body) >>= _ : CallProg ResourceContent).interpret _ = ofExcept (r.pick body) >>= _
    rw [interpret_bind, interpret_ofExcept]
    congr 1
    funext data
    split
    · cases hcontent : r.content data <;> rfl
    · rfl

theorem interpret_triageLastHourCalls :
    (triageLastHourCalls session).interpret (Call.spelled session py) = triageLastHour session py := by
  unfold triageLastHourCalls triageLastHour
  rw [interpret_bind]
  congr 1
  funext started
  rw [interpret_bind, CallProg.interpret_catchWazuh (CallProg.interpret_searchAlerts _)]
  congr 1
  funext out
  cases out <;> rfl

theorem interpret_agentBlockCalls (agentId : String) :
    (agentBlockCalls agentId).interpret (Call.spelled session py) = agentBlock session agentId := by
  unfold agentBlockCalls agentBlock
  rw [interpret_bind,
    CallProg.interpret_catchWazuh (CallProg.interpret_checked fun _ => CallProg.interpret_getAgent _)]
  rfl

theorem interpret_neighborsBlockCalls (agentId : String) :
    (neighborsBlockCalls agentId).interpret (Call.spelled session py) = neighborsBlock py agentId := by
  unfold neighborsBlockCalls neighborsBlock
  rw [interpret_bind,
    CallProg.interpret_catchWazuh (CallProg.interpret_checked fun _ => CallProg.interpret_alertsByAgent _)]
  rfl

theorem interpret_alertsBlockCalls (agentId : String) :
    (alertsBlockCalls agentId).interpret (Call.spelled session py) = alertsBlock py agentId := by
  unfold alertsBlockCalls alertsBlock
  rw [interpret_bind,
    CallProg.interpret_catchWazuh (CallProg.interpret_checked fun _ => CallProg.interpret_alertsByAgent _)]
  rfl

theorem interpret_vulnBlockCalls (agentId : String) :
    (vulnBlockCalls agentId).interpret (Call.spelled session py) = vulnBlock py agentId := by
  unfold vulnBlockCalls vulnBlock
  rw [interpret_bind, CallProg.interpret_catchWazuh
    (CallProg.interpret_checked fun _ => CallProg.interpret_listVulnerabilitiesByAgent _)]
  rfl

theorem interpret_investigateAlertCalls (alertId : String) :
    (investigateAlertCalls session alertId).interpret (Call.spelled session py)
      = investigateAlert session py alertId := by
  unfold investigateAlertCalls investigateAlert
  rw [interpret_bind]
  congr 1
  funext started
  rw [interpret_bind]
  congr 1
  funext _
  rw [interpret_bind,
    CallProg.interpret_catchWazuh (CallProg.interpret_checked fun _ => CallProg.interpret_getAlert _)]
  congr 1
  funext out
  cases out with
  | error e =>
    simp only
    split <;> rfl
  | ok alert =>
    simp only
    rw [interpret_bind]
    unfold alertContextCalls
    split
    · rfl
    · rw [interpret_bind, interpret_agentBlockCalls, bind_assoc]
      congr 1
      funext agent
      rw [interpret_bind, interpret_neighborsBlockCalls, bind_assoc]
      rfl

theorem interpret_agentPostureCalls (agentId : String) :
    (agentPostureCalls session agentId).interpret (Call.spelled session py)
      = agentPosture session py agentId := by
  unfold agentPostureCalls agentPosture
  rw [interpret_bind]
  congr 1
  funext started
  rw [interpret_bind,
    CallProg.interpret_catchWazuh (CallProg.interpret_checked fun _ => CallProg.interpret_getAgent _)]
  congr 1
  funext out
  cases out with
  | error e =>
    simp only
    split <;> rfl
  | ok agent =>
    simp only
    rw [interpret_bind, interpret_alertsBlockCalls]
    congr 1
    funext alerts
    rw [interpret_bind, interpret_vulnBlockCalls]
    rfl

/-- **With the calls spelled out**, the closure of a resource is the one that is registered. -/
theorem interpret_resourceCalls (uri : ResourceUri) :
    (uri.calls session).interpret (Call.spelled session py) = readResource (some session) uri := by
  unfold ResourceUri.calls
  rw [interpret_bind, CallProg.interpret_acquire]
  show _ = UpProg.lift (UpProg.acquire .serverApi session.tenantId) >>= fun _ => uri.read session
  congr 1
  funext _
  rw [interpret_readCalls]
  cases uri <;> rfl

/-- **With the calls spelled out**, the closure of a prompt is the one that is registered. -/
theorem interpret_promptCalls {lib : Libraries} (prompt : PromptName) :
    (prompt.calls session).interpret (Call.spelled session lib.py) = getPrompt (some session) lib prompt := by
  show _ = UpProg.lift (UpProg.acquire .indexer session.tenantId) >>= fun _ => _
  cases prompt with
  | triageLastHour =>
    unfold PromptName.calls
    rw [interpret_bind, CallProg.interpret_acquire, interpret_triageLastHourCalls]
  | investigateAlert alertId =>
    unfold PromptName.calls
    rw [interpret_bind, CallProg.interpret_acquire]
    congr 1
    funext _
    rw [interpret_bind, CallProg.interpret_acquire, interpret_investigateAlertCalls]
    rfl
  | agentPosture agentId =>
    unfold PromptName.calls
    rw [interpret_bind, CallProg.interpret_acquire]
    congr 1
    funext _
    rw [interpret_bind, CallProg.interpret_acquire, interpret_agentPostureCalls]
    rfl

/-- The audit event that a step emits, if it does. -/
def AppEvent.emitted : AppEvent → List AuditEvent
  | ⟨.emit event, _⟩ => [event]
  | _ => []

theorem emitted_lift {α : Type} {p : UpProg α} {tr : List AppEvent} {out : Except Exn α}
    (h : (UpProg.lift p).Runs tr out) : tr.flatMap AppEvent.emitted = [] := by
  have hevery : (UpProg.lift p).Every fun ev => AppEvent.emitted ev = [] :=
    every_lift p fun _ _ => rfl
  exact List.flatMap_eq_nil_iff.mpr (all_iff_runs.mp hevery.all tr out h)

theorem runs_spelled (c : Call) (tr : List AppEvent) (out : Except Exn c.Result)
    (h : (c.spelled session py).Runs tr out) :
    ∃ r, out = .ok r ∧ tr.flatMap AppEvent.emitted = CallEvent.emitted ⟨c, r⟩ := by
  cases c with
  | monotonic =>
    obtain ⟨r, tr', rfl, rfl, rfl⟩ := h
    exact ⟨r, rfl, rfl⟩
  | emit event =>
    obtain ⟨r, tr', rfl, rfl, rfl⟩ := h
    exact ⟨(), rfl, rfl⟩
  | _ =>
    obtain ⟨out', rfl, hrun⟩ := runs_attempt.mp h
    exact ⟨out', rfl, emitted_lift hrun⟩

/-- **A run of the registered closure of a resource** emits what a run of the calls emits, and ends in
the same way. -/
theorem runs_resource (py : Pydantic) {uri : ResourceUri} {tr : List AppEvent} {out : Except Exn ResourceContent}
    (h : (readResource (some session) uri).Runs tr out) :
    ∃ trc, (uri.calls session).Runs trc out ∧
      tr.flatMap AppEvent.emitted = trc.flatMap CallEvent.emitted := by
  rw [← @interpret_resourceCalls session py] at h
  exact runs_interpret runs_spelled h

/-- **A run of the registered closure of a prompt** emits what a run of the calls emits, and ends in the
same way. -/
theorem runs_prompt {lib : Libraries} {prompt : PromptName} {tr : List AppEvent} {out : Except Exn Json}
    (h : (getPrompt (some session) lib prompt).Runs tr out) :
    ∃ trc, (prompt.calls session).Runs trc out ∧
      tr.flatMap AppEvent.emitted = trc.flatMap CallEvent.emitted := by
  rw [← interpret_promptCalls] at h
  exact runs_interpret runs_spelled h

end WazuhMcp
