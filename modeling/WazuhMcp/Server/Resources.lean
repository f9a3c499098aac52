import WazuhMcp.Observability.Audit
import WazuhMcp.Tools.Reference

/-!
# Resources and prompts

The entry points that are not tools: three resources read from the Server API, and three prompts that
run some of the tools' own operations and return their results as text. Each emits its own audit
events.
-/

namespace WazuhMcp

open Interact

/-! ## Resources -/

/-- `make_json_content(data, ttl_seconds)` -/
structure ResourceContent where
  text : String
  ttlSeconds : ℕ
  deriving DecidableEq, Repr

/-- A resource: the tool name and the argument of its audit events, how it is read, and what it makes
of the body. `pick` is what the body must not lack, `content` what of it is returned. -/
structure Resource where
  tool : String
  argName : String
  valid : String → Bool
  path : String → String
  params : String → JsonObject
  pick : Json → Except Exn Json
  content : Json → Except Exn Json
  notFound : String
  ttlSeconds : ℕ

/-- `(body.get("data") or {}).get("affected_items") or []` -/
def affectedItems (body : Json) : Except Exn Json := do
  (← body.getObj "data").getArr "affected_items"

/-- `read_rule` -/
def readRule : Resource where
  tool := "resource.rules"
  argName := "rule_id"
  valid := Text.reMatch fun cs => cs.all Char.isDigit && 1 ≤ cs.length && cs.length ≤ 12
  path _ := "/rules"
  params ruleId := [("rule_ids", .str ruleId)]
  pick := affectedItems
  content items := items.index 0
  notFound := "rule not found"
  ttlSeconds := 300

/-- `read_mitre_technique` -/
def readMitreTechnique : Resource where
  tool := "resource.mitre"
  argName := "technique_id"
  valid := mitreIdMatches
  path _ := "/mitre/techniques"
  params techniqueId := [("q", .str ("external_id=" ++ techniqueId))]
  pick := affectedItems
  content items := items.index 0
  notFound := "technique not found"
  ttlSeconds := 86400

/-- `read_agent_config` -/
def readAgentConfig : Resource where
  tool := "resource.agent_config"
  argName := "agent_id"
  valid := agentIdMatches
  path agentId := "/agents/" ++ agentId ++ "/config/client/client"
  params _ := []
  pick body := body.getObj "data"
  content := pure
  notFound := "agent config not found"
  ttlSeconds := 300

/-- `try: p except WazuhError`, as the outcome that is left when any other exception has propagated. -/
def catchWazuh {α : Type} (p : UpProg α) : AppProg (Except WazuhError α) := do
  match ← (UpProg.lift p).attempt with
  | .ok a => return .ok a
  | .error (.wazuh e) => return .error e
  | .error x => .raise x

variable (session : Session)

/-- The body of the three resource handlers: check the identifier, read, and return the content, with
an audit event for each way the read may go. -/
def Resource.read (r : Resource) (id : String) : AppProg ResourceContent := do
  require (r.valid id)
  let args : JsonObject := [(r.argName, .str id)]
  match ← catchWazuh (ServerApiClient.get (r.path id) (r.params id) session.wazuhUser) with
  | .error e =>
    AppProg.emit (session.failureEvent r.tool args (.safe e.code))
    .raise (.wazuh e)
  | .ok body =>
    let data ← r.pick body
    if data.truthy then
      AppProg.emit { session.auditEvent r.tool args .ok with resultCount := 1 }
      let content ← r.content data
      return ⟨content.dumps, r.ttlSeconds⟩
    else
      AppProg.emit (session.failureEvent r.tool args (.safe .notFound))
      .raise (.wazuh ⟨.notFound, r.notFound, 404, none⟩)

/-! ## Prompts -/

/-- `make_user_message(text)` -/
def makeUserMessage (text : String) : Json :=
  .obj [("role", .str "user"), ("content", .obj [("type", .str "text"), ("text", .str text)])]

/-- A text given to a field whose length is checked. -/
def sizedField (lo hi : ℕ) (s : String) : Except Exn (Sized lo hi) :=
  if h : lo ≤ s.length ∧ s.length ≤ hi then .ok ⟨s, h⟩ else .error .validation

/-- `json.dumps([row.model_dump() for row in rows], indent=2)` -/
def dumpRows {Row : Type} (modelDump : Row → Json) (rows : List Row) : String :=
  (Json.arr (rows.map modelDump)).dumps

/-- `triage_last_hour.handle` -/
def triageLastHour (py : Pydantic) : AppProg Json := do
  let started ← UpProg.monotonic
  let search := searchAlerts py
    { timeRange := "1h", minLevel := some ⟨10, by decide⟩, size := ⟨25, by decide⟩ }
  match ← catchWazuh search with
  | .error e =>
    return makeUserMessage
      ("Triage fetch failed (" ++ e.code.text ++ "). Retry or check upstream.")
  | .ok result =>
    let text := "Triaging the last hour (min rule level 10).\n\nTOTAL IN RANGE: " ++
      toString result.total ++ " (showing " ++ toString result.rows.length ++ ").\n\nALERTS:\n" ++
      dumpRows Alert.modelDump result.rows ++
      "\n\nSummarise: (a) how many unique rules fired, (b) top agents by " ++
      "count, (c) any ATT&CK clustering, (d) which alerts warrant a " ++
      "deeper investigation. Use get_alert or alerts_by_agent for any you flag."
    let ended ← UpProg.monotonic
    AppProg.emit { session.auditEvent "prompt.triage_last_hour" [] .ok with
      resultCount := result.rows.length
      durationMs := elapsedMs started ended }
    return makeUserMessage text

/-- The agent of an alert, as `investigate_alert` shows it. -/
def agentBlock (agentId : String) : AppProg String := do
  let agent ← catchWazuh do
    let agentId ← sizedField 1 16 agentId
    getAgent session ⟨agentId⟩
  return match agent with
    | .ok agent => agent.modelDump.dumps
    | .error _ => "(agent lookup unavailable)"

/-- The neighbors of an alert, as `investigate_alert` shows them. -/
def neighborsBlock (py : Pydantic) (agentId : String) : AppProg String := do
  let neighbors ← catchWazuh do
    let agentId ← sizedField 1 16 agentId
    alertsByAgent py { agentId := agentId, timeRange := "1h", size := ⟨10, by decide⟩ }
  return match neighbors with
    | .ok neighbors => dumpRows Alert.modelDump neighbors.rows
    | .error _ => "(no neighbors)"

/-- `investigate_alert.handle`. The first event goes out before anything is fetched. -/
def investigateAlert (py : Pydantic) (alertId : String) : AppProg Json := do
  let args : JsonObject := [("alert_id", .str alertId)]
  let started ← UpProg.monotonic
  AppProg.emit (session.auditEvent "prompt.investigate_alert" args .ok)
  let alert ← catchWazuh do
    let alertId ← sizedField 1 128 alertId
    getAlert ⟨alertId⟩
  match alert with
  | .error e =>
    if e.code = .notFound then
      return makeUserMessage
        ("Alert " ++ Json.reprStr alertId ++ " not found. Ask the user for a valid alert id.")
    else
      .raise (.wazuh e)
  | .ok alert =>
    let agentId := alert.agent.id.getD ""
    let (agent, neighbors) ←
      if agentId = "" then pure ("(agent lookup unavailable)", "(no neighbors)")
      else do
        let agent ← agentBlock session agentId
        let neighbors ← neighborsBlock py agentId
        pure (agent, neighbors)
    let ended ← UpProg.monotonic
    let text := "Investigating Wazuh alert " ++ alertId ++ ".\n\nALERT:\n" ++
      alert.modelDump.dumps ++ "\n\nAGENT:\n" ++ agent ++
      "\n\nNEIGHBORS (last hour, same agent):\n" ++ neighbors ++
      "\n\nBased on the above: summarise the alert, note any notable neighbor " ++
      "patterns, and recommend the next SOC actions. Use the other " ++
      "wazuh-mcp tools if you need more context."
    AppProg.emit { session.auditEvent "prompt.investigate_alert" args .ok with
      resultCount := 1
      durationMs := elapsedMs started ended }
    return makeUserMessage text

/-- The last day's alerts, as `agent_posture` shows them. -/
def alertsBlock (py : Pydantic) (agentId : String) : AppProg String := do
  let alerts ← catchWazuh do
    let agentId ← sizedField 1 16 agentId
    alertsByAgent py { agentId := agentId, timeRange := "24h", size := ⟨25, by decide⟩ }
  return match alerts with
    | .ok alerts => "total_in_range=" ++ toString alerts.total ++ ", showing=" ++
        toString alerts.rows.length ++ ":\n" ++ dumpRows Alert.modelDump alerts.rows
    | .error _ => "(alerts unavailable)"

/-- The vulnerabilities, as `agent_posture` shows them. -/
def vulnBlock (py : Pydantic) (agentId : String) : AppProg String := do
  let vulns ← catchWazuh do
    let agentId ← sizedField 1 16 agentId
    listVulnerabilitiesByAgent py { agentId := agentId, size := ⟨25, by decide⟩ }
  return match vulns with
    | .ok vulns => "total=" ++ toString vulns.total ++ ", showing=" ++
        toString vulns.rows.length ++ ":\n" ++ dumpRows Vulnerability.modelDump vulns.rows
    | .error _ => "(vulns unavailable)"

/-- `agent_posture.handle` -/
def agentPosture (py : Pydantic) (agentId : String) : AppProg Json := do
  let started ← UpProg.monotonic
  let agent ← catchWazuh do
    let agentId ← sizedField 1 16 agentId
    getAgent session ⟨agentId⟩
  match agent with
  | .error e =>
    if e.code = .notFound then
      return makeUserMessage
        ("Agent " ++ Json.reprStr agentId ++ " not found. Ask the user for a valid agent id.")
    else
      .raise (.wazuh e)
  | .ok agent =>
    let alerts ← alertsBlock py agentId
    let vulns ← vulnBlock py agentId
    let text := "Agent posture for " ++ agentId ++ ".\n\nAGENT:\n" ++ agent.modelDump.dumps ++
      "\n\nLAST-24H ALERTS:\n" ++ alerts ++ "\n\nVULNERABILITIES:\n" ++ vulns ++
      "\n\nSummarise the security posture: recent alert patterns, unpatched " ++
      "critical vulns, and any immediate follow-ups the SOC should take."
    let ended ← UpProg.monotonic
    AppProg.emit { session.auditEvent "prompt.agent_posture" [("agent_id", .str agentId)] .ok with
      resultCount := 1
      durationMs := elapsedMs started ended }
    return makeUserMessage text

end WazuhMcp
