import WazuhMcp.Auth.Session
import WazuhMcp.Wazuh.Models
import WazuhMcp.Wazuh.RuleRender
import WazuhMcp.Wazuh.ServerApi

/-!
# The write tools

The nine operations that change the state of the Wazuh manager. Their arguments are what pydantic has
accepted, with the constraints it checks as fields; `confirm` is `True` in all of them and is left
out. A handler calls one method of the Server API client, after the checks of its own.
-/

namespace WazuhMcp

open Interact

/-! ## Results -/

/-- `FailedAgent` -/
structure FailedAgent where
  agentId : String
  reason : String
  deriving DecidableEq, Repr

/-- `WriteResult`, without its timestamp. -/
structure WriteResult where
  ok : Bool
  affectedAgents : Option (List String) := none
  failedAgents : List FailedAgent := []
  affectedFiles : Option (List String) := none
  deriving DecidableEq, Repr

/-- `RestartManagerResult`, without its timestamp. -/
structure RestartManagerResult where
  ok : Bool
  scope : String
  affectedNodes : List String
  deriving DecidableEq, Repr

/-- `_extract_affected_ids(resp)` -/
def extractAffectedIds (resp : Json) : Except Exn (List String) := do
  let data ← resp.getD "data" (.obj [])
  let items ← (·.or (.arr [])) <$> data.getD "affected_items" .null
  return (← items.iter).map Json.pyStr

/-- One item of the loop of `_extract_failed_items`. -/
def failedItem (item : Json) : Except Exn FailedAgent := do
  let agentId ← item.getD "id" (.str "")
  let err ← (·.or (.obj [])) <$> item.getD "error" .null
  let reason ← err.getD "message" (.str "unknown")
  return ⟨agentId.pyStr, reason.pyStr⟩

/-- `_extract_failed_items(resp)` -/
def extractFailedItems (resp : Json) : Except Exn (List FailedAgent) := do
  let data ← resp.getD "data" (.obj [])
  let items ← (·.or (.arr [])) <$> data.getD "failed_items" .null
  (← items.iter).mapM failedItem

/-- The result of the tools that report failed agents. -/
def agentsResult (resp : Json) : Except Exn WriteResult := do
  let affected ← extractAffectedIds resp
  let failed ← extractFailedItems resp
  return { ok := failed.isEmpty, affectedAgents := some affected, failedAgents := failed }

/-- The result of the tools that report affected agents only. -/
def affectedResult (resp : Json) : Except Exn WriteResult := do
  let affected ← extractAffectedIds resp
  return { ok := true, affectedAgents := some affected }

/-! ## Arguments -/

/-- `_AR_AGENTS_MAX` -/
def arAgentsMax : ℕ := 50

/-- `IsolateAgentArgs` -/
structure IsolateAgentArgs where
  agentIds : List String
  nonempty : 1 ≤ agentIds.length
  length_le : agentIds.length ≤ arAgentsMax

/-- `RestartAgentArgs` -/
structure RestartAgentArgs where
  agentId : String
  isAgentId : isAgentId agentId = true

/-- `AddAgentToGroupArgs` and `RemoveAgentFromGroupArgs` -/
structure AgentGroupArgs where
  agentId : String
  groupId : String
  isAgentId : isAgentId agentId = true
  isGroupId : isGroupId groupId = true
  length_le : groupId.length ≤ 128

/-- `CreateRuleArgs` -/
structure CreateRuleArgs (compiles : String → Bool) where
  rule : RuleDefinition compiles

/-- `UpdateRuleArgs` -/
structure UpdateRuleArgs (compiles : String → Bool) where
  ruleId : ℤ
  rule : RuleDefinition compiles
  matches_rule : ruleId = rule.id

/-- `RunActiveResponseArgs` -/
structure RunActiveResponseArgs where
  agentIds : List String
  commandName : String
  customArgs : Option JsonObject := none
  nonempty : 1 ≤ agentIds.length
  length_le : agentIds.length ≤ arAgentsMax
  command_nonempty : 1 ≤ commandName.length
  command_length_le : commandName.length ≤ 128

/-- `RunActiveResponseOnGroupArgs` -/
structure RunActiveResponseOnGroupArgs where
  groupName : String
  commandName : String
  customArgs : Option JsonObject := none
  group_nonempty : 1 ≤ groupName.length
  group_length_le : groupName.length ≤ 128
  command_nonempty : 1 ≤ commandName.length
  command_length_le : commandName.length ≤ 128

/-- The `scope` of `RestartManagerArgs` -/
inductive RestartScope where
  | node
  | cluster
  deriving DecidableEq, Repr

/-- The scope as it is written in the arguments. -/
def RestartScope.text : RestartScope → String
  | .node => "node"
  | .cluster => "cluster"

/-- `RestartManagerArgs` -/
structure RestartManagerArgs where
  scope : RestartScope := .cluster

/-! ## Handlers -/

variable (session : Session)

/-- `isolate_agent` -/
def isolateAgent (args : IsolateAgentArgs) : UpProg WriteResult := do
  let resp ← ServerApiClient.isolateAgent args.agentIds session.wazuhUser
  agentsResult resp

/-- `restart_agent` -/
def restartAgent (args : RestartAgentArgs) : UpProg WriteResult := do
  let resp ← ServerApiClient.restartAgent args.agentId session.wazuhUser
  affectedResult resp

/-- `add_agent_to_group` -/
def addAgentToGroup (args : AgentGroupArgs) : UpProg WriteResult := do
  let resp ← ServerApiClient.addAgentToGroup args.agentId args.groupId session.wazuhUser
  affectedResult resp

/-- `remove_agent_from_group` -/
def removeAgentFromGroup (args : AgentGroupArgs) : UpProg WriteResult := do
  let resp ← ServerApiClient.removeAgentFromGroup args.agentId args.groupId session.wazuhUser
  affectedResult resp

/-- `_rule_filename(rule_id)` -/
def ruleFilename (ruleId : ℤ) : String := "wazuh-mcp-" ++ toString ruleId ++ ".xml"

/-- The text that `create_rule` and `update_rule` upload. -/
def ruleFileXml (rule : RuleFields) : String :=
  "<group name=\"wazuh-mcp\">" ++ renderRuleXml rule ++ "</group>"

/-- The part that `create_rule` and `update_rule` share. -/
def uploadRule (ruleId : ℤ) (rule : RuleFields) : UpProg WriteResult := do
  let _ ← ServerApiClient.uploadRuleFile (ruleFilename ruleId) (ruleFileXml rule) session.wazuhUser
  return { ok := true, affectedFiles := some [ruleFilename ruleId] }

/-- `create_rule` -/
def createRule {compiles : String → Bool} (args : CreateRuleArgs compiles) : UpProg WriteResult :=
  uploadRule session args.rule.id args.rule.toRuleFields

/-- `update_rule` -/
def updateRule {compiles : String → Bool} (args : UpdateRuleArgs compiles) : UpProg WriteResult :=
  uploadRule session args.ruleId args.rule.toRuleFields

/-- The refusal of a command that is not allowlisted. -/
def arForbidden (commandName : String) : WazuhError where
  code := .forbidden
  message := "active-response command " ++ Json.reprStr commandName ++ " not allowlisted for tenant"
  statusCode := 403
  scope := some "ar_allowlist"

/-- `run_active_response` -/
def runActiveResponse (args : RunActiveResponseArgs) (arAllowlist : List String) :
    UpProg WriteResult := do
  if args.commandName ∉ arAllowlist then
    .raise (.wazuh (arForbidden args.commandName))
  else
    let resp ← ServerApiClient.runActiveResponse args.agentIds args.commandName args.customArgs
      session.wazuhUser
    agentsResult resp

/-- The refusal of a group that is not allowlisted. -/
def arGroupForbidden (groupName : String) : WazuhError where
  code := .forbidden
  message := "agent group " ++ Json.reprStr groupName ++ " not in tenant agent_group_allowlist"
  statusCode := 403
  scope := some "ar_group_allowlist"

/-- `run_active_response_on_group`. Only the group is checked here. -/
def runActiveResponseOnGroup (args : RunActiveResponseOnGroupArgs)
    (arGroupAllowlist : List String) : UpProg WriteResult := do
  if args.groupName ∉ arGroupAllowlist then
    .raise (.wazuh (arGroupForbidden args.groupName))
  else
    let resp ← ServerApiClient.runActiveResponseOnGroup args.groupName args.commandName
      args.customArgs session.wazuhUser
    agentsResult resp

/-- The refusal to restart a cluster where there is none. -/
def clusterDisabled : WazuhError where
  code := .upstreamError
  message := "cluster scope requested but clustering is not enabled on this manager"
  statusCode := 400

/-- `restart_manager` -/
def restartManager (args : RestartManagerArgs) : UpProg RestartManagerResult := do
  let pre ← ServerApiClient.clusterStatus none
  if args.scope = .cluster ∧ pre.enabled = false then
    .raise (.wazuh clusterDisabled)
  else
    let nodes ← pre.nodes.iter
    let names ← nodes.mapM fun n => n.item "name"
    let names := if names.isEmpty then [.str "this-node"] else names
    let _ ← ServerApiClient.restartCluster args.scope.text session.wazuhUser
    let affectedNodes ← (names.mapM Json.strField : Except Exn (List String))
    return { ok := true, scope := args.scope.text, affectedNodes := affectedNodes }

end WazuhMcp
