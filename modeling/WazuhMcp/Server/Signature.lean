import WazuhMcp.Tools.Reference
import WazuhMcp.Tools.Write

/-!
# The registered tools and their signatures

The tools that `_register_everything` registers, under their names, with the argument model of each.
From the model `_signature_from_args_model` makes the signature that FastMCP validates the arguments
of a request against, before the wrapped tool is called: a field keeps its annotation, and its default
if it has a plain one.

What pydantic makes of one value is left open. `bindArguments_eq_none_iff`: the arguments are rejected
exactly when a required parameter is missing or a given one is invalid; whatever else is given is
dropped.
-/

namespace WazuhMcp

/-! ## Tools -/

/-- The tools that `_register_everything` registers. -/
inductive Tool where
  | searchAlerts
  | getAlert
  | alertsByAgent
  | alertsByMitre
  | listAgents
  | getAgent
  | agentProcesses
  | agentPackages
  | agentPorts
  | listVulnerabilitiesByAgent
  | searchVulnerabilities
  | getMitreTechnique
  | searchMitre
  | huntQuery
  | pivotByIoc
  | clusterStatus
  | fimHistoryForPath
  | fimChangesByAgent
  | isolateAgent
  | restartAgent
  | addAgentToGroup
  | removeAgentFromGroup
  | createRule
  | updateRule
  | runActiveResponse
  | runActiveResponseOnGroup
  | restartManager
  deriving DecidableEq, Repr

namespace Tool

/-- The name under which a tool is registered. -/
def name : Tool → String
  | searchAlerts => "alerts.search_alerts"
  | getAlert => "alerts.get_alert"
  | alertsByAgent => "alerts.alerts_by_agent"
  | alertsByMitre => "alerts.alerts_by_mitre"
  | listAgents => "agents.list_agents"
  | getAgent => "agents.get_agent"
  | agentProcesses => "agents.agent_processes"
  | agentPackages => "agents.agent_packages"
  | agentPorts => "agents.agent_ports"
  | listVulnerabilitiesByAgent => "vulnerabilities.list_vulnerabilities_by_agent"
  | searchVulnerabilities => "vulnerabilities.search_vulnerabilities"
  | getMitreTechnique => "mitre.get_mitre_technique"
  | searchMitre => "mitre.search_mitre"
  | huntQuery => "hunt.hunt_query"
  | pivotByIoc => "hunt.pivot_by_ioc"
  | clusterStatus => "cluster.status"
  | fimHistoryForPath => "fim.fim_history_for_path"
  | fimChangesByAgent => "fim.fim_changes_by_agent"
  | isolateAgent => "write.isolate_agent"
  | restartAgent => "write.restart_agent"
  | addAgentToGroup => "write.add_agent_to_group"
  | removeAgentFromGroup => "write.remove_agent_from_group"
  | createRule => "write.create_rule"
  | updateRule => "write.update_rule"
  | runActiveResponse => "write.run_active_response"
  | runActiveResponseOnGroup => "write.run_active_response_on_group"
  | restartManager => "write.restart_manager"

/-- The tools in the order in which they are registered. -/
def all : List Tool :=
  [searchAlerts, getAlert, alertsByAgent, alertsByMitre, listAgents, getAgent, agentProcesses,
    agentPackages, agentPorts, listVulnerabilitiesByAgent, searchVulnerabilities, getMitreTechnique,
    searchMitre, huntQuery, pivotByIoc, clusterStatus, fimHistoryForPath, fimChangesByAgent,
    isolateAgent, restartAgent, addAgentToGroup, removeAgentFromGroup, createRule, updateRule,
    runActiveResponse, runActiveResponseOnGroup, restartManager]

/-- The tool that is registered under a name. -/
def ofName? (toolName : String) : Option Tool := all.find? fun t => t.name = toolName

/-- A registered tool is found under its own name. -/
theorem ofName?_name (t : Tool) : ofName? t.name = some t := by
  cases t <;> decide

theorem name_of_ofName? {toolName : String} {t : Tool} (h : ofName? toolName = some t) :
    t.name = toolName := by
  simpa using List.find?_some h

theorem name_injective : Function.Injective name := fun t t' h => by
  have hfound := ofName?_name t
  rw [h, ofName?_name] at hfound
  exact (Option.some.inj hfound).symm

/-- No tool has the name under which the policy resolvers emit. -/
theorem name_ne_resolve (t : Tool) : t.name ≠ "<rbac.resolve>" := by
  cases t <;> decide

/-- The argument model of a tool. `compiles` says which patterns `re.compile` accepts. -/
@[reducible] def Args (compiles : String → Bool) : Tool → Type
  | searchAlerts => SearchAlertsArgs
  | getAlert => GetAlertArgs
  | alertsByAgent => AlertsByAgentArgs
  | alertsByMitre => AlertsByMitreArgs
  | listAgents => ListAgentsArgs
  | getAgent => GetAgentArgs
  | agentProcesses => AgentSubquery
  | agentPackages => AgentSubquery
  | agentPorts => AgentSubquery
  | listVulnerabilitiesByAgent => ListVulnerabilitiesByAgentArgs
  | searchVulnerabilities => SearchVulnerabilitiesArgs
  | getMitreTechnique => GetMitreTechniqueArgs
  | searchMitre => SearchMitreArgs
  | huntQuery => HuntQueryArgs
  | pivotByIoc => PivotByIocArgs
  | clusterStatus => ClusterStatusArgs
  | fimHistoryForPath => FimHistoryArgs
  | fimChangesByAgent => FimChangesArgs
  | isolateAgent => IsolateAgentArgs
  | restartAgent => RestartAgentArgs
  | addAgentToGroup => AgentGroupArgs
  | removeAgentFromGroup => AgentGroupArgs
  | createRule => CreateRuleArgs compiles
  | updateRule => UpdateRuleArgs compiles
  | runActiveResponse => RunActiveResponseArgs
  | runActiveResponseOnGroup => RunActiveResponseOnGroupArgs
  | restartManager => RestartManagerArgs

end Tool

/-! ## Signatures -/

/-- The annotations of the argument models, with the constraints they carry. -/
inductive Annotation where
  | any
  | str (lengths : Option (ℕ × ℕ)) (pattern : Option String)
  | int (bounds : Option (ℤ × ℤ))
  | literal (values : List Json)
  | list (item : Annotation) (lengths : Option (ℕ × ℕ))
  | dict
  | model (modelName : String)
  | optional (a : Annotation)

/-- A parameter of a synthesized signature. -/
structure Param where
  name : String
  annotation : Annotation
  default : Option Json

namespace Param

/-- `confirm: Literal[True]` -/
def confirm : Param := ⟨"confirm", .literal [.bool true], none⟩

/-- `cursor: list[Any] | None = None` -/
def cursor : Param := ⟨"cursor", .optional (.list .any none), some .null⟩

/-- `time_range: str` -/
def timeRange (default : Option Json) : Param := ⟨"time_range", .str none none, default⟩

/-- `size: Annotated[int, Field(ge=1, le=hi)] = default` -/
def size (hi default : ℤ) : Param := ⟨"size", .int (some (1, hi)), some (.int default)⟩

/-- `offset: Annotated[int, Field(ge=0, le=10_000)] = 0` -/
def offset : Param := ⟨"offset", .int (some (0, 10000)), some (.int 0)⟩

/-- A text with bounds on its length. -/
def text (name : String) (lo hi : ℕ) : Param := ⟨name, .str (some (lo, hi)) none, none⟩

/-- A text that may be left out. -/
def optText (name : String) (lengths : Option (ℕ × ℕ)) : Param :=
  ⟨name, .optional (.str lengths none), some .null⟩

/-- `agent_id: Annotated[str, Field(min_length=1, max_length=16, pattern=r"^[0-9]{3,10}$")]` -/
def numericAgentId : Param := ⟨"agent_id", .str (some (1, 16)) (some "^[0-9]{3,10}$"), none⟩

/-- `agent_ids: Annotated[list[str], Field(min_length=1, max_length=_AR_AGENTS_MAX)]` -/
def agentIds : Param := ⟨"agent_ids", .list (.str none none) (some (1, arAgentsMax)), none⟩

/-- `group_id` -/
def groupId : Param := ⟨"group_id", .str (some (1, 128)) (some "^[a-zA-Z0-9_-]+$"), none⟩

/-- `custom_args: dict[str, Any] | None = None` -/
def customArgs : Param := ⟨"custom_args", .optional .dict, some .null⟩

/-- `rule: RuleDefinition` -/
def rule : Param := ⟨"rule", .model "RuleDefinition", none⟩

end Param

open Param in
/-- `_signature_from_args_model`, of the argument model of a tool. -/
def Tool.signature : Tool → List Param
  | searchAlerts =>
    [timeRange (some (.str "1h")), ⟨"min_level", .optional (.int (some (0, 15))), some .null⟩,
      optText "agent_id" none, size 100 25, cursor]
  | getAlert => [text "alert_id" 1 128]
  | alertsByAgent => [text "agent_id" 1 16, timeRange (some (.str "24h")), size 100 25, cursor]
  | alertsByMitre => [text "technique_id" 4 16, timeRange (some (.str "24h")), size 100 25, cursor]
  | listAgents => [optText "status" none, optText "group" (some (0, 64)), size 500 100, offset]
  | getAgent => [text "agent_id" 1 16]
  | agentProcesses | agentPackages | agentPorts => [numericAgentId, size 500 100, offset]
  | listVulnerabilitiesByAgent =>
    [text "agent_id" 1 16, optText "min_severity" none, size 100 25, cursor]
  | searchVulnerabilities => [optText "cve_id" none, optText "min_severity" none, size 100 25, cursor]
  | getMitreTechnique => [text "technique_id" 4 16]
  | searchMitre => [optText "q" none, optText "tactic" (some (0, 64)), size 200 50]
  | huntQuery =>
    [timeRange none, ⟨"must", .list (.model "HuntClause") none, none⟩,
      -- its default comes from a factory, which the signature does not keep
      ⟨"must_not", .list (.model "HuntClause") none, none⟩, size 100 25, cursor]
  | pivotByIoc =>
    [⟨"kind", .literal [.str "hash", .str "ip", .str "user", .str "domain"], none⟩,
      text "value" 1 256, timeRange (some (.str "24h")), size 100 25, cursor]
  | clusterStatus => []
  | fimHistoryForPath => [text "path" 1 1024, timeRange (some (.str "24h")), size 100 25, cursor]
  | fimChangesByAgent => [text "agent_id" 1 16, timeRange (some (.str "24h")), size 100 25, cursor]
  | isolateAgent => [agentIds, confirm]
  | restartAgent => [numericAgentId, confirm]
  | addAgentToGroup | removeAgentFromGroup => [numericAgentId, groupId, confirm]
  | createRule => [rule, confirm]
  | updateRule => [⟨"rule_id", .int (some (100000, 999999)), none⟩, rule, confirm]
  | runActiveResponse => [agentIds, text "command_name" 1 128, customArgs, confirm]
  | runActiveResponseOnGroup =>
    [text "group_name" 1 128, text "command_name" 1 128, customArgs, confirm]
  | restartManager =>
    [⟨"scope", .literal [.str "node", .str "cluster"], some (.str "cluster")⟩, confirm]

/-- Every write tool must be confirmed. -/
theorem Tool.confirm_mem_signature {t : Tool} (h : Text.startsWith t.name "write." = true) :
    Param.confirm ∈ t.signature := by
  cases t <;> first | exact absurd h (by decide) | simp [Tool.signature]

/-! ## Arguments of a request -/

/-- What pydantic makes of a value under an annotation, if it accepts it. -/
abbrev Validator := Annotation → Json → Option Json

/-- The value of a parameter: what is given, validated, or else the default. -/
def Param.value (validate : Validator) (arguments : JsonObject) (p : Param) : Option Json :=
  match arguments.lookup p.name with
  | some given => validate p.annotation given
  | none => p.default

/-- The arguments of a request, validated against a signature. -/
def bindArguments (validate : Validator) (signature : List Param) (arguments : JsonObject) :
    Option JsonObject :=
  signature.mapM fun p => (p.value validate arguments).map (p.name, ·)

theorem bindArguments_eq_none_iff {validate : Validator} {signature : List Param}
    {arguments : JsonObject} :
    bindArguments validate signature arguments = none ↔
      ∃ p ∈ signature, p.value validate arguments = none := by
  rw [bindArguments]
  induction signature with
  | nil => simp
  | cons p signature ih =>
    rw [List.mapM_cons]
    cases hp : p.value validate arguments with
    | none => simp [hp]
    | some x =>
      cases hrest : signature.mapM fun p => (p.value validate arguments).map (p.name, ·) with
      | none => simpa [hp, hrest] using ih
      | some xs => simpa [hp, hrest] using ih

/-- A request that does not confirm a write tool is rejected. -/
theorem bindArguments_of_unconfirmed (validate : Validator) {t : Tool} {arguments : JsonObject}
    (hwrite : Text.startsWith t.name "write." = true) (h : arguments.lookup "confirm" = none) :
    bindArguments validate t.signature arguments = none :=
  bindArguments_eq_none_iff.mpr ⟨.confirm, Tool.confirm_mem_signature hwrite, by
    simp only [Param.value, Param.confirm, h]⟩

end WazuhMcp
