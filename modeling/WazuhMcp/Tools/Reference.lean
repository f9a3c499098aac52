import WazuhMcp.Tools.Search
import WazuhMcp.Wazuh.ServerApi

/-!
# The reading tools on the Server API

Agents and their inventories, MITRE techniques, and the status of the cluster.
-/

namespace WazuhMcp

open Interact

variable (session : Session)

/-! ## Agents -/

/-- `ListAgentsArgs` -/
structure ListAgentsArgs where
  status : Option String := none
  group : Option (Sized 0 64) := none
  size : Ranged 1 500 := ⟨100, by decide⟩
  offset : Ranged 0 10000 := ⟨0, by decide⟩

/-- `AgentsResult` -/
structure AgentsResult where
  agents : List Agent
  total : ℤ
  truncated : Bool

/-- `data.total_affected_items`, or else the number of items. -/
def readAffectedTotal (data : Json) (items : List Json) : Except Exn ℤ := do
  let total ← data.getD "total_affected_items" .null
  (total.or (.int items.length)).toInt

/-- `_shape_agent_list(body, wanted_size)` -/
def shapeAgentList (body : Json) (wantedSize : ℤ) : Except Exn AgentsResult := do
  let data ← body.getObj "data"
  let items ← (← data.getArr "affected_items").iter
  let total ← readAffectedTotal data items
  return ⟨← items.mapM Agent.fromApi, total, items.length = wantedSize⟩

/-- `list_agents` -/
def listAgents (args : ListAgentsArgs) : UpProg AgentsResult := do
  let params : JsonObject :=
    (args.status.map fun s => ("status", .str s)).toList ++
      (args.group.map fun g => ("group", .str g.1)).toList ++
      [("limit", .int args.size.1), ("offset", .int args.offset.1)]
  let body ← ServerApiClient.get "/agents" params session.wazuhUser
  shapeAgentList body args.size

/-- `GetAgentArgs` -/
structure GetAgentArgs where
  agentId : Sized 1 16

/-- `get_agent`. The id is checked for its length only. -/
def getAgent (args : GetAgentArgs) : UpProg Agent := do
  let body ← ServerApiClient.get "/agents" [("agents_list", .str args.agentId.1)] session.wazuhUser
  let items ← (← body.getObj "data").getArr "affected_items"
  if items.truthy then
    Agent.fromApi (← items.index 0)
  else
    .raise (.wazuh ⟨.notFound, "agent not found", 404, none⟩)

/-- `AgentSubquery` -/
structure AgentSubquery where
  agentId : {s : String // isAgentId s = true}
  size : Ranged 1 500 := ⟨100, by decide⟩
  offset : Ranged 0 10000 := ⟨0, by decide⟩

/-- `AgentInventoryResult` -/
structure AgentInventoryResult where
  agentId : String
  items : List JsonObject
  total : ℤ
  truncated : Bool

/-- `_inventory` -/
def inventory (path : String) (args : AgentSubquery) : UpProg AgentInventoryResult := do
  let body ← ServerApiClient.get path
    [("limit", .int args.size.1), ("offset", .int args.offset.1)] session.wazuhUser
  let data ← body.getObj "data"
  let items ← (← data.getArr "affected_items").iter
  let total ← readAffectedTotal data items
  let rows ← (items.mapM dictField : Except Exn (List JsonObject))
  return ⟨args.agentId, rows, total, items.length = args.size.1⟩

/-- `agent_processes` -/
def agentProcesses (args : AgentSubquery) : UpProg AgentInventoryResult :=
  inventory session ("/syscollector/" ++ args.agentId.1 ++ "/processes") args

/-- `agent_packages` -/
def agentPackages (args : AgentSubquery) : UpProg AgentInventoryResult :=
  inventory session ("/syscollector/" ++ args.agentId.1 ++ "/packages") args

/-- `agent_ports` -/
def agentPorts (args : AgentSubquery) : UpProg AgentInventoryResult :=
  inventory session ("/syscollector/" ++ args.agentId.1 ++ "/ports") args

/-! ## MITRE techniques -/

/-- `GetMitreTechniqueArgs` -/
structure GetMitreTechniqueArgs where
  techniqueId : Sized 4 16

/-- `get_mitre_technique` -/
def getMitreTechnique (args : GetMitreTechniqueArgs) : UpProg MitreTechnique := do
  require (mitreIdMatches args.techniqueId)
  let body ← ServerApiClient.get "/mitre/techniques"
    [("q", .str ("external_id=" ++ args.techniqueId.1))] session.wazuhUser
  let items ← (← body.getObj "data").getArr "affected_items"
  if items.truthy then
    MitreTechnique.fromApi (← items.index 0)
  else
    .raise (.wazuh ⟨.notFound, "technique not found", 404, none⟩)

/-- `SearchMitreArgs` -/
structure SearchMitreArgs where
  q : Option String := none
  tactic : Option (Sized 0 64) := none
  size : Ranged 1 200 := ⟨50, by decide⟩

/-- `MitreSearchResult` -/
structure MitreSearchResult where
  techniques : List MitreTechnique
  total : ℤ
  truncated : Bool

/-- A clause of the `q` parameter, if there is a nonempty text for it. -/
def mitreClause (field : String) (text : Option String) : List String :=
  match text with
  | none => []
  | some s => if s = "" then [] else [field ++ "~" ++ s]

/-- `search_mitre` -/
def searchMitre (args : SearchMitreArgs) : UpProg MitreSearchResult := do
  require (args.q.isSome || args.tactic.isSome)
  let qclauses := mitreClause "name" args.q ++ mitreClause "tactics" (args.tactic.map (·.1))
  let body ← ServerApiClient.get "/mitre/techniques"
    [("q", .str (Text.join ',' qclauses)), ("limit", .int args.size.1)] session.wazuhUser
  let data ← body.getObj "data"
  let items ← (← data.getArr "affected_items").iter
  let total ← readAffectedTotal data items
  let techs ← (items.mapM MitreTechnique.fromApi : Except Exn (List MitreTechnique))
  return ⟨techs, total, techs.length = args.size.1⟩

/-! ## The cluster -/

/-- `ClusterStatusArgs` -/
structure ClusterStatusArgs where

/-- `ClusterNode` -/
structure ClusterNode where
  name : String
  type : String
  status : String
  deriving DecidableEq, Repr

/-- `ClusterStatusResult` -/
structure ClusterStatusResult where
  enabled : Bool
  running : Bool
  nodes : List ClusterNode

/-- One node of `cluster_status`: its type is `master` or `worker`. -/
def clusterNode (n : Json) : Except Exn ClusterNode := do
  let name ← n.getD "name" (.str "")
  let type ← n.getD "type" (.str "worker")
  let status ← n.getD "status" (.str "")
  let type ← type.strField
  if type = "master" ∨ type = "worker" then
    return ⟨name.pyStr, type, status.pyStr⟩
  else
    .error .validation

/-- `cluster_status`, which does not pass `run_as` on. -/
def clusterStatus : UpProg ClusterStatusResult := do
  let raw ← ServerApiClient.clusterStatus none
  let nodes ← raw.nodes.iter
  return ⟨raw.enabled, raw.running, ← (nodes.mapM clusterNode : Except Exn (List ClusterNode))⟩

end WazuhMcp
