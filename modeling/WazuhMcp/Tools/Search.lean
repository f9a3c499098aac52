import WazuhMcp.Auth.Session
import WazuhMcp.Wazuh.Indexer
import WazuhMcp.Wazuh.Models

/-!
# The tools on the indexer

Alerts, vulnerabilities, file-integrity events and hunts. Each builds one query, sends one search and
maps the hits to rows, with a cursor for the next page (`searchRows`).
-/

namespace WazuhMcp

open Interact

/-! ## One search -/

/-- A page of rows: the fields that the results of all search tools have. -/
structure Rows (Row : Type) where
  rows : List Row
  total : ℤ
  nextCursor : Option (List Json)
  truncated : Bool

/-- `total` as a tool reads it off `hits.total`, before the result validates it. -/
def readTotal (totalBlock : Json) : Except Exn Json :=
  match totalBlock with
  | .obj _ => totalBlock.getD "value" (.int 0)
  | x => .int <$> x.toInt

/-- `next_cursor`: the sort values of the last hit, if it has any. -/
def readCursor (rawHits : List Json) : Except Exn Json :=
  match rawHits.getLast? with
  | none => .ok .null
  | some hit => do
    if ← hit.contains "sort" then hit.item "sort" else pure .null

/-- The page that a tool makes of a search response. -/
def readRows {Row : Type} (py : Pydantic) (fromHit : Json → Except Exn Row) (wantedSize : ℤ)
    (body : Json) : Except Exn (Rows Row) := do
  let hits ← body.getD "hits" (.obj [])
  let rawHits ← hits.getD "hits" (.arr [])
  let total ← readTotal (← hits.getD "total" (.obj []))
  let rawHits ← rawHits.iter
  let rows ← rawHits.mapM fromHit
  let nextCursor ← readCursor rawHits
  return ⟨rows, ← py.intField total, ← optListField nextCursor, rows.length = wantedSize⟩

/-- `_filtered_alerts_search`, `_vuln_search` and `_fim_search`: build a query, search, read a page. -/
def searchRows {Row : Type} (py : Pydantic) (index : String) (buildQuery : Except Exn Json)
    (fromHit : Json → Except Exn Row) (wantedSize : ℤ) : UpProg (Rows Row) := do
  let query ← buildQuery
  let body ← IndexerClient.search index query
  readRows py fromHit wantedSize body

/-! ## Alerts -/

/-- `SearchAlertsArgs` -/
structure SearchAlertsArgs where
  timeRange : String := "1h"
  minLevel : Option (Ranged 0 15) := none
  agentId : Option String := none
  size : Ranged 1 100 := ⟨25, by decide⟩
  cursor : Option (List Json) := none

/-- `search_alerts` -/
def searchAlerts (py : Pydantic) (args : SearchAlertsArgs) : UpProg (Rows Alert) :=
  searchRows py "wazuh-alerts-*"
    (buildSearchAlertsQuery args.timeRange (args.minLevel.map (·.1)) args.agentId args.size args.cursor)
    Alert.fromHit args.size

/-- `GetAlertArgs` -/
structure GetAlertArgs where
  alertId : Sized 1 128

/-- `get_alert` -/
def getAlert (args : GetAlertArgs) : UpProg Alert := do
  let query ← buildGetAlertQuery args.alertId
  let body ← IndexerClient.search "wazuh-alerts-*" query
  let hits ← (← body.getD "hits" (.obj [])).getD "hits" (.arr [])
  if hits.truthy then
    let first ← hits.index 0
    Alert.fromHit first
  else
    .raise (.wazuh ⟨.notFound, "alert not found", 404, none⟩)

/-- `AlertsByAgentArgs` -/
structure AlertsByAgentArgs where
  agentId : Sized 1 16
  timeRange : String := "24h"
  size : Ranged 1 100 := ⟨25, by decide⟩
  cursor : Option (List Json) := none

/-- `alerts_by_agent` -/
def alertsByAgent (py : Pydantic) (args : AlertsByAgentArgs) : UpProg (Rows Alert) :=
  searchRows py "wazuh-alerts-*"
    (buildAlertsByAgentQuery args.agentId args.timeRange args.size args.cursor) Alert.fromHit args.size

/-- `AlertsByMitreArgs` -/
structure AlertsByMitreArgs where
  techniqueId : Sized 4 16
  timeRange : String := "24h"
  size : Ranged 1 100 := ⟨25, by decide⟩
  cursor : Option (List Json) := none

/-- `alerts_by_mitre` -/
def alertsByMitre (py : Pydantic) (args : AlertsByMitreArgs) : UpProg (Rows Alert) :=
  searchRows py "wazuh-alerts-*"
    (buildAlertsByMitreQuery args.techniqueId args.timeRange args.size args.cursor)
    Alert.fromHit args.size

/-! ## Vulnerabilities -/

/-- `VULN_INDEX` -/
def vulnIndex : String := "wazuh-states-vulnerabilities-*"

/-- `ListVulnerabilitiesByAgentArgs` -/
structure ListVulnerabilitiesByAgentArgs where
  agentId : Sized 1 16
  minSeverity : Option String := none
  size : Ranged 1 100 := ⟨25, by decide⟩
  cursor : Option (List Json) := none

/-- `list_vulnerabilities_by_agent` -/
def listVulnerabilitiesByAgent (py : Pydantic) (args : ListVulnerabilitiesByAgentArgs) :
    UpProg (Rows Vulnerability) :=
  searchRows py vulnIndex
    (buildVulnerabilitiesByAgentQuery args.agentId args.minSeverity args.size args.cursor)
    (Vulnerability.fromHit py) args.size

/-- `SearchVulnerabilitiesArgs` -/
structure SearchVulnerabilitiesArgs where
  cveId : Option String := none
  minSeverity : Option String := none
  size : Ranged 1 100 := ⟨25, by decide⟩
  cursor : Option (List Json) := none

/-- `search_vulnerabilities` -/
def searchVulnerabilities (py : Pydantic) (args : SearchVulnerabilitiesArgs) :
    UpProg (Rows Vulnerability) :=
  searchRows py vulnIndex
    (buildSearchVulnerabilitiesQuery args.cveId args.minSeverity args.size args.cursor)
    (Vulnerability.fromHit py) args.size

/-! ## File integrity -/

/-- `FimHistoryArgs` -/
structure FimHistoryArgs where
  path : Sized 1 1024
  timeRange : String := "24h"
  size : Ranged 1 100 := ⟨25, by decide⟩
  cursor : Option (List Json) := none

/-- `fim_history_for_path` -/
def fimHistoryForPath (py : Pydantic) (args : FimHistoryArgs) : UpProg (Rows FimEvent) :=
  searchRows py "wazuh-alerts-*"
    (buildFimHistoryForPathQuery args.path args.timeRange args.size args.cursor)
    (FimEvent.fromHit py) args.size

/-- `FimChangesArgs` -/
structure FimChangesArgs where
  agentId : Sized 1 16
  timeRange : String := "24h"
  size : Ranged 1 100 := ⟨25, by decide⟩
  cursor : Option (List Json) := none

/-- `fim_changes_by_agent` -/
def fimChangesByAgent (py : Pydantic) (args : FimChangesArgs) : UpProg (Rows FimEvent) :=
  searchRows py "wazuh-alerts-*"
    (buildFimChangesByAgentQuery args.agentId args.timeRange args.size args.cursor)
    (FimEvent.fromHit py) args.size

/-! ## Hunts -/

/-- `FIELD_ALLOWLIST` -/
def fieldAllowlist : List String :=
  ["agent.id", "agent.name", "agent.ip", "rule.id", "rule.level", "rule.groups", "rule.mitre.id",
    "rule.mitre.tactic", "location", "decoder.name", "full_log", "data.srcip", "data.dstip",
    "data.srcuser", "data.dstuser", "data.srcport", "data.dstport", "data.url", "data.hostname",
    "syscheck.path", "syscheck.sha256_after", "syscheck.md5_after", "timestamp", "@timestamp"]

/-- The operators of a clause, `OP_ALLOWLIST`. -/
inductive HuntOp where
  | eq
  | ne
  | gt
  | gte
  | lt
  | lte
  | isIn
  | exists_
  | prefix_
  deriving DecidableEq, Repr

/-- The operator as it is written in a clause. -/
def HuntOp.text : HuntOp → String
  | .eq => "eq"
  | .ne => "ne"
  | .gt => "gt"
  | .gte => "gte"
  | .lt => "lt"
  | .lte => "lte"
  | .isIn => "in"
  | .exists_ => "exists"
  | .prefix_ => "prefix"

/-- A value of type `str | int | float`. -/
def isHuntScalar : Json → Bool
  | .str _ | .int _ | .float _ => true
  | _ => false

/-- `_op_value_consistency`, on a value of type `str | int | float | bool | list[str | int | float]`. -/
def opAdmits (op : HuntOp) (value : Json) : Bool :=
  match op, value with
  | .isIn, .arr xs => xs.all isHuntScalar && 1 ≤ xs.length && xs.length ≤ 100
  | .isIn, _ => false
  | .exists_, .bool b => b
  | .exists_, _ => false
  | .prefix_, .str s => 3 ≤ s.length
  | .prefix_, _ => false
  | _, .bool _ => true
  | _, x => isHuntScalar x

/-- `HuntClause` -/
structure HuntClause where
  field : String
  op : HuntOp
  value : Json
  field_mem : field ∈ fieldAllowlist
  admits : opAdmits op value = true

/-- `HuntQueryArgs` -/
structure HuntQueryArgs where
  timeRange : String
  must : List HuntClause
  mustNot : List HuntClause := []
  size : Ranged 1 100 := ⟨25, by decide⟩
  cursor : Option (List Json) := none
  timeRange_valid : validateTimeRange timeRange = .ok ()
  clauses_le : must.length + mustNot.length ≤ 20
  clauses_pos : 1 ≤ must.length + mustNot.length

/-- `_render_clause(c)` -/
def renderClause (c : HuntClause) : Json :=
  match c.op with
  | .eq | .ne => term c.field c.value
  | .isIn => .obj [("terms", .obj [(c.field, c.value)])]
  | .exists_ => .obj [("exists", .obj [("field", .str c.field)])]
  | .prefix_ => .obj [("prefix", .obj [(c.field, c.value)])]
  | op => range c.field op.text c.value

/-- `_build_hunt_dsl(args)`: a clause with `ne` goes to the other list. -/
def buildHuntDsl (args : HuntQueryArgs) : Json :=
  let positive (cs : List HuntClause) := (cs.filter (·.op ≠ .ne)).map renderClause
  let negative (cs : List HuntClause) := (cs.filter (·.op = .ne)).map renderClause
  let must := since args.timeRange :: (positive args.must ++ negative args.mustNot)
  let mustNot := negative args.must ++ positive args.mustNot
  boolQuery
    (("must", .arr must) :: if mustNot.isEmpty then [] else [("must_not", .arr mustNot)])
    args.size "@timestamp" defaultAlertFields args.cursor

/-- `hunt_query` -/
def huntQuery (py : Pydantic) (args : HuntQueryArgs) : UpProg (Rows Alert) :=
  searchRows py "wazuh-alerts-*" (.ok (buildHuntDsl args)) Alert.fromHit args.size

/-- The `kind` of an indicator of compromise. -/
inductive IocKind where
  | hash
  | ip
  | user
  | domain
  deriving DecidableEq, Repr

/-- The first of the fields that `_PIVOT_FIELDS` has for a kind. -/
def IocKind.primaryField : IocKind → String
  | .hash => "syscheck.sha256_after"
  | .ip => "data.srcip"
  | .user => "data.srcuser"
  | .domain => "data.hostname"

theorem IocKind.primaryField_mem (kind : IocKind) : kind.primaryField ∈ fieldAllowlist := by
  cases kind <;> decide

/-- `PivotByIocArgs` -/
structure PivotByIocArgs where
  kind : IocKind
  value : Sized 1 256
  timeRange : String := "24h"
  size : Ranged 1 100 := ⟨25, by decide⟩
  cursor : Option (List Json) := none

/-- The hunt that a pivot comes to. -/
def pivotHunt (args : PivotByIocArgs) (h : validateTimeRange args.timeRange = .ok ()) :
    HuntQueryArgs where
  timeRange := args.timeRange
  must := [⟨args.kind.primaryField, .eq, .str args.value, args.kind.primaryField_mem, rfl⟩]
  size := args.size
  cursor := args.cursor
  timeRange_valid := h
  clauses_le := by simp
  clauses_pos := by simp

/-- `pivot_by_ioc`. Only the time range can make the hunt's arguments invalid. -/
def pivotByIoc (py : Pydantic) (args : PivotByIocArgs) : UpProg (Rows Alert) :=
  if h : validateTimeRange args.timeRange = .ok () then huntQuery py (pivotHunt args h)
  else .raise .validation

end WazuhMcp
