import WazuhMcp.Wazuh.Upstream

/-!
# The indexer client and its queries

`IndexerClient.search`, and the builders of the bodies it is called with. A builder takes validated
pieces and never raw DSL; it rejects an identifier or a time range that is not of its grammar.
-/

namespace WazuhMcp

open Interact

/-! ## The client -/

/-- `search(index=..., query=...)` -/
def IndexerClient.search (index : String) (query : Json) : UpProg Json :=
  if index = "" ∨ index.toList.contains '/' ∨ Text.contains index ".." then
    .raise Exn.valueError
  else
    .op (.send {
        upstream := .indexer
        method := "POST"
        path := "/" ++ index ++ "/_search"
        payload := .json query
        authorization := .basic }) fun
      | .error x => .raise x.exn
      | .ok resp =>
        if 400 ≤ resp.statusCode then
          .raise (.wazuh (mapHttpError resp.statusCode))
        else
          .ofExcept (rethrow resp.json)

/-- What the other calls do with a request. -/
def IndexerClient.exchange (req : UpRequest) : UpProg Json :=
  .op (.send req) fun
    | .error x => .raise x.exn
    | .ok resp =>
      if 400 ≤ resp.statusCode then
        .raise (.wazuh (mapHttpError resp.statusCode))
      else
        .ofExcept (rethrow resp.json)

theorem IndexerClient.search_eq (index : String) (query : Json) :
    search index query =
      if index = "" ∨ index.toList.contains '/' ∨ Text.contains index ".." then
        .raise Exn.valueError
      else
        exchange
          { upstream := .indexer
            method := "POST"
            path := "/" ++ index ++ "/_search"
            payload := .json query
            authorization := .basic } := by
  unfold search exchange
  congr 2
  funext r
  cases r with
  | error x => rfl
  | ok resp => rfl

/-- The request of a search. -/
def IndexerClient.searchRequest (index : String) (query : Json) : UpRequest where
  upstream := .indexer
  method := "POST"
  path := "/" ++ index ++ "/_search"
  payload := .json query
  authorization := .basic

/-- The only step of a search sends its request. -/
theorem IndexerClient.every_search {Q : UpEvent → Prop} {index : String} {query : Json}
    (h : ∀ ans, Q ⟨.send (searchRequest index query), ans⟩) : (search index query).Every Q := by
  rw [search]
  split
  · exact Prog.every_raise _
  · refine fun r => ⟨h r, ?_⟩
    cases r with
    | error x => trivial
    | ok resp =>
      show Prog.Every (if _ then _ else _) Q
      split
      · exact Prog.every_raise _
      · exact Prog.every_ofExcept _

/-- A search sends its request, and nothing else. -/
theorem IndexerClient.sends_search {P : UpRequest → Prop} {index : String} {query : Json}
    (h : P (searchRequest index query)) : (search index query).Sends P := by
  refine every_search ?_
  rintro ans req ⟨⟩
  exact h

/-- `bulk(body=...)` -/
def IndexerClient.bulk (body : String) : UpProg Json :=
  exchange
    { upstream := .indexer
      method := "POST"
      path := "/_bulk"
      payload := .content "application/x-ndjson" body
      authorization := .basic }

/-- `put_index_template(name=..., body=...)` -/
def IndexerClient.putIndexTemplate (name : String) (body : Json) : UpProg Json :=
  if name = "" ∨ name.toList.contains '/' ∨ Text.contains name ".." then
    .raise Exn.valueError
  else
    exchange
      { upstream := .indexer
        method := "PUT"
        path := "/_index_template/" ++ name
        payload := .json body
        authorization := .basic }

/-! ## Grammars -/

/-- `_AGENT_ID_RE.match(s)` -/
def agentIdMatches (s : String) : Bool :=
  Text.reMatch (fun cs => cs.all Char.isDigit && 3 ≤ cs.length && cs.length ≤ 10) s

/-- `_MITRE_ID_RE.match(s)` -/
def mitreIdMatches (s : String) : Bool :=
  Text.reMatch (fun
    | 'T' :: cs =>
      (cs.take 4).length = 4 && (cs.take 4).all Char.isDigit &&
        match cs.drop 4 with
        | [] => true
        | '.' :: ds => ds.length = 3 && ds.all Char.isDigit
        | _ => false
    | _ => false) s

/-- `_CVE_ID_RE.match(s)` -/
def cveIdMatches (s : String) : Bool :=
  Text.reMatch (fun
    | 'C' :: 'V' :: 'E' :: '-' :: cs =>
      (cs.take 4).length = 4 && (cs.take 4).all Char.isDigit &&
        match cs.drop 4 with
        | '-' :: ds => 4 ≤ ds.length && ds.all Char.isDigit
        | _ => false
    | _ => false) s

/-- `_UNIT_SECONDS` -/
def unitSeconds : Char → Option ℕ
  | 'm' => some 60
  | 'h' => some 3600
  | 'd' => some 86400
  | _ => none

/-- `_MAX_LOOKBACK_SECONDS` -/
def maxLookbackSeconds : ℕ := 30 * 86400

/-- The number and the unit of `^([1-9][0-9]*)([mhd])$`, between the anchors. -/
def timeRangeParts (cs : List Char) : Option (ℕ × ℕ) := do
  let unit ← unitSeconds (← cs.getLast?)
  match cs.dropLast with
  | d :: ds =>
    if d ≠ '0' ∧ (d :: ds).all Char.isDigit then some (Text.natOfDigits (d :: ds), unit) else none
  | [] => none

/-- `_TIME_RANGE_RE.match(tr)`; the `$` also matches before a final newline. -/
def timeRangeMatch (tr : String) : Option (ℕ × ℕ) :=
  timeRangeParts
    (if tr.toList.getLast? = some '\n' then tr.toList.dropLast else tr.toList)

/-- `_validate_time_range(tr)` -/
def validateTimeRange (tr : String) : Except Exn Unit :=
  match timeRangeMatch tr with
  | none => .error Exn.valueError
  | some (n, unit) => if maxLookbackSeconds ≤ n * unit then .error Exn.valueError else .ok ()

/-- `_SEVERITIES` -/
def severities : List String := ["Low", "Medium", "High", "Critical"]

/-- The severities from a given one upwards. -/
def severitiesFrom (minSeverity : String) : Except Exn (List String) :=
  let sev := Text.capitalize minSeverity
  if sev ∈ severities then .ok (severities.dropWhile (· != sev)) else .error Exn.valueError

/-- What a builder does when a check fails. -/
def require (check : Bool) : Except Exn Unit := if check then .ok () else .error Exn.valueError

/-! ## Queries -/

/-- `DEFAULT_ALERT_FIELDS` -/
def defaultAlertFields : List String :=
  ["timestamp", "@timestamp", "agent.id", "agent.name", "agent.ip", "rule.id", "rule.level",
    "rule.description", "rule.mitre.id", "rule.mitre.tactic", "location", "decoder.name"]

/-- `DEFAULT_VULN_FIELDS` -/
def defaultVulnFields : List String :=
  ["vulnerability.id", "vulnerability.severity", "vulnerability.scores.base.score",
    "vulnerability.published_at", "vulnerability.detected_at", "vulnerability.status",
    "package.name", "package.version", "agent.id", "timestamp", "@timestamp"]

/-- `DEFAULT_FIM_FIELDS` -/
def defaultFimFields : List String :=
  ["agent.id", "timestamp", "@timestamp", "syscheck.path", "syscheck.event",
    "syscheck.sha256_after", "syscheck.md5_after", "syscheck.size_after", "syscheck.uid_after",
    "syscheck.gid_after"]

/-- `{"term": {field: value}}` -/
def term (field : String) (value : Json) : Json := .obj [("term", .obj [(field, value)])]

/-- `{"range": {field: {op: value}}}` -/
def range (field op : String) (value : Json) : Json :=
  .obj [("range", .obj [(field, .obj [(op, value)])])]

/-- The clause for a lookback. -/
def since (timeRange : String) : Json := range "@timestamp" "gte" (.str ("now-" ++ timeRange))

/-- `min(max(1, size), MAX_ALERT_SIZE)` -/
def clampSize (size : ℤ) : ℤ := min (max 1 size) 100

/-- A query of the shape that all builders but one share. -/
def boolQuery (bool : JsonObject) (size : ℤ) (sortKey : String) (source : List String)
    (cursor : Option (List Json)) : Json :=
  .obj <|
    [("query", .obj [("bool", .obj bool)]), ("size", .int size),
      ("sort", .arr [.obj [(sortKey, .str "desc")]]), ("_source", .arr (source.map .str)),
      ("terminate_after", .int 10000)] ++
    match cursor with
    | some (c :: cs) => [("search_after", .arr (c :: cs))]
    | _ => []

/-- A query for alerts or file-integrity events. -/
def alertsQuery (must : List Json) (size : ℤ) (source : List String)
    (cursor : Option (List Json)) : Json :=
  boolQuery [("must", .arr must)] (clampSize size) "@timestamp" source cursor

/-- `build_search_alerts_query` -/
def buildSearchAlertsQuery (timeRange : String) (minLevel : Option ℤ) (agentId : Option String)
    (size : ℤ) (cursor : Option (List Json)) : Except Exn Json := do
  validateTimeRange timeRange
  require (minLevel.all fun l => 0 ≤ l && l ≤ 15)
  let must := [since timeRange] ++
    (minLevel.map fun l => range "rule.level" "gte" (.int l)).toList ++
    (agentId.map fun id => term "agent.id" (.str id)).toList
  return alertsQuery must size defaultAlertFields cursor

/-- `build_get_alert_query` -/
def buildGetAlertQuery (alertId : String) : Except Exn Json := do
  require (alertId != "" && !alertId.toList.any fun c => c == '/' || c == '\\')
  return .obj [("query", term "_id" (.str alertId)), ("size", .int 1),
    ("_source", .arr (defaultAlertFields.map .str)), ("terminate_after", .int 10)]

/-- `build_alerts_by_agent_query` -/
def buildAlertsByAgentQuery (agentId timeRange : String) (size : ℤ)
    (cursor : Option (List Json)) : Except Exn Json := do
  require (agentIdMatches agentId)
  validateTimeRange timeRange
  return alertsQuery [since timeRange, term "agent.id" (.str agentId)] size defaultAlertFields cursor

/-- `build_alerts_by_mitre_query` -/
def buildAlertsByMitreQuery (techniqueId timeRange : String) (size : ℤ)
    (cursor : Option (List Json)) : Except Exn Json := do
  require (mitreIdMatches techniqueId)
  validateTimeRange timeRange
  return alertsQuery [since timeRange, term "rule.mitre.id" (.str techniqueId)] size
    defaultAlertFields cursor

/-- The clause for a minimum severity, if one is asked for. -/
def severityClause (minSeverity : Option String) : Except Exn (List Json) :=
  match minSeverity with
  | none => .ok []
  | some s => do
    let allowed ← severitiesFrom s
    return [.obj [("terms", .obj [("vulnerability.severity", .arr (allowed.map .str))])]]

/-- A query for vulnerabilities. -/
def vulnerabilitiesQuery (must : List Json) (size : ℤ) (cursor : Option (List Json)) : Json :=
  boolQuery [("must", .arr must)] (clampSize size) "vulnerability.detected_at" defaultVulnFields
    cursor

/-- `build_vulnerabilities_by_agent_query` -/
def buildVulnerabilitiesByAgentQuery (agentId : String) (minSeverity : Option String) (size : ℤ)
    (cursor : Option (List Json)) : Except Exn Json := do
  require (agentIdMatches agentId)
  let severity ← severityClause minSeverity
  return vulnerabilitiesQuery (term "agent.id" (.str agentId) :: severity) size cursor

/-- `build_search_vulnerabilities_query` -/
def buildSearchVulnerabilitiesQuery (cveId minSeverity : Option String) (size : ℤ)
    (cursor : Option (List Json)) : Except Exn Json := do
  require (cveId.isSome || minSeverity.isSome)
  require (cveId.all cveIdMatches)
  let severity ← severityClause minSeverity
  return vulnerabilitiesQuery
    ((cveId.map fun id => term "vulnerability.id" (.str id)).toList ++ severity) size cursor

/-- `build_fim_history_for_path_query` -/
def buildFimHistoryForPathQuery (path timeRange : String) (size : ℤ)
    (cursor : Option (List Json)) : Except Exn Json := do
  require (path != "" && path.length ≤ 1024)
  validateTimeRange timeRange
  return alertsQuery [since timeRange, term "syscheck.path" (.str path)] size defaultFimFields cursor

/-- `build_fim_changes_by_agent_query` -/
def buildFimChangesByAgentQuery (agentId timeRange : String) (size : ℤ)
    (cursor : Option (List Json)) : Except Exn Json := do
  require (agentIdMatches agentId)
  validateTimeRange timeRange
  return alertsQuery [since timeRange, term "agent.id" (.str agentId),
    .obj [("exists", .obj [("field", .str "syscheck.path")])]] size defaultFimFields cursor

end WazuhMcp
