import WazuhMcp.Base.Json

/-!
# Fields and rows

What pydantic checks of the fields of arguments and results, and the rows that tools return, read off
the documents and items of the upstream services. A row that lacks a required field, or has one of a
wrong type, raises.

Pydantic reads a number off a text in ways of its own, which are left open (`Pydantic`).
-/

namespace WazuhMcp

/-! ## Fields -/

/-- An integer between bounds that pydantic checks. -/
abbrev Ranged (lo hi : ℤ) := {n : ℤ // lo ≤ n ∧ n ≤ hi}

/-- A text whose length pydantic checks. -/
abbrev Sized (lo hi : ℕ) := {s : String // lo ≤ s.length ∧ s.length ≤ hi}

/-- The pattern `^[0-9]{3,10}$` of the argument models. -/
def isAgentId (s : String) : Bool :=
  s.toList.all Char.isDigit && 3 ≤ s.toList.length && s.toList.length ≤ 10

/-- The pattern `^[a-zA-Z0-9_-]+$`. -/
def isGroupId (s : String) : Bool :=
  !s.toList.isEmpty && s.toList.all fun c => c.isAlphanum || c == '_' || c == '-'

/-- A value given to a field of type `list[Any] | None`. -/
def optListField : Json → Except Exn (Option (List Json))
  | .null => .ok none
  | .arr xs => .ok (some xs)
  | _ => .error .validation

/-- A value given to a field of type `dict[str, Any]`. -/
def dictField : Json → Except Exn JsonObject
  | .obj kvs => .ok kvs
  | _ => .error .validation

/-- How pydantic reads a number off a text, in its lax mode. -/
structure Pydantic where
  intOfStr : String → Option ℤ
  floatOfStr : String → Option PyFloat

namespace Pydantic

variable (py : Pydantic)

/-- A value given to a field of type `int`. -/
def intField : Json → Except Exn ℤ
  | .int i => .ok i
  | .bool b => .ok (if b then 1 else 0)
  | .float ⟨.fin q, _⟩ => if q.den = 1 then .ok q.num else .error .validation
  | .str s => (py.intOfStr s).elim (.error .validation) .ok
  | _ => .error .validation

/-- A value given to a field of type `int | None`. -/
def optIntField : Json → Except Exn (Option ℤ)
  | .null => .ok none
  | x => some <$> py.intField x

/-- A value given to a field of type `float | None`, as a value. -/
def optFloatField : Json → Except Exn (Option Json)
  | .null => .ok none
  | .str s => (py.floatOfStr s).elim (.error .validation) fun f => .ok (some (.float f))
  | .int i => .ok (some (.int i))
  | .bool b => .ok (some (.int (if b then 1 else 0)))
  | .float f => .ok (some (.float f))
  | _ => .error .validation

end Pydantic

/-- `x.get(k) or {}` -/
def Json.getObj (x : Json) (k : String) : Except Exn Json :=
  (·.or (.obj [])) <$> x.getD k .null

/-- `x.get(k) or []` -/
def Json.getArr (x : Json) (k : String) : Except Exn Json :=
  (·.or (.arr [])) <$> x.getD k .null

/-- `str(x.get(k) or "")` -/
def Json.getText (x : Json) (k : String) : Except Exn String :=
  (fun v => (v.or (.str "")).pyStr) <$> x.getD k .null

/-- `x.get(k)`, given to a field of type `str | None`. -/
def Json.getOptStr (x : Json) (k : String) : Except Exn (Option String) := do
  (← x.getD k .null).optStrField

/-! ## Alerts -/

/-- `AgentRef` -/
structure AgentRef where
  id : Option String
  name : Option String
  ip : Option String
  deriving DecidableEq, Repr

/-- `AgentRef.model_validate(x)` -/
def AgentRef.modelValidate (x : Json) : Except Exn AgentRef :=
  match x with
  | .obj _ => do
    return ⟨← x.getOptStr "id", ← x.getOptStr "name", ← x.getOptStr "ip"⟩
  | _ => .error .validation

/-- `RuleRef` -/
structure RuleRef where
  id : String
  level : ℤ
  description : String
  mitreIds : List String
  deriving DecidableEq, Repr

/-- `RuleRef.from_source(rule)` -/
def RuleRef.fromSource (rule : Json) : Except Exn RuleRef := do
  let mitre ← rule.getObj "mitre"
  let mitreIds ← (← mitre.getArr "id").iter
  let id ← rule.item "id"
  let level ← (← rule.item "level").toInt
  let description ← rule.item "description"
  let mitreIds ← mitreIds.mapM Json.strField
  return ⟨id.pyStr, level, description.pyStr, mitreIds⟩

/-- `Alert` -/
structure Alert where
  id : String
  timestamp : String
  agent : AgentRef
  rule : RuleRef
  location : Option String
  deriving DecidableEq, Repr

/-- `Alert.from_hit(hit)`. Without a rule, `model_validate` misses a required field. -/
def Alert.fromHit (hit : Json) : Except Exn Alert := do
  let source ← hit.getObj "_source"
  let ruleRaw ← source.getD "rule" .null
  let id ← hit.getD "_id" (.str "")
  if let .null := ruleRaw then
    .error .validation
  else
    let timestamp ← source.getD "timestamp" (.str "")
    let agent ← AgentRef.modelValidate (← source.getObj "agent")
    let rule ← RuleRef.fromSource ruleRaw
    let location ← source.getOptStr "location"
    return ⟨id.pyStr, timestamp.pyStr, agent, rule, location⟩

/-- A text or `None`, as JSON. -/
def optStrDump (s : Option String) : Json := s.elim .null .str

/-- `alert.model_dump()` -/
def Alert.modelDump (a : Alert) : Json :=
  .obj [("id", .str a.id), ("timestamp", .str a.timestamp),
    ("agent", .obj [("id", optStrDump a.agent.id), ("name", optStrDump a.agent.name),
      ("ip", optStrDump a.agent.ip)]),
    ("rule", .obj [("id", .str a.rule.id), ("level", .int a.rule.level),
      ("description", .str a.rule.description), ("mitre_ids", .arr (a.rule.mitreIds.map .str))]),
    ("location", optStrDump a.location)]

/-! ## Agents -/

/-- `Agent` -/
structure Agent where
  id : String
  name : String
  ip : Option String
  status : Option String
  osPlatform : Option String
  osName : Option String
  osVersion : Option String
  version : Option String
  group : List String
  lastKeepAlive : Option String
  dateAdd : Option String
  deriving DecidableEq, Repr

/-- `Agent.from_api(item)` -/
def Agent.fromApi (item : Json) : Except Exn Agent := do
  let osInfo ← item.getObj "os"
  let id ← item.item "id"
  let name ← item.item "name"
  -- an `os` that is no object raises here, before any field is validated
  let osPlatform ← osInfo.getD "platform" .null
  let group ← (← item.getArr "group").iter
  return {
    id := id.pyStr
    name := name.pyStr
    ip := ← item.getOptStr "ip"
    status := ← item.getOptStr "status"
    osPlatform := ← osPlatform.optStrField
    osName := ← osInfo.getOptStr "name"
    osVersion := ← osInfo.getOptStr "version"
    version := ← item.getOptStr "version"
    group := ← group.mapM Json.strField
    lastKeepAlive := ← item.getOptStr "lastKeepAlive"
    dateAdd := ← item.getOptStr "dateAdd" }

/-- `agent.model_dump()` -/
def Agent.modelDump (a : Agent) : Json :=
  .obj [("id", .str a.id), ("name", .str a.name), ("ip", optStrDump a.ip),
    ("status", optStrDump a.status), ("os_platform", optStrDump a.osPlatform),
    ("os_name", optStrDump a.osName), ("os_version", optStrDump a.osVersion),
    ("version", optStrDump a.version), ("group", .arr (a.group.map .str)),
    ("last_keep_alive", optStrDump a.lastKeepAlive), ("date_add", optStrDump a.dateAdd)]

/-! ## Vulnerabilities -/

/-- `Vulnerability` -/
structure Vulnerability where
  id : String
  agentId : String
  packageName : String
  packageVersion : String
  severity : Option String
  cvss3Score : Option Json
  published : Option String
  detectedAt : Option String
  status : Option String

/-- `Vulnerability.from_hit(hit)` -/
def Vulnerability.fromHit (py : Pydantic) (hit : Json) : Except Exn Vulnerability := do
  let src ← hit.getObj "_source"
  let vuln ← src.getObj "vulnerability"
  let pkg ← src.getObj "package"
  let agent ← src.getObj "agent"
  let cvss ← (← vuln.getObj "scores").getD "base" (.obj [])
  let id ← vuln.getText "id"
  let agentId ← agent.getText "id"
  let packageName ← pkg.getText "name"
  let packageVersion ← pkg.getText "version"
  let score ← cvss.getD "score" .null
  return {
    id := id
    agentId := agentId
    packageName := packageName
    packageVersion := packageVersion
    severity := ← vuln.getOptStr "severity"
    cvss3Score := ← py.optFloatField score
    published := ← vuln.getOptStr "published_at"
    detectedAt := ← vuln.getOptStr "detected_at"
    status := ← vuln.getOptStr "status" }

/-- `vulnerability.model_dump()` -/
def Vulnerability.modelDump (v : Vulnerability) : Json :=
  .obj [("id", .str v.id), ("agent_id", .str v.agentId), ("package_name", .str v.packageName),
    ("package_version", .str v.packageVersion), ("severity", optStrDump v.severity),
    ("cvss3_score", v.cvss3Score.getD .null), ("published", optStrDump v.published),
    ("detected_at", optStrDump v.detectedAt), ("status", optStrDump v.status)]

/-! ## File integrity -/

/-- `FimEvent` -/
structure FimEvent where
  agentId : String
  timestamp : String
  path : String
  event : Option String
  sha256After : Option String
  md5After : Option String
  sizeAfter : Option ℤ
  uidAfter : Option String
  gidAfter : Option String
  deriving DecidableEq, Repr

/-- `FimEvent.from_hit(hit)` -/
def FimEvent.fromHit (py : Pydantic) (hit : Json) : Except Exn FimEvent := do
  let src ← hit.getObj "_source"
  let syscheck ← src.getObj "syscheck"
  let agent ← src.getObj "agent"
  return {
    agentId := ← agent.getText "id"
    timestamp := ← src.getText "timestamp"
    path := ← syscheck.getText "path"
    event := ← syscheck.getOptStr "event"
    sha256After := ← syscheck.getOptStr "sha256_after"
    md5After := ← syscheck.getOptStr "md5_after"
    sizeAfter := ← py.optIntField (← syscheck.getD "size_after" .null)
    uidAfter := ← syscheck.getOptStr "uid_after"
    gidAfter := ← syscheck.getOptStr "gid_after" }

/-! ## MITRE techniques -/

/-- `MitreTechnique` -/
structure MitreTechnique where
  id : String
  name : String
  description : Option String
  tactics : List String
  url : Option String
  deriving DecidableEq, Repr

/-- `MitreTechnique.from_api(item)` -/
def MitreTechnique.fromApi (item : Json) : Except Exn MitreTechnique := do
  let id ← item.item "id"
  let name ← item.item "name"
  let tactics ← (← item.getArr "tactics").iter
  return {
    id := id.pyStr
    name := name.pyStr
    description := ← item.getOptStr "description"
    tactics := ← tactics.mapM Json.strField
    url := ← item.getOptStr "url" }

end WazuhMcp
