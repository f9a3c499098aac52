import WazuhMcp.Wazuh.Upstream

/-!
# The Server API client

Every request goes out with a token, which is minted when there is no fresh one, and once more after
a 401 response. `every_exchange` says what a call does, whatever the service answers: it asks for a
token, and sends the one request that was asked for, perhaps twice.
-/

namespace WazuhMcp.ServerApiClient

open Interact

/-- `await self._client.send(...)`, with a timeout mapped. -/
def send (req : UpRequest) : UpProg UpResponse :=
  .op (.send req) fun
    | .ok resp => .ret resp
    | .error x => .raise (if x.exn.isTimeout then .wazuh mapTimeout else x.exn)

/-- The request that mints a token. -/
def mintRequest : UpRequest where
  upstream := .serverApi
  method := "POST"
  path := "/security/user/authenticate"
  authorization := .basic

/-- `_mint_locked()` -/
def mintLocked : UpProg String := do
  let resp ← send mintRequest
  if 400 ≤ resp.statusCode then
    .raise (.wazuh (mapHttpError resp.statusCode))
  else
    let body ← rethrow resp.json
    let data ← body.getD "data" (.obj [])
    match ← data.getD "token" .null with
    | .str token =>
      if token = "" then
        .raise (.wazuh (mapHttpError 500))
      else
        .op (.storeToken token) fun _ => .ret token
    | _ => .raise (.wazuh (mapHttpError 500))

/-- `_ensure_jwt()` -/
def ensureJwt : UpProg String := do
  UpProg.lock
  .op .freshToken fun
    | some token => .ret token
    | none => mintLocked

/-- `_refresh_jwt_force()` -/
def refreshJwtForce : UpProg String := do
  UpProg.lock
  mintLocked

/-! ## Requests -/

/-- `dict(params or {})`, with `run_as` when there is one. -/
def effectiveParams (params : JsonObject) (runAs : Option String) : JsonObject :=
  runAs.elim params fun user => Dict.set params "run_as" (.str user)

/-- The other parameters are sent as they are. -/
theorem lookup_effectiveParams_of_ne {params : JsonObject} {runAs : Option String} {key : String}
    (h : key ≠ "run_as") : (effectiveParams params runAs).lookup key = params.lookup key := by
  cases runAs with
  | none => rfl
  | some user => rw [effectiveParams, Option.elim_some, Dict.lookup_set, if_neg h]

/-- After a 401 response the request is sent once more, with a new token. -/
def replay (build : String → UpRequest) (resp : UpResponse) : UpProg UpResponse := do
  if resp.statusCode = 401 then
    let token ← refreshJwtForce
    send (build token)
  else
    pure resp

/-- The part that `_request` and `put_raw` share. -/
def exchange (build : String → UpRequest) : UpProg Json := do
  let token ← ensureJwt
  let resp ← send (build token)
  let resp ← replay build resp
  if 400 ≤ resp.statusCode then
    .raise (.wazuh (mapHttpError resp.statusCode))
  else
    Prog.ofExcept (rethrow resp.json)

/-- `_request(method, path, params=..., json=..., run_as=...)` -/
def request (method path : String) (params : JsonObject) (json : Option Json)
    (runAs : Option String) : UpProg Json :=
  exchange fun jwt =>
    { upstream := .serverApi
      method := method
      path := path
      params := effectiveParams params runAs
      payload := json.elim .empty .json
      authorization := .bearer jwt }

/-- `get(path, params=..., run_as=...)` -/
def get (path : String) (params : JsonObject) (runAs : Option String) : UpProg Json :=
  request "GET" path params none runAs

/-- `post(path, json=..., params=..., run_as=...)` -/
def post (path : String) (json : Option Json) (params : JsonObject) (runAs : Option String) :
    UpProg Json :=
  request "POST" path params json runAs

/-- `put(path, json=..., params=..., run_as=...)` -/
def put (path : String) (json : Option Json) (params : JsonObject) (runAs : Option String) :
    UpProg Json :=
  request "PUT" path params json runAs

/-- `delete(path, params=..., run_as=...)` -/
def delete (path : String) (params : JsonObject) (runAs : Option String) : UpProg Json :=
  request "DELETE" path params none runAs

/-- `put_raw(path, content=..., content_type=..., params=..., run_as=...)` -/
def putRaw (path content contentType : String) (params : JsonObject) (runAs : Option String) :
    UpProg Json :=
  exchange fun jwt =>
    { upstream := .serverApi
      method := "PUT"
      path := path
      params := effectiveParams params runAs
      payload := .content contentType content
      authorization := .bearer jwt }

/-! ## The steps of a request -/

section Steps

variable {Q : UpEvent → Prop}

theorem every_send {req : UpRequest} (hreq : ∀ ans, Q ⟨.send req, ans⟩) : (send req).Every Q := by
  rintro (x | resp)
  · exact ⟨hreq _, trivial⟩
  · exact ⟨hreq _, trivial⟩

theorem every_lock (hown : ∀ op ans, op.internal = true → Q ⟨op, ans⟩) : UpProg.lock.Every Q :=
  fun _ => ⟨hown _ _ rfl, Prog.every_ofExcept _⟩

theorem every_mintLocked (hown : ∀ op ans, op.internal = true → Q ⟨op, ans⟩)
    (hmint : ∀ ans, Q ⟨.send mintRequest, ans⟩) : mintLocked.Every Q := by
  refine Prog.every_bind (every_send hmint) fun resp => ?_
  split
  · exact Prog.every_raise _
  · refine Prog.every_bind (Prog.every_ofExcept _) fun body => ?_
    refine Prog.every_bind (Prog.every_ofExcept _) fun data => ?_
    refine Prog.every_bind (Prog.every_ofExcept _) fun token => ?_
    split
    · split
      · exact Prog.every_raise _
      · exact fun _ => ⟨hown _ _ rfl, trivial⟩
    · exact Prog.every_raise _

/-- **The steps of a call** are the client's own, those that ask for a token, and those that send the
request it was built for. -/
theorem every_exchange {build : String → UpRequest}
    (hown : ∀ op ans, op.internal = true → Q ⟨op, ans⟩) (hmint : ∀ ans, Q ⟨.send mintRequest, ans⟩)
    (hbuild : ∀ jwt ans, Q ⟨.send (build jwt), ans⟩) : (exchange build).Every Q := by
  refine Prog.every_bind ?_ fun token => ?_
  · refine Prog.every_bind (every_lock hown) fun _ => ?_
    refine fun r => ⟨hown _ _ rfl, ?_⟩
    cases r with
    | none => exact every_mintLocked hown hmint
    | some token => trivial
  · refine Prog.every_bind (every_send (hbuild token)) fun resp => ?_
    refine Prog.every_bind ?_ fun resp => ?_
    · rw [replay]
      split
      · refine Prog.every_bind (Prog.every_bind (every_lock hown) fun _ => every_mintLocked hown hmint) ?_
        exact fun token => every_send (hbuild token)
      · exact Prog.every_pure _
    · split
      · exact Prog.every_raise _
      · exact Prog.every_ofExcept _

end Steps

section Sends

variable {P : UpRequest → Prop}

theorem sends_internal {op : UpOp} (ans : op.Result) (hop : op.internal = true) :
    ∀ req, (⟨op, ans⟩ : UpEvent).op = .send req → P req := by
  rintro req rfl
  cases hop

theorem sends_mintLocked (hmint : P mintRequest) : mintLocked.Sends P := by
  refine every_mintLocked (fun _ ans => sends_internal ans) ?_
  rintro ans req ⟨⟩
  exact hmint

theorem sends_lock : UpProg.lock.Sends P := every_lock fun _ ans => sends_internal ans

/-- **A call sends** requests for a token, and the request it was built for. -/
theorem sends_exchange {build : String → UpRequest} (hmint : P mintRequest)
    (hbuild : ∀ jwt, P (build jwt)) : (exchange build).Sends P := by
  refine every_exchange (fun _ ans => sends_internal ans) ?_ ?_
  · rintro ans req ⟨⟩
    exact hmint
  · rintro jwt ans req ⟨⟩
    exact hbuild jwt

end Sends

theorem sends_ensureJwt : ensureJwt.Sends (· = mintRequest) := by
  refine UpProg.sends_bind sends_lock fun _ => UpProg.sends_op (by rintro _ ⟨⟩) fun r => ?_
  cases r with
  | none => exact sends_mintLocked rfl
  | some token => trivial

theorem sends_refreshJwtForce : refreshJwtForce.Sends (· = mintRequest) :=
  UpProg.sends_bind sends_lock fun _ => sends_mintLocked rfl

/-- A request that the program sends, if it gets so far: it sends something, or fails with an exception
that is none of the server's own. -/
def Reaches {α : Type} (p : UpProg α) (upstream : Upstream) : Prop :=
  p.All fun tr out =>
    (∃ req ∈ requests tr, req.upstream = upstream) ∨ ∃ x : ForeignExn, out = .error x.exn

theorem reaches_op_send {α : Type} {req : UpRequest} {upstream : Upstream}
    {k : UpOp.Result (.send req) → UpProg α} (h : req.upstream = upstream) :
    Reaches (.op (.send req) k) upstream :=
  fun _ => Prog.all_of_forall _ fun _ _ =>
    .inl ⟨req, mem_requests.mpr ⟨_, List.mem_cons_self, rfl⟩, h⟩

theorem Reaches.bind {α β : Type} {p : UpProg α} {upstream : Upstream} (h : Reaches p upstream)
    (f : α → UpProg β) : Reaches (p >>= f) upstream := by
  refine (Prog.all_bind p f _).mpr (Prog.All.mono h fun tr out hout => ?_)
  rcases hout with ⟨req, hreq, hup⟩ | ⟨x, rfl⟩
  · cases out with
    | ok a =>
      refine Prog.all_of_forall _ fun tr' out' => .inl ⟨req, ?_, hup⟩
      rw [requests, List.filterMap_append]
      exact List.mem_append_left _ hreq
    | error x => exact .inl ⟨req, hreq, hup⟩
  · exact .inr ⟨x, rfl⟩

/-- **A call reaches the service**: it sends a request, or fails with a foreign exception. -/
theorem reaches_exchange (build : String → UpRequest) (h : ∀ jwt, (build jwt).upstream = .serverApi) :
    Reaches (exchange build) .serverApi := by
  intro r
  cases r with
  | error x => exact .inr ⟨x, rfl⟩
  | ok _ =>
    intro token
    cases token with
    | some jwt => exact (reaches_op_send (h jwt)).bind _
    | none => exact ((reaches_op_send rfl).bind _).bind _

/-! ## Writes -/

/-- `isolate_agent` -/
def isolateAgent (agentIds : List String) (runAs : Option String) : UpProg Json :=
  put "/active-response" (some (.obj [("command", .str "isolate")]))
    [("agents_list", .str (Text.join ',' agentIds))] runAs

/-- `restart_agent` -/
def restartAgent (agentId : String) (runAs : Option String) : UpProg Json :=
  put ("/agents/" ++ agentId ++ "/restart") none [] runAs

/-- `add_agent_to_group` -/
def addAgentToGroup (agentId groupId : String) (runAs : Option String) : UpProg Json :=
  put ("/agents/" ++ agentId ++ "/group/" ++ groupId) none [] runAs

/-- `remove_agent_from_group` -/
def removeAgentFromGroup (agentId groupId : String) (runAs : Option String) : UpProg Json :=
  delete ("/agents/" ++ agentId ++ "/group/" ++ groupId) [] runAs

/-- `upload_rule_file` -/
def uploadRuleFile (filename xml : String) (runAs : Option String) : UpProg Json :=
  putRaw ("/rules/files/" ++ filename) xml "application/octet-stream"
    [("overwrite", .str "true")] runAs

/-- The body of an active response: the command is set last, over whatever the arguments hold. -/
def activeResponseBody (command : String) (customArgs : Option JsonObject) : JsonObject :=
  Dict.set (customArgs.getD []) "command" (.str command)

/-- `run_active_response` -/
def runActiveResponse (agentIds : List String) (command : String)
    (customArgs : Option JsonObject) (runAs : Option String) : UpProg Json :=
  put "/active-response" (some (.obj (activeResponseBody command customArgs)))
    [("agents_list", .str (Text.join ',' agentIds))] runAs

/-- The ids that `run_active_response_on_group` reads off the response to `GET /agents`. -/
def groupAgentIds (resp : Json) : Except Exn (List String) := do
  let data ← resp.getD "data" .null
  let affected ← (data.or (.obj [])).getD "affected_items" .null
  let items ← (affected.or (.arr [])).iter
  let items ← items.filterM fun item => item.contains "id"
  items.mapM fun item => Json.pyStr <$> item.item "id"

/-- `run_active_response_on_group` -/
def runActiveResponseOnGroup (groupName command : String) (customArgs : Option JsonObject)
    (runAs : Option String) : UpProg Json := do
  let agentsResp ← get "/agents"
    [("group", .str groupName), ("select", .str "id"), ("limit", .int 500)] runAs
  let agentIds ← groupAgentIds agentsResp
  if agentIds.isEmpty then
    pure (.obj [("data", .obj [("affected_items", .arr []), ("failed_items", .arr [])])])
  else
    runActiveResponse agentIds command customArgs runAs

/-- `restart_cluster` -/
def restartCluster (scope : String) (runAs : Option String) : UpProg Json :=
  put (if scope = "cluster" then "/cluster/restart" else "/manager/restart") none [] runAs

/-- `data.get(flag, "no") == "yes"` -/
def flagSet (data : Json) (flag : String) : Except Exn Bool := do
  match ← data.getD flag (.str "no") with
  | .str s => pure (s == "yes")
  | _ => pure false

/-- What `cluster_status` returns. -/
structure ClusterState where
  enabled : Bool
  running : Bool
  nodes : Json

/-- The dictionary that it returns. -/
def ClusterState.json (state : ClusterState) : Json :=
  .obj [("enabled", .bool state.enabled), ("running", .bool state.running), ("nodes", state.nodes)]

/-- `cluster_status` -/
def clusterStatus (runAs : Option String) : UpProg ClusterState := do
  let statusResp ← get "/cluster/status" [] runAs
  let data ← statusResp.getD "data" (.obj [])
  let enabled ← flagSet data "enabled"
  let running ← flagSet data "running"
  if enabled then
    let nodesResp ← get "/cluster/nodes" [] runAs
    let nodesData ← nodesResp.getD "data" (.obj [])
    let nodes ← nodesData.getD "affected_items" (.arr [])
    pure ⟨enabled, running, nodes.or (.arr [])⟩
  else
    pure ⟨enabled, running, .arr []⟩

end WazuhMcp.ServerApiClient
