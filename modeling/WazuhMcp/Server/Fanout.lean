import Mathlib.Algebra.Order.BigOperators.Group.List
import WazuhMcp.Foundations.Expense
import WazuhMcp.Server.Throughput
import WazuhMcp.Tools.Composition
import WazuhMcp.Wazuh.RequestPaths

/-!
# Fan-out

How many requests one MCP request may make of it, whatever the services answer.

* `atMost_exchange`: a call to the Server API sends up to four requests, as both the request and the
  authentication before it may have to be sent twice.
* `fanout_le`: an MCP request sends no more than `McpRequest.fanout`, which is never more than twelve.
* `load_le`: what the limiter grants within a window bounds the requests that it lets through to the services.
-/

namespace WazuhMcp

open Interact Prog

/-! ## Requests as a cost -/

/-- A step costs as much as it sends: a request, or nothing. -/
def UpEvent.cost (ev : UpEvent) : ℕ := ev.op.request.elim 0 fun _ => 1

/-- A step costs as much as it sends: a request, or nothing. -/
def AppEvent.cost (ev : AppEvent) : ℕ := ev.op.request.elim 0 fun _ => 1

/-- What a program above the clients costs is what it sends. -/
theorem AtMost.sent_le {α : Type} {p : AppProg α} {n : ℕ} (h : p.AtMost AppEvent.cost n) :
    p.All fun tr _ => (sent tr).length ≤ n := by
  refine All.mono h fun tr _ htr => ?_
  rwa [← show spent AppEvent.cost tr = (sent tr).length from spent_eq_length _ tr]

theorem atMost_lift {α : Type} {p : UpProg α} {n : ℕ} (h : p.AtMost UpEvent.cost n) :
    (UpProg.lift p).AtMost AppEvent.cost n :=
  AtMost.embed h

/-! ## The clients -/

section Clients

variable {n : ℕ}

theorem atMost_acquire (upstream : Upstream) (tenantId : String) :
    (UpProg.acquire upstream tenantId).AtMost UpEvent.cost n :=
  atMost_free (fun _ => rfl) fun _ => atMost_ofExcept _

theorem atMost_search (index : String) (query : Json) :
    (IndexerClient.search index query).AtMost UpEvent.cost 1 := by
  rw [IndexerClient.search]
  split
  · exact atMost_raise _
  · refine atMost_op (m := 1) (n := 0) (fun _ => le_rfl) fun r => ?_
    cases r with
    | error x => exact atMost_raise _
    | ok resp =>
      show Prog.AtMost _ _ (if _ then _ else _)
      split
      · exact atMost_raise _
      · exact atMost_ofExcept _

namespace ServerApiClient

theorem atMost_send (req : UpRequest) : (send req).AtMost UpEvent.cost 1 := by
  rw [send_eq]
  exact atMost_op (m := 1) (n := 0) (fun _ => le_rfl) fun _ => atMost_ofExcept _

theorem atMost_lock : UpProg.lock.AtMost UpEvent.cost n :=
  atMost_free (fun _ => rfl) fun _ => atMost_ofExcept _

theorem atMost_mintLocked : mintLocked.AtMost UpEvent.cost 1 := by
  rw [mintLocked_eq]
  refine atMost_op (m := 1) (n := 0) (fun _ => le_rfl) fun ans => ?_
  refine (atMost_ofExcept _).first fun token => ?_
  exact atMost_free (fun _ => rfl) fun _ => atMost_pure token

theorem atMost_ensureJwt : ensureJwt.AtMost UpEvent.cost 1 := by
  refine atMost_lock.first fun _ => atMost_free (fun _ => rfl) fun r => ?_
  cases r with
  | none => exact atMost_mintLocked
  | some token => exact atMost_pure token

theorem atMost_refreshJwtForce : refreshJwtForce.AtMost UpEvent.cost 1 :=
  atMost_lock.first fun _ => atMost_mintLocked

/-- **A call sends up to four requests**: it authenticates and sends its request, and does so once more if it
is refused. -/
theorem atMost_exchange (build : String → UpRequest) : (exchange build).AtMost UpEvent.cost 4 := by
  refine atMost_ensureJwt.bind (m := 1) (n := 3) fun token => ?_
  refine (atMost_send _).bind (m := 1) (n := 2) fun resp => ?_
  refine AtMost.last ?_ fun resp => ?_
  · rw [replay]
    split
    · exact atMost_refreshJwtForce.bind fun token => atMost_send _
    · exact atMost_pure resp
  · split
    · exact atMost_raise _
    · exact atMost_ofExcept _

end ServerApiClient

/-- What a tool may send comes of what it is put together by. -/
theorem modular_atMost : Modular fun n _ p => p.AtMost UpEvent.cost n where
  ret := atMost_pure
  raise := atMost_raise
  bind := AtMost.bind
  search := atMost_search
  get _ _ _ := ServerApiClient.atMost_exchange _

end Clients

/-! ## The tools -/

/-- How many requests a call of the tool may make of it. -/
def Tool.fanout : Tool → ℕ
  | searchAlerts | getAlert | alertsByAgent | alertsByMitre | listVulnerabilitiesByAgent
  | searchVulnerabilities | huntQuery | pivotByIoc | fimHistoryForPath | fimChangesByAgent => 1
  | clusterStatus | runActiveResponseOnGroup => 8
  | restartManager => 12
  | _ => 4

section Server

variable {registry : TenantRegistry} {lib : Libraries} {session : Session}

theorem atMost_inner {Args Guard α : Type} {guard : Session → AppProg Guard} {upstream : Upstream}
    {run : Session → Args → Guard → UpProg α} {wrap : α → ToolResult} {n : ℕ}
    (hguard : (guard session).AtMost AppEvent.cost 0)
    (hrun : ∀ args allowed, (run session args allowed).AtMost UpEvent.cost n) (args : Option Args) :
    (inner (some session) args guard upstream run wrap).AtMost AppEvent.cost n := by
  cases args with
  | none => exact atMost_raise _
  | some args =>
    rw [inner_some]
    refine hguard.first fun allowed => ?_
    refine (atMost_lift (atMost_acquire _ _)).first fun _ => ?_
    exact (atMost_lift (hrun args allowed)).last fun result => atMost_pure (wrap result)

/-- **A closure sends no more** than the fan-out of its tool. -/
theorem atMost_handler (t : Tool) (kwargs : JsonObject) :
    (t.handler (.ofRegistry registry) (some session) lib kwargs).AtMost AppEvent.cost t.fanout := by
  have hC := modular_atMost
  have hput := ServerApiClient.atMost_exchange
  have hread : (pure () : AppProg Unit).AtMost AppEvent.cost 0 := atMost_pure ()
  have hresolve {α : Type} (missing : α) (read : TenantConfig → α) :
      (resolve registry missing read session).AtMost AppEvent.cost 0 :=
    atMost_of_every (every_resolve missing read rfl)
  have hwrite (toolName : String) :
      (checkWriteAllowed (.ofRegistry registry) session toolName).AtMost AppEvent.cost 0 :=
    atMost_of_every (every_checkWriteAllowed toolName rfl)
  cases t with
  | searchAlerts | alertsByAgent | alertsByMitre | listVulnerabilitiesByAgent | searchVulnerabilities
  | huntQuery | fimHistoryForPath | fimChangesByAgent =>
    exact atMost_inner hread (fun _ _ => hC.searchRows) _
  | getAlert => exact atMost_inner hread (fun args _ => hC.getAlert args) _
  | pivotByIoc => exact atMost_inner hread (fun args _ => hC.pivotByIoc _ args) _
  | listAgents => exact atMost_inner hread (fun args _ => hC.listAgents args) _
  | getAgent => exact atMost_inner hread (fun args _ => hC.getAgent args) _
  | agentProcesses | agentPackages | agentPorts =>
    exact atMost_inner hread (fun args _ => hC.inventory _ args) _
  | getMitreTechnique => exact atMost_inner hread (fun args _ => hC.getMitreTechnique args) _
  | searchMitre => exact atMost_inner hread (fun args _ => hC.searchMitre args) _
  | clusterStatus => exact atMost_inner hread (fun _ _ => hC.clusterStatus) _
  | isolateAgent | restartAgent | addAgentToGroup | removeAgentFromGroup =>
    exact atMost_inner (hwrite _) (fun _ _ => hC.parsed (hput _)) _
  | createRule | updateRule =>
    refine atMost_inner ?_ (fun _ _ => ?_) _
    · exact hwrite _
    · exact hC.uploadRule fun xml => hput _
  | runActiveResponse =>
    exact atMost_inner ((hwrite _).first fun _ => hresolve _ _)
      (fun _ _ => hC.runActiveResponse fun _ _ => hput _) _
  | runActiveResponseOnGroup =>
    exact atMost_inner ((hwrite _).first fun _ => hresolve _ _)
      (fun _ _ => hC.runActiveResponseOnGroup fun _ _ => hput _) _
  | restartManager => exact atMost_inner (hwrite _) (fun _ _ => hC.restartManager fun _ => hput _) _

theorem fanout_callTool (toolName : String) (arguments : JsonObject) :
    (rbacCallTool (.ofRegistry registry) (some session) lib toolName arguments).All fun tr _ =>
      (serverRequests tr).length ≤ (Tool.ofName? toolName).elim 0 Tool.fanout := by
  by_cases haccept : isAllowed session toolName (effectivePolicy registry session) = true ∧
      ∃ t : Tool, t.name = toolName ∧ ∃ kwargs, bindArguments lib.validate t.signature arguments = some kwargs
  · obtain ⟨hallowed, t, rfl, kwargs, haccepted⟩ := haccept
    rw [Tool.ofName?_name]
    refine (all_accepted_call hallowed haccepted (fun reqs => reqs.length ≤ t.fanout) (Nat.zero_le _)).mpr ?_
    exact AtMost.sent_le (atMost_handler t kwargs)
  · refine (silent_rejected_call fun hallowed t hname => ?_).mono fun tr _ hnil => ?_
    · by_contra haccepted
      obtain ⟨kwargs, hkwargs⟩ := Option.ne_none_iff_exists'.mp haccepted
      exact haccept ⟨hallowed, t, hname, kwargs, hkwargs⟩
    · rw [hnil]
      exact Nat.zero_le _

/-! ## Resources and prompts -/

instance (c : Call) : Inhabited c.Result :=
  match c with
  | .acquire .. => ⟨.ok ()⟩
  | .serverApiGet .. | .searchAlerts _ | .getAlert _ | .getAgent _ | .alertsByAgent _
  | .listVulnerabilitiesByAgent _ => ⟨.error .validation⟩
  | .monotonic => ⟨(0 : ℚ)⟩
  | .emit _ => ⟨()⟩

/-- How many requests a call of a client or of a tool's operation may make of it. -/
def Call.fanout : Call → ℕ
  | .serverApiGet .. | .getAgent _ => 4
  | .searchAlerts _ | .getAlert _ | .alertsByAgent _ | .listVulnerabilitiesByAgent _ => 1
  | .acquire .. | .monotonic | .emit _ => 0

theorem atMost_spelled (py : Pydantic) (c : Call) : (c.spelled session py).AtMost AppEvent.cost c.fanout := by
  have hC := modular_atMost
  cases c with
  | acquire upstream tenantId => exact (atMost_lift (atMost_acquire _ _)).attempt
  | serverApiGet path params runAs => exact (atMost_lift (hC.get _ _ _)).attempt
  | searchAlerts args => exact (atMost_lift hC.searchRows).attempt
  | getAlert args => exact (atMost_lift (hC.getAlert args)).attempt
  | getAgent args => exact (atMost_lift (hC.getAgent args)).attempt
  | alertsByAgent args => exact (atMost_lift hC.searchRows).attempt
  | listVulnerabilitiesByAgent args => exact (atMost_lift hC.searchRows).attempt
  | monotonic => exact atMost_free (fun _ => rfl) fun r => atMost_pure r
  | emit event => exact atMost_free (fun _ => rfl) fun _ => atMost_pure ()

/-- A program of calls costs what its calls may send. -/
abbrev CallProg.Sends {α : Type} (p : CallProg α) (n : ℕ) : Prop := p.AtMost (fun ev => ev.op.fanout) n

namespace CallProg

variable {α : Type} {n : ℕ}

theorem sends_op {c : Call} {k : c.Result → CallProg α} (hc : c.fanout ≤ n) (hk : ∀ r, Sends (k r) 0) :
    Sends (.op c k) n :=
  AtMost.mono (atMost_op (fun _ => le_rfl) hk) hc

theorem sends_catchWazuh {p : CallProg α} (h : Sends p n) : Sends (catchWazuh p) n := by
  refine (AtMost.attempt h).last fun out => ?_
  split
  · exact atMost_pure _
  · exact atMost_pure _
  · exact atMost_raise _

theorem sends_emit (event : AuditEvent) : Sends (emit event) n :=
  sends_op (Nat.zero_le _) fun _ => atMost_pure ()

end CallProg

theorem sends_readCalls (r : Resource) (id : String) : (r.readCalls session id).Sends 4 := by
  refine (atMost_ofExcept _).first fun _ => ?_
  refine AtMost.last
    (CallProg.sends_catchWazuh (CallProg.sends_op le_rfl fun _ => atMost_ofExcept _)) fun out => ?_
  split
  · exact (CallProg.sends_emit _).first fun _ => atMost_raise _
  · refine (atMost_ofExcept _).first fun data => ?_
    split
    · refine (CallProg.sends_emit _).first fun _ => ?_
      exact (atMost_ofExcept _).first fun content => atMost_pure _
    · exact (CallProg.sends_emit _).first fun _ => atMost_raise _

theorem sends_resource (uri : ResourceUri) : (uri.calls session).Sends 4 :=
  AtMost.first (CallProg.sends_op le_rfl fun _ => atMost_ofExcept _) fun _ => sends_readCalls ..

theorem sends_triageLastHour : (triageLastHourCalls session).Sends 1 := by
  refine AtMost.first (CallProg.sends_op le_rfl atMost_pure) fun started => ?_
  refine AtMost.last
    (CallProg.sends_catchWazuh (CallProg.sends_op le_rfl fun _ => atMost_ofExcept _)) fun out => ?_
  split
  · exact atMost_pure _
  · refine AtMost.first (CallProg.sends_op le_rfl atMost_pure) fun ended => ?_
    exact (CallProg.sends_emit _).first fun _ => atMost_pure _

/-- A call with an id that is checked before. -/
theorem sends_lookup {α β : Type} {c : α → Call} {k : ∀ a, (c a).Result → CallProg β} {n : ℕ}
    (checked : Except Exn α) (hc : ∀ a, (c a).fanout ≤ n) (hk : ∀ a r, (k a r).Sends 0) :
    (CallProg.catchWazuh (Prog.ofExcept checked >>= fun a => .op (c a) (k a))).Sends n :=
  CallProg.sends_catchWazuh ((atMost_ofExcept _).first fun a => CallProg.sends_op (hc a) (hk a))

theorem sends_alertContext (agentId : String) : (alertContextCalls agentId).Sends 5 := by
  rw [alertContextCalls]
  split
  · exact atMost_pure _
  · refine AtMost.bind (m := 4) (n := 1) ?_ fun agent => AtMost.last ?_ fun neighbors => atMost_pure _
    · exact AtMost.last (sends_lookup _ (fun _ => le_rfl) fun _ _ => atMost_ofExcept _) fun _ => atMost_pure _
    · exact AtMost.last (sends_lookup _ (fun _ => le_rfl) fun _ _ => atMost_ofExcept _) fun _ => atMost_pure _

theorem sends_investigateAlert (alertId : String) : (investigateAlertCalls session alertId).Sends 6 := by
  refine AtMost.first (CallProg.sends_op le_rfl atMost_pure) fun started => ?_
  refine (CallProg.sends_emit _).first fun _ => ?_
  refine AtMost.bind (m := 1) (n := 5)
    (sends_lookup _ (fun _ => le_rfl) fun _ _ => atMost_ofExcept _) fun alert => ?_
  split
  · split
    · exact atMost_pure _
    · exact atMost_raise _
  · refine AtMost.last (sends_alertContext _) fun context => ?_
    refine AtMost.first (CallProg.sends_op le_rfl atMost_pure) fun ended => ?_
    exact (CallProg.sends_emit _).first fun _ => atMost_pure _

theorem sends_agentPosture (agentId : String) : (agentPostureCalls session agentId).Sends 6 := by
  refine AtMost.first (CallProg.sends_op le_rfl atMost_pure) fun started => ?_
  refine AtMost.bind (m := 4) (n := 2)
    (sends_lookup _ (fun _ => le_rfl) fun _ _ => atMost_ofExcept _) fun agent => ?_
  split
  · split
    · exact atMost_pure _
    · exact atMost_raise _
  · refine AtMost.bind (m := 1) (n := 1) ?_ fun alerts => AtMost.last ?_ fun vulns => ?_
    · exact AtMost.last (sends_lookup _ (fun _ => le_rfl) fun _ _ => atMost_ofExcept _) fun _ => atMost_pure _
    · exact AtMost.last (sends_lookup _ (fun _ => le_rfl) fun _ _ => atMost_ofExcept _) fun _ => atMost_pure _
    · refine AtMost.first (CallProg.sends_op le_rfl atMost_pure) fun ended => ?_
      exact (CallProg.sends_emit _).first fun _ => atMost_pure _

/-- How many requests the prompt may make of it. -/
def PromptName.fanout : PromptName → ℕ
  | triageLastHour => 1
  | investigateAlert _ | agentPosture _ => 6

theorem sends_prompt (prompt : PromptName) : (prompt.calls session).Sends prompt.fanout := by
  have hacquire {n : ℕ} (upstream : Upstream) (tenantId : String) :
      (CallProg.acquire upstream tenantId).Sends n :=
    CallProg.sends_op (Nat.zero_le n) fun _ => atMost_ofExcept _
  cases prompt with
  | triageLastHour => exact (hacquire _ _).first fun _ => sends_triageLastHour
  | investigateAlert alertId =>
    exact (hacquire _ _).first fun _ => (hacquire _ _).first fun _ => sends_investigateAlert alertId
  | agentPosture agentId =>
    exact (hacquire _ _).first fun _ => (hacquire _ _).first fun _ => sends_agentPosture agentId

/-- What is served without the wrapper. -/
theorem fanout_unwrapped {α : Type} {p : AppProg α} {n : ℕ} (h : p.AtMost AppEvent.cost n)
    (wrap : α → McpResult) :
    Prog.All (wrap <$> (ToolProg.inner p : ServerProg α)) fun tr _ => (serverRequests tr).length ≤ n := by
  refine (all_map _ _ _).mpr ((all_embed _ _ _).mpr (All.mono (AtMost.sent_le h) fun tr _ htr => ?_))
  rwa [serverRequests_inner]

/-! ## Whole requests -/

/-- How many requests the MCP request may make of it. -/
def McpRequest.fanout : McpRequest → ℕ
  | callTool toolName _ => (Tool.ofName? toolName).elim 0 Tool.fanout
  | readResource _ => 4
  | getPrompt prompt => prompt.fanout

theorem McpRequest.fanout_le (req : McpRequest) : req.fanout ≤ 12 := by
  cases req with
  | callTool toolName arguments =>
    rw [fanout]
    cases Tool.ofName? toolName with
    | none => exact Nat.zero_le _
    | some t => cases t <;> decide
  | readResource uri => exact show 4 ≤ 12 by decide
  | getPrompt prompt => cases prompt <;> simp [fanout, PromptName.fanout]

end Server

/-- **Fan-out**: an MCP request sends no more than so many requests, whatever is answered. -/
theorem fanout_serve (registry : TenantRegistry) (lib : Libraries) (session : Session) (req : McpRequest) :
    (serve (.ofRegistry registry) (some session) lib req).All fun tr _ =>
      (serverRequests tr).length ≤ req.fanout := by
  cases req with
  | callTool toolName arguments => exact (all_map _ _ _).mpr (fanout_callTool toolName arguments)
  | readResource uri =>
    refine fanout_unwrapped ?_ _
    rw [← @interpret_resourceCalls session lib.py]
    exact AtMost.interpret (atMost_spelled lib.py) (sends_resource uri)
  | getPrompt prompt =>
    refine fanout_unwrapped ?_ _
    rw [← interpret_promptCalls]
    exact AtMost.interpret (atMost_spelled lib.py) (sends_prompt prompt)

/-! ## The load on the services -/

section Load

open RateLimit

variable (registry : TenantRegistry) (lib : Libraries) (limits : Limits) {C D W : Type}
  (env : Habitat (ToolOp AppOp) (ToolOp.Result AppOp.Result) ClientRequest C D W) (w : W) (clock : ℚ)
  (acts : List (PoolAction ClientRequest (Readings × C) D))

variable {registry lib limits env w clock acts} in
/-- What a task of a run has sent so far is within the fan-out of its request. -/
theorem fanout_task :
    ∀ t ∈ (limitedRun registry lib limits env w clock acts).tasks,
      (serverRequests t.trace).length ≤ t.caller.request.fanout := by
  intro t ht
  obtain ⟨more, out, hmost⟩ := (Pool.all_exec (ClientRequest.served registry lib) _
    (fun c => fanout_serve registry lib c.session c.request) _ _ t ht).exists_completion
  rw [serverRequests_append, List.length_append] at hmost
  exact (Nat.le_add_right ..).trans hmost

/-- **The load on the services**: the requests that are sent for the tool calls of a tenant, or of a session,
which were granted their token within a window, number no more than twelve for each token that the bucket may
hold and the window refills. -/
theorem load_le (b : BucketId) (start : ℚ) (width : ℚ≥0) :
    (((((limitedRun registry lib limits env w clock acts).tasks.filter (reached b ⟨start, width⟩)).flatMap
        fun t => serverRequests t.trace).length : ℕ) : ℚ) ≤
      12 * ((b.config limits).capacity + (b.config limits).refillPerSec * width) := by
  set calls := (limitedRun registry lib limits env w clock acts).tasks.filter (reached b ⟨start, width⟩)
  have hsent : (calls.flatMap fun t => serverRequests t.trace).length ≤ calls.length * 12 := by
    rw [List.length_flatMap]
    refine (List.sum_le_card_nsmul _ 12 fun n hn => ?_).trans_eq (congrArg (· * 12) (List.length_map _))
    obtain ⟨t, ht, rfl⟩ := List.mem_map.mp hn
    exact (fanout_task t (List.mem_of_mem_filter ht)).trans (McpRequest.fanout_le _)
  have hcount : (calls.length : ℚ) ≤ (b.config limits).capacity + (b.config limits).refillPerSec * width :=
    (Nat.cast_le.mpr (length_reached_le b _)).trans (count_grantsWithin_le b width.2)
  calc ((calls.flatMap fun t => serverRequests t.trace).length : ℚ)
      ≤ (calls.length * 12 : ℕ) := Nat.cast_le.mpr hsent
    _ = 12 * calls.length := by push_cast; ring
    _ ≤ 12 * ((b.config limits).capacity + (b.config limits).refillPerSec * width) := by linarith

end Load

end WazuhMcp
