import WazuhMcp.Server.Registration

/-!
# The steps of a request

Whatever an MCP request does for a session, it does for the session's tenant: it takes clients of that
tenant from the pools, is limited as that tenant, and emits audit events of it. What it sends goes through
the methods of the two clients.

* `UpEvent.Asks R` is said of the steps of a client method or a tool, which takes no client from a pool. `R`
  is what holds of the requests; `Covers R user` says that it holds of whatever is sent for the user.
* `AppEvent.Own R session` is said of the steps of resources, prompts and handler closures, and
  `ServerEvent.Own R session` of those of a whole request (`own_serve`).
-/

namespace WazuhMcp

open Interact

/-! ## Client methods -/

/-- The step takes no client from a pool, and what it sends satisfies `R`. -/
def UpEvent.Asks (R : UpRequest → Prop) : UpEvent → Prop
  | ⟨.acquire _ _, _⟩ => False
  | ⟨.send req, _⟩ => R req
  | _ => True

theorem UpEvent.asks_internal {R : UpRequest → Prop} (op : UpOp) (ans : op.Result)
    (h : op.internal = true) : UpEvent.Asks R ⟨op, ans⟩ := by
  cases op with
  | acquire | send => cases h
  | _ => trivial

/-- `R` holds of what is sent for the user: of the requests for a token, of those to the indexer, and of
those that name the user in `run_as`, or nobody if there is no user. -/
structure Covers (R : UpRequest → Prop) (user : Option String) : Prop where
  mint : R ServerApiClient.mintRequest
  indexer : ∀ req, req.upstream = .indexer → R req
  named : ∀ req, req.params.lookup "run_as" = user.map Json.str → R req

namespace ServerApiClient

variable {R : UpRequest → Prop} {user : Option String}

/-- The parameters name the user, if they did not name one before. -/
theorem lookup_effectiveParams {params : JsonObject} (h : params.lookup "run_as" = none) :
    (effectiveParams params user).lookup "run_as" = user.map Json.str := by
  cases user with
  | none => exact h
  | some name => exact (Dict.lookup_set ..).trans (if_pos rfl)

variable (hR : Covers R user)
include hR

theorem asks_exchange {build : String → UpRequest}
    (h : ∀ jwt, (build jwt).params.lookup "run_as" = user.map Json.str) :
    (exchange build).Every (UpEvent.Asks R) :=
  every_exchange UpEvent.asks_internal (fun _ => hR.mint) fun jwt _ => hR.named _ (h jwt)

theorem asks_get {path : String} {params : JsonObject} (h : params.lookup "run_as" = none) :
    (get path params user).Every (UpEvent.Asks R) :=
  asks_exchange hR fun _ => lookup_effectiveParams h

theorem asks_put {path : String} {json : Option Json} {params : JsonObject}
    (h : params.lookup "run_as" = none) : (put path json params user).Every (UpEvent.Asks R) :=
  asks_exchange hR fun _ => lookup_effectiveParams h

theorem asks_delete {path : String} {params : JsonObject}
    (h : params.lookup "run_as" = none) : (delete path params user).Every (UpEvent.Asks R) :=
  asks_exchange hR fun _ => lookup_effectiveParams h

theorem asks_putRaw {path content contentType : String} {params : JsonObject}
    (h : params.lookup "run_as" = none) :
    (putRaw path content contentType params user).Every (UpEvent.Asks R) :=
  asks_exchange hR fun _ => lookup_effectiveParams h

theorem asks_runActiveResponse {agentIds : List String} {command : String}
    {customArgs : Option JsonObject} :
    (runActiveResponse agentIds command customArgs user).Every (UpEvent.Asks R) :=
  asks_put hR rfl

/-- The read of the group and the active response are both made for the user. -/
theorem asks_runActiveResponseOnGroup {groupName command : String}
    {customArgs : Option JsonObject} :
    (runActiveResponseOnGroup groupName command customArgs user).Every (UpEvent.Asks R) := by
  refine Prog.every_bind (asks_get hR rfl) fun resp => ?_
  refine Prog.every_bind (Prog.every_ofExcept _) fun agentIds => ?_
  split
  · exact Prog.every_pure _
  · exact asks_runActiveResponse hR

/-- The status of the cluster is read in two requests, for the user that is given. -/
theorem asks_clusterStatus : (clusterStatus user).Every (UpEvent.Asks R) := by
  refine Prog.every_bind (asks_get hR rfl) fun resp => ?_
  refine Prog.every_bind (Prog.every_ofExcept _) fun data => ?_
  refine Prog.every_bind (Prog.every_ofExcept _) fun enabled => ?_
  refine Prog.every_bind (Prog.every_ofExcept _) fun running => ?_
  split
  · refine Prog.every_bind (asks_get hR rfl) fun resp => ?_
    refine Prog.every_bind (Prog.every_ofExcept _) fun data => ?_
    exact Prog.every_bind (Prog.every_ofExcept _) fun nodes => Prog.every_pure _
  · exact Prog.every_pure _

end ServerApiClient

/-! ## The tools -/

section Tools

variable {R : UpRequest → Prop} {session : Session} (hR : Covers R session.wazuhUser)
include hR

theorem asks_search (index : String) (query : Json) :
    (IndexerClient.search index query).Every (UpEvent.Asks R) :=
  IndexerClient.every_search fun _ => hR.indexer _ rfl

/-- A search asks the Server API nothing. -/
theorem asks_searchRows {Row : Type} (py : Pydantic) (index : String)
    (buildQuery : Except Exn Json) (fromHit : Json → Except Exn Row) (wantedSize : ℤ) :
    (searchRows py index buildQuery fromHit wantedSize).Every (UpEvent.Asks R) :=
  Prog.every_bind (Prog.every_ofExcept _) fun _ =>
    Prog.every_bind (asks_search hR _ _) fun _ => Prog.every_ofExcept _

theorem asks_getAlert (args : GetAlertArgs) :
    (getAlert args).Every (UpEvent.Asks R) := by
  refine Prog.every_bind (Prog.every_ofExcept _) fun query => ?_
  refine Prog.every_bind (asks_search hR _ _) fun body => ?_
  refine Prog.every_bind (Prog.every_ofExcept _) fun hits => ?_
  refine Prog.every_bind (Prog.every_ofExcept _) fun hits => ?_
  split
  · exact Prog.every_bind (Prog.every_ofExcept _) fun first => Prog.every_ofExcept _
  · exact Prog.every_raise _

theorem asks_pivotByIoc (py : Pydantic) (args : PivotByIocArgs) :
    (pivotByIoc py args).Every (UpEvent.Asks R) := by
  rw [pivotByIoc]
  split
  · exact asks_searchRows hR ..
  · exact Prog.every_raise _

theorem asks_listAgents (args : ListAgentsArgs) :
    (listAgents session args).Every (UpEvent.Asks R) := by
  refine Prog.every_bind (ServerApiClient.asks_get hR ?_) fun _ => Prog.every_ofExcept _
  cases args.status <;> cases args.group <;> rfl

theorem asks_getAgent (args : GetAgentArgs) :
    (getAgent session args).Every (UpEvent.Asks R) := by
  refine Prog.every_bind (ServerApiClient.asks_get hR rfl) fun body => ?_
  refine Prog.every_bind (Prog.every_ofExcept _) fun data => ?_
  refine Prog.every_bind (Prog.every_ofExcept _) fun items => ?_
  split
  · exact Prog.every_bind (Prog.every_ofExcept _) fun first => Prog.every_ofExcept _
  · exact Prog.every_raise _

theorem asks_inventory (path : String) (args : AgentSubquery) :
    (inventory session path args).Every (UpEvent.Asks R) := by
  refine Prog.every_bind (ServerApiClient.asks_get hR rfl) fun body => ?_
  refine Prog.every_bind (Prog.every_ofExcept _) fun data => ?_
  refine Prog.every_bind (Prog.every_ofExcept _) fun affected => ?_
  refine Prog.every_bind (Prog.every_ofExcept _) fun items => ?_
  refine Prog.every_bind (Prog.every_ofExcept _) fun total => ?_
  exact Prog.every_bind (Prog.every_ofExcept _) fun rows => Prog.every_pure _

theorem asks_getMitreTechnique (args : GetMitreTechniqueArgs) :
    (getMitreTechnique session args).Every (UpEvent.Asks R) := by
  refine Prog.every_bind (Prog.every_ofExcept _) fun _ => ?_
  refine Prog.every_bind (ServerApiClient.asks_get hR rfl) fun body => ?_
  refine Prog.every_bind (Prog.every_ofExcept _) fun data => ?_
  refine Prog.every_bind (Prog.every_ofExcept _) fun items => ?_
  split
  · exact Prog.every_bind (Prog.every_ofExcept _) fun first => Prog.every_ofExcept _
  · exact Prog.every_raise _

theorem asks_searchMitre (args : SearchMitreArgs) :
    (searchMitre session args).Every (UpEvent.Asks R) := by
  refine Prog.every_bind (Prog.every_ofExcept _) fun _ => ?_
  refine Prog.every_bind (ServerApiClient.asks_get hR rfl) fun body => ?_
  refine Prog.every_bind (Prog.every_ofExcept _) fun data => ?_
  refine Prog.every_bind (Prog.every_ofExcept _) fun affected => ?_
  refine Prog.every_bind (Prog.every_ofExcept _) fun items => ?_
  refine Prog.every_bind (Prog.every_ofExcept _) fun total => ?_
  exact Prog.every_bind (Prog.every_ofExcept _) fun techs => Prog.every_pure _

omit hR in
/-- The status of the cluster is read for no user. -/
theorem asks_clusterStatus (hnone : Covers R none) : clusterStatus.Every (UpEvent.Asks R) := by
  refine Prog.every_bind (ServerApiClient.asks_clusterStatus hnone) fun raw => ?_
  refine Prog.every_bind (Prog.every_ofExcept _) fun nodes => ?_
  exact Prog.every_bind (Prog.every_ofExcept _) fun rows => Prog.every_pure _

theorem asks_uploadRule (ruleId : ℤ) (rule : RuleFields) :
    (uploadRule session ruleId rule).Every (UpEvent.Asks R) :=
  Prog.every_bind (ServerApiClient.asks_putRaw hR rfl) fun _ => Prog.every_pure _

theorem asks_runActiveResponse (args : RunActiveResponseArgs) (arAllowlist : List String) :
    (runActiveResponse session args arAllowlist).Every (UpEvent.Asks R) := by
  rw [runActiveResponse]
  split
  · exact Prog.every_raise _
  · exact Prog.every_bind (ServerApiClient.asks_runActiveResponse hR)
      fun _ => Prog.every_ofExcept _

theorem asks_runActiveResponseOnGroup (args : RunActiveResponseOnGroupArgs)
    (arGroupAllowlist : List String) :
    (runActiveResponseOnGroup session args arGroupAllowlist).Every (UpEvent.Asks R) := by
  rw [runActiveResponseOnGroup]
  split
  · exact Prog.every_raise _
  · exact Prog.every_bind (ServerApiClient.asks_runActiveResponseOnGroup hR)
      fun _ => Prog.every_ofExcept _

/-- So is the read before a restart; the restart itself is made for the user of the session. -/
theorem asks_restartManager (hnone : Covers R none) (args : RestartManagerArgs) :
    (restartManager session args).Every (UpEvent.Asks R) := by
  refine Prog.every_bind (ServerApiClient.asks_clusterStatus hnone) fun pre => ?_
  split
  · exact Prog.every_raise _
  · refine Prog.every_bind (Prog.every_ofExcept _) fun nodes => ?_
    refine Prog.every_bind (Prog.every_mapM (fun n => Prog.every_ofExcept _) nodes) fun names => ?_
    refine Prog.every_bind (ServerApiClient.asks_put hR rfl) fun _ => ?_
    exact Prog.every_bind (Prog.every_ofExcept _) fun affected => Prog.every_pure _

end Tools

/-! ## Resources and prompts -/

/-- The step is done for the tenant of the session: a client is taken from a pool for it, or an audit event
of it is emitted. What a request sends satisfies `R`. -/
def AppEvent.Own (R : UpRequest → Prop) (session : Session) : AppEvent → Prop
  | ⟨.up (.acquire _ tenantId), _⟩ => tenantId = session.tenantId
  | ⟨.up (.send req), _⟩ => R req
  | ⟨.up _, _⟩ => True
  | ⟨.emit event, _⟩ => event.tenant = session.tenantId

section Unwrapped

variable {R : UpRequest → Prop} {session : Session}

theorem own_lift {α : Type} {p : UpProg α} (h : p.Every (UpEvent.Asks R)) :
    (UpProg.lift p).Every (AppEvent.Own R session) := by
  refine Prog.every_embed.mpr (Prog.Every.mono h ?_)
  rintro ⟨op, ans⟩ hop
  cases op with
  | acquire => exact hop.elim
  | send => exact hop
  | _ => trivial

theorem own_emit {event : AuditEvent} (h : event.tenant = session.tenantId) :
    (AppProg.emit event).Every (AppEvent.Own R session) := fun _ => ⟨h, trivial⟩

theorem own_acquire (upstream : Upstream) :
    (UpProg.lift (UpProg.acquire upstream session.tenantId)).Every (AppEvent.Own R session) := by
  refine fun ans => ⟨rfl, ?_⟩
  cases ans <;> trivial

theorem own_monotonic : (UpProg.lift UpProg.monotonic).Every (AppEvent.Own R session) :=
  fun _ => ⟨trivial, trivial⟩

theorem own_catchWazuh {α : Type} {p : UpProg α} (h : p.Every (UpEvent.Asks R)) :
    (catchWazuh p).Every (AppEvent.Own R session) := by
  refine Prog.every_bind (Prog.every_attempt (own_lift h)) fun out => ?_
  cases out with
  | ok a => trivial
  | error x => cases x <;> trivial

/-- A block of a prompt: an operation on an identifier of a checked length. -/
theorem own_block {α β : Type} {lo hi : ℕ} (id : String) {p : Sized lo hi → UpProg α}
    (h : ∀ id, (p id).Every (UpEvent.Asks R)) (show_ : Except WazuhError α → β) :
    (do
      let out ← catchWazuh do
        let id ← sizedField lo hi id
        p id
      return show_ out : AppProg β).Every (AppEvent.Own R session) := by
  refine Prog.every_bind (own_catchWazuh ?_) fun out => trivial
  exact Prog.every_bind (Prog.every_ofExcept _) h

variable (hR : Covers R session.wazuhUser)
include hR

theorem own_read (r : Resource) (h : ∀ id, (r.params id).lookup "run_as" = none) (id : String) :
    (r.read session id).Every (AppEvent.Own R session) := by
  refine Prog.every_bind (Prog.every_ofExcept _) fun _ => ?_
  refine Prog.every_bind (own_catchWazuh (ServerApiClient.asks_get hR (h id))) fun out => ?_
  cases out with
  | error e => exact Prog.every_bind (own_emit rfl) fun _ => trivial
  | ok body =>
    refine Prog.every_bind (Prog.every_ofExcept _) fun data => ?_
    split
    · refine Prog.every_bind (own_emit rfl) fun _ => ?_
      exact Prog.every_bind (Prog.every_ofExcept _) fun content => trivial
    · exact Prog.every_bind (own_emit rfl) fun _ => trivial

theorem own_triageLastHour (py : Pydantic) :
    (triageLastHour session py).Every (AppEvent.Own R session) := by
  refine Prog.every_bind own_monotonic fun started => ?_
  refine Prog.every_bind (own_catchWazuh (asks_searchRows hR ..)) fun out => ?_
  cases out with
  | error e => trivial
  | ok result =>
    refine Prog.every_bind own_monotonic fun ended => ?_
    exact Prog.every_bind (own_emit rfl) fun _ => trivial

theorem own_investigateAlert (py : Pydantic) (alertId : String) :
    (investigateAlert session py alertId).Every (AppEvent.Own R session) := by
  refine Prog.every_bind own_monotonic fun started => ?_
  refine Prog.every_bind (own_emit rfl) fun _ => ?_
  refine Prog.every_bind (own_catchWazuh (Prog.every_bind (Prog.every_ofExcept _)
    fun id => asks_getAlert hR _)) fun out => ?_
  cases out with
  | error e =>
    show Prog.Every (if _ then _ else _) _
    split <;> trivial
  | ok alert =>
    show Prog.Every (if _ then _ else _) _
    split
    · refine Prog.every_bind (Prog.every_pure _) fun blocks => ?_
      refine Prog.every_bind own_monotonic fun ended => ?_
      exact Prog.every_bind (own_emit rfl) fun _ => trivial
    · refine Prog.every_bind (own_block _ (fun _ => asks_getAgent hR _) _) fun agent => ?_
      refine Prog.every_bind (own_block _ (fun _ => asks_searchRows hR ..) _) fun _ => ?_
      refine Prog.every_bind (Prog.every_pure _) fun blocks => ?_
      refine Prog.every_bind own_monotonic fun ended => ?_
      exact Prog.every_bind (own_emit rfl) fun _ => trivial

theorem own_agentPosture (py : Pydantic) (agentId : String) :
    (agentPosture session py agentId).Every (AppEvent.Own R session) := by
  refine Prog.every_bind own_monotonic fun started => ?_
  refine Prog.every_bind (own_catchWazuh (Prog.every_bind (Prog.every_ofExcept _)
    fun id => asks_getAgent hR _)) fun out => ?_
  cases out with
  | error e =>
    show Prog.Every (if _ then _ else _) _
    split <;> trivial
  | ok agent =>
    refine Prog.every_bind (own_block _ (fun _ => asks_searchRows hR ..) _) fun alerts => ?_
    refine Prog.every_bind (own_block _ (fun _ => asks_searchRows hR ..) _) fun vulns => ?_
    refine Prog.every_bind own_monotonic fun ended => ?_
    exact Prog.every_bind (own_emit rfl) fun _ => trivial

theorem own_readResource (uri : ResourceUri) :
    (readResource (some session) uri).Every (AppEvent.Own R session) := by
  change Prog.Every (UpProg.lift (UpProg.acquire .serverApi session.tenantId) >>= fun _ =>
    uri.read session) _
  refine Prog.every_bind (own_acquire _) fun _ => ?_
  cases uri with
  | rule ruleId => exact own_read hR _ (fun _ => rfl) _
  | mitreTechnique techniqueId => exact own_read hR _ (fun _ => rfl) _
  | agentConfig agentId => exact own_read hR _ (fun _ => rfl) _

theorem own_getPrompt (lib : Libraries) (prompt : PromptName) :
    (getPrompt (some session) lib prompt).Every (AppEvent.Own R session) := by
  change Prog.Every (UpProg.lift (UpProg.acquire .indexer session.tenantId) >>= fun _ => _) _
  refine Prog.every_bind (own_acquire _) fun _ => ?_
  cases prompt with
  | triageLastHour => exact own_triageLastHour hR _
  | investigateAlert alertId =>
    exact Prog.every_bind (own_acquire _) fun _ => own_investigateAlert hR _ _
  | agentPosture agentId =>
    exact Prog.every_bind (own_acquire _) fun _ => own_agentPosture hR _ _

end Unwrapped

/-! ## Tool calls -/

section ToolCall

variable {R : UpRequest → Prop} {registry : TenantRegistry} {lib : Libraries} {session : Session}

/-- A closure sends what its tool does. -/
theorem own_inner {Args Guard α : Type} {guard : Session → AppProg Guard} {upstream : Upstream}
    {run : Session → Args → Guard → UpProg α} {wrap : α → ToolResult}
    (hguard : (guard session).Every (AppEvent.Own R session))
    (hrun : ∀ args allowed, (run session args allowed).Every (UpEvent.Asks R))
    (args : Option Args) :
    (inner (some session) args guard upstream run wrap).Every (AppEvent.Own R session) := by
  cases args with
  | none => trivial
  | some args =>
    rw [inner_some]
    refine Prog.every_bind hguard fun allowed => ?_
    refine Prog.every_bind (own_acquire _) fun _ => ?_
    exact Prog.every_bind (own_lift (hrun args allowed)) fun _ => trivial

variable (hR : Covers R session.wazuhUser)
include hR

/-- A handler closure keeps to the session's tenant. Two tools read the cluster for no user. -/
theorem own_handler (t : Tool) (kwargs : JsonObject)
    (hnone : t = .clusterStatus ∨ t = .restartManager → Covers R none) :
    (t.handler (.ofRegistry registry) (some session) lib kwargs).Every
      (AppEvent.Own R session) := by
  have hread : (pure () : AppProg Unit).Every (AppEvent.Own R session) := trivial
  have hwrite : ∀ toolName, (checkWriteAllowed (.ofRegistry registry) session toolName).Every
      (AppEvent.Own R session) :=
    fun toolName => every_checkWriteAllowed toolName rfl
  cases t with
  | searchAlerts | alertsByAgent | alertsByMitre | listVulnerabilitiesByAgent
  | searchVulnerabilities | huntQuery | fimHistoryForPath | fimChangesByAgent =>
    exact own_inner hread (fun _ _ => asks_searchRows hR ..) _
  | getAlert => exact own_inner hread (fun args _ => asks_getAlert hR args) _
  | pivotByIoc => exact own_inner hread (fun args _ => asks_pivotByIoc hR _ args) _
  | listAgents => exact own_inner hread (fun args _ => asks_listAgents hR args) _
  | getAgent => exact own_inner hread (fun args _ => asks_getAgent hR args) _
  | agentProcesses | agentPackages | agentPorts =>
    exact own_inner hread (fun args _ => asks_inventory hR _ args) _
  | getMitreTechnique =>
    exact own_inner hread (fun args _ => asks_getMitreTechnique hR args) _
  | searchMitre => exact own_inner hread (fun args _ => asks_searchMitre hR args) _
  | clusterStatus =>
    exact own_inner hread (fun _ _ => asks_clusterStatus (hnone (.inl rfl))) _
  | isolateAgent =>
    exact own_inner (hwrite _) (fun _ _ => Prog.every_bind
      (ServerApiClient.asks_put hR rfl) fun _ => Prog.every_ofExcept _) _
  | restartAgent | addAgentToGroup =>
    exact own_inner (hwrite _) (fun _ _ => Prog.every_bind
      (ServerApiClient.asks_put hR rfl) fun _ => Prog.every_ofExcept _) _
  | removeAgentFromGroup =>
    exact own_inner (hwrite _) (fun _ _ => Prog.every_bind
      (ServerApiClient.asks_delete hR rfl) fun _ => Prog.every_ofExcept _) _
  | createRule | updateRule =>
    refine own_inner ?_ (fun _ _ => ?_) _
    · exact hwrite _
    · exact asks_uploadRule hR _ _
  | runActiveResponse =>
    exact own_inner (Prog.every_bind (hwrite _) fun _ => every_resolve _ _ rfl)
      (fun args allowed => asks_runActiveResponse hR args allowed) _
  | runActiveResponseOnGroup =>
    exact own_inner (Prog.every_bind (hwrite _) fun _ => every_resolve _ _ rfl)
      (fun args allowed => asks_runActiveResponseOnGroup hR args allowed) _
  | restartManager =>
    exact own_inner (hwrite _) (fun args _ => asks_restartManager hR (hnone (.inr rfl)) args) _

end ToolCall

/-! ## Whole requests -/

/-- The step is done for the tenant of the session, which the metrics are labelled with too. -/
def ServerEvent.Own (R : UpRequest → Prop) (session : Session) : ServerEvent → Prop
  | ⟨.acquire tenantId _, _⟩ => tenantId = session.tenantId
  | ⟨.addCalls tenant _ _, _⟩ => tenant = session.tenantId
  | ⟨.addRateLimited tenant _, _⟩ => tenant = session.tenantId
  | ⟨.recordDuration _ tenant _, _⟩ => tenant = session.tenantId
  | ⟨.perfCounter, _⟩ => True
  | ⟨.emit event, _⟩ => event.tenant = session.tenantId
  | ⟨.inner op, ans⟩ => AppEvent.Own R session ⟨op, ans⟩

section Serve

variable {R : UpRequest → Prop} {registry : TenantRegistry} {lib : Libraries} {session : Session}

theorem own_inner_steps {α : Type} {p : AppProg α} (h : p.Every (AppEvent.Own R session)) :
    (ToolProg.inner p : ServerProg α).Every (ServerEvent.Own R session) :=
  Prog.every_embed.mpr (Prog.Every.mono h fun _ hev => hev)

theorem own_rateLimit (t : InstrumentedTool AppOp AppOp.Result ToolResult) (kwargs : JsonObject) :
    (t.rateLimit session kwargs).Every (ServerEvent.Own R session) := by
  refine fun ans => ⟨rfl, ?_⟩
  obtain ⟨took, x | _⟩ := ans
  · cases x with
    | wazuh rle => exact fun _ => ⟨rfl, fun _ => ⟨rfl, fun _ => ⟨rfl, trivial⟩⟩⟩
    | _ => trivial
  · trivial

/-- A wrapped tool keeps to the session's tenant if its policy and its handler do. -/
theorem own_call {t : InstrumentedTool AppOp AppOp.Result ToolResult} {kwargs : JsonObject}
    (hpolicy : (t.rbacPolicy session).Every (AppEvent.Own R session))
    (hhandler : (t.handler kwargs).Every (AppEvent.Own R session)) :
    (t.call kwargs (some session)).Every (ServerEvent.Own R session) := by
  change Prog.Every (ToolProg.inner (t.rbacPolicy session) >>= fun policy => _) _
  refine Prog.every_bind (own_inner_steps hpolicy) fun policy => ?_
  split
  · refine Prog.every_bind (own_rateLimit t kwargs) fun _ => ?_
    refine Prog.every_bind (fun _ => ⟨trivial, trivial⟩) fun start => ?_
    refine Prog.every_bind ?_ fun _ => ?_
    · rw [InstrumentedTool.announce]
      split
      · exact fun _ => ⟨rfl, trivial⟩
      · trivial
    · refine Prog.every_bind (Prog.every_attempt (own_inner_steps hhandler)) fun out => ?_
      have hcompletion : ∀ ms, (t.completion session kwargs out ms).tenant = session.tenantId := by
        cases out <;> exact fun _ => rfl
      exact fun stop => ⟨trivial, fun _ => ⟨rfl, fun _ => ⟨rfl, fun _ =>
        ⟨hcompletion _, Prog.every_ofExcept out⟩⟩⟩⟩
  · exact fun _ => ⟨rfl, fun _ => ⟨rfl, trivial⟩⟩

variable (hR : Covers R session.wazuhUser)
include hR

theorem own_rbacCallTool (hnone : Covers R none) (toolName : String) (arguments : JsonObject) :
    (rbacCallTool (.ofRegistry registry) (some session) lib toolName arguments).Every
      (ServerEvent.Own R session) := by
  have hpolicy : (makeRbacPolicy registry session).Every (AppEvent.Own R session) :=
    every_resolve _ _ rfl
  change Prog.Every (ToolProg.inner (makeRbacPolicy registry session) >>= fun policy => _) _
  refine Prog.every_bind (own_inner_steps hpolicy) fun policy => ?_
  split
  · rw [fastmcpCallTool]
    split
    · trivial
    · split
      · trivial
      · exact own_call hpolicy (own_handler hR _ _ fun _ => hnone)
  · exact fun _ => ⟨rfl, trivial⟩

/-- **Every step of a request** is done for the tenant of the session. -/
theorem own_serve (hnone : Covers R none) (req : McpRequest) :
    (serve (.ofRegistry registry) (some session) lib req).Every (ServerEvent.Own R session) := by
  cases req with
  | callTool toolName arguments =>
    exact Prog.every_bind (own_rbacCallTool hR hnone toolName arguments) fun _ => trivial
  | readResource uri =>
    exact Prog.every_bind (own_inner_steps (own_readResource hR uri)) fun _ => trivial
  | getPrompt prompt =>
    exact Prog.every_bind (own_inner_steps (own_getPrompt hR lib prompt)) fun _ => trivial

end Serve

end WazuhMcp
