import WazuhMcp.Foundations.Likeness
import WazuhMcp.Server.Accesses
import WazuhMcp.Tools.Composition
import WazuhMcp.Wazuh.RequestPaths

/-!
# The tokens of the Server API

The tokens that the Server API hands out are secrets: a client keeps them in its cache, reads off them when they
expire, and shows them to nobody but the Server API.

* `tokenLikeness` is said of steps that differ in nothing but a token: in the cached one, the one that is stored,
  that of a request, or the one that an authentication is answered with. Whether there is a fresh token they
  agree on.
* `inStep_exchange`: a call to the Server API goes the same way, whatever the tokens.
* `token_blind`: whatever an MCP request returns, sends, emits and counts is the same, whatever the tokens, but
  for the `Authorization` of the requests.
-/

namespace WazuhMcp

open Interact Prog

/-! ## What is to be seen without the tokens -/

/-- The request, with its token blanked. -/
def UpRequest.withoutToken (req : UpRequest) : UpRequest :=
  match req.authorization with
  | .basic => req
  | .bearer _ => { req with authorization := .bearer "" }

/-- The step, with its token blanked. -/
def UpOp.withoutToken : UpOp → UpOp
  | .storeToken _ => .storeToken ""
  | .send req => .send req.withoutToken
  | step => step

/-- The answers to two steps differ in nothing but a token. -/
def AnswersAlike : ∀ op op' : UpOp, op.Result → op'.Result → Prop
  | .freshToken, .freshToken, ans, ans' => ans.isSome = ans'.isSome
  | .send req, .send _, ans, ans' =>
    ans = ans' ∨ req = ServerApiClient.mintRequest ∧ ∃ token token',
      ServerApiClient.mintResult ans = .ok token ∧ ServerApiClient.mintResult ans' = .ok token'
  | _, _, ans, ans' => HEq ans ans'

/-- The steps differ in nothing but a token. -/
def tokenLikeness : Likeness UpOp UpOp.Result where
  ops op op' := op.withoutToken = op'.withoutToken
  ops_refl _ := rfl
  events ev ev' := ev.op.withoutToken = ev'.op.withoutToken ∧ AnswersAlike ev.op ev'.op ev.ans ev'.ans

theorem tokenLikeness_refl (ev : UpEvent) : tokenLikeness.events ev ev := by
  refine ⟨rfl, ?_⟩
  obtain ⟨op, ans⟩ := ev
  cases op with
  | freshToken => exact rfl
  | send req => exact .inl rfl
  | _ => exact HEq.rfl

/-- A step that has nothing to do with tokens. -/
theorem plain_send {req : UpRequest} (h : req ≠ ServerApiClient.mintRequest)
    (ans : Except ForeignExn UpResponse) : tokenLikeness.Plain ⟨.send req, ans⟩ :=
  fun _ hans => hans.2.resolve_right fun hmint => h hmint.1

/-! ## The clients -/

theorem inStep_acquire (upstream : Upstream) (tenantId : String) :
    InStep tokenLikeness Eq (UpProg.acquire upstream tenantId) (UpProg.acquire upstream tenantId) :=
  inStep_of_every (fun _ => rfl) fun _ => ⟨fun _ hans => eq_of_heq hans.2, every_ofExcept _⟩

theorem inStep_search (index : String) (query : Json) :
    InStep tokenLikeness Eq (IndexerClient.search index query) (IndexerClient.search index query) := by
  refine inStep_of_every (fun _ => rfl) (IndexerClient.every_search fun ans => plain_send ?_ ans)
  intro hmint
  cases congrArg UpRequest.upstream hmint

namespace ServerApiClient

/-- Minting goes the same way, whatever the token. -/
theorem inStep_mintLocked : InStep tokenLikeness (fun _ _ => True) mintLocked mintLocked := by
  rw [mintLocked_eq]
  refine ⟨rfl, fun ans ans' hans => ?_⟩
  refine InStep.bind (T := fun _ _ => True) ?_ fun _ _ _ => ⟨rfl, fun _ _ _ => trivial⟩
  rcases hans.2 with heq | ⟨-, token, token', htoken, htoken'⟩
  · obtain rfl : ans = ans' := heq
    cases mintResult ans with
    | ok token => trivial
    | error x => exact rfl
  · replace htoken : mintResult ans = .ok token := htoken
    replace htoken' : mintResult ans' = .ok token' := htoken'
    rw [htoken, htoken']
    trivial

theorem inStep_lock : InStep tokenLikeness Eq UpProg.lock UpProg.lock :=
  inStep_of_every (fun _ => rfl) fun _ => ⟨fun _ hans => eq_of_heq hans.2, every_ofExcept _⟩

theorem inStep_ensureJwt : InStep tokenLikeness (fun _ _ => True) ensureJwt ensureJwt := by
  refine inStep_lock.seq fun _ => ⟨rfl, fun r r' hans => ?_⟩
  have hsome : r.isSome = r'.isSome := hans.2
  cases r with
  | none =>
    cases r' with
    | none => exact inStep_mintLocked
    | some token' => cases hsome
  | some token =>
    cases r' with
    | none => cases hsome
    | some token' => trivial

theorem inStep_refreshJwtForce : InStep tokenLikeness (fun _ _ => True) refreshJwtForce refreshJwtForce :=
  inStep_lock.seq fun _ => inStep_mintLocked

theorem inStep_send {req req' : UpRequest} (h : req.withoutToken = req'.withoutToken)
    (hmint : req ≠ mintRequest) : InStep tokenLikeness Eq (send req) (send req') := by
  rw [send_eq, send_eq]
  refine ⟨congrArg UpOp.send h, fun ans ans' hans => ?_⟩
  obtain rfl : ans = ans' := hans.2.resolve_right fun hm => hmint hm.1
  exact inStep_ofExcept _

/-- **A call goes the same way**, whatever the tokens. -/
theorem inStep_exchange {build : String → UpRequest}
    (hbuild : ∀ jwt jwt', (build jwt).withoutToken = (build jwt').withoutToken)
    (hmint : ∀ jwt, build jwt ≠ mintRequest) :
    InStep tokenLikeness Eq (exchange build) (exchange build) := by
  have hsend : ∀ jwt jwt', InStep tokenLikeness Eq (send (build jwt)) (send (build jwt')) :=
    fun jwt jwt' => inStep_send (hbuild jwt jwt') (hmint jwt)
  refine inStep_ensureJwt.bind fun jwt jwt' _ => ?_
  refine (hsend jwt jwt').bind fun resp _ heq => heq ▸ ?_
  refine InStep.seq ?_ fun resp => ?_
  · rw [replay]
    split
    · exact inStep_refreshJwtForce.bind fun jwt jwt' _ => hsend jwt jwt'
    · exact rfl
  · split
    · exact rfl
    · exact inStep_ofExcept _

theorem inStep_request (method path : String) (params : JsonObject) (json : Option Json)
    (runAs : Option String) : InStep tokenLikeness Eq (request method path params json runAs)
      (request method path params json runAs) := by
  refine inStep_exchange (fun _ _ => rfl) fun jwt heq => ?_
  cases congrArg UpRequest.authorization heq

end ServerApiClient

/-- **Every tool goes the same way**, whatever the tokens. -/
theorem modular_inStep : Modular fun _ _ p => InStep tokenLikeness Eq p p where
  ret _ := rfl
  raise _ := rfl
  bind hp hf := hp.seq hf
  search := inStep_search
  get path params runAs := ServerApiClient.inStep_request "GET" path params none runAs

/-! ## The server -/

/-- The steps above the clients differ in nothing but a token. -/
abbrev appLikeness : Likeness AppOp AppOp.Result := tokenLikeness.lift AppOp.up

/-- The steps of the server differ in nothing but a token. -/
abbrev serverLikeness : Likeness (ToolOp AppOp) (ToolOp.Result AppOp.Result) := appLikeness.lift ToolOp.inner

section Server

variable {registry : TenantRegistry} {lib : Libraries} {session : Session}

theorem inStep_lift {α : Type} {p : UpProg α} (h : InStep tokenLikeness Eq p p) :
    InStep appLikeness Eq (UpProg.lift p) (UpProg.lift p) :=
  h.embed (fun _ _ => AppOp.up.inj) tokenLikeness_refl

theorem inStep_server {α : Type} {p : AppProg α} (h : InStep appLikeness Eq p p) :
    InStep serverLikeness Eq (ToolProg.inner p : ServerProg α) (ToolProg.inner p) :=
  h.embed (fun _ _ => ToolOp.inner.inj) fun _ => Or.inl rfl

theorem plain_emit (event : AuditEvent) : appLikeness.Plain ⟨.emit event, ()⟩ :=
  Likeness.plain_lift (by rintro _ ⟨⟩)

theorem inStep_inner {Args Guard α : Type} {guard : Session → AppProg Guard} {upstream : Upstream}
    {run : Session → Args → Guard → UpProg α} {wrap : α → ToolResult}
    (hguard : (guard session).Every appLikeness.Plain)
    (hrun : ∀ args allowed, InStep tokenLikeness Eq (run session args allowed) (run session args allowed))
    (args : Option Args) :
    InStep appLikeness Eq (inner (some session) args guard upstream run wrap)
      (inner (some session) args guard upstream run wrap) := by
  cases args with
  | none => exact rfl
  | some args =>
    rw [inner_some]
    refine (inStep_of_every (fun _ => rfl) hguard).seq fun allowed => ?_
    refine (inStep_lift (inStep_acquire ..)).seq fun _ => ?_
    exact (inStep_lift (hrun args allowed)).seq fun _ => rfl

theorem inStep_handler (t : Tool) (kwargs : JsonObject) :
    InStep appLikeness Eq (t.handler (.ofRegistry registry) (some session) lib kwargs)
      (t.handler (.ofRegistry registry) (some session) lib kwargs) := by
  have hC := modular_inStep
  have hput := ServerApiClient.inStep_request
  have hread : (pure () : AppProg Unit).Every appLikeness.Plain := trivial
  have hmiss := plain_emit (resolveMiss session)
  have hwrite : ∀ toolName,
      (checkWriteAllowed (.ofRegistry registry) session toolName).Every appLikeness.Plain :=
    fun toolName => every_checkWriteAllowed toolName hmiss
  cases t with
  | searchAlerts | alertsByAgent | alertsByMitre | listVulnerabilitiesByAgent | searchVulnerabilities
  | huntQuery | fimHistoryForPath | fimChangesByAgent =>
    exact inStep_inner hread (fun _ _ => hC.searchRows) _
  | getAlert => exact inStep_inner hread (fun args _ => hC.getAlert args) _
  | pivotByIoc => exact inStep_inner hread (fun args _ => hC.pivotByIoc _ args) _
  | listAgents => exact inStep_inner hread (fun args _ => hC.listAgents args) _
  | getAgent => exact inStep_inner hread (fun args _ => hC.getAgent args) _
  | agentProcesses | agentPackages | agentPorts =>
    exact inStep_inner hread (fun args _ => hC.inventory _ args) _
  | getMitreTechnique => exact inStep_inner hread (fun args _ => hC.getMitreTechnique args) _
  | searchMitre => exact inStep_inner hread (fun args _ => hC.searchMitre args) _
  | clusterStatus => exact inStep_inner hread (fun _ _ => hC.clusterStatus) _
  | isolateAgent | restartAgent | addAgentToGroup | removeAgentFromGroup =>
    exact inStep_inner (hwrite _) (fun _ _ => hC.parsed (n := 4) (hput ..)) _
  | createRule | updateRule =>
    refine inStep_inner ?_ (fun _ _ => ?_) _
    · exact hwrite _
    · refine hC.uploadRule fun xml => ServerApiClient.inStep_exchange (fun _ _ => rfl) fun jwt heq => ?_
      cases congrArg UpRequest.authorization heq
  | runActiveResponse =>
    exact inStep_inner (every_bind (hwrite _) fun _ => every_resolve _ _ hmiss)
      (fun _ _ => hC.runActiveResponse fun _ _ => hput ..) _
  | runActiveResponseOnGroup =>
    exact inStep_inner (every_bind (hwrite _) fun _ => every_resolve _ _ hmiss)
      (fun _ _ => hC.runActiveResponseOnGroup fun _ _ => hput ..) _
  | restartManager => exact inStep_inner (hwrite _) (fun _ _ => hC.restartManager fun _ => hput ..) _

/-- The calls of resources and prompts go the same way, whatever the tokens. -/
theorem inStep_spelled (py : Pydantic) (c : Call) :
    InStep appLikeness Eq (c.spelled session py) (c.spelled session py) := by
  have hC := modular_inStep
  cases c with
  | acquire upstream tenantId => exact (inStep_lift (inStep_acquire ..)).attempt
  | serverApiGet path params runAs => exact (inStep_lift (hC.get ..)).attempt
  | searchAlerts args => exact (inStep_lift hC.searchRows).attempt
  | getAlert args => exact (inStep_lift (hC.getAlert args)).attempt
  | getAgent args => exact (inStep_lift (hC.getAgent args)).attempt
  | alertsByAgent args => exact (inStep_lift hC.searchRows).attempt
  | listVulnerabilitiesByAgent args => exact (inStep_lift hC.searchRows).attempt
  | monotonic =>
    refine inStep_lift (inStep_of_every (fun _ => rfl) fun _ => ⟨fun _ hans => ?_, trivial⟩)
    exact eq_of_heq hans.2
  | emit event => exact ⟨.inl rfl, fun _ _ _ => rfl⟩

theorem inStep_readResource (py : Pydantic) (uri : ResourceUri) :
    InStep appLikeness Eq (readResource (some session) uri) (readResource (some session) uri) := by
  rw [← @interpret_resourceCalls session py]
  exact inStep_interpret (inStep_spelled py) _

theorem inStep_getPrompt (prompt : PromptName) :
    InStep appLikeness Eq (getPrompt (some session) lib prompt) (getPrompt (some session) lib prompt) := by
  rw [← interpret_promptCalls]
  exact inStep_interpret (inStep_spelled lib.py) _

/-- The step is the wrapper's own. -/
def ToolOp.Own {E : Type} : ToolOp E → Prop
  | .inner _ => False
  | _ => True

theorem plain_own {step : ToolOp AppOp} {ans : step.Result AppOp.Result} (h : step.Own) :
    serverLikeness.Plain ⟨step, ans⟩ := by
  refine Likeness.plain_lift fun op hop => ?_
  rw [← hop] at h
  exact h

theorem plain_rateLimit (t : InstrumentedTool AppOp AppOp.Result ToolResult) (kwargs : JsonObject) :
    (t.rateLimit session kwargs).Every serverLikeness.Plain := by
  refine fun ans => ⟨plain_own trivial, ?_⟩
  obtain ⟨took, x | _⟩ := ans
  · cases x with
    | wazuh rle =>
      exact fun _ => ⟨plain_own trivial, fun _ => ⟨plain_own trivial, fun _ => ⟨plain_own trivial, trivial⟩⟩⟩
    | _ => trivial
  · trivial

/-- A wrapped tool goes the same way, whatever the tokens, if its policy and its handler do. -/
theorem inStep_call {t : InstrumentedTool AppOp AppOp.Result ToolResult} {kwargs : JsonObject}
    (hpolicy : InStep appLikeness Eq (t.rbacPolicy session) (t.rbacPolicy session))
    (hhandler : InStep appLikeness Eq (t.handler kwargs) (t.handler kwargs)) :
    InStep serverLikeness Eq (t.call kwargs (some session)) (t.call kwargs (some session)) := by
  refine (inStep_server hpolicy).seq fun policy => ?_
  split
  · refine (inStep_of_every (fun _ => rfl) (plain_rateLimit t kwargs)).seq fun _ => ?_
    refine InStep.seq (inStep_of_every (fun _ => rfl) fun _ => ⟨plain_own trivial, trivial⟩) fun start => ?_
    refine InStep.seq (inStep_of_every (fun _ => rfl) ?_) fun _ => ?_
    · rw [InstrumentedTool.announce]
      split
      · exact fun _ => ⟨plain_own trivial, trivial⟩
      · trivial
    · refine (inStep_server hhandler).attempt.seq fun out => inStep_of_every (fun _ => rfl) fun stop => ?_
      exact ⟨plain_own trivial, fun _ => ⟨plain_own trivial, fun _ => ⟨plain_own trivial, fun _ =>
        ⟨plain_own trivial, every_ofExcept out⟩⟩⟩⟩
  · exact inStep_of_every (fun _ => rfl) fun _ => ⟨plain_own trivial, fun _ => ⟨plain_own trivial, trivial⟩⟩

theorem inStep_rbacCallTool (toolName : String) (arguments : JsonObject) :
    InStep serverLikeness Eq (rbacCallTool (.ofRegistry registry) (some session) lib toolName arguments)
      (rbacCallTool (.ofRegistry registry) (some session) lib toolName arguments) := by
  have hpolicy : InStep appLikeness Eq (makeRbacPolicy registry session) (makeRbacPolicy registry session) :=
    inStep_of_every (fun _ => rfl) (every_resolve _ _ (plain_emit _))
  refine (inStep_server hpolicy).seq fun policy => ?_
  split
  · rw [fastmcpCallTool]
    split
    · exact rfl
    · split
      · exact rfl
      · exact inStep_call hpolicy (inStep_handler ..)
  · exact inStep_of_every (fun _ => rfl) fun _ => ⟨plain_own trivial, trivial⟩

end Server

/-- **Nothing gives a token away.** Two runs of an MCP request, which are answered alike but for the tokens that
the Server API hands out, return or raise the same, and every step of one is the step of the other: they emit
the same, count the same, and send the same requests, but for their tokens. -/
theorem token_blind (registry : TenantRegistry) (lib : Libraries) (session : Session) (req : McpRequest) :
    serverLikeness.Blind (serve (.ofRegistry registry) (some session) lib req) := by
  refine InStep.blind ?_
  cases req with
  | callTool toolName arguments => exact (inStep_rbacCallTool toolName arguments).map _
  | readResource uri => exact (inStep_server (inStep_readResource lib.py uri)).map _
  | getPrompt prompt => exact (inStep_server (inStep_getPrompt prompt)).map _

end WazuhMcp
