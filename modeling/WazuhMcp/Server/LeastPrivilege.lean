import WazuhMcp.Rbac.Roles
import WazuhMcp.Server.Accesses
import WazuhMcp.Server.Attribution
import WazuhMcp.Server.EntryPoints
import WazuhMcp.Server.NonInterference
import WazuhMcp.Tools.Composition

/-!
# Least privilege

What a session can do upstream beyond reading, and which tools it gets to see.

* `UpRequest.Reads` is said of the requests that read: searches, `GET` requests, and those for a token. What a
  write tool may send besides is `Tool.Changes`.
* `sent_handler`: a closure reads, or it makes its own change after the write allowlist has let it through.
* `least_privilege`: whatever is sent while a request is served reads, or is the change of the tool that is
  called.
* `reads_serve_default`: by default, the requests of anybody but an administrator only read.
* `listed_served`: `tools/list` names the tools that `tools/call` serves, and no others.
-/

namespace WazuhMcp

open Interact

/-! ## Reads and changes -/

/-- The request only reads. -/
inductive UpRequest.Reads : UpRequest → Prop
  | search (index : String) (query : Json) : Reads (IndexerClient.searchRequest index query)
  | get {req : UpRequest} (upstream_eq : req.upstream = .serverApi) (method_eq : req.method = "GET") : Reads req
  | mint : Reads ServerApiClient.mintRequest

/-- The request has this method and this path, at the Server API. -/
structure UpRequest.Is (req : UpRequest) (method path : String) : Prop where
  upstream_eq : req.upstream = .serverApi
  method_eq : req.method = method
  path_eq : req.path = path

/-- The request makes the change that the tool is for. -/
def Tool.Changes (t : Tool) (req : UpRequest) : Prop :=
  match t with
  | isolateAgent | runActiveResponse | runActiveResponseOnGroup => req.Is "PUT" "/active-response"
  | restartAgent => ∃ agentId, req.Is "PUT" ("/agents/" ++ agentId ++ "/restart")
  | addAgentToGroup => ∃ agentId groupId, req.Is "PUT" ("/agents/" ++ agentId ++ "/group/" ++ groupId)
  | removeAgentFromGroup => ∃ agentId groupId, req.Is "DELETE" ("/agents/" ++ agentId ++ "/group/" ++ groupId)
  | createRule | updateRule => ∃ ruleId, req.Is "PUT" ("/rules/files/" ++ ruleFilename ruleId)
  | restartManager => req.Is "PUT" "/cluster/restart" ∨ req.Is "PUT" "/manager/restart"
  | _ => False

/-- Only write tools make changes. -/
theorem Tool.Changes.write {t : Tool} {req : UpRequest} (h : t.Changes req) :
    Text.startsWith t.name "write." = true := by
  cases t with
  | isolateAgent | restartAgent | addAgentToGroup | removeAgentFromGroup | createRule | updateRule
  | runActiveResponse | runActiveResponseOnGroup | restartManager => decide
  | _ => exact h.elim

/-! ## The tools -/

section Tools

variable {P : UpRequest → Prop} (hP : ∀ req : UpRequest, req.Reads → P req)
include hP

theorem request_sends {method path : String} {params : JsonObject} {json : Option Json} {runAs : Option String}
    (h : ∀ req : UpRequest, req.Is method path → P req) :
    (ServerApiClient.request method path params json runAs).Sends P :=
  ServerApiClient.sends_exchange (hP _ .mint) fun _ => h _ ⟨rfl, rfl, rfl⟩

/-- What holds of the requests that read holds of the requests of the tools that read. -/
theorem modular_sends : Modular fun _ _ p => p.Sends P where
  ret := UpProg.sends_ret
  raise := UpProg.sends_raise
  bind := UpProg.sends_bind
  search _ _ := IndexerClient.sends_search (hP _ (.search ..))
  get _ _ _ := ServerApiClient.sends_exchange (hP _ .mint) fun _ => hP _ (.get rfl rfl)

end Tools

/-! ## The closures -/

section Closures

variable {registry : TenantRegistry} {lib : Libraries} {session : Session}

/-- A closure sends what its tool does, once its guard has let it through. -/
theorem sent_inner {P : UpRequest → Prop} {Args Guard α : Type} {guard : Session → AppProg Guard}
    {upstream : Upstream} {run : Session → Args → Guard → UpProg α} {wrap : α → ToolResult} {passed : Prop}
    (hguard : (guard session).All fun tr out => sent tr = [] ∧ ∀ allowed, out = .ok allowed → passed)
    (hrun : passed → ∀ args allowed, (run session args allowed).Sends P) (args : Option Args) :
    (inner (some session) args guard upstream run wrap).All fun tr _ => ∀ req ∈ sent tr, P req := by
  have hsilent : ∀ {tr : List AppEvent}, sent tr = [] → ∀ req ∈ sent tr, P req := fun htr req hreq =>
    absurd hreq (htr ▸ List.not_mem_nil)
  cases args with
  | none => exact hsilent rfl
  | some args =>
    rw [all_inner]
    refine hguard.mono fun tr out h => ?_
    obtain ⟨htr, hpassed⟩ := h
    cases out with
    | error x => exact hsilent htr
    | ok allowed =>
      intro ans
      cases ans with
      | error x => exact hsilent (by rw [sent_append, htr]; rfl)
      | ok _ =>
        refine (Prog.Every.all (hrun (hpassed allowed rfl) args allowed)).mono fun tr' out' h req hreq => ?_
        rw [sent_append, htr, sent_cons, sent_embed] at hreq
        obtain ⟨ev, hev, hop⟩ := mem_requests.mp hreq
        exact h ev hev req hop

theorem readGuard_all :
    (pure () : AppProg Unit).All fun tr out => sent tr = [] ∧ ∀ allowed, out = .ok allowed → True :=
  ⟨rfl, fun _ _ => trivial⟩

theorem writeGuard_all (toolName : String) :
    (checkWriteAllowed (.ofRegistry registry) session toolName).All fun tr out =>
      sent tr = [] ∧ ∀ allowed, out = .ok allowed → writeAllowed registry session toolName = true := by
  rw [all_checkWriteAllowed]
  refine ⟨sent_resolveEvents .., fun allowed hout => ?_⟩
  by_contra hdenied
  rw [if_neg hdenied] at hout
  cases hout

theorem allowlistGuard_all (toolName message scope : String) (read : TenantConfig → List String) :
    Prog.All (do
        checkWriteAllowed (.ofRegistry registry) session toolName
        requiredAllowlist (some (resolve registry [] read)) message scope session) fun tr out =>
      sent tr = [] ∧ ∀ allowed, out = .ok allowed → writeAllowed registry session toolName = true := by
  rw [all_guard]
  split
  · rename_i hallowed
    exact ⟨by simp, fun _ _ => hallowed⟩
  · exact ⟨sent_resolveEvents .., fun _ hout => nomatch hout⟩

/-- **A closure reads, or makes the change of its tool**, which the write allowlist does not rule out. -/
theorem sent_handler (t : Tool) (kwargs : JsonObject) :
    (t.handler (.ofRegistry registry) (some session) lib kwargs).All fun tr _ => ∀ req ∈ sent tr,
      req.Reads ∨ t.Changes req ∧ writeAllowed registry session t.name = true := by
  have hread : ∀ {Q : UpRequest → Prop}, ∀ req : UpRequest, req.Reads → req.Reads ∨ Q req := fun _ => .inl
  have hC : ∀ {Q : UpRequest → Prop}, Modular fun _ _ p => p.Sends fun req => req.Reads ∨ Q req :=
    modular_sends hread
  cases t with
  | searchAlerts | alertsByAgent | alertsByMitre | listVulnerabilitiesByAgent | searchVulnerabilities
  | huntQuery | fimHistoryForPath | fimChangesByAgent =>
    exact sent_inner readGuard_all (fun _ _ _ => hC.searchRows) _
  | getAlert => exact sent_inner readGuard_all (fun _ args _ => hC.getAlert args) _
  | pivotByIoc => exact sent_inner readGuard_all (fun _ args _ => hC.pivotByIoc _ args) _
  | listAgents => exact sent_inner readGuard_all (fun _ args _ => hC.listAgents args) _
  | getAgent => exact sent_inner readGuard_all (fun _ args _ => hC.getAgent args) _
  | agentProcesses | agentPackages | agentPorts =>
    exact sent_inner readGuard_all (fun _ args _ => hC.inventory _ args) _
  | getMitreTechnique => exact sent_inner readGuard_all (fun _ args _ => hC.getMitreTechnique args) _
  | searchMitre => exact sent_inner readGuard_all (fun _ args _ => hC.searchMitre args) _
  | clusterStatus => exact sent_inner readGuard_all (fun _ _ _ => hC.clusterStatus) _
  | isolateAgent =>
    exact sent_inner (writeGuard_all _) (fun hallowed args _ => hC.parsed (n := 4)
      (request_sends hread fun req hreq => .inr ⟨hreq, hallowed⟩)) _
  | restartAgent =>
    exact sent_inner (writeGuard_all _) (fun hallowed args _ => hC.parsed (n := 4)
      (request_sends hread fun req hreq => .inr ⟨⟨_, hreq⟩, hallowed⟩)) _
  | addAgentToGroup | removeAgentFromGroup =>
    exact sent_inner (writeGuard_all _) (fun hallowed args _ => hC.parsed (n := 4)
      (request_sends hread fun req hreq => .inr ⟨⟨_, _, hreq⟩, hallowed⟩)) _
  | createRule | updateRule =>
    refine sent_inner (writeGuard_all _) (fun hallowed args _ => ?_) _
    refine hC.uploadRule fun xml => ServerApiClient.sends_exchange (.inl .mint) fun _ => ?_
    exact .inr ⟨⟨_, rfl, rfl, rfl⟩, hallowed⟩
  | runActiveResponse =>
    exact sent_inner (allowlistGuard_all _ _ _ _) (fun hallowed args commands => hC.runActiveResponse
      fun _ _ => request_sends hread fun req hreq => .inr ⟨hreq, hallowed⟩) _
  | runActiveResponseOnGroup =>
    exact sent_inner (allowlistGuard_all _ _ _ _) (fun hallowed args groups => hC.runActiveResponseOnGroup
      fun _ _ => request_sends hread fun req hreq => .inr ⟨hreq, hallowed⟩) _
  | restartManager =>
    refine sent_inner (writeGuard_all _) (fun hallowed args _ => hC.restartManager fun scope => ?_) _
    refine request_sends hread fun req hreq => .inr ⟨?_, hallowed⟩
    split at hreq
    · exact .inl hreq
    · exact .inr hreq

/-- A tool call that sends anything but reads has passed the role and the write allowlist. -/
theorem changes_callTool (toolName : String) (arguments : JsonObject) :
    (rbacCallTool (.ofRegistry registry) (some session) lib toolName arguments).All fun tr _ =>
      ∀ req ∈ serverRequests tr, req.Reads ∨ ∃ t : Tool, t.name = toolName ∧ t.Changes req ∧
        isAllowed session t.name (effectivePolicy registry session) = true ∧
        writeAllowed registry session t.name = true := by
  by_cases haccept : isAllowed session toolName (effectivePolicy registry session) = true ∧
      ∃ t : Tool, t.name = toolName ∧ ∃ kwargs, bindArguments lib.validate t.signature arguments = some kwargs
  · obtain ⟨hallowed, t, rfl, kwargs, haccepted⟩ := haccept
    have hcall := (all_accepted_call hallowed haccepted (fun reqs => ∀ req ∈ reqs,
      req.Reads ∨ t.Changes req ∧ writeAllowed registry session t.name = true) (by simp)).mpr
      (sent_handler t kwargs)
    refine hcall.mono fun tr _ h req hreq => (h req hreq).imp_right fun hchange => ?_
    exact ⟨t, rfl, hchange.1, hallowed, hchange.2⟩
  · refine (silent_rejected_call fun hallowed t hname => ?_).mono fun tr _ hnil req hreq => ?_
    · by_contra haccepted
      obtain ⟨kwargs, hkwargs⟩ := Option.ne_none_iff_exists'.mp haccepted
      exact haccept ⟨hallowed, t, hname, kwargs, hkwargs⟩
    · rw [hnil] at hreq
      cases hreq

/-! ## Resources and prompts -/

/-- The step sends nothing but a request that reads. -/
def AppEvent.Reads (ev : AppEvent) : Prop := ∀ req, ev.op.request = some req → req.Reads

theorem reads_lift {α : Type} {p : UpProg α} (h : p.Sends UpRequest.Reads) :
    (UpProg.lift p).Every AppEvent.Reads := by
  refine Prog.every_embed.mpr (Prog.Every.mono h ?_)
  rintro ⟨op, ans⟩ hop req hreq
  cases op with
  | send r => exact hop req (congrArg UpOp.send (Option.some.inj hreq))
  | _ => cases hreq

/-- The calls of resources and prompts only read. -/
theorem reads_spelled (py : Pydantic) (c : Call) : (c.spelled session py).Every AppEvent.Reads := by
  have hC : Modular fun _ _ p => p.Sends UpRequest.Reads := modular_sends fun _ => id
  cases c with
  | acquire upstream tenantId =>
    exact Prog.every_attempt (reads_lift (UpProg.sends_op (by rintro _ ⟨⟩) fun _ => UpProg.sends_ofExcept _))
  | serverApiGet path params runAs => exact Prog.every_attempt (reads_lift (hC.get _ _ _))
  | searchAlerts args => exact Prog.every_attempt (reads_lift hC.searchRows)
  | getAlert args => exact Prog.every_attempt (reads_lift (hC.getAlert args))
  | getAgent args => exact Prog.every_attempt (reads_lift (hC.getAgent args))
  | alertsByAgent args => exact Prog.every_attempt (reads_lift hC.searchRows)
  | listVulnerabilitiesByAgent args => exact Prog.every_attempt (reads_lift hC.searchRows)
  | monotonic => exact reads_lift (UpProg.sends_op (by rintro _ ⟨⟩) fun _ => trivial)
  | emit event => exact fun _ => ⟨fun _ hreq => (nomatch hreq), trivial⟩

/-- What is served without the wrapper only reads, if its program does. -/
theorem reads_unwrapped {α : Type} {p : AppProg α} (h : p.Every AppEvent.Reads) (wrap : α → McpResult) :
    Prog.All (wrap <$> (ToolProg.inner p : ServerProg α)) fun tr _ => ∀ req ∈ serverRequests tr, req.Reads := by
  refine (Prog.all_map _ _ _).mpr ((Prog.all_embed _ _ _).mpr ((Prog.Every.all h).mono ?_))
  intro tr _ htr req hreq
  rw [serverRequests_inner] at hreq
  obtain ⟨ev, hev, hop⟩ := List.mem_filterMap.mp hreq
  exact htr ev hev req hop

theorem reads_resource (py : Pydantic) (uri : ResourceUri) :
    (readResource (some session) uri).Every AppEvent.Reads := by
  rw [← @interpret_resourceCalls session py]
  exact Prog.every_interpret (reads_spelled py) _

theorem reads_prompt (prompt : PromptName) : (getPrompt (some session) lib prompt).Every AppEvent.Reads := by
  rw [← interpret_promptCalls]
  exact Prog.every_interpret (reads_spelled lib.py) _

end Closures

/-! ## Whole requests -/

/-- **Least privilege.** Whatever is sent while an MCP request is served reads, or the request is the call of
a write tool, and what is sent is the change of this tool, which the role of the session and the tenant's
write allowlist both allow. -/
theorem least_privilege (registry : TenantRegistry) (lib : Libraries) (session : Session) (req : McpRequest) :
    (serve (.ofRegistry registry) (some session) lib req).All fun tr _ =>
      ∀ r ∈ serverRequests tr, r.Reads ∨
        ∃ (t : Tool) (arguments : JsonObject), req = .callTool t.name arguments ∧ t.Changes r ∧
          isAllowed session t.name (effectivePolicy registry session) = true ∧
          writeAllowed registry session t.name = true := by
  cases req with
  | readResource uri =>
    exact (reads_unwrapped (reads_resource lib.py uri) _).mono fun _ _ h r hr => .inl (h r hr)
  | getPrompt prompt =>
    exact (reads_unwrapped (reads_prompt prompt) _).mono fun _ _ h r hr => .inl (h r hr)
  | callTool toolName arguments =>
    rw [serve, Prog.all_map]
    refine (changes_callTool toolName arguments).mono fun _ _ h r hr => (h r hr).imp_right ?_
    rintro ⟨t, rfl, hchange⟩
    exact ⟨t, arguments, rfl, hchange⟩

/-- No role but `admin` has write tools by default. -/
theorem default_patterns {role : String} (hrole : role ≠ "admin") (t : Tool)
    (hwrite : Text.startsWith t.name "write." = true) :
    toolMatches t.name (defaultRoleToolAllowlist.patterns role) = false := by
  by_cases hknown : role = "analyst" ∨ role = "readonly"
  · rcases hknown with rfl | rfl
    all_goals
      cases t with
      | isolateAgent | restartAgent | addAgentToGroup | removeAgentFromGroup | createRule | updateRule
      | runActiveResponse | runActiveResponseOnGroup | restartManager => decide
      | _ => exact absurd hwrite (by decide)
  · rw [not_or] at hknown
    have hnone : defaultRoleToolAllowlist.patterns role = [] := by
      simp [Policy.patterns, defaultRoleToolAllowlist, Dict.lookup_cons, hrole, hknown]
    rw [hnone]
    rfl

/-- The tenant of the session, if there is one, leaves the role of the session as it is by default. -/
def KeepsDefault (registry : TenantRegistry) (session : Session) : Prop :=
  ∀ tenant, registry.find? session.tenantId = some tenant →
    session.rbacRole ∉ (tenant.roleToolAllowlist.getD []).map Prod.fst

theorem isAllowed_default {registry : TenantRegistry} {session : Session}
    (hkeeps : KeepsDefault registry session) {toolName : String}
    (h : toolMatches toolName (defaultRoleToolAllowlist.patterns session.rbacRole) = false) :
    isAllowed session toolName (effectivePolicy registry session) = false := by
  rw [isAllowed_eq, effectivePolicy, resolved]
  cases hfind : registry.find? session.tenantId with
  | none => rfl
  | some tenant =>
    have hnone : (tenant.roleToolAllowlist.getD []).reverse.lookup session.rbacRole = none := by
      refine List.lookup_eq_none_iff.mpr fun kv hkv => bne_iff_ne.mpr fun hrole => ?_
      exact hkeeps tenant hfind (List.mem_map.mpr ⟨kv, List.mem_reverse.mp hkv, hrole.symm⟩)
    show toolMatches toolName
      (((effectiveAllowlistFor tenant.roleToolAllowlist).lookup session.rbacRole).getD []) = _
    rw [lookup_effectiveAllowlistFor, hnone]
    exact h

/-- Where the tenant of a session has no override for its role, and the role is not `admin`, everything that is
sent while a request is served reads. -/
theorem reads_serve_default (registry : TenantRegistry) (lib : Libraries) (session : Session)
    (req : McpRequest) (hrole : session.rbacRole ≠ "admin") (hkeeps : KeepsDefault registry session) :
    (serve (.ofRegistry registry) (some session) lib req).All fun tr _ =>
      ∀ r ∈ serverRequests tr, r.Reads := by
  refine (least_privilege registry lib session req).mono fun _ _ h r hr => (h r hr).resolve_right ?_
  rintro ⟨t, arguments, -, hchange, hallowed, -⟩
  have hdenied := isAllowed_default hkeeps (default_patterns hrole t hchange.write)
  rw [hdenied] at hallowed
  cases hallowed

/-! ## The listed tools -/

/-- The answer to the call of a tool that does not exist, or that the session does not get to see. -/
def Unknown (toolName : String) (tr : List ServerEvent) (out : Except Exn ToolResult) : Prop :=
  out = .error (.tool ("Unknown tool: " ++ toolName)) ∧ serverRequests tr = [] ∧ limiterCalls tr = []

/-- The call comes to the tool: its arguments are refused, or the limiter is asked. -/
def Served (session : Session) (tr : List ServerEvent) (out : Except Exn ToolResult) : Prop :=
  out = .error .validation ∨ ∃ ans, (session.tenantId, session.userId, ans) ∈ limiterCalls tr

section Listed

variable {registry : TenantRegistry} {lib : Libraries} {session : Session}

theorem all_rbacCallTool (toolName : String) (arguments : JsonObject)
    (Q : List ServerEvent → Except Exn ToolResult → Prop) :
    (rbacCallTool (.ofRegistry registry) (some session) lib toolName arguments).All Q ↔
      if isAllowed session toolName (effectivePolicy registry session) then
        (fastmcpCallTool (.ofRegistry registry) (some session) lib toolName arguments).All fun tr out =>
          Q (hookEvents registry session ++ tr) out
      else
        Q (hookEvents registry session ++
            [⟨.emit (session.failureEvent toolName arguments (.safe .forbidden)), ()⟩])
          (.error (.tool ("Unknown tool: " ++ toolName))) := by
  refine (Prog.all_bind (ToolProg.inner (makeRbacPolicy registry session)) _ _).trans
    ((Prog.all_embed _ _ _).trans ((all_resolve ..).trans ?_))
  change Prog.All (if isAllowed session toolName (effectivePolicy registry session) then
    fastmcpCallTool (.ofRegistry registry) (some session) lib toolName arguments else _) _ ↔ _
  split
  · exact Iff.rfl
  · exact ⟨fun h => h (), fun h _ => h⟩

/-- `tools/list` is answered with the tools that the policy allows. -/
theorem all_rbacListTools (Q : List ServerEvent → Except Exn (List Tool) → Prop) :
    (rbacListTools (.ofRegistry registry) (some session)).All Q ↔
      Q (hookEvents registry session)
        (.ok (Tool.all.filter fun t => isAllowed session t.name (effectivePolicy registry session))) := by
  refine (Prog.all_bind (ToolProg.inner (makeRbacPolicy registry session)) _ _).trans
    ((Prog.all_embed _ _ _).trans ((all_resolve ..).trans ?_))
  show Q (hookEvents registry session ++ []) _ ↔ _
  rw [List.append_nil]
  exact Iff.rfl

theorem limiterCalls_hookEvents : limiterCalls (hookEvents registry session) = [] := limiterCalls_inner _

theorem unknown_denied {toolName : String} {arguments : JsonObject}
    (h : isAllowed session toolName (effectivePolicy registry session) = false) :
    (rbacCallTool (.ofRegistry registry) (some session) lib toolName arguments).All (Unknown toolName) := by
  rw [all_rbacCallTool, h, if_neg Bool.false_ne_true]
  refine ⟨rfl, ?_, ?_⟩
  · rw [serverRequests_append, serverRequests_hookEvents]
    rfl
  · rw [limiterCalls_append, limiterCalls_hookEvents]
    rfl

theorem unknown_unregistered (hwords : lib.HookWords) {toolName : String} {arguments : JsonObject}
    (h : Tool.ofName? toolName = none) :
    (rbacCallTool (.ofRegistry registry) (some session) lib toolName arguments).All (Unknown toolName) := by
  cases hallowed : isAllowed session toolName (effectivePolicy registry session) with
  | false => exact unknown_denied hallowed
  | true =>
    rw [all_rbacCallTool, hallowed, if_pos rfl, fastmcpCallTool, h]
    refine ⟨congrArg Except.error (hwords toolName), ?_, ?_⟩
    · rw [List.append_nil, serverRequests_hookEvents]
    · rw [List.append_nil, limiterCalls_hookEvents]

theorem served_allowed {t : Tool} {arguments : JsonObject}
    (h : isAllowed session t.name (effectivePolicy registry session) = true) :
    (rbacCallTool (.ofRegistry registry) (some session) lib t.name arguments).All (Served session) := by
  rw [all_rbacCallTool, h, if_pos rfl, fastmcpCallTool, Tool.ofName?_name]
  dsimp only
  cases bindArguments lib.validate t.signature arguments with
  | none => exact .inl rfl
  | some kwargs =>
    refine (instrumented_shape registry lib session t kwargs).mono fun tr out hshape => .inr ?_
    cases hshape with
    | denied hpol hdenied =>
      have hallowed : isAllowed session t.name (effectivePolicy registry session) = false := hdenied
      rw [h] at hallowed
      cases hallowed
    | @refused trp ans x hpol hallowed hans =>
      refine ⟨ans, ?_⟩
      rw [limiterCalls_append, limiterCalls_append]
      exact List.mem_append_right _ (List.mem_append_right _ List.mem_cons_self)
    | @handled trp trh ans start stop out hpol hallowed hans hhan =>
      refine ⟨ans, ?_⟩
      rw [limiterCalls_append, limiterCalls_append]
      exact List.mem_append_right _ (List.mem_append_right _ List.mem_cons_self)

end Listed

/-- **What is listed is what is served.** `tools/list` sends nothing upstream. Whatever the arguments, a call of
a tool that it names comes to the tool, and all other names are answered alike, whether there is such a tool
or not, as FastMCP and the hook have one wording for both. -/
theorem listed_served (registry : TenantRegistry) (lib : Libraries) (session : Session)
    (hwords : lib.HookWords) :
    (rbacListTools (.ofRegistry registry) (some session)).All fun tr out => serverRequests tr = [] ∧
      ∃ tools : List Tool, out = .ok tools ∧ ∀ toolName arguments,
        (toolName ∈ tools.map Tool.name →
          (rbacCallTool (.ofRegistry registry) (some session) lib toolName arguments).All (Served session)) ∧
        (toolName ∉ tools.map Tool.name →
          (rbacCallTool (.ofRegistry registry) (some session) lib toolName arguments).All
            (Unknown toolName)) := by
  rw [all_rbacListTools]
  refine ⟨serverRequests_hookEvents registry session, _, rfl, fun toolName arguments => ?_⟩
  refine ⟨fun hlisted => ?_, fun hlisted => ?_⟩
  · obtain ⟨t, ht, rfl⟩ := List.mem_map.mp hlisted
    exact served_allowed (List.mem_filter.mp ht).2
  · cases hfound : Tool.ofName? toolName with
    | none => exact unknown_unregistered hwords hfound
    | some t =>
      obtain rfl := Tool.name_of_ofName? hfound
      refine unknown_denied (Bool.eq_false_iff.mpr fun hallowed => hlisted ?_)
      exact List.mem_map.mpr ⟨t, List.mem_filter.mpr ⟨List.mem_of_find?_eq_some hfound, hallowed⟩, rfl⟩

/-- An analyst gets to see `alerts.search_alerts`, and a call of it comes to the tool. A call of
`write.restart_manager` is answered as one of `write.restart`, which is no tool. -/
theorem listed_served_analyst :
    let registry : TenantRegistry := .single { tenantId := "acme", defaultRbacRole := "analyst" }
    let session : Session := ⟨"alice@acme", "acme", "analyst", .oauth, none⟩
    let call (toolName : String) := rbacCallTool (.ofRegistry registry) (some session) statusLibraries toolName []
    (call "alerts.search_alerts").All (Served session) ∧
      (call "write.restart_manager").All (Unknown "write.restart_manager") ∧
      (call "write.restart").All (Unknown "write.restart") := by
  intro registry session call
  have hlisted := listed_served registry statusLibraries session fun _ => rfl
  rw [all_rbacListTools] at hlisted
  obtain ⟨-, tools, htools, hcalls⟩ := hlisted
  obtain rfl := Except.ok.inj htools
  refine ⟨(hcalls _ []).1 ?_, (hcalls _ []).2 ?_, (hcalls _ []).2 ?_⟩ <;> decide +kernel

end WazuhMcp
