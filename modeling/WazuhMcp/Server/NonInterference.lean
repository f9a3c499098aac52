import WazuhMcp.Foundations.Observe
import WazuhMcp.Server.HttpApp
import WazuhMcp.Server.Steps

/-!
# Tenants do not interfere

What a server does for a session of a tenant depends on what the configuration says of that tenant, and on
nothing that it says of others: `sameFor_of_agreesOn` compares two servers whose configurations agree on one
tenant. A session of a tenant that is in no configuration is denied every tool (`outcast_of_unregistered`).

* `Policies.AgreeAt` says that policies are the same for a session; then so is every request (`serve_congr`).
* `HttpApp.see` is what a step comes to on a server: the limits that are applied, the client that is taken
  from a pool, the sinks that receive an event. Every step of a request is done for the session's tenant
  (`own_serve`), and there two servers that agree on the tenant see the same.
-/

namespace WazuhMcp

open Interact

/-! ## Policies that agree -/

/-- The policies are the same for the session. -/
structure Policies.AgreeAt (pol pol' : Policies) (session : Session) : Prop where
  rbac : pol.rbacPolicy session = pol'.rbacPolicy session
  write : pol.writeAllowlistPolicy.map (· session) = pol'.writeAllowlistPolicy.map (· session)
  ar : pol.arAllowlistPolicy.map (· session) = pol'.arAllowlistPolicy.map (· session)
  arGroup : pol.arGroupAllowlistPolicy.map (· session) = pol'.arGroupAllowlistPolicy.map (· session)

section Congr

variable {pol pol' : Policies} {lib : Libraries} {session : Session}

theorem checkWriteAllowed_congr (h : pol.AgreeAt pol' session) (toolName : String) :
    checkWriteAllowed pol session toolName = checkWriteAllowed pol' session toolName := by
  have hwrite := h.write
  unfold checkWriteAllowed
  cases hpol : pol.writeAllowlistPolicy <;> cases hpol' : pol'.writeAllowlistPolicy <;>
    rw [hpol, hpol'] at hwrite
  · cases hwrite
  · cases hwrite
  · rw [Option.map_some, Option.map_some, Option.some.injEq] at hwrite
    simp only [hwrite]

theorem requiredAllowlist_congr {policy policy' : Option (Session → AppProg (List String))}
    (h : policy.map (· session) = policy'.map (· session)) (message scope : String) :
    requiredAllowlist policy message scope session = requiredAllowlist policy' message scope session := by
  cases policy <;> cases policy'
  · rfl
  · cases h
  · cases h
  · exact Option.some.inj h

/-- A closure depends on what its guard does for the session. -/
theorem inner_congr {Args Guard α : Type} {guard guard' : Session → AppProg Guard} (args : Option Args)
    (upstream : Upstream) (run : Session → Args → Guard → UpProg α) (wrap : α → ToolResult)
    (h : guard session = guard' session) :
    inner (some session) args guard upstream run wrap =
      inner (some session) args guard' upstream run wrap := by
  cases args with
  | none => rfl
  | some args => rw [inner_some, inner_some, h]

theorem handler_congr (h : pol.AgreeAt pol' session) (t : Tool) (kwargs : JsonObject) :
    t.handler pol (some session) lib kwargs = t.handler pol' (some session) lib kwargs := by
  have hwrite := checkWriteAllowed_congr h
  cases t with
  | runActiveResponse =>
    refine inner_congr _ _ _ _ ?_
    rw [arGuard, arGuard, hwrite, requiredAllowlist_congr h.ar]
  | runActiveResponseOnGroup =>
    refine inner_congr _ _ _ _ ?_
    rw [arGroupGuard, arGroupGuard, hwrite, requiredAllowlist_congr h.arGroup]
  | isolateAgent | restartAgent | addAgentToGroup | removeAgentFromGroup | createRule | updateRule
  | restartManager => exact inner_congr _ _ _ _ (hwrite _)
  | _ => rfl

theorem fastmcpCallTool_congr (h : pol.AgreeAt pol' session) (toolName : String)
    (arguments : JsonObject) :
    fastmcpCallTool pol (some session) lib toolName arguments =
      fastmcpCallTool pol' (some session) lib toolName arguments := by
  unfold fastmcpCallTool
  split
  · rfl
  · rename_i t _
    split
    · rfl
    · rename_i kwargs _
      unfold InstrumentedTool.call
      have hpolicy : (t.instrumented pol (some session) lib).rbacPolicy session =
          (t.instrumented pol' (some session) lib).rbacPolicy session := h.rbac
      have hhandler : (t.instrumented pol (some session) lib).handler kwargs =
          (t.instrumented pol' (some session) lib).handler kwargs := handler_congr h t kwargs
      change (ToolProg.inner ((t.instrumented pol (some session) lib).rbacPolicy session) >>= _) =
        (ToolProg.inner ((t.instrumented pol' (some session) lib).rbacPolicy session) >>= _)
      rw [hpolicy, hhandler]
      rfl

/-- **A request is the same** under policies that are the same for its session. -/
theorem serve_congr (h : pol.AgreeAt pol' session) (req : McpRequest) :
    serve pol (some session) lib req = serve pol' (some session) lib req := by
  cases req with
  | readResource uri => rfl
  | getPrompt prompt => rfl
  | callTool toolName arguments =>
    have hcall : fastmcpCallTool pol (some session) lib toolName arguments = _ :=
      fastmcpCallTool_congr h toolName arguments
    unfold serve
    refine congrArg (McpResult.tool <$> ·) ?_
    change (ToolProg.inner (pol.rbacPolicy session) >>= _) =
      (ToolProg.inner (pol'.rbacPolicy session) >>= _)
    rw [h.rbac, hcall]

end Congr

/-- Registries that have the same for a tenant make policies that are the same for its sessions. -/
theorem agreeAt_ofRegistry {r r' : TenantRegistry} {session : Session}
    (h : r.find? session.tenantId = r'.find? session.tenantId) :
    (Policies.ofRegistry r).AgreeAt (.ofRegistry r') session := by
  have hresolve : ∀ {α : Type} (missing : α) (read : TenantConfig → α),
      resolve r missing read session = resolve r' missing read session := by
    intro α missing read
    unfold resolve TenantRegistry.get
    rw [h]
  constructor
  · exact hresolve _ _
  · exact congrArg some (hresolve _ _)
  · exact congrArg some (hresolve _ _)
  · exact congrArg some (hresolve _ _)

/-! ## What a step comes to -/

/-- What a step comes to on a server. -/
inductive Seen where
  /-- the limiter is asked, and applies these limits -/
  | limited (cfg : RateLimit.RateLimitConfig) (tenantId sessionId : String) (ans : Acquired)
  /-- a client is taken from a pool -/
  | client (upstream : Upstream) (client : Except Exn HttpClient) (ans : Except ForeignExn Unit)
  /-- an event goes to these sinks -/
  | audited (sinks : List AuditSink) (event : AuditEvent)
  | other (ev : ServerEvent)

namespace HttpApp

/-- The pool of an upstream. -/
def pool (app : HttpApp) : Upstream → BoundPool
  | .indexer => app.indexerPool
  | .serverApi => app.serverApiPool

/-- What a step comes to on the server. -/
def see (app : HttpApp) : ServerEvent → Seen
  | ⟨.acquire tenantId sessionId, ans⟩ =>
    .limited (app.limiter.limits.cfg tenantId) tenantId sessionId ans
  | ⟨.inner (.up (.acquire upstream tenantId)), ans⟩ =>
    .client upstream ((app.pool upstream).client tenantId) ans
  | ⟨.emit event, _⟩ => .audited (app.audit.sinksFor event) event
  | ⟨.inner (.emit event), _⟩ => .audited (app.audit.sinksFor event) event
  | ev => .other ev

end HttpApp

/-- `_rbac_list_tools()`: the tools that the session may use. Without a session, all of them. -/
def rbacListTools (pol : Policies) : Option Session → ServerProg (List Tool)
  | none => pure Tool.all
  | some session => do
    let policy ← ToolProg.inner (pol.rbacPolicy session)
    return Tool.all.filter fun t => isAllowed session t.name policy

/-! ## Two servers -/

/-- The two configurations say the same of the tenant, whatever they say of others. -/
structure ConfigDir.AgreesOn (dir dir' : ConfigDir) (tenantId : String) : Prop where
  tenants : (dir.tenants.filter fun cfg => cfg.tenantId = tenantId) =
    dir'.tenants.filter fun cfg => cfg.tenantId = tenantId
  secrets : (dir.secrets.filter fun kv => kv.1 = tenantId) =
    dir'.secrets.filter fun kv => kv.1 = tenantId

/-- **The two servers are the same for the session.** -/
structure SameFor (app app' : HttpApp) (lib : Libraries) (session : Session) : Prop where
  /-- the same policies: roles, writes, active responses and groups -/
  policies : app.policies.AgreeAt app'.policies session
  /-- a request may do on one what it may do on the other: it is limited by the same limits, takes the same
  clients from the pools, and its events go to the same sinks -/
  requests : ∀ req steps out,
    (serve app.policies (some session) lib req).Observes app.see steps out ↔
      (serve app'.policies (some session) lib req).Observes app'.see steps out
  listings : ∀ steps out, (rbacListTools app.policies (some session)).Observes app.see steps out ↔
    (rbacListTools app'.policies (some session)).Observes app'.see steps out
  /-- whatever calls for clients there are on either, those of the tenant return the same client -/
  clients : ∀ upstream acts acts', (app.pool upstream).ReadsStore acts →
    (app'.pool upstream).ReadsStore acts' → ∀ k k',
      ((app.pool upstream).run acts).Returned session.tenantId k →
      ((app'.pool upstream).run acts').Returned session.tenantId k' →
        ∃ m m', ((app.pool upstream).run acts).made[k]? = some m ∧
          ((app'.pool upstream).run acts').made[k']? = some m' ∧ m.client = m'.client
  /-- an event of the tenant goes to the same sinks, the global ones and the tenant's own -/
  sinks : ∀ event : AuditEvent, event.tenant = session.tenantId →
    app.audit.sinksFor event = app'.audit.sinksFor event ∧
      ∀ s, s ∈ app.audit.sinksFor event ↔ s ∈ app.audit.globalSinks ∨
        s ∈ app.audit.allSinks ∧ s.owner = some session.tenantId

section Compare

variable {app app' : HttpApp} {r r' : SettingsRegistry} {secrets secrets' : YamlSecretStore}
  {session : Session} {lib : Libraries}

theorem HttpApp.MadeOf.pool (h : app.MadeOf r secrets) (upstream : Upstream) :
    ∃ kind, app.pool upstream = ⟨kind, r, secrets⟩ ∧
      ∀ {app' r' secrets'}, HttpApp.MadeOf app' r' secrets' → app'.pool upstream = ⟨kind, r', secrets'⟩ := by
  cases upstream with
  | indexer => exact ⟨.indexer, h.indexerPool, fun h' => h'.indexerPool⟩
  | serverApi => exact ⟨.serverApi, h.serverApiPool, fun h' => h'.serverApiPool⟩

theorem HttpApp.MadeOf.sinksFor (h : app.MadeOf r secrets) (event : AuditEvent) :
    app.audit.sinksFor event =
      [⟨none, 0, .stderr⟩] ++ (r.find? event.tenant).elim [] TenantSettings.ownSinks := by
  obtain ⟨_, _, hsinks, haudit⟩ := h.audit
  rw [haudit]
  exact MultiSinkAuditEmitter.sinksFor_build hsinks event

/-- The limits of a tenant that is configured are its own. -/
theorem HttpApp.MadeOf.cfg (h : app.MadeOf r secrets) {tenantId : String} {t : TenantSettings}
    (ht : r.find? tenantId = some t) : app.limiter.limits.cfg tenantId = t.rateLimit := by
  rw [RateLimit.Limits.cfg, h.limiter, Dict.get_map, ← SettingsRegistry.find?, ht]
  rfl

theorem client_pool_congr (h : app.MadeOf r secrets) (h' : app'.MadeOf r' secrets')
    (hfind : r.find? session.tenantId = r'.find? session.tenantId)
    (hsecrets : ∀ key, secrets.get session.tenantId key = secrets'.get session.tenantId key)
    (upstream : Upstream) :
    (app.pool upstream).client session.tenantId = (app'.pool upstream).client session.tenantId := by
  obtain ⟨kind, hpool, hpool'⟩ := h.pool upstream
  rw [hpool, hpool' h']
  exact BoundPool.client_congr rfl hfind hsecrets

theorem covers_true (user : Option String) : Covers (fun _ => True) user :=
  ⟨trivial, fun _ _ => trivial, fun _ _ => trivial⟩

/-- Where the two servers agree on the tenant, its sessions' steps come to the same on both; but for the
limits, if the tenant is not configured. -/
theorem see_congr (h : app.MadeOf r secrets) (h' : app'.MadeOf r' secrets')
    (hfind : r.find? session.tenantId = r'.find? session.tenantId)
    (hsecrets : ∀ key, secrets.get session.tenantId key = secrets'.get session.tenantId key)
    {ev : ServerEvent} (hown : ev.Own (fun _ => True) session)
    (hlimiter : (r.find? session.tenantId).isSome ∨ ∀ t s, ev.op ≠ .acquire t s) :
    app.see ev = app'.see ev := by
  have hsinks : ∀ event : AuditEvent, event.tenant = session.tenantId →
      app.audit.sinksFor event = app'.audit.sinksFor event := by
    intro event hevent
    rw [h.sinksFor, h'.sinksFor, hevent, hfind]
  obtain ⟨op, ans⟩ := ev
  cases op with
  | acquire t s =>
    obtain rfl : t = session.tenantId := hown
    rcases hlimiter with hsome | hne
    · obtain ⟨tenant, htenant⟩ := Option.isSome_iff_exists.mp hsome
      show Seen.limited _ _ _ _ = Seen.limited _ _ _ _
      rw [h.cfg htenant, h'.cfg (hfind.symm.trans htenant)]
    · exact absurd rfl (hne _ s)
  | emit event => exact congrArg (Seen.audited · event) (hsinks event hown)
  | inner op =>
    cases op with
    | emit event => exact congrArg (Seen.audited · event) (hsinks event hown)
    | up op =>
      cases op with
      | acquire upstream t =>
        obtain rfl : t = session.tenantId := hown
        exact congrArg (Seen.client upstream · ans) (client_pool_congr h h' hfind hsecrets upstream)
      | _ => rfl
  | _ => rfl

/-! ## A tenant that is not configured -/

theorem makeRbacPolicy_unregistered {registry : TenantRegistry}
    (h : registry.find? session.tenantId = none) :
    makeRbacPolicy registry session = (do AppProg.emit (resolveMiss session); return []) := by
  unfold makeRbacPolicy resolve TenantRegistry.get
  rw [h]
  rfl

/-- A call for a tenant that is not registered: two events, and the error of an unknown tool. -/
theorem rbacCallTool_unregistered {registry : TenantRegistry}
    (h : registry.find? session.tenantId = none) (toolName : String) (arguments : JsonObject) :
    rbacCallTool (.ofRegistry registry) (some session) lib toolName arguments = (do
      ToolProg.inner (AppProg.emit (resolveMiss session))
      ToolProg.emit (session.failureEvent toolName arguments (.safe .forbidden))
      .raise (.tool ("Unknown tool: " ++ toolName))) := by
  change (ToolProg.inner (makeRbacPolicy registry session) >>= _) = _
  rw [makeRbacPolicy_unregistered h]
  rfl

theorem rbacListTools_unregistered {registry : TenantRegistry}
    (h : registry.find? session.tenantId = none) :
    rbacListTools (.ofRegistry registry) (some session) = (do
      ToolProg.inner (AppProg.emit (resolveMiss session))
      return []) := by
  change (ToolProg.inner (makeRbacPolicy registry session) >>= _) = _
  rw [makeRbacPolicy_unregistered h]
  rfl

/-- A request for a tenant that is not registered does not ask the limiter. -/
theorem unlimited_serve {registry : TenantRegistry} (h : registry.find? session.tenantId = none)
    (req : McpRequest) :
    (serve (.ofRegistry registry) (some session) lib req).Every fun ev => ∀ t s, ev.op ≠ .acquire t s := by
  have hinner : ∀ {α : Type} (p : AppProg α),
      (ToolProg.inner p : ServerProg α).Every fun ev => ∀ t s, ev.op ≠ .acquire t s := by
    intro α p
    refine Prog.every_embed.mpr (Prog.every_of_forall p ?_)
    rintro ev t s ⟨⟩
  cases req with
  | readResource uri => exact Prog.every_bind (hinner _) fun _ => trivial
  | getPrompt prompt => exact Prog.every_bind (hinner _) fun _ => trivial
  | callTool toolName arguments =>
    rw [serve, rbacCallTool_unregistered h]
    refine fun _ => ⟨?_, fun _ => ⟨?_, trivial⟩⟩
    · rintro t s ⟨⟩
    · rintro t s ⟨⟩

end Compare

/-- **The session's tenant is not configured**: no tool is listed, a call of any is denied as if there were
no such tool, and whatever the session emits goes to the global sinks and no others. -/
structure Outcast (app : HttpApp) (lib : Libraries) (session : Session) : Prop where
  hidden : (rbacListTools app.policies (some session)).All fun tr out =>
    out = .ok [] ∧ tr.map app.see = [.audited app.audit.globalSinks (resolveMiss session)]
  denied : ∀ toolName arguments,
    (serve app.policies (some session) lib (.callTool toolName arguments)).All fun tr out =>
      out = .error (.tool ("Unknown tool: " ++ toolName)) ∧
        tr.map app.see = [.audited app.audit.globalSinks (resolveMiss session),
          .audited app.audit.globalSinks (session.failureEvent toolName arguments (.safe .forbidden))]
  audited : ∀ req, (serve app.policies (some session) lib req).All fun tr _ =>
    ∀ ev ∈ tr, ∀ sinks event, app.see ev = .audited sinks event → sinks = app.audit.globalSinks

section Boot

variable {app app' : HttpApp} {r r' : SettingsRegistry} {secrets secrets' : YamlSecretStore}
  {session : Session} {lib : Libraries}

theorem HttpApp.MadeOf.globalSinks (h : app.MadeOf r secrets) :
    app.audit.globalSinks = [⟨none, 0, .stderr⟩] := by
  obtain ⟨_, _, -, haudit⟩ := h.audit
  rw [haudit]
  rfl

theorem outcast_of_unregistered (h : app.MadeOf r secrets) (hnone : r.find? session.tenantId = none) :
    Outcast app lib session := by
  have hregistry : r.registry.find? session.tenantId = none := by
    rw [SettingsRegistry.find?_registry, hnone]
    rfl
  have hglobal : ∀ event : AuditEvent, event.tenant = session.tenantId →
      app.audit.sinksFor event = app.audit.globalSinks := by
    intro event hevent
    rw [h.sinksFor, h.globalSinks, hevent, hnone]
    rfl
  have hmiss := hglobal (resolveMiss session) rfl
  constructor
  · rw [h.policies, rbacListTools_unregistered hregistry]
    exact fun _ => ⟨rfl, congrArg (fun sinks => [Seen.audited sinks _]) hmiss⟩
  · intro toolName arguments
    have hfailure := hglobal (session.failureEvent toolName arguments (.safe .forbidden)) rfl
    rw [h.policies, serve, rbacCallTool_unregistered hregistry]
    refine fun _ _ => ⟨rfl, ?_⟩
    show [Seen.audited (app.audit.sinksFor _) _, Seen.audited (app.audit.sinksFor _) _] = _
    rw [hmiss, hfailure]
  · intro req
    rw [h.policies]
    refine (Prog.Every.mono (own_serve (covers_true _) (covers_true _) req) ?_).all
    rintro ⟨op, ans⟩ hown sinks event hsee
    cases op with
    | emit event' =>
      cases hsee
      exact hglobal _ hown
    | inner op =>
      cases op with
      | emit event' =>
        cases hsee
        exact hglobal _ hown
      | up op => cases op <;> cases hsee
    | _ => cases hsee

/-- Servers that agree on the tenant are the same for its sessions. -/
theorem sameFor_of_madeOf (h : app.MadeOf r secrets) (h' : app'.MadeOf r' secrets')
    (hfind : r.find? session.tenantId = r'.find? session.tenantId)
    (hsecrets : ∀ key, secrets.get session.tenantId key = secrets'.get session.tenantId key) :
    SameFor app app' lib session := by
  have hregistry : r.registry.find? session.tenantId = r'.registry.find? session.tenantId := by
    rw [SettingsRegistry.find?_registry, SettingsRegistry.find?_registry, hfind]
  have hagree : app.policies.AgreeAt app'.policies session := by
    rw [h.policies, h'.policies]
    exact agreeAt_ofRegistry hregistry
  constructor
  · exact hagree
  · intro req steps out
    rw [← serve_congr hagree, h.policies]
    refine Prog.observes_congr ?_ steps out
    have hown : (serve (.ofRegistry r.registry) (some session) lib req).Every
        (ServerEvent.Own (fun _ => True) session) := own_serve (covers_true _) (covers_true _) req
    cases hcfg : r.find? session.tenantId with
    | some tenant =>
      refine Prog.Every.mono hown fun ev hev => see_congr h h' hfind hsecrets hev (.inl ?_)
      rw [hcfg]
      rfl
    | none =>
      have hnone : r.registry.find? session.tenantId = none := by
        rw [SettingsRegistry.find?_registry, hcfg]
        rfl
      refine Prog.Every.mono (hown.and (unlimited_serve hnone req)) fun ev hev => ?_
      exact see_congr h h' hfind hsecrets hev.1 (.inr hev.2)
  · intro steps out
    have hlist : rbacListTools app.policies (some session) = rbacListTools app'.policies (some session) := by
      change (ToolProg.inner (app.policies.rbacPolicy session) >>= _) =
        (ToolProg.inner (app'.policies.rbacPolicy session) >>= _)
      rw [hagree.rbac]
    rw [← hlist, h.policies]
    refine Prog.observes_congr ?_ steps out
    have hpolicy : (makeRbacPolicy r.registry session).Every (AppEvent.Own (fun _ => True) session) :=
      every_resolve _ _ rfl
    have hsteps : (rbacListTools (.ofRegistry r.registry) (some session)).Every fun ev =>
        ServerEvent.Own (fun _ => True) session ev ∧ ∀ t s, ev.op ≠ .acquire t s := by
      refine Prog.every_bind (Prog.every_embed.mpr (Prog.Every.mono hpolicy ?_)) fun _ => trivial
      refine fun ev hev => ⟨hev, ?_⟩
      rintro t s ⟨⟩
    exact Prog.Every.mono hsteps fun ev hev => see_congr h h' hfind hsecrets hev.1 (.inr hev.2)
  · intro upstream acts acts' hreads hreads' k k' hk hk'
    obtain ⟨m, hm, -, hclient⟩ := BoundPool.client_of_returned hreads hk
    obtain ⟨m', hm', -, hclient'⟩ := BoundPool.client_of_returned hreads' hk'
    have hsame := client_pool_congr h h' hfind hsecrets upstream
    rw [hclient, hclient'] at hsame
    exact ⟨m, m', hm, hm', Except.ok.inj hsame⟩
  · intro event hevent
    refine ⟨by rw [h.sinksFor, h'.sinksFor, hevent, hfind], fun s => ?_⟩
    obtain ⟨_, _, hsinks, haudit⟩ := h.audit
    rw [haudit, ← hevent]
    exact MultiSinkAuditEmitter.mem_sinksFor_build hsinks event s

end Boot

/-- **Tenants do not interfere.** Two servers that have booted, from configurations that say the same of a
tenant, are the same for every session of that tenant; and if neither says anything of it, the session is
denied every tool. -/
theorem tenants_do_not_interfere (lib : Libraries) (env env' : HostEnv) (dir dir' : ConfigDir)
    (app app' : HttpApp) (session : Session) (hboot : bootHttp env dir = .ok app)
    (hboot' : bootHttp env' dir' = .ok app') (hagree : dir.AgreesOn dir' session.tenantId) :
    SameFor app app' lib session ∧
      ((∀ t ∈ dir.tenants, t.tenantId ≠ session.tenantId) →
        Outcast app lib session ∧ Outcast app' lib session) := by
  obtain ⟨r, secrets, hr, hsecrets, hmade⟩ := madeOf_of_bootHttp hboot
  obtain ⟨r', secrets', hr', hsecrets', hmade'⟩ := madeOf_of_bootHttp hboot'
  have hfind := SettingsRegistry.find?_ofEntries_congr hagree.tenants hr hr'
  have hget := YamlSecretStore.get_ofEntries_congr hagree.secrets hsecrets hsecrets'
  refine ⟨sameFor_of_madeOf hmade hmade' hfind hget, fun habsent => ?_⟩
  have hnone : r.find? session.tenantId = none := by
    rw [SettingsRegistry.find?_eq_none_iff, SettingsRegistry.tenants_ofEntries hr]
    simpa using habsent
  exact ⟨outcast_of_unregistered hmade hnone, outcast_of_unregistered hmade' (hfind.symm.trans hnone)⟩

/-- A tenant among others, of whom one configuration has none and the other two, and their secrets. -/
def acmeAmong (others : List TenantSettings) (secrets : JsonObject) : ConfigDir where
  tenants := others ++
    [{ tenantId := "acme", defaultRbacRole := "analyst", indexerUrl := "https://acme:9200"
       writeAllowlist := some ["write.restart_agent"], auditSinks := [.file "/var/acme.log" 1 3] }]
  secrets := secrets ++ [("acme", .obj [("indexer_user", .str "a"), ("indexer_password", .str "b")])]
  rateLimiter := .ok {}

/-- Beside no other tenant, and after one with rules of its own, `acme` is served alike, and a stranger is
denied. -/
theorem acme_among_others :
    let env : HostEnv := ⟨fun _ => .ok (), none, fun _ => .ok ()⟩
    let lib : Libraries :=
      ⟨fun _ => true, ⟨Text.parseInt, fun _ => none⟩, fun _ => some, fun _ _ => none,
        fun toolName => .tool ("Unknown tool: " ++ toolName)⟩
    let globex : TenantSettings :=
      { tenantId := "globex", defaultRbacRole := "admin", indexerUrl := "https://globex:9200"
        roleToolAllowlist := some [("analyst", ["*"])], auditSinks := [.stderr] }
    let alone := acmeAmong [] []
    let second := acmeAmong [globex] [("globex", .obj [("indexer_user", .str "g")])]
    let stranger : Session := ⟨"mallory", "initech", "admin", .oauth, none⟩
    ∃ app app', bootHttp env alone = .ok app ∧ bootHttp env second = .ok app' ∧
      SameFor app app' lib ⟨"alice", "acme", "analyst", .oauth, none⟩ ∧ Outcast app' lib stranger := by
  intro env lib globex alone second stranger
  have hstranger : ∀ t ∈ alone.tenants, t.tenantId ≠ stranger.tenantId := by
    simp [alone, acmeAmong, stranger]
  exact ⟨_, _, rfl, rfl,
    (tenants_do_not_interfere lib env env alone second _ _ _ rfl rfl ⟨rfl, rfl⟩).1,
    ((tenants_do_not_interfere lib env env alone second _ _ stranger rfl rfl ⟨rfl, rfl⟩).2 hstranger).2⟩

end WazuhMcp
