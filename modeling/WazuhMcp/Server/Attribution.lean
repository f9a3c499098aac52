import WazuhMcp.Auth.OAuth
import WazuhMcp.Server.ActiveResponse
import WazuhMcp.Server.Steps
import WazuhMcp.Server.ToolCall

/-!
# On whose behalf the Server API is asked

A request to the Server API is made with the service account of the tenant, and names the user of the
session in its parameter `run_as`, if the session has one (`UpRequest.AttributedTo`).

Every client method takes the user, and every handler has to pass it on. `cluster.status` does not, and
neither does `write.restart_manager` in the read that goes before the restart. `serve_attributed_iff`
says of every session and every MCP request whether all that is sent is attributed.
-/

namespace WazuhMcp

open Interact

/-! ## Attribution -/

/-- The request goes to the indexer, or asks the Server API for a token, or names the user in its
parameter `run_as`; it has no such parameter when there is no user. -/
def UpRequest.AttributedTo (req : UpRequest) (user : Option String) : Prop :=
  req.upstream = .serverApi →
    req = ServerApiClient.mintRequest ∨ req.params.lookup "run_as" = user.map Json.str

/-- Whatever is sent for the user is attributed to it. -/
theorem covers_attributedTo (user : Option String) : Covers (·.AttributedTo user) user where
  mint := fun _ => .inl rfl
  indexer req h hserver := by
    rw [h] at hserver
    cases hserver
  named _ h _ := .inr h

/-- The request of the step, if it sends one, is attributed. -/
def AppEvent.AttributedTo (user : Option String) (ev : AppEvent) : Prop :=
  ∀ req, ev.op.request = some req → req.AttributedTo user

theorem AppEvent.Own.attributedTo {session : Session} {user : Option String} (ev : AppEvent)
    (h : ev.Own (·.AttributedTo user) session) : ev.AttributedTo user := by
  obtain ⟨op, ans⟩ := ev
  rintro req hreq
  cases op with
  | emit event => cases hreq
  | up op =>
    cases op with
    | send req' =>
      obtain rfl := Option.some.inj hreq
      exact h
    | _ => cases hreq

/-! ## Tool calls -/

section ToolCall

variable {registry : TenantRegistry} {lib : Libraries} {session : Session} {user : Option String}

/-- Every tool but two sends what is attributed, and so do these for a session without a user. -/
theorem attributed_handler (t : Tool) (kwargs : JsonObject)
    (h : session.wazuhUser = none ∨ t ≠ .clusterStatus ∧ t ≠ .restartManager) :
    (t.handler (.ofRegistry registry) (some session) lib kwargs).Every
      (AppEvent.AttributedTo session.wazuhUser) := by
  refine Prog.Every.mono (own_handler (covers_attributedTo _) t kwargs ?_)
    AppEvent.Own.attributedTo
  intro ht
  rcases h with huser | ⟨hstatus, hrestart⟩
  · rw [huser]
    exact covers_attributedTo none
  · exact absurd ht (not_or.mpr ⟨hstatus, hrestart⟩)

/-! ## The read of the cluster -/

/-- The first request of `cluster_status`, with a token `jwt`. -/
def statusRequest (runAs : Option String) (jwt : String) : UpRequest where
  upstream := .serverApi
  method := "GET"
  path := "/cluster/status"
  params := ServerApiClient.effectiveParams [] runAs
  authorization := .bearer jwt

/-- A program that begins with a read of the cluster sends that request, if it gets so far. -/
theorem statusRequest_of_all {α : Type} {f : ServerApiClient.ClusterState → UpProg α}
    {P : UpRequest → Prop}
    (h : (ServerApiClient.clusterStatus none >>= f).All fun tr _ => ∀ req ∈ requests tr, P req) :
    P (statusRequest none "jwt") := by
  have hrun := h.run servingEnv
  rw [Prog.run_bind] at hrun
  have hmem : statusRequest none "jwt" ∈
      requests ((ServerApiClient.clusterStatus none).run servingEnv).1 := List.mem_cons_self
  cases hout : ((ServerApiClient.clusterStatus none).run servingEnv).2 with
  | error x =>
    rw [hout] at hrun
    exact hrun _ hmem
  | ok raw =>
    rw [hout] at hrun
    refine hrun _ ?_
    rw [requests, List.filterMap_append]
    exact List.mem_append_left _ hmem

/-- That request names nobody. -/
theorem user_of_attributed_statusRequest {jwt : String}
    (h : (statusRequest none jwt).AttributedTo user) : user = none := by
  rcases h rfl with hmint | hparams
  · exact absurd (congrArg UpRequest.method hmint) (by decide : "GET" ≠ "POST")
  · cases user with
    | none => rfl
    | some name => cases hparams

/-- A closure whose tool begins with a read of the cluster, once its guard has let it pass. -/
theorem user_of_attributed_inner {Args α : Type} {args : Args} {guard : Session → AppProg Unit}
    {tr : List AppEvent} {run : Session → Args → Unit → UpProg α} {wrap : α → ToolResult}
    {f : ServerApiClient.ClusterState → UpProg α}
    (hguard : ∀ Q : List AppEvent → Except Exn Unit → Prop, (guard session).All Q → Q tr (.ok ()))
    (hrun : run session args () = ServerApiClient.clusterStatus none >>= f)
    (h : (inner (some session) (some args) guard .serverApi run wrap).All fun tr _ =>
      ∀ req ∈ sent tr, req.AttributedTo user) : user = none := by
  rw [all_inner] at h
  have hreads := hguard _ h (.ok ())
  change (run session args ()).All _ at hreads
  rw [hrun] at hreads
  apply user_of_attributed_statusRequest
  apply statusRequest_of_all (P := fun req => req.AttributedTo user) (hreads.mono ?_)
  intro tr' out' hall req hreq
  refine hall req ?_
  rw [sent_append, sent_cons, sent_embed]
  exact List.mem_append_right _ (List.mem_append_right _ hreq)

/-- The handler reads the status of the cluster: the tool is one of the two that do, its arguments are
valid, and the tenant's write allowlist does not rule it out. -/
def Tool.ReadsCluster (registry : TenantRegistry) (lib : Libraries) (session : Session) (t : Tool)
    (kwargs : JsonObject) : Prop :=
  (lib.parse t kwargs).isSome = true ∧ (t = .clusterStatus ∨
    t = .restartManager ∧ writeAllowed registry session "write.restart_manager" = true)

theorem attributed_sent {α : Type} {p : AppProg α} (h : p.Every (AppEvent.AttributedTo user)) :
    p.All fun tr _ => ∀ req ∈ sent tr, req.AttributedTo user := by
  refine h.all.mono fun tr _ htr req hreq => ?_
  obtain ⟨ev, hev, hop⟩ := List.mem_filterMap.mp hreq
  exact htr ev hev req hop

/-- **A handler** sends what is attributed, unless it reads the cluster for a user. -/
theorem handler_attributed_iff (t : Tool) (kwargs : JsonObject) :
    ((t.handler (.ofRegistry registry) (some session) lib kwargs).All fun tr _ =>
        ∀ req ∈ sent tr, req.AttributedTo session.wazuhUser) ↔
      session.wazuhUser = none ∨ ¬ t.ReadsCluster registry lib session kwargs := by
  constructor
  · intro h
    by_contra hnot
    obtain ⟨huser, hreads⟩ := not_or.mp hnot
    obtain ⟨hparse, rfl | ⟨rfl, hwrite⟩⟩ := not_not.mp hreads
    · obtain ⟨args, hargs⟩ := Option.isSome_iff_exists.mp hparse
      change (inner (some session) (lib.parse .clusterStatus kwargs) _ _ _ _).All _ at h
      rw [hargs] at h
      have hguard : ∀ Q : List AppEvent → Except Exn Unit → Prop,
          (pure () : AppProg Unit).All Q → Q [] (.ok ()) := fun Q hQ => hQ
      exact huser (user_of_attributed_inner hguard rfl h)
    · obtain ⟨args, hargs⟩ := Option.isSome_iff_exists.mp hparse
      change (inner (some session) (lib.parse .restartManager kwargs) _ _ _ _).All _ at h
      rw [hargs] at h
      have hguard : ∀ Q : List AppEvent → Except Exn Unit → Prop,
          (checkWriteAllowed (.ofRegistry registry) session "write.restart_manager").All Q →
            Q (resolveEvents registry session) (.ok ()) := by
        intro Q hQ
        rwa [all_checkWriteAllowed, if_pos hwrite] at hQ
      exact huser (user_of_attributed_inner hguard rfl h)
  · intro h
    by_cases hreader : t ≠ .clusterStatus ∧ t ≠ .restartManager
    · exact attributed_sent (attributed_handler t kwargs (.inr hreader))
    rcases h with huser | hnot
    · exact attributed_sent (attributed_handler t kwargs (.inl huser))
    have hsilent : ∀ req ∈ sent [], req.AttributedTo session.wazuhUser := by simp
    cases hparse : lib.parse t kwargs with
    | none =>
      rcases not_and_or.mp hreader with ht | ht
      · obtain rfl := not_not.mp ht
        change (inner (some session) (lib.parse .clusterStatus kwargs) _ _ _ _).All _
        rw [hparse]
        exact hsilent
      · obtain rfl := not_not.mp ht
        change (inner (some session) (lib.parse .restartManager kwargs) _ _ _ _).All _
        rw [hparse]
        exact hsilent
    | some args =>
      have hsome : (lib.parse t kwargs).isSome = true := by rw [hparse]; rfl
      rcases not_and_or.mp hreader with ht | ht
      · exact absurd ⟨hsome, .inl (not_not.mp ht)⟩ hnot
      · obtain rfl := not_not.mp ht
        have hwrite : ¬ writeAllowed registry session "write.restart_manager" = true :=
          fun hwrite => hnot ⟨hsome, .inr ⟨rfl, hwrite⟩⟩
        change (inner (some session) (lib.parse .restartManager kwargs) _ _ _ _).All _
        rw [hparse, all_inner, all_checkWriteAllowed, if_neg hwrite]
        show ∀ req ∈ sent (resolveEvents registry session), _
        rw [sent_resolveEvents]
        exact hsilent

end ToolCall

/-! ## Every request -/

/-- The request that the step sends, if it sends one. -/
def ToolOp.request : ToolOp AppOp → Option UpRequest
  | .inner op => op.request
  | _ => none

/-- The requests that the server sends upstream in a trace, in order. -/
def serverRequests (tr : List ServerEvent) : List UpRequest := tr.filterMap fun ev => ev.op.request

@[simp] theorem serverRequests_append (tr tr' : List ServerEvent) :
    serverRequests (tr ++ tr') = serverRequests tr ++ serverRequests tr' := List.filterMap_append

@[simp] theorem serverRequests_inner (tr : List AppEvent) :
    serverRequests (tr.map (Event.embed .inner)) = sent tr := by
  rw [serverRequests, List.filterMap_map]
  rfl

theorem serverRequests_hookEvents (registry : TenantRegistry) (session : Session) :
    serverRequests (hookEvents registry session) = [] := by
  rw [hookEvents, serverRequests_inner, sent_resolveEvents]

section Serve

variable {registry : TenantRegistry} {lib : Libraries} {session : Session} {arguments kwargs : JsonObject}

/-- The requests of a call are those of its handler. -/
theorem serverRequests_handled (t : InstrumentedTool AppOp AppOp.Result ToolResult)
    (trh : List AppEvent) (start stop : ℚ) (ans : Acquired) (out : Except Exn ToolResult) :
    serverRequests (⟨.acquire session.tenantId session.userId, ans⟩ :: ⟨.perfCounter, start⟩ ::
      (t.announced session kwargs ++ (trh.map (Event.embed .inner) ++
        t.completed session kwargs start stop out))) = sent trh := by
  have hannounced : serverRequests (t.announced session kwargs) = [] := by
    rw [InstrumentedTool.announced]
    split <;> rfl
  show serverRequests (t.announced session kwargs ++ _) = _
  rw [serverRequests_append, serverRequests_append, hannounced, serverRequests_inner]
  exact List.append_nil _

/-- A call that is let through and whose arguments are accepted. -/
theorem all_accepted_call {t : Tool}
    (hallowed : isAllowed session t.name (effectivePolicy registry session) = true)
    (haccepted : bindArguments lib.validate t.signature arguments = some kwargs)
    (P : List UpRequest → Prop) (hnil : P []) :
    ((rbacCallTool (.ofRegistry registry) (some session) lib t.name arguments).All fun tr _ =>
        P (serverRequests tr)) ↔
      (t.handler (.ofRegistry registry) (some session) lib kwargs).All fun tr _ => P (sent tr) := by
  refine (Prog.all_bind (ToolProg.inner (makeRbacPolicy registry session)) _ _).trans
    ((Prog.all_embed _ _ _).trans ((all_resolve ..).trans ?_))
  change Prog.All (if isAllowed session t.name (effectivePolicy registry session) then
    fastmcpCallTool (.ofRegistry registry) (some session) lib t.name arguments else _) _ ↔ _
  rw [if_pos hallowed, fastmcpCallTool, Tool.ofName?_name]
  simp only [haccepted]
  rw [InstrumentedTool.all_call]
  refine (all_resolve ..).trans ?_
  change (if isAllowed session t.name (effectivePolicy registry session) then _ else _) ↔ _
  rw [if_pos hallowed]
  have hhook : ∀ tr : List ServerEvent, serverRequests (hookEvents registry session ++
      ((resolveEvents registry session).map (Event.embed .inner) ++ tr)) = serverRequests tr := by
    intro tr
    rw [serverRequests_append, serverRequests_append, serverRequests_hookEvents, serverRequests_inner,
      sent_resolveEvents, List.nil_append, List.nil_append]
  constructor
  · intro h
    refine (h ⟨true, .ok ()⟩ 0).mono fun trh out hstop => ?_
    have hP := hstop 0
    change P (serverRequests (hookEvents registry session ++ _)) at hP
    rwa [hhook, serverRequests_handled] at hP
  · intro h ans
    cases hans : ans.outcome with
    | error x =>
      show P (serverRequests (hookEvents registry session ++ _))
      rw [hhook]
      cases x <;> exact hnil
    | ok _ =>
      refine fun start => h.mono fun trh out hP stop => ?_
      show P (serverRequests (hookEvents registry session ++ _))
      rwa [hhook, serverRequests_handled]

/-- A call that is not let through, or whose arguments are not accepted, sends nothing. -/
theorem silent_rejected_call {toolName : String}
    (h : isAllowed session toolName (effectivePolicy registry session) = true → ∀ t : Tool,
      t.name = toolName → bindArguments lib.validate t.signature arguments = none) :
    (rbacCallTool (.ofRegistry registry) (some session) lib toolName arguments).All fun tr _ =>
      serverRequests tr = [] := by
  refine (rbacCallTool_shape registry lib session toolName arguments).mono fun tr out hshape => ?_
  cases hshape with
  | hidden hdenied =>
    rw [serverRequests_append, serverRequests_hookEvents]
    rfl
  | rejected hallowed hrejected => exact serverRequests_hookEvents registry session
  | called hallowed hname haccepted hcall =>
    rw [h hallowed _ hname] at haccepted
    cases haccepted

/-- What is served without the wrapper sends what its handler does. -/
theorem all_unwrapped {α : Type} {user : Option String} {p : AppProg α}
    (h : p.Every (AppEvent.Own (·.AttributedTo user) session)) (wrap : α → McpResult) :
    Prog.All (wrap <$> (ToolProg.inner p : ServerProg α)) fun tr _ =>
      ∀ r ∈ serverRequests tr, r.AttributedTo user := by
  have hsent := Prog.Every.mono h AppEvent.Own.attributedTo
  refine (Prog.all_map _ _ _).mpr ((Prog.all_embed _ _ _).mpr ((attributed_sent hsent).mono ?_))
  intro tr _ htr
  rwa [serverRequests_inner]

/-- The MCP request is a tool call that reads the status of the cluster: RBAC lets it through, its
arguments are accepted, and so does and is its handler. -/
def McpRequest.ReadsCluster (registry : TenantRegistry) (lib : Libraries) (session : Session) :
    McpRequest → Prop
  | .callTool toolName arguments => ∃ (t : Tool) (kwargs : JsonObject), t.name = toolName ∧
      isAllowed session t.name (effectivePolicy registry session) = true ∧
      bindArguments lib.validate t.signature arguments = some kwargs ∧
      t.ReadsCluster registry lib session kwargs
  | _ => False

/-- **Attribution.** What an MCP request sends to the Server API names the user of the session, in every
run, exactly if the session has none or the request is no call that reads the status of the cluster. -/
theorem serve_attributed_iff (registry : TenantRegistry) (lib : Libraries) (session : Session)
    (req : McpRequest) :
    ((serve (.ofRegistry registry) (some session) lib req).All fun tr _ =>
        ∀ r ∈ serverRequests tr, r.AttributedTo session.wazuhUser) ↔
      session.wazuhUser = none ∨ ¬ req.ReadsCluster registry lib session := by
  have hcovers := covers_attributedTo session.wazuhUser
  cases req with
  | readResource uri => exact iff_of_true (all_unwrapped (own_readResource hcovers uri) _) (.inr id)
  | getPrompt prompt => exact iff_of_true (all_unwrapped (own_getPrompt hcovers lib prompt) _) (.inr id)
  | callTool toolName arguments =>
    rw [serve, Prog.all_map]
    by_cases haccept : isAllowed session toolName (effectivePolicy registry session) = true ∧
      ∃ t : Tool, t.name = toolName ∧ ∃ kwargs, bindArguments lib.validate t.signature arguments = some kwargs
    · obtain ⟨hallowed, t, rfl, kwargs, haccepted⟩ := haccept
      rw [all_accepted_call hallowed haccepted (fun reqs => ∀ r ∈ reqs, r.AttributedTo _) (by simp),
        handler_attributed_iff]
      refine or_congr_right (not_congr ⟨fun h => ⟨t, kwargs, rfl, hallowed, haccepted, h⟩, ?_⟩)
      rintro ⟨t', kwargs', hname, -, haccepted', h⟩
      obtain rfl : t' = t := Tool.name_injective hname
      rw [haccepted] at haccepted'
      rwa [Option.some.inj haccepted']
    · refine iff_of_true ?_ (.inr ?_)
      · refine (silent_rejected_call fun hallowed t hname => ?_).mono fun tr _ hnil r hr => ?_
        · by_contra haccepted
          obtain ⟨kwargs, hkwargs⟩ := Option.ne_none_iff_exists'.mp haccepted
          exact haccept ⟨hallowed, t, hname, kwargs, hkwargs⟩
        · rw [hnil] at hr
          cases hr
      · rintro ⟨t, kwargs, rfl, hallowed, haccepted, -⟩
        exact haccept ⟨hallowed, t, rfl, kwargs, haccepted⟩

end Serve

/-! ## The user of a session -/

section User

open OAuthSessionFactory

/-- Empty, or nothing but whitespace. -/
def blank (s : String) : Bool := s.toList.all isSpace

/-- A claim that is absent, or that is blank in one of its shapes. -/
def BlankClaim : Json → Prop
  | .null => True
  | .arr [] => True
  | .arr (val :: _) => blank val.pyStr = true
  | val => blank val.pyStr = true

/-- The user that the factory picks is never blank, and it picks none for a claim that is. -/
structure PicksUser (claims : JsonObject) (cfg : TenantConfig) : Prop where
  never_blank : ∀ user, pickWazuhUser claims (some cfg) = some user → blank user = false
  none_of_blank : BlankClaim (claims.get cfg.wazuhUserClaim) → pickWazuhUser claims (some cfg) = none

/-- The claim is a list that begins with a blank. -/
def BlankFirst (claims : JsonObject) (cfg : TenantConfig) : Prop :=
  ∃ val rest, claims.get cfg.wazuhUserClaim = .arr (val :: rest) ∧ blank val.pyStr = true

/-- A scalar claim is stripped. -/
theorem picksUser_scalar {claims : JsonObject} {cfg : TenantConfig} {val : Json}
    (hpick : pickWazuhUser claims (some cfg) =
      if Text.strip isSpace val.pyStr = "" then none else some (Text.strip isSpace val.pyStr))
    (hblank : BlankClaim (claims.get cfg.wazuhUserClaim) → blank val.pyStr = true) :
    PicksUser claims cfg := by
  constructor
  · intro user huser
    rw [hpick] at huser
    split at huser
    · cases huser
    · rename_i hne
      cases huser
      exact Text.not_all_strip hne
  · intro h
    rw [hpick, if_pos (Text.strip_eq_empty_iff.mpr (hblank h))]

/-- The user is picked as it should be, unless the claim is a list that begins with a blank. -/
theorem picksUser_iff (claims : JsonObject) (cfg : TenantConfig) :
    PicksUser claims cfg ↔ ¬ BlankFirst claims cfg := by
  cases hclaim : claims.get cfg.wazuhUserClaim with
  | null =>
    have hpick : pickWazuhUser claims (some cfg) = none := by simp [pickWazuhUser, hclaim]
    refine iff_of_true ⟨fun user huser => ?_, fun _ => hpick⟩ ?_
    · rw [hpick] at huser
      cases huser
    · rintro ⟨val, rest, h, -⟩
      rw [hclaim] at h
      cases h
  | arr vals =>
    cases vals with
    | nil =>
      have hpick : pickWazuhUser claims (some cfg) = none := by simp [pickWazuhUser, hclaim]
      refine iff_of_true ⟨fun user huser => ?_, fun _ => hpick⟩ ?_
      · rw [hpick] at huser
        cases huser
      · rintro ⟨val, rest, h, -⟩
        rw [hclaim] at h
        cases h
    | cons val rest =>
      have hpick : pickWazuhUser claims (some cfg) = some val.pyStr := by simp [pickWazuhUser, hclaim]
      constructor
      · rintro h ⟨val', rest', h', hblank⟩
        rw [hclaim] at h'
        cases h'
        rw [h.never_blank _ hpick] at hblank
        cases hblank
      · intro h
        have hblank : blank val.pyStr = false := by
          by_contra hne
          exact h ⟨val, rest, hclaim, by simpa using hne⟩
        refine ⟨fun user huser => ?_, fun hclaimed => ?_⟩
        · rw [hpick] at huser
          cases huser
          exact hblank
        · rw [hclaim] at hclaimed
          exact absurd hclaimed (Bool.eq_false_iff.mp hblank)
  | bool _ | int _ | float _ | str _ | obj _ =>
    refine iff_of_true (@picksUser_scalar claims cfg (claims.get cfg.wazuhUserClaim) ?_ ?_) ?_
    · rw [pickWazuhUser, Option.bind_some, hclaim]
    · rw [hclaim]
      exact id
    · rintro ⟨val, rest, h, -⟩
      rw [hclaim] at h
      cases h

end User

/-! ## Attribution as a whole -/

/-- **Requests and users.** What is sent to the Server API names the user of the session exactly if there
is none or the request does not read the status of the cluster; and the user that a session is built
with is never blank, and missing for a blank claim, exactly if the claim is no list that begins with a
blank. -/
theorem attribution_iff (registry : TenantRegistry) (lib : Libraries) (session : Session)
    (req : McpRequest) (f : OAuthSessionFactory) (claims : JsonObject) (cfg : TenantConfig) :
    ((serve (.ofRegistry registry) (some session) lib req).All (fun tr _ =>
        ∀ r ∈ serverRequests tr, r.AttributedTo session.wazuhUser) ↔
      session.wazuhUser = none ∨ ¬ req.ReadsCluster registry lib session) ∧
    (∀ s, f.buildSession claims = .ok s →
      s.wazuhUser = OAuthSessionFactory.pickWazuhUser claims (f.sessionCfg claims s.tenantId)) ∧
    (PicksUser claims cfg ↔ ¬ BlankFirst claims cfg) :=
  ⟨serve_attributed_iff registry lib session req,
    fun _ h => (OAuthSessionFactory.of_buildSession h).2, picksUser_iff claims cfg⟩

/-- Libraries that accept the arguments of `cluster.status`, of which there are none. -/
def statusLibraries : Libraries where
  compiles _ := true
  py := ⟨Text.parseInt, fun _ => none⟩
  validate _ := some
  parse
    | .clusterStatus, _ => some {}
    | _, _ => none
  unknownTool toolName := .tool ("Unknown tool: " ++ toolName)

/-- `cluster.status` by an admin who has a user does not name that user, and a list with a blank in it
makes a blank user. -/
theorem not_attributed_clusterStatus :
    let registry : TenantRegistry := .single { tenantId := "acme", defaultRbacRole := "readonly" }
    let session : Session := ⟨"alice@acme", "acme", "admin", .oauth, some "alice"⟩
    let claims : JsonObject := [("wazuh_user", .arr [.str " "])]
    (¬ (serve (.ofRegistry registry) (some session) statusLibraries (.callTool "cluster.status" [])).All
      fun tr _ => ∀ r ∈ serverRequests tr, r.AttributedTo session.wazuhUser) ∧
    ¬ PicksUser claims { tenantId := "acme", defaultRbacRole := "readonly" } := by
  intro registry session claims
  constructor
  · rw [serve_attributed_iff]
    rintro (huser | hnot)
    · cases huser
    · exact hnot ⟨.clusterStatus, [], rfl, by decide, rfl, rfl, .inl rfl⟩
  · rw [picksUser_iff, not_not]
    exact ⟨.str " ", [], rfl, by decide⟩

end WazuhMcp
