import WazuhMcp.Foundations.Journal
import WazuhMcp.Server.LeastPrivilege

/-!
# Requests side by side

The server at work for any number of clients at once: a pool of requests, each under the session of its client,
whose steps come in any order and are answered in any way.

* `Announced` is what goes before a change: the call of a write tool that is allowed twice, that has taken its
  one token, and that the audit trail has been told of.
* `guarded_serve`: in the run of one request, everything but reads comes after this.
* `journal_licensed`: in every journal, each step is for the tenant of its client, and each request that does
  not just read has its announcement before it.
* `journal_reads_default`: as long as nobody is an administrator, the default roles change nothing.
-/

namespace WazuhMcp

open Interact

/-- An MCP request, under the session of the client that has sent it. -/
structure ClientRequest where
  session : Session
  request : McpRequest

/-- How the server serves it. -/
def ClientRequest.served (registry : TenantRegistry) (lib : Libraries) (c : ClientRequest) :
    ServerProg McpResult :=
  serve (.ofRegistry registry) (some c.session) lib c.request

instance (op : ToolOp AppOp) : Inhabited (op.Result AppOp.Result) :=
  match op with
  | .acquire _ _ => ⟨⟨true, .ok ()⟩⟩
  | .perfCounter => ⟨(0 : ℚ)⟩
  | .inner (.up op) => ⟨servingEnv op⟩
  | .inner (.emit _) | .addCalls .. | .addRateLimited .. | .recordDuration .. | .emit _ => ⟨()⟩

/-- **What goes before a change**: a call of the tool that the role and the tenant's write allowlist allow and
whose arguments are accepted, one token of the limiter's, and the event that announces the call. -/
structure Announced (registry : TenantRegistry) (lib : Libraries) (c : ClientRequest) (t : Tool)
    (pre : List ServerEvent) : Prop where
  allowed : isAllowed c.session t.name (effectivePolicy registry c.session) = true
  writable : writeAllowed registry c.session t.name = true
  token : ∃ ans : Acquired, ans.outcome = .ok () ∧
    limiterCalls pre = [(c.session.tenantId, c.session.userId, ans)]
  announced : ∃ arguments kwargs, c.request = .callTool t.name arguments ∧
    bindArguments lib.validate t.signature arguments = some kwargs ∧
    ⟨.emit (c.session.auditEvent t.name kwargs .writeRequested), ()⟩ ∈ pre

/-- The step is done for the tenant of the client, and if it sends a request that does not just read, that is
the change of a tool whose call has been announced. -/
structure Licensed (registry : TenantRegistry) (lib : Libraries) (c : ClientRequest)
    (pre : List ServerEvent) (ev : ServerEvent) : Prop where
  own : ServerEvent.Own (fun _ => True) c.session ev
  change : ∀ req, ev.op.request = some req → req.Reads ∨
    ∃ t : Tool, t.Changes req ∧ Announced registry lib c t pre

/-- The step sends a request that does not just read. -/
def Intrudes (ev : ServerEvent) : Prop := ∃ req, ev.op.request = some req ∧ ¬req.Reads

/-! ## One request -/

section Serve

variable {registry : TenantRegistry} {lib : Libraries} {c : ClientRequest}

theorem isRequest_of_request {ev : ServerEvent} {req : UpRequest} (h : ev.op.request = some req) :
    isRequest ev = true := by
  obtain ⟨op, ans⟩ := ev
  cases op with
  | inner op =>
    cases op with
    | up op =>
      cases op with
      | send _ => rfl
      | _ => cases h
    | emit _ => cases h
  | _ => cases h

theorem Intrudes.isRequest {ev : ServerEvent} (h : Intrudes ev) : isRequest ev = true := by
  obtain ⟨req, hop, -⟩ := h
  exact isRequest_of_request hop

theorem guarded_of_reads {G : List ServerEvent → Prop} {tr : List ServerEvent}
    (h : ∀ req ∈ serverRequests tr, req.Reads) : Guarded G Intrudes tr := by
  refine guarded_of_forall_not fun ev hev => ?_
  rintro ⟨req, hop, hintrudes⟩
  exact hintrudes (h req (List.mem_filterMap.mpr ⟨ev, hev, hop⟩))

theorem not_intrudes_resolveEvents {ev : ServerEvent}
    (hev : ev ∈ (resolveEvents registry c.session).map (Event.embed .inner)) : ¬Intrudes ev :=
  fun h => not_isRequest_resolveEvents ev hev h.isRequest

/-- What a write tool sends comes after its announcement. -/
theorem ToolCallShape.announced {toolName : String} {arguments : JsonObject} {tr : List ServerEvent}
    {out : Except Exn ToolResult} (h : ToolCallShape registry lib c.session toolName arguments tr out)
    {t : Tool} (hname : t.name = toolName) (hwrite : Text.startsWith t.name "write." = true) :
    Guarded (fun pre => ∃ kwargs, bindArguments lib.validate t.signature arguments = some kwargs ∧
      ⟨.emit (c.session.auditEvent t.name kwargs .writeRequested), ()⟩ ∈ pre) Intrudes tr := by
  cases h with
  | hidden hdenied =>
    refine guarded_of_forall_not fun ev hev => ?_
    rcases List.mem_append.mp hev with hev | hev
    · exact not_intrudes_resolveEvents hev
    · rw [List.mem_singleton.mp hev]
      exact fun h => Bool.false_ne_true h.isRequest
  | rejected hallowed hrejected => exact guarded_of_forall_not fun ev => not_intrudes_resolveEvents
  | @called t' kwargs tr out hallowed hname' haccepted hcall =>
    obtain rfl : t' = t := Tool.name_injective (hname'.trans hname.symm)
    subst hname
    cases hcall with
    | denied hpol hdenied => exact absurd hallowed (Bool.eq_false_iff.mp hdenied)
    | @refused trp ans x hpol hallowed' hans =>
      obtain rfl := hpol
      refine guarded_of_forall_not fun ev hev => ?_
      rcases List.mem_append.mp hev with hev | hev
      · exact not_intrudes_resolveEvents hev
      rcases List.mem_append.mp hev with hev | hev
      · exact not_intrudes_resolveEvents hev
      · exact fun h => not_isRequest_refused _ ans x ev hev h.isRequest
    | @handled trp trh ans start stop out hpol hallowed' hans hhan =>
      obtain rfl := hpol
      have hannounced : (t'.instrumented (.ofRegistry registry) (some c.session) lib).announced c.session
          kwargs = [⟨.emit (c.session.auditEvent t'.name kwargs .writeRequested), ()⟩] := if_pos hwrite
      rw [hannounced, ← List.append_assoc]
      rw [show ∀ front rest : List ServerEvent, ∀ e₁ e₂ e₃, front ++ e₁ :: e₂ :: ([e₃] ++ rest) =
        front ++ [e₁, e₂, e₃] ++ rest from fun _ _ _ _ _ => by simp]
      refine guarded_of_forall_not_append (fun ev hev hintrudes => ?_) fun mid post _ =>
        ⟨kwargs, haccepted, by simp⟩
      simp only [List.mem_append, List.mem_cons, List.not_mem_nil, or_false] at hev
      rcases hev with (hev | hev) | rfl | rfl | rfl
      · exact not_intrudes_resolveEvents hev hintrudes
      · exact not_intrudes_resolveEvents hev hintrudes
      all_goals exact Bool.false_ne_true hintrudes.isRequest

/-- What precedes a change in the run of a request. -/
theorem guarded_serve : (c.served registry lib).All fun tr _ =>
    Guarded (fun pre => ∃ t : Tool, Announced registry lib c t pre) Intrudes tr := by
  obtain ⟨session, req⟩ := c
  cases req with
  | readResource uri =>
    exact (reads_unwrapped (reads_resource lib.py uri) _).mono fun _ _ => guarded_of_reads
  | getPrompt prompt => exact (reads_unwrapped (reads_prompt prompt) _).mono fun _ _ => guarded_of_reads
  | callTool toolName arguments =>
    rw [ClientRequest.served, serve, Prog.all_map]
    refine ((rbacCallTool_shape registry lib session toolName arguments).and
      (changes_callTool toolName arguments)).mono fun tr out h => ?_
    obtain ⟨hshape, hchanges⟩ := h
    by_cases hreads : ∀ req ∈ serverRequests tr, req.Reads
    · exact guarded_of_reads hreads
    · simp only [not_forall] at hreads
      obtain ⟨req, hreq, hintrudes⟩ := hreads
      obtain ⟨t, hname, hchange, hallowed, hwritable⟩ := (hchanges req hreq).resolve_left hintrudes
      intro pre ev post htr hev
      obtain ⟨-, -, htoken⟩ := hshape.gated pre ev post htr hev.isRequest
      obtain ⟨kwargs, haccepted, hemitted⟩ :=
        ToolCallShape.announced (c := ⟨session, _⟩) hshape hname hchange.write pre ev post htr hev
      exact ⟨t, hallowed, hwritable, htoken, arguments, kwargs, by rw [hname], haccepted, hemitted⟩

/-- Every step of a request is for the tenant of its client, and what it sends reads, or is the change of the
tool that is called. -/
theorem steps_served : (c.served registry lib).All fun tr _ => ∀ ev ∈ tr,
    ServerEvent.Own (fun _ => True) c.session ev ∧ ∀ req, ev.op.request = some req → req.Reads ∨
      ∃ (t : Tool) (arguments : JsonObject), c.request = .callTool t.name arguments ∧ t.Changes req := by
  have hcovers (user : Option String) : Covers (fun _ => True) user :=
    ⟨trivial, fun _ _ => trivial, fun _ _ => trivial⟩
  have hown : (c.served registry lib).Every (ServerEvent.Own (fun _ => True) c.session) :=
    own_serve (hcovers _) (hcovers _) c.request
  refine (hown.all.and (least_privilege registry lib c.session c.request)).mono fun tr _ h ev hev => ?_
  refine ⟨h.1 ev hev, fun req hop => (h.2 req (List.mem_filterMap.mpr ⟨ev, hev, hop⟩)).imp_right ?_⟩
  rintro ⟨t, arguments, hcall, hchange, -⟩
  exact ⟨t, arguments, hcall, hchange⟩

end Serve

/-! ## Many requests -/

/-- In the journal of these requests, every step is licensed by what its own request has done before it. -/
def AllLicensed (registry : TenantRegistry) (lib : Libraries) (callers : List ClientRequest)
    (log : List (ℕ × ServerEvent)) : Prop :=
  ∀ pre i ev post, log = pre ++ (i, ev) :: post →
    ∃ c, callers[i]? = some c ∧ Licensed registry lib c (Pool.ofTask i pre) ev

section Journal

variable (registry : TenantRegistry) (lib : Libraries) {C D W : Type}
  (env : Habitat (ToolOp AppOp) (ToolOp.Result AppOp.Result) ClientRequest C D W) (w : W)
  (acts : List (PoolAction ClientRequest C D))

/-- The steps of the server, in the order in which they come, each under the number of its request. -/
abbrev serverJournal : List (ℕ × ServerEvent) :=
  Pool.journal (ClientRequest.served registry lib) env (.new w) acts

/-- **Every step of every request** is licensed by what the same request has done before it, whatever the others
do in between and however the world answers. -/
theorem journal_licensed :
    AllLicensed registry lib (Pool.callers acts) (serverJournal registry lib env w acts) := by
  intro pre i ev post hlog
  have hmem : (i, ev) ∈ serverJournal registry lib env w acts := by
    rw [hlog]
    exact List.mem_append_right _ List.mem_cons_self
  obtain ⟨c, hc, hown, hsent⟩ := Pool.journal_forall (fun c => steps_served (c := c)) hmem
  obtain ⟨c', hc', hguarded⟩ := Pool.journal_guarded (P := fun _ => Intrudes)
    (fun c => guarded_serve (c := c)) hlog
  obtain rfl : c = c' := Option.some.inj (hc.symm.trans hc')
  refine ⟨c, hc, hown, fun req hop => ?_⟩
  by_cases hreads : req.Reads
  · exact .inl hreads
  · obtain ⟨t, arguments, hcall, hchange⟩ := (hsent req hop).resolve_left hreads
    obtain ⟨t', hannounced⟩ := hguarded ⟨req, hop, hreads⟩
    obtain ⟨arguments', kwargs, hcall', -⟩ := hannounced.announced
    rw [hcall] at hcall'
    obtain rfl : t = t' := Tool.name_injective (McpRequest.callTool.inj hcall').1
    exact .inr ⟨t, hchange, hannounced⟩

/-- Where no client is an administrator and no tenant overrides the role of a client, no request sends anything
but reads. -/
theorem journal_reads_default
    (hdefault : ∀ c ∈ Pool.callers acts, c.session.rbacRole ≠ "admin" ∧ KeepsDefault registry c.session) :
    ∀ entry ∈ serverJournal registry lib env w acts, ∀ req, entry.2.op.request = some req → req.Reads := by
  rintro ⟨i, ev⟩ hentry
  have hserved (c : ClientRequest) : (c.served registry lib).All fun tr _ => ∀ ev ∈ tr,
      c.session.rbacRole ≠ "admin" ∧ KeepsDefault registry c.session →
        ∀ req, ev.op.request = some req → req.Reads := by
    by_cases hc : c.session.rbacRole ≠ "admin" ∧ KeepsDefault registry c.session
    · refine (reads_serve_default registry lib c.session c.request hc.1 hc.2).mono ?_
      intro tr _ h ev hev _ req hop
      exact h req (List.mem_filterMap.mpr ⟨ev, hev, hop⟩)
    · exact Prog.all_of_forall _ fun _ _ _ _ h => absurd h hc
  obtain ⟨c, hc, hreads⟩ := Pool.journal_forall hserved hentry
  exact hreads (hdefault c (List.mem_of_getElem? hc))

end Journal

/-- An upstream that answers every step at once. -/
def promptHabitat : Habitat (ToolOp AppOp) (ToolOp.Result AppOp.Result) ClientRequest Unit Unit Unit where
  serve _ _ _ _ := some (default, ())
  move _ _ := ()

theorem defaultSize_mem : 1 ≤ (25 : ℤ) ∧ (25 : ℤ) ≤ 100 := by decide

/-- Libraries that accept the arguments of `alerts.search_alerts` where none are given. -/
def searchLibraries : Libraries where
  __ := statusLibraries
  parse
    | .searchAlerts, _ => some { size := ⟨25, defaultSize_mem⟩ }
    | _, _ => none

/-- Two analysts of one tenant search its alerts, in turn: both searches are sent, and nothing else is. -/
theorem journal_reads_default_analysts :
    let registry : TenantRegistry := .single { tenantId := "acme", defaultRbacRole := "analyst" }
    let c : ClientRequest :=
      ⟨⟨"alice@acme", "acme", "analyst", .oauth, none⟩, .callTool "alerts.search_alerts" []⟩
    let log := serverJournal registry searchLibraries promptHabitat () (.start c :: .start c ::
      (List.replicate 8 [.serve 0 (), .serve 1 ()]).flatten)
    (log.filterMap fun entry => entry.2.op.request.map fun _ => entry.1) = [0, 1] ∧
      ∀ entry ∈ log, ∀ req, entry.2.op.request = some req → req.Reads := by
  intro registry c log
  refine ⟨by decide +kernel, journal_reads_default registry _ _ _ _ fun c' hc' => ?_⟩
  obtain rfl : c' = c := by simpa [Pool.callers] using hc'
  refine ⟨by decide, fun tenant hfind => ?_⟩
  obtain rfl := Option.some.inj hfind
  exact List.not_mem_nil

end WazuhMcp
