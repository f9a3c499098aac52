import WazuhMcp.Server.ToolCall

/-!
# The gates of the entry points

No request should go upstream on behalf of a session whose role does not admit what the entry point
does, or before the rate limiter has let it pass (`EntryGate`). Every tool call keeps to this, whatever
the tool, the arguments and the environment (`toolCall_gated`). Resources and prompts are registered
without the wrapper: what they do does not depend on the policy, and the limiter is never asked
(`entryPoints_gated`).
-/

namespace WazuhMcp

open Interact

/-! ## The gate -/

/-- The registered tools whose operations an entry point performs. -/
def McpRequest.operations : McpRequest → List String
  | .callTool toolName _ => [toolName]
  | .readResource (.rule _) => []
  | .readResource (.mitreTechnique _) => [Tool.getMitreTechnique.name]
  | .readResource (.agentConfig _) => []
  | .getPrompt .triageLastHour => [Tool.searchAlerts.name]
  | .getPrompt (.investigateAlert _) =>
    [Tool.getAlert.name, Tool.getAgent.name, Tool.alertsByAgent.name]
  | .getPrompt (.agentPosture _) =>
    [Tool.getAgent.name, Tool.alertsByAgent.name, Tool.listVulnerabilitiesByAgent.name]

/-- The step sends a request to the indexer or the Server API. -/
def isRequest : ServerEvent → Bool
  | ⟨.inner (.up (.send _)), _⟩ => true
  | _ => false

/-- Whom the limiter was asked for, and what it came to. -/
def limiterCall? : ServerEvent → Option (String × String × Acquired)
  | ⟨.acquire tenantId sessionId, ans⟩ => some (tenantId, sessionId, ans)
  | _ => none

/-- The limiter calls of a trace, in order. -/
def limiterCalls (tr : List ServerEvent) : List (String × String × Acquired) :=
  tr.filterMap limiterCall?

/-- What must have happened before a request goes upstream: the role admits some tool and every
operation of the entry point, and the limiter was asked once, for the session, and let it pass. -/
structure EntryGate (policy : Policy) (session : Session) (req : McpRequest)
    (pre : List ServerEvent) : Prop where
  admits : ∃ t : Tool, isAllowed session t.name policy = true
  operations : ∀ toolName ∈ req.operations, isAllowed session toolName policy = true
  token : ∃ ans : Acquired, ans.outcome = .ok () ∧
    limiterCalls pre = [(session.tenantId, session.userId, ans)]

/-! ## Reading a trace -/

section Reading

variable {registry : TenantRegistry} {session : Session} {tr : List AppEvent}

theorem limiterCalls_append (tr tr' : List ServerEvent) :
    limiterCalls (tr ++ tr') = limiterCalls tr ++ limiterCalls tr' := List.filterMap_append

theorem limiterCalls_inner (tr : List AppEvent) :
    limiterCalls (tr.map (Event.embed .inner)) = [] := by
  rw [limiterCalls, List.filterMap_map]
  exact List.filterMap_eq_nil_iff.mpr fun _ _ => rfl

theorem limiterCalls_of_append_eq_nil {tr mid post : List ServerEvent} (h : limiterCalls tr = [])
    (htr : tr = mid ++ post) : limiterCalls mid = [] := by
  rw [htr, limiterCalls_append] at h
  exact (List.append_eq_nil_iff.mp h).1

theorem not_isRequest_resolveEvents :
    ∀ ev ∈ ((resolveEvents registry session).map (Event.embed .inner) : List ServerEvent),
      ¬ isRequest ev = true := by
  intro ev hev
  obtain ⟨⟨op, ans⟩, hmem, rfl⟩ := List.mem_map.mp hev
  obtain rfl : op = _ := mem_resolveEvents hmem
  exact Bool.false_ne_true

end Reading

/-! ## Tool calls -/

section ToolCall

variable {registry : TenantRegistry} {lib : Libraries} {session : Session} {toolName : String}
  {arguments : JsonObject} {tr : List ServerEvent} {out : Except Exn ToolResult}

theorem not_isRequest_refused (t : InstrumentedTool AppOp AppOp.Result ToolResult) (ans : Acquired)
    (x : Exn) : ∀ ev ∈ (⟨.acquire session.tenantId session.userId, ans⟩ ::
      t.refused session arguments x : List ServerEvent), ¬ isRequest ev = true := by
  cases x <;> simp [InstrumentedTool.refused, isRequest]

/-- After the limiter has been asked, a call does not ask it again. -/
theorem limiterCalls_handled (t : InstrumentedTool AppOp AppOp.Result ToolResult) (trh : List AppEvent)
    (start stop : ℚ) (out : Except Exn ToolResult) :
    limiterCalls (⟨.perfCounter, start⟩ :: (t.announced session arguments ++
      (trh.map (Event.embed .inner) ++ t.completed session arguments start stop out))) = [] := by
  have hannounced : limiterCalls (t.announced session arguments) = [] := by
    rw [InstrumentedTool.announced]
    split <;> rfl
  rw [← List.singleton_append, limiterCalls_append, limiterCalls_append, limiterCalls_append, hannounced,
    limiterCalls_inner]
  rfl

/-- **Whatever a tool call sends** upstream comes after both gates. -/
theorem ToolCallShape.gated (h : ToolCallShape registry lib session toolName arguments tr out) :
    Guarded (EntryGate (effectivePolicy registry session) session (.callTool toolName arguments))
      (fun ev => isRequest ev = true) tr := by
  cases h with
  | hidden hdenied =>
    refine guarded_of_forall_not fun ev hev => ?_
    rcases List.mem_append.mp hev with hev | hev
    · exact not_isRequest_resolveEvents ev hev
    · rw [List.mem_singleton.mp hev]
      exact Bool.false_ne_true
  | rejected hallowed hrejected => exact guarded_of_forall_not not_isRequest_resolveEvents
  | @called t kwargs tr out hallowed hname haccepted hcall =>
    subst hname
    cases hcall with
    | denied hpol hdenied => exact absurd hallowed (Bool.eq_false_iff.mp hdenied)
    | @refused trp ans x hpol hallowed' hans =>
      obtain rfl := hpol
      refine guarded_of_forall_not fun ev hev => ?_
      rcases List.mem_append.mp hev with hev | hev
      · exact not_isRequest_resolveEvents ev hev
      rcases List.mem_append.mp hev with hev | hev
      · exact not_isRequest_resolveEvents ev hev
      · exact not_isRequest_refused _ ans x ev hev
    | @handled trp trh ans start stop out hpol hallowed' hans hhan =>
      obtain rfl := hpol
      rw [← List.singleton_append, ← List.append_assoc, ← List.append_assoc]
      refine guarded_of_forall_not_append (fun ev hev => ?_) fun mid post hmid =>
        ⟨⟨t, hallowed⟩, by simpa [McpRequest.operations] using hallowed, ans, hans, ?_⟩
      · simp only [List.mem_append, List.mem_singleton] at hev
        rcases hev with (hev | hev) | rfl
        · exact not_isRequest_resolveEvents ev hev
        · exact not_isRequest_resolveEvents ev hev
        · exact Bool.false_ne_true
      · have hrest := limiterCalls_of_append_eq_nil (limiterCalls_handled _ trh start stop out) hmid
        simp only [limiterCalls_append, hrest, hookEvents, limiterCalls_inner]
        rfl

theorem toolCall_gated (registry : TenantRegistry) (lib : Libraries) (session : Session)
    (toolName : String) (arguments : JsonObject) :
    (serve (.ofRegistry registry) (some session) lib (.callTool toolName arguments)).All fun tr _ =>
      Guarded (EntryGate (effectivePolicy registry session) session (.callTool toolName arguments))
        (fun ev => isRequest ev = true) tr :=
  (Prog.all_map _ _ _).mpr ((rbacCallTool_shape registry lib session toolName arguments).mono
    fun _ _ h => h.gated)

/-- A session whose role has no tool patterns, known or not, sends nothing upstream by a tool call. -/
theorem toolCall_silent_of_denied (registry : TenantRegistry) (lib : Libraries) (session : Session)
    (toolName : String) (arguments : JsonObject)
    (h : ((effectivePolicy registry session).lookup session.rbacRole).getD [] = []) :
    (serve (.ofRegistry registry) (some session) lib (.callTool toolName arguments)).All fun tr _ =>
      ∀ ev ∈ tr, isRequest ev = false := by
  refine (toolCall_gated registry lib session toolName arguments).mono fun tr _ hgated ev hev => ?_
  by_contra hreq
  obtain ⟨pre, post, rfl⟩ := List.append_of_mem hev
  obtain ⟨t, hallowed⟩ := (hgated pre ev post rfl (by simpa using hreq)).admits
  rw [isAllowed_eq_false h] at hallowed
  cases hallowed

end ToolCall

/-! ## Resources and prompts -/

/-- The limiter is not asked by the steps of a handler that is not wrapped. -/
theorem limiterCalls_unwrapped {α : Type} (p : AppProg α) (wrap : α → McpResult) :
    Prog.All (wrap <$> (ToolProg.inner p : ServerProg α)) fun tr _ => limiterCalls tr = [] :=
  (Prog.all_map _ _ _).mpr ((Prog.all_embed _ _ _).mpr
    (Prog.all_of_forall p fun tr _ => limiterCalls_inner tr))

/-- **The entry points and their gates.** A tool call sends nothing upstream before RBAC and the
limiter have passed it, the limiter once and for its session. A resource read and a prompt get consult
neither: what they do is the same under any policies, and the limiter is never asked. -/
theorem entryPoints_gated (registry : TenantRegistry) (lib : Libraries) (session : Session) :
    (∀ toolName arguments,
      (serve (.ofRegistry registry) (some session) lib (.callTool toolName arguments)).All fun tr _ =>
        Guarded (EntryGate (effectivePolicy registry session) session (.callTool toolName arguments))
          (fun ev => isRequest ev = true) tr) ∧
    (∀ uri pol, serve pol (some session) lib (.readResource uri) =
        serve (.ofRegistry registry) (some session) lib (.readResource uri) ∧
      (serve pol (some session) lib (.readResource uri)).All fun tr _ => limiterCalls tr = []) ∧
    ∀ prompt pol, serve pol (some session) lib (.getPrompt prompt) =
        serve (.ofRegistry registry) (some session) lib (.getPrompt prompt) ∧
      (serve pol (some session) lib (.getPrompt prompt)).All fun tr _ => limiterCalls tr = [] :=
  ⟨toolCall_gated registry lib session, fun _ _ => ⟨rfl, limiterCalls_unwrapped _ _⟩,
    fun _ _ => ⟨rfl, limiterCalls_unwrapped _ _⟩⟩

/-- A prompt searches the indexer for a session whose role admits no tool, unlimited. -/
theorem not_gated_prompt :
    let registry : TenantRegistry := .single { tenantId := "acme", defaultRbacRole := "readonly" }
    let lib : Libraries :=
      ⟨fun _ => true, ⟨Text.parseInt, fun _ => none⟩, fun _ => some, fun _ _ => none,
        fun toolName => .tool ("Unknown tool: " ++ toolName)⟩
    let session : Session := ⟨"mallory", "acme", "guest", .oauth, none⟩
    ¬ (serve (.ofRegistry registry) (some session) lib (.getPrompt .triageLastHour)).All fun tr _ =>
      Guarded (EntryGate (effectivePolicy registry session) session (.getPrompt .triageLastHour))
        (fun ev => isRequest ev = true) tr := by
  intro registry lib session hall
  have h := hall.run fun
    | .acquire _ _ => ⟨true, .ok ()⟩
    | .perfCounter => (0 : ℚ)
    | .inner (.up op) => servingEnv op
    | .inner (.emit _) => ()
    | .addCalls _ _ _ => ()
    | .addRateLimited _ _ => ()
    | .recordDuration _ _ _ => ()
    | .emit _ => ()
  obtain ⟨t, hallowed⟩ := (h [_, _] _ _ rfl rfl).admits
  rw [isAllowed_eq_false rfl] at hallowed
  cases hallowed

end WazuhMcp
