import WazuhMcp.Server.Registration
import WazuhMcp.Tools.Targets

/-!
# The gate of active responses

An active response must run the command that was asked for, and only if the tenant allows that command
and, for a group, the group; else the call must be refused before anything reaches the Server API
(`ArGated`).

`write.run_active_response` checks the command, `write.run_active_response_on_group` checks the group
and not the command. Both checks come after the tenant's client has been acquired. `arGated_iff` says
of every run whether it is gated.
-/

namespace WazuhMcp

open Interact

/-! ## The gate -/

/-- The command in the JSON body of a request. -/
def UpRequest.Runs (req : UpRequest) (commandName : String) : Prop :=
  ∃ body, req.payload = .json (.obj body) ∧ body.lookup "command" = some (.str commandName)

/-- Active responses run this command, and only if it is allowed; if it is not, the call is refused and
the Server API gets no request. -/
structure ArGated (commandName : String) (allowed : Prop) (tr : List AppEvent)
    (out : Except Exn ToolResult) : Prop where
  commands : ∀ req ∈ sent tr, req.IsActiveResponse → req.Runs commandName ∧ allowed
  refused : ¬ allowed → (∃ e : WazuhError, out = .error (.wazuh e) ∧ e.code = .forbidden) ∧
    ∀ req ∈ sent tr, req.upstream ≠ .serverApi

/-- The pool failed to acquire a client. -/
def acquireRaised : AppEvent → Bool
  | ⟨.up (.acquire _ _), .error _⟩ => true
  | _ => false

/-- The pool was not asked for a client, or returned one. -/
def ClientAcquired (tr : List AppEvent) : Prop := ∀ ev ∈ tr, acquireRaised ev = false

variable (registry : TenantRegistry) (session : Session)

/-- The tenant's `write_allowlist` does not rule the tool out. -/
def writeAllowed (toolName : String) : Bool :=
  (resolved registry (some []) TenantConfig.writeAllowlist session).all (toolName ∈ ·)

/-- The tenant's `active_response_allowlist` -/
def arAllowlist : List String := resolved registry [] TenantConfig.activeResponseAllowlist session

/-- The tenant's `agent_group_allowlist` -/
def arGroupAllowlist : List String := resolved registry [] TenantConfig.agentGroupAllowlist session

variable {registry session}

/-! ## Refusals -/

theorem ArGated.of_forbidden {commandName : String} {allowed : Prop} {tr : List AppEvent}
    {e : WazuhError} (hsent : sent tr = []) (he : e.code = .forbidden) :
    ArGated commandName allowed tr (.error (.wazuh e)) :=
  ⟨by simp [hsent], fun _ => ⟨⟨e, rfl, he⟩, by simp [hsent]⟩⟩

/-- A call that fails with a foreign exception before it sends anything is gated only if it was
allowed. -/
theorem arGated_foreign_iff {commandName : String} {allowed : Prop} {tr : List AppEvent}
    (x : ForeignExn) (hsent : sent tr = []) :
    ArGated commandName allowed tr (.error x.exn) ↔ allowed := by
  refine ⟨fun h => ?_, fun hallowed => ⟨by simp [hsent], fun hnot => absurd hallowed hnot⟩⟩
  by_contra hnot
  obtain ⟨⟨e, he, -⟩, -⟩ := h.refused hnot
  exact x.exn_ne_wazuh e (Except.error.inj he)

/-- A call that was not allowed and got as far as the Server API is not gated. -/
theorem not_arGated_of_reaches {commandName : String} {allowed : Prop} {tr : List AppEvent}
    {out : Except Exn WriteResult} (hallowed : ¬ allowed)
    (h : (∃ req ∈ sent tr, req.upstream = .serverApi) ∨ ∃ x : ForeignExn, out = .error x.exn) :
    ¬ ArGated commandName allowed tr (out.map .write) := by
  intro hgated
  obtain ⟨⟨e, he, -⟩, hnone⟩ := hgated.refused hallowed
  rcases h with ⟨req, hreq, hup⟩ | ⟨x, rfl⟩
  · exact hnone req hreq hup
  · exact x.exn_ne_wazuh e (Except.error.inj he)

/-! ## Requests -/

theorem lookup_activeResponseBody (command : String) (customArgs : Option JsonObject) :
    (ServerApiClient.activeResponseBody command customArgs).lookup "command" =
      some (.str command) := by
  rw [ServerApiClient.activeResponseBody, Dict.lookup_set, if_pos rfl]

/-- The client's own `command` wins over whatever `custom_args` holds. -/
theorem runActiveResponse_sends (agentIds : List String) (command : String)
    (customArgs : Option JsonObject) (runAs : Option String) :
    (ServerApiClient.runActiveResponse agentIds command customArgs runAs).Sends fun req =>
      req.IsActiveResponse → req.Runs command :=
  ServerApiClient.sends_exchange (fun h => absurd h.2.1 (by decide)) fun _ _ =>
    ⟨_, rfl, lookup_activeResponseBody command customArgs⟩

theorem runActiveResponseOnGroup_sends (groupName command : String)
    (customArgs : Option JsonObject) (runAs : Option String) :
    (ServerApiClient.runActiveResponseOnGroup groupName command customArgs runAs).Sends fun req =>
      req.IsActiveResponse → req.Runs command := by
  refine UpProg.sends_bind (ServerApiClient.sends_exchange (fun h => absurd h.2.1 (by decide))
    fun _ h => absurd h.2.1 (by simp)) fun resp => ?_
  refine UpProg.sends_bind (UpProg.sends_ofExcept _) fun agentIds => ?_
  split
  · exact UpProg.sends_pure _
  · exact runActiveResponse_sends agentIds command customArgs runAs

/-! ## The guards -/

theorem all_checkWriteAllowed (toolName : String) (Q : List AppEvent → Except Exn Unit → Prop) :
    (checkWriteAllowed (.ofRegistry registry) session toolName).All Q ↔
      Q (resolveEvents registry session) (if writeAllowed registry session toolName then .ok ()
        else .error (.wazuh (writeForbidden toolName))) := by
  refine (Prog.all_bind (resolve registry (some []) TenantConfig.writeAllowlist session) _ Q).trans
    ((all_resolve ..).trans ?_)
  rw [writeAllowed]
  cases resolved registry (some []) TenantConfig.writeAllowlist session with
  | none => simp
  | some allow =>
    by_cases h : toolName ∈ allow <;> simp [h]

/-- The guard of an active response: the write allowlist, and then the tool's own. -/
theorem all_guard (toolName message scope : String) (read : TenantConfig → List String)
    (Q : List AppEvent → Except Exn (List String) → Prop) :
    Prog.All (do
        checkWriteAllowed (.ofRegistry registry) session toolName
        requiredAllowlist (some (resolve registry [] read)) message scope session) Q ↔
      if writeAllowed registry session toolName then
        Q (resolveEvents registry session ++ resolveEvents registry session)
          (.ok (resolved registry [] read session))
      else Q (resolveEvents registry session) (.error (.wazuh (writeForbidden toolName))) := by
  rw [Prog.all_bind, all_checkWriteAllowed]
  cases writeAllowed registry session toolName with
  | true => exact all_resolve ..
  | false => exact Iff.rfl

theorem clientAcquired_guard {ev : AppEvent} (h : acquireRaised ev = false) :
    ClientAcquired (resolveEvents registry session ++ resolveEvents registry session ++ [ev]) := by
  have hresolve : ∀ ev ∈ resolveEvents registry session, acquireRaised ev = false := by
    rintro ⟨op, ans⟩ hev
    obtain rfl : op = _ := mem_resolveEvents hev
    rfl
  intro ev' hev'
  simp only [List.mem_append, List.mem_singleton, or_self] at hev'
  rcases hev' with hev' | rfl
  · exact hresolve ev' hev'
  · exact h

/-! ## The closures -/

/-- A closure whose tool refuses the call unless `checked`, on a session of its tenant: it is gated when
the write allowlist rules it out, when the call is allowed, or when the tool's check fails and the check
is reached. -/
theorem arGated_inner_iff {Args : Type} {args : Args} {toolName commandName message scope : String}
    {read : TenantConfig → List String} {run : Session → Args → List String → UpProg WriteResult}
    {allowed checked : Prop} {e : WazuhError}
    (hrefused : ¬ checked →
      run session args (resolved registry [] read session) = .raise (.wazuh e))
    (hcode : e.code = .forbidden)
    (hsends : (run session args (resolved registry [] read session)).Sends fun req =>
      req.IsActiveResponse → req.Runs commandName)
    (hreaches : checked → ServerApiClient.Reaches
      (run session args (resolved registry [] read session)) .serverApi) :
    (inner (some session) (some args)
      (fun session => do
        checkWriteAllowed (.ofRegistry registry) session toolName
        requiredAllowlist (some (resolve registry [] read)) message scope session)
      .serverApi run .write).All fun tr out => ArGated commandName allowed tr out ↔
        writeAllowed registry session toolName = false ∨ allowed ∨ ¬ checked ∧ ClientAcquired tr := by
  rw [all_inner, all_guard]
  split
  · rename_i hwrite
    intro ans
    cases ans with
    | error x =>
      refine (arGated_foreign_iff x (by simp [AppOp.request, UpOp.request])).trans
        ⟨fun h => .inr (.inl h), fun h => ?_⟩
      rcases h with hfalse | hallowed | ⟨-, hacquired⟩
      · rw [hwrite] at hfalse
        cases hfalse
      · exact hallowed
      · exact absurd (hacquired _ (List.mem_append_right _ (List.mem_singleton_self _)))
          (by simp [acquireRaised])
    | ok _ =>
      by_cases hcheck : checked
      · by_cases hallowed : allowed
        · refine (UpProg.Sends.all hsends).mono fun tr' out' hreqs =>
            iff_of_true ⟨?_, ?_⟩ (.inr (.inl hallowed))
          · intro req hreq hactive
            exact ⟨hreqs req (by simpa [AppOp.request, UpOp.request] using hreq) hactive, hallowed⟩
          · exact fun hnot => absurd hallowed hnot
        · refine (hreaches hcheck).mono fun tr' out' hout =>
            iff_of_false (not_arGated_of_reaches hallowed ?_) ?_
          · refine hout.imp_left fun hsent => ?_
            obtain ⟨req, hreq, hup⟩ := hsent
            exact ⟨req, by simpa [AppOp.request, UpOp.request] using hreq, hup⟩
          · rintro (hfalse | hallowed' | ⟨hnot, -⟩)
            · rw [hwrite] at hfalse
              cases hfalse
            · exact hallowed hallowed'
            · exact hnot hcheck
      · rw [hrefused hcheck]
        exact iff_of_true (.of_forbidden (by simp [AppOp.request, UpOp.request]) hcode)
          (.inr (.inr ⟨hcheck, clientAcquired_guard rfl⟩))
  · rename_i hwrite
    exact iff_of_true (.of_forbidden (sent_resolveEvents registry session) rfl)
      (.inl (by simpa using hwrite))

/-- **Active responses are gated**, whatever happens upstream, exactly when one of these holds: the
tenant's write allowlist rules the tool out; everything that must be allowed is; or, once a client has
been acquired, what the tool checks is not, which is the command for `write.run_active_response`, and
the group but not the command for `write.run_active_response_on_group`. -/
theorem arGated_iff (registry : TenantRegistry) (session : Session) :
    (∀ args : RunActiveResponseArgs,
      (runArInner (.ofRegistry registry) (some session) (some args)).All fun tr out =>
        ArGated args.commandName (args.commandName ∈ arAllowlist registry session) tr out ↔
          writeAllowed registry session "write.run_active_response" = false ∨
            args.commandName ∈ arAllowlist registry session ∨
            args.commandName ∉ arAllowlist registry session ∧ ClientAcquired tr) ∧
    ∀ args : RunActiveResponseOnGroupArgs,
      (runArOnGroupInner (.ofRegistry registry) (some session) (some args)).All fun tr out =>
        ArGated args.commandName (args.commandName ∈ arAllowlist registry session ∧
            args.groupName ∈ arGroupAllowlist registry session) tr out ↔
          writeAllowed registry session "write.run_active_response_on_group" = false ∨
            (args.commandName ∈ arAllowlist registry session ∧
              args.groupName ∈ arGroupAllowlist registry session) ∨
            args.groupName ∉ arGroupAllowlist registry session ∧ ClientAcquired tr := by
  constructor
  · intro args
    refine arGated_inner_iff (e := arForbidden args.commandName) (fun hnot => ?_) rfl ?_
      fun hcheck => ?_
    · exact if_pos hnot
    · rw [runActiveResponse]
      split
      · exact UpProg.sends_raise _
      · exact UpProg.sends_bind (runActiveResponse_sends _ _ _ _) fun _ => UpProg.sends_ofExcept _
    · rw [arAllowlist] at hcheck
      rw [runActiveResponse, if_neg (not_not_intro hcheck)]
      exact (ServerApiClient.reaches_exchange _ fun _ => rfl).bind _
  · intro args
    refine arGated_inner_iff (e := arGroupForbidden args.groupName) (fun hnot => ?_) rfl ?_
      fun hcheck => ?_
    · exact if_pos hnot
    · rw [runActiveResponseOnGroup]
      split
      · exact UpProg.sends_raise _
      · exact UpProg.sends_bind (runActiveResponseOnGroup_sends _ _ _ _) fun _ => UpProg.sends_ofExcept _
    · rw [arGroupAllowlist] at hcheck
      rw [runActiveResponseOnGroup, if_neg (not_not_intro hcheck)]
      exact ((ServerApiClient.reaches_exchange _ fun _ => rfl).bind _).bind _

/-- The services at their best, where every group has one agent. -/
def groupEnv : ∀ op : AppOp, op.Result
  | .up (.send _) => .ok ⟨200, .ok (.obj [("data", .obj [("affected_items",
      .arr [.obj [("id", .str "001")]])])])⟩
  | .up op => servingEnv op
  | .emit _ => ()

/-- A group that is allowed runs a command that is not, on every agent in it. -/
theorem not_arGated_of_group :
    let registry : TenantRegistry := .single
      { tenantId := "acme", defaultRbacRole := "readonly",
        activeResponseAllowlist := ["restart-wazuh"], agentGroupAllowlist := ["linux-prod"] }
    let session : Session := ⟨"alice", "acme", "admin", .oauth, none⟩
    let args : RunActiveResponseOnGroupArgs :=
      { groupName := "linux-prod", commandName := "disable-account", group_nonempty := by decide,
        group_length_le := by decide, command_nonempty := by decide, command_length_le := by decide }
    ¬ (runArOnGroupInner (.ofRegistry registry) (some session) (some args)).All
      (ArGated args.commandName (args.commandName ∈ arAllowlist registry session ∧
        args.groupName ∈ arGroupAllowlist registry session)) := by
  intro registry session args hall
  have h := hall.run groupEnv
  have hsent : activeResponseRequest [("command", .str "disable-account")] ["001"] none "jwt" ∈
      sent ((runArOnGroupInner (.ofRegistry registry) (some session) (some args)).run groupEnv).1 :=
    List.mem_cons_of_mem _ List.mem_cons_self
  exact absurd (h.commands _ hsent ⟨rfl, rfl, rfl⟩).2.1 (by decide)

end WazuhMcp
