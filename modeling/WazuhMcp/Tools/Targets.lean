import WazuhMcp.Tools.Write
import WazuhMcp.Wazuh.Exchanges

/-!
# The targets of an active response

`write.isolate_agent` and `write.run_active_response` join their agent ids with commas into the
`agents_list` parameter of `PUT /active-response`. The parameter names exactly the given agents, each
by a numeric id, when every id is one (`targets_iff`); but neither argument model looks at the ids,
unlike those of the sibling tools, so a keyword or an id with a comma in it goes out as it is.
-/

namespace WazuhMcp

open Interact

/-- `PUT /active-response` -/
def UpRequest.IsActiveResponse (req : UpRequest) : Prop :=
  req.upstream = .serverApi ∧ req.method = "PUT" ∧ req.path = "/active-response"

/-- The `agents_list` parameter of the request names exactly these agents, each by a numeric id, and
at most 50 of them. -/
def UpRequest.Targets (req : UpRequest) (agentIds : List String) : Prop :=
  ∃ agentsList, req.params.lookup "agents_list" = some (.str agentsList) ∧
    Text.split ',' agentsList = agentIds ∧ (∀ id ∈ agentIds, isAgentId id = true) ∧
    (Text.split ',' agentsList).length ≤ arAgentsMax

/-- Every active response that the program requests goes to exactly these agents. -/
def UpProg.Targets {α : Type} (p : UpProg α) (agentIds : List String) : Prop :=
  p.Sends fun req => req.IsActiveResponse → req.Targets agentIds

/-! ## Joining and splitting -/

theorem not_comma_of_isAgentId {id : String} (h : isAgentId id = true) : ',' ∉ id.toList := by
  intro hmem
  simp only [isAgentId, Bool.and_eq_true, List.all_eq_true] at h
  exact absurd (h.1.1 ',' hmem) (by decide)

/-- The request of an active response, with its token. -/
def activeResponseRequest (body : JsonObject) (agentIds : List String) (runAs : Option String)
    (jwt : String) : UpRequest where
  upstream := .serverApi
  method := "PUT"
  path := "/active-response"
  params := ServerApiClient.effectiveParams [("agents_list", .str (Text.join ',' agentIds))] runAs
  payload := .json (.obj body)
  authorization := .bearer jwt

/-- **The join splits back into the ids** exactly when they are numeric. -/
theorem targets_activeResponseRequest {body : JsonObject} {agentIds : List String}
    {runAs : Option String} {jwt : String} (hne : 1 ≤ agentIds.length)
    (hlen : agentIds.length ≤ arAgentsMax) :
    (activeResponseRequest body agentIds runAs jwt).Targets agentIds ↔
      ∀ id ∈ agentIds, isAgentId id = true := by
  constructor
  · rintro ⟨_, _, _, hids, _⟩
    exact hids
  · intro hids
    have hsplit : Text.split ',' (Text.join ',' agentIds) = agentIds :=
      Text.split_join (fun id hid => not_comma_of_isAgentId (hids id hid))
        (List.ne_nil_of_length_pos hne)
    refine ⟨Text.join ',' agentIds, ?_, hsplit, hids, by rwa [hsplit]⟩
    rw [activeResponseRequest, ServerApiClient.lookup_effectiveParams_of_ne (by decide)]
    rfl

/-! ## The two tools -/

/-- A program that requests an active response targets these agents exactly when they are numeric. -/
theorem targets_exchange_bind {α : Type} (body : JsonObject) {agentIds : List String}
    {runAs : Option String} {f : Json → UpProg α} (hne : 1 ≤ agentIds.length)
    (hlen : agentIds.length ≤ arAgentsMax) (hf : ∀ resp P, (f resp).Sends P) :
    UpProg.Targets (ServerApiClient.exchange (activeResponseRequest body agentIds runAs) >>= f)
      agentIds ↔ ∀ id ∈ agentIds, isAgentId id = true := by
  have htargets (jwt : String) := @targets_activeResponseRequest body agentIds runAs jwt hne hlen
  refine (ServerApiClient.sends_exchange_bind_iff ?_ fun resp => hf resp _).trans ?_
  · rintro ⟨-, hmethod, -⟩
    exact absurd hmethod (by decide)
  · constructor
    · intro h
      exact (htargets "jwt").mp (h "jwt" ⟨rfl, rfl, rfl⟩)
    · intro hids jwt _
      exact (htargets jwt).mpr hids

theorem isolateAgent_targets_iff (session : Session) (args : IsolateAgentArgs) :
    (isolateAgent session args).Targets args.agentIds ↔
      ∀ id ∈ args.agentIds, isAgentId id = true :=
  targets_exchange_bind [("command", .str "isolate")] args.nonempty args.length_le
    fun _ _ => UpProg.sends_ofExcept _

theorem runActiveResponse_targets_iff (session : Session) (args : RunActiveResponseArgs) :
    (∀ arAllowlist, (runActiveResponse session args arAllowlist).Targets args.agentIds) ↔
      ∀ id ∈ args.agentIds, isAgentId id = true := by
  let body := ServerApiClient.activeResponseBody args.commandName args.customArgs
  have hallowed : UpProg.Targets (ServerApiClient.exchange
        (activeResponseRequest body args.agentIds session.wazuhUser) >>= fun resp =>
          Prog.ofExcept (agentsResult resp)) args.agentIds ↔
      ∀ id ∈ args.agentIds, isAgentId id = true :=
    targets_exchange_bind body args.nonempty args.length_le fun _ _ => UpProg.sends_ofExcept _
  rw [← hallowed]
  constructor
  · intro h
    have hself := h [args.commandName]
    rw [runActiveResponse, if_neg (by simp)] at hself
    exact hself
  · intro h arAllowlist
    rw [runActiveResponse]
    split
    · exact UpProg.sends_raise _
    · exact h

/-- **Active responses go to the given agents**, whoever calls and whatever happens upstream, exactly
when every given id is numeric. -/
theorem targets_iff (isolateArgs : IsolateAgentArgs) (args : RunActiveResponseArgs) :
    ((∀ session, (isolateAgent session isolateArgs).Targets isolateArgs.agentIds) ↔
      ∀ id ∈ isolateArgs.agentIds, isAgentId id = true) ∧
    ((∀ session arAllowlist, (runActiveResponse session args arAllowlist).Targets args.agentIds) ↔
      ∀ id ∈ args.agentIds, isAgentId id = true) := by
  constructor
  · refine ⟨fun h => ?_, fun h session => (isolateAgent_targets_iff session isolateArgs).mpr h⟩
    exact (isolateAgent_targets_iff ⟨"", "", "", .config, none⟩ isolateArgs).mp (h _)
  · refine ⟨fun h => ?_, fun h session => (runActiveResponse_targets_iff session args).mpr h⟩
    exact (runActiveResponse_targets_iff ⟨"", "", "", .config, none⟩ args).mp (h _)

/-- One admitted id that is a keyword, or stands for two agents, is sent as it is. -/
theorem not_targets_keyword :
    let session : Session := ⟨"alice", "acme", "admin", .oauth, none⟩
    ¬ (isolateAgent session ⟨["all"], by decide, by decide⟩).Targets ["all"] ∧
      ¬ (runActiveResponse session
          ⟨["001,002"], "firewall-drop", none, by decide, by decide, by decide, by decide⟩
          ["firewall-drop"]).Targets ["001,002"] := by
  intro session
  refine ⟨mt (isolateAgent_targets_iff session ⟨["all"], _, _⟩).mp (by decide), fun h => ?_⟩
  rw [runActiveResponse, if_neg (by simp)] at h
  have hids := (targets_exchange_bind _ (by decide) (by decide) fun _ _ => UpProg.sends_ofExcept _).mp h
  exact absurd hids (by decide)

end WazuhMcp
