import WazuhMcp.Foundations.Fallible
import WazuhMcp.Tools.Write
import WazuhMcp.Wazuh.Exchanges

/-!
# What the results of the write tools say

The Server API answers a write on agents with those it affected and those it failed on. A result is
sound when it is `ok` exactly if every requested agent is among the first and none among the second, and
when it lists all of the second. Three of the tools take a write to be `ok` when nothing failed, and so
do not miss a requested agent that the response leaves out; the other three take every response for a
success (`agentsResult_sound_iff`, `affectedResult_sound_iff`).
-/

namespace WazuhMcp

open Interact

/-! ## Tools and requests -/

/-- A call of a write tool that acts on agents. -/
inductive AgentWrite where
  | isolateAgent (args : IsolateAgentArgs)
  | restartAgent (args : RestartAgentArgs)
  | addAgentToGroup (args : AgentGroupArgs)
  | removeAgentFromGroup (args : AgentGroupArgs)
  | runActiveResponse (args : RunActiveResponseArgs) (arAllowlist : List String)
  | runActiveResponseOnGroup (args : RunActiveResponseOnGroupArgs) (arGroupAllowlist : List String)

namespace AgentWrite

/-- The handler of the tool. -/
def handler (session : Session) : AgentWrite → UpProg WriteResult
  | isolateAgent args => WazuhMcp.isolateAgent session args
  | restartAgent args => WazuhMcp.restartAgent session args
  | addAgentToGroup args => WazuhMcp.addAgentToGroup session args
  | removeAgentFromGroup args => WazuhMcp.removeAgentFromGroup session args
  | runActiveResponse args arAllowlist => WazuhMcp.runActiveResponse session args arAllowlist
  | runActiveResponseOnGroup args arGroupAllowlist =>
    WazuhMcp.runActiveResponseOnGroup session args arGroupAllowlist

/-- Whether the tool reads the failures that a response reports. -/
def readsFailures : AgentWrite → Bool
  | isolateAgent _ | runActiveResponse _ _ | runActiveResponseOnGroup _ _ => true
  | restartAgent _ | addAgentToGroup _ | removeAgentFromGroup _ => false

/-- The agents that a run of the tool asks to act on: those of its arguments, or those that the Server
API lists for the group. -/
def Requests : AgentWrite → List UpEvent → List String → Prop
  | isolateAgent args, _, requested => requested = args.agentIds
  | restartAgent args, _, requested => requested = [args.agentId]
  | addAgentToGroup args, _, requested => requested = [args.agentId]
  | removeAgentFromGroup args, _, requested => requested = [args.agentId]
  | runActiveResponse args _, _, requested => requested = args.agentIds
  | runActiveResponseOnGroup _ _, tr, requested =>
    ∃ req resp listing, (⟨.send req, .ok resp⟩ : UpEvent) ∈ tr ∧ req.method = "GET" ∧
      req.path = "/agents" ∧ resp.statusCode < 400 ∧ resp.json = .ok listing ∧
      ServerApiClient.groupAgentIds listing = .ok requested

end AgentWrite

/-- A run ends with a write that the Server API answers with a body. -/
def Reply (tr : List UpEvent) (body : Json) : Prop :=
  ∃ init req resp, tr = init ++ [⟨.send req, .ok resp⟩] ∧ req.method ≠ "GET" ∧
    resp.statusCode < 400 ∧ resp.json = .ok body

/-! ## Responses and results -/

/-- The body reports these `affected_items` and `failed_items`. -/
def ReportsAgents (body : Json) (affected : List Json) (failed : List JsonObject) : Prop :=
  ∃ top data, body = .obj top ∧ top.lookup "data" = some (.obj data) ∧
    data.lookup "affected_items" = some (.arr affected) ∧
    data.lookup "failed_items" = some (.arr (failed.map .obj))

/-- The agent of a failed item. -/
def failedId (item : JsonObject) : String := (JsonObject.getD item "id" (.str "")).pyStr

/-- The response reports an agent as affected and not as failed. -/
def Succeeded (affected : List Json) (failed : List JsonObject) (agentId : String) : Prop :=
  agentId ∈ affected.map Json.pyStr ∧ agentId ∉ failed.map failedId

instance (affected : List Json) (failed : List JsonObject) (agentId : String) :
    Decidable (Succeeded affected failed agentId) := inferInstanceAs (Decidable (_ ∧ _))

/-- **A sound result** is `ok` exactly if every requested agent succeeded, and lists every failed item. -/
def SoundResult (r : WriteResult) (requested : List String) (affected : List Json)
    (failed : List JsonObject) : Prop :=
  (r.ok = true ↔ ∀ a ∈ requested, Succeeded affected failed a) ∧
    r.failedAgents.map FailedAgent.agentId = failed.map failedId

/-- The responses that a tool makes a sound result of. -/
def AgentWrite.AccurateOn (w : AgentWrite) (requested : List String) (affected : List Json)
    (failed : List JsonObject) : Prop :=
  (failed = [] ∧ ∀ a ∈ requested, a ∈ affected.map Json.pyStr) ∨
    (w.readsFailures = true ∧ failed ≠ [] ∧ ∃ a ∈ requested, ¬ Succeeded affected failed a)

section Results

variable {body : Json} {affected : List Json} {failed : List JsonObject} {r : WriteResult}

theorem failedItem_agentId {item : JsonObject} {agent : FailedAgent}
    (h : failedItem (.obj item) = .ok agent) : agent.agentId = failedId item := by
  obtain ⟨agentId, hid, h⟩ := Fallible.bind_eq_ok.mp h
  obtain ⟨err, -, h⟩ := Fallible.bind_eq_ok.mp h
  obtain ⟨reason, -, h⟩ := Fallible.bind_eq_ok.mp h
  obtain rfl := Except.ok.inj hid
  obtain rfl := Except.ok.inj h
  rfl

theorem failedItems_agentIds {agents : List FailedAgent}
    (h : (failed.map Json.obj).mapM failedItem = .ok agents) :
    agents.map FailedAgent.agentId = failed.map failedId := by
  induction failed generalizing agents with
  | nil =>
    obtain rfl := Except.ok.inj h
    rfl
  | cons item failed ih =>
    rw [List.map_cons, List.mapM_cons] at h
    obtain ⟨agent, hagent, h⟩ := Fallible.bind_eq_ok.mp h
    obtain ⟨rest, hrest, h⟩ := Fallible.bind_eq_ok.mp h
    obtain rfl := Except.ok.inj h
    rw [List.map_cons, List.map_cons, failedItem_agentId hagent, ih hrest]

/-- A list that is read with `or []` is read as it is. -/
theorem arr_or_nil (xs : List Json) : (Json.arr xs).or (.arr []) = .arr xs := by
  cases xs <;> rfl

/-- What the tools read as failed is what the response reports. -/
theorem extractFailedItems_ids (hbody : ReportsAgents body affected failed) {agents : List FailedAgent}
    (h : extractFailedItems body = .ok agents) :
    agents.map FailedAgent.agentId = failed.map failedId := by
  obtain ⟨top, data, rfl, hdata, -, hfailed⟩ := hbody
  apply failedItems_agentIds
  have hdata' : (Json.obj top).getD "data" (.obj []) = .ok (.obj data) := by
    rw [Json.getD, JsonObject.getD, hdata, Option.getD_some]
  have hitems : (Json.obj data).getD "failed_items" .null = .ok (.arr (failed.map .obj)) := by
    rw [Json.getD, JsonObject.getD, hfailed, Option.getD_some]
  simpa only [extractFailedItems, hdata', hitems, bind, Except.bind, Functor.map, Except.map,
    arr_or_nil, Json.iter] using h

theorem map_eq_nil_of_ids {agents : List FailedAgent}
    (h : agents.map FailedAgent.agentId = failed.map failedId) : agents.isEmpty = failed.isEmpty := by
  have hlength := congrArg List.length h
  rw [List.length_map, List.length_map] at hlength
  cases agents <;> cases failed <;> simp_all

/-- A tool that reads failures makes a sound result of a response with none that leaves no requested
agent out, and of one with some that fails a requested agent or leaves it out. -/
theorem agentsResult_sound_iff (hbody : ReportsAgents body affected failed)
    (h : agentsResult body = .ok r) (requested : List String) :
    SoundResult r requested affected failed ↔
      (failed = [] ∧ ∀ a ∈ requested, a ∈ affected.map Json.pyStr) ∨
        (failed ≠ [] ∧ ∃ a ∈ requested, ¬ Succeeded affected failed a) := by
  obtain ⟨ids, -, h⟩ := Fallible.bind_eq_ok.mp h
  obtain ⟨agents, hagents, h⟩ := Fallible.bind_eq_ok.mp h
  obtain rfl := Except.ok.inj h
  have hids := extractFailedItems_ids hbody hagents
  rw [SoundResult, and_iff_left hids, map_eq_nil_of_ids hids, List.isEmpty_iff]
  by_cases hnil : failed = []
  · subst hnil
    simp [Succeeded]
  · simp [hnil]

/-- A tool that does not read failures makes a sound result of a response with none that leaves no
requested agent out. -/
theorem affectedResult_sound_iff (h : affectedResult body = .ok r) (requested : List String) :
    SoundResult r requested affected failed ↔
      failed = [] ∧ ∀ a ∈ requested, a ∈ affected.map Json.pyStr := by
  obtain ⟨ids, -, h⟩ := Fallible.bind_eq_ok.mp h
  obtain rfl := Except.ok.inj h
  rw [SoundResult]
  constructor
  · rintro ⟨hok, hfailed⟩
    obtain rfl := List.map_eq_nil_iff.mp hfailed.symm
    exact ⟨rfl, fun a ha => (hok.mp rfl a ha).1⟩
  · rintro ⟨rfl, hall⟩
    exact ⟨⟨fun _ a ha => ⟨hall a ha, List.not_mem_nil⟩, fun _ => rfl⟩, rfl⟩

end Results

/-! ## The result of a run -/

/-- A run that ends with a write of the client returns the body of the response to it. -/
def ReturnsReply (p : UpProg Json) : Prop :=
  p.All fun tr out => ∀ json, out = .ok json → ∀ body, Reply tr body → json = body

/-- A run that ends with an exchange has the answer to it as the body. -/
theorem reply_of_replies {build : String → UpRequest} {tr : List UpEvent} {json body : Json}
    (h : ServerApiClient.Replies build tr (.ok json)) (hreply : Reply tr body) : json = body := by
  obtain ⟨init, jwt, ans, htr, -, hans⟩ := h
  obtain ⟨resp, rfl, -, hjson⟩ := hans json rfl
  obtain ⟨init', req, resp', htr', -, -, hbody⟩ := hreply
  have hlast := List.append_inj_right' (htr.symm.trans htr') rfl
  cases List.singleton_inj.mp hlast
  exact Except.ok.inj (hjson.symm.trans hbody)

theorem returnsReply_exchange (build : String → UpRequest) :
    ReturnsReply (ServerApiClient.exchange build) := by
  refine (ServerApiClient.all_exchange build).mono ?_
  rintro tr out (⟨⟨x, rfl⟩, -⟩ | h) json hout body hreply
  · cases hout
  · exact reply_of_replies (hout ▸ h) hreply

/-- The group tool sends its write last, or none to an empty group. -/
theorem returnsReply_onGroup (groupName command : String) (customArgs : Option JsonObject)
    (runAs : Option String) :
    ReturnsReply (ServerApiClient.runActiveResponseOnGroup groupName command customArgs runAs) := by
  refine (Prog.all_bind _ _ _).mpr ((ServerApiClient.all_exchange _).mono fun tr out hexchanged => ?_)
  cases out with
  | error x => exact fun json h => nomatch h
  | ok listing =>
    refine Prog.all_ofExcept_bind (fun agentIds _ => ?_) fun x _ json h => nomatch h
    split
    · -- no agent: the run ends with the list, which is no write
      intro json _ body hreply
      rcases hexchanged with ⟨⟨x, h⟩, -⟩ | ⟨init, jwt, ans, htr, -, -⟩
      · cases h
      · obtain ⟨init', req, resp, htr', hmethod, -, -⟩ := hreply
        rw [List.append_nil] at htr'
        cases List.singleton_inj.mp (List.append_inj_right' (htr.symm.trans htr') rfl)
        exact absurd rfl hmethod
    · refine (ServerApiClient.all_exchange _).mono ?_
      rintro tr' out (⟨⟨x, rfl⟩, -⟩ | ⟨init, jwt, ans, htr', -, hans⟩) json hout body hreply
      · cases hout
      · subst hout
        obtain ⟨resp, rfl, -, hjson⟩ := hans json rfl
        obtain ⟨init', req, resp', htr'', -, -, hbody⟩ := hreply
        rw [htr', ← List.append_assoc] at htr''
        cases List.singleton_inj.mp (List.append_inj_right' htr'' rfl)
        exact Except.ok.inj (hjson.symm.trans hbody)

/-- A handler returns what its reader makes of the body. -/
theorem all_reads {p : UpProg Json} (h : ReturnsReply p) (read : Json → Except Exn WriteResult) :
    (p >>= fun json => Prog.ofExcept (read json)).All fun tr out =>
      ∀ r, out = .ok r → ∀ body, Reply tr body → read body = .ok r := by
  refine (Prog.all_bind _ _ _).mpr (Prog.All.mono h fun tr out hout => ?_)
  cases out with
  | error x => exact fun r h => nomatch h
  | ok json =>
    refine (Prog.all_ofExcept _ _).mpr fun r hr body hreply => ?_
    rw [List.append_nil] at hreply
    rw [← hout json rfl body hreply]
    exact hr

/-- How a tool reads the body of the response. -/
def AgentWrite.read (w : AgentWrite) (body : Json) : Except Exn WriteResult :=
  if w.readsFailures then agentsResult body else affectedResult body

/-- **A handler returns** what it reads in the response to its write. -/
theorem AgentWrite.all_handler (session : Session) (w : AgentWrite) :
    (w.handler session).All fun tr out => ∀ r, out = .ok r → ∀ body, Reply tr body →
      w.read body = .ok r := by
  cases w with
  | isolateAgent args => exact all_reads (returnsReply_exchange _) agentsResult
  | restartAgent args => exact all_reads (returnsReply_exchange _) affectedResult
  | addAgentToGroup args => exact all_reads (returnsReply_exchange _) affectedResult
  | removeAgentFromGroup args => exact all_reads (returnsReply_exchange _) affectedResult
  | runActiveResponse args arAllowlist =>
    rw [handler, WazuhMcp.runActiveResponse]
    split
    · exact fun r h => nomatch h
    · exact all_reads (returnsReply_exchange _) agentsResult
  | runActiveResponseOnGroup args arGroupAllowlist =>
    rw [handler, WazuhMcp.runActiveResponseOnGroup]
    split
    · exact fun r h => nomatch h
    · exact all_reads (returnsReply_onGroup _ _ _ _) agentsResult

/-- **When a result is sound.** Whatever the Server API answers a write with, the result that the tool
returns is `ok` exactly if every requested agent succeeded, and lists every failed item, just when the
response fails on nothing and leaves no requested agent out, or, for a tool that reads failures, when
it fails on something and a requested agent did not succeed. -/
theorem writeResult_sound_iff (session : Session) (w : AgentWrite) :
    (w.handler session).All fun tr out => ∀ r requested body affected failed, out = .ok r →
      w.Requests tr requested → Reply tr body → ReportsAgents body affected failed →
      (SoundResult r requested affected failed ↔ w.AccurateOn requested affected failed) := by
  refine (w.all_handler session).mono fun tr out hread => ?_
  intro r requested body affected failed hout _ hreply hbody
  have hr := hread r hout body hreply
  rw [AgentWrite.read] at hr
  rw [AgentWrite.AccurateOn]
  cases hreads : w.readsFailures with
  | true =>
    rw [hreads, if_pos rfl] at hr
    rw [agentsResult_sound_iff hbody hr]
    simp only [true_and]
  | false =>
    rw [hreads, if_neg Bool.false_ne_true] at hr
    rw [affectedResult_sound_iff hr]
    simp

/-- The Server API isolates one of two agents and says nothing of the other. -/
def partialBody : Json :=
  .obj [("data", .obj [("affected_items", .arr [.str "001"]), ("failed_items", .arr [])])]

/-- An isolation of two agents, one of which the response leaves out, is reported as `ok`. -/
theorem not_writeResult_sound :
    ¬ ∀ (session : Session) (w : AgentWrite), (w.handler session).All fun tr out =>
      ∀ r requested body affected failed, out = .ok r → w.Requests tr requested → Reply tr body →
        ReportsAgents body affected failed → SoundResult r requested affected failed := by
  intro h
  have hrun := (h ⟨"u", "acme", "admin", .oauth, none⟩
    (.isolateAgent ⟨["001", "002"], by decide, by decide⟩)).run
      (ServerApiClient.answeringEnv "jwt" ⟨200, .ok partialBody⟩)
  have hsound := hrun ⟨true, some ["001"], [], none⟩ ["001", "002"] partialBody [.str "001"] [] rfl rfl
    ⟨[⟨.lock, .ok ()⟩, ⟨.freshToken, some "jwt"⟩], _, ⟨200, .ok partialBody⟩, rfl, by decide, by decide, rfl⟩
    ⟨_, _, rfl, rfl, rfl, rfl⟩
  exact absurd (hsound.1.mp rfl) (by decide)

end WazuhMcp
