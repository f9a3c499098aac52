import WazuhMcp.Foundations.Exact
import WazuhMcp.Foundations.Fallible
import WazuhMcp.Server.Accesses

/-!
# The audit of resource reads and prompt gets

A resource read or a prompt get should leave an audit event that names it: `ok` exactly when what was
asked for is returned, and `error` without any `ok` when it is not (`AccessAudited`).

* The resources do so for every identifier of the right form, unless the Server API raises what is no
  `WazuhError` or answers with a body of another form (`resource_audited_iff`).
* The prompts do so only when they return what was asked for (`prompt_audited_iff_returned`): no prompt
  emits an `error`, and `investigate_alert` emits its first `ok` before anything is fetched.

`access_audited_iff` puts it together: for which arguments and which answers an access is audited.
-/

namespace WazuhMcp

open Interact Prog Fallible

/-! ## The law -/

/-- A resource read or a prompt get. -/
inductive Access where
  | resource (uri : ResourceUri)
  | prompt (name : PromptName)

/-- The name of a prompt in audit events. -/
def PromptName.tool : PromptName → String
  | triageLastHour => "prompt.triage_last_hour"
  | investigateAlert _ => "prompt.investigate_alert"
  | agentPosture _ => "prompt.agent_posture"

namespace Access

/-- The name of the access in audit events. -/
def tool : Access → String
  | resource uri => uri.resource.tool
  | prompt name => name.tool

/-- What an access does for a session. -/
def calls (session : Session) : Access → CallProg McpResult
  | resource uri => McpResult.resource <$> uri.calls session
  | prompt name => McpResult.prompt <$> name.calls session

end Access

/-- The message is the one that the prompt was asked for, with what it has fetched. -/
def PromptName.Message : PromptName → Json → Prop
  | triageLastHour, message => ∃ result, message = makeUserMessage (triageText result)
  | investigateAlert alertId, message => ∃ alert agent neighbors,
    message = makeUserMessage (investigateText alertId alert agent neighbors)
  | agentPosture agentId, message => ∃ agent alerts vulns,
    message = makeUserMessage (postureText agentId agent alerts vulns)

/-- The prompt returns its message. -/
def PromptName.Returned (name : PromptName) (out : Except Exn Json) : Prop :=
  ∃ message, name.Message message ∧ out = .ok message

/-- What was asked for is returned. -/
def Access.Returned : Access → Except Exn McpResult → Prop
  | resource _, out => ∃ content, out = .ok (.resource content)
  | prompt name, out => ∃ message, name.Message message ∧ out = .ok (.prompt message)

/-- The audit events of an access, and how it has ended. -/
structure AccessAudited (access : Access) (events : List AuditEvent) (out : Except Exn McpResult) :
    Prop where
  named : ∃ event ∈ events, event.tool = access.tool
  ok_iff : (∃ event ∈ events, event.tool = access.tool ∧ event.outcome = .ok) ↔ access.Returned out
  failed : ¬ access.Returned out →
    (∃ event ∈ events, event.tool = access.tool ∧ event.outcome = .error) ∧
      ∀ event ∈ events, event.tool = access.tool → event.outcome ≠ .ok

/-! ## What the handlers are prepared for -/

/-- The body has the form that the resource is read from: what is picked from it has something to
return, if it is not empty. -/
def Resource.Readable (r : Resource) (body : Json) : Prop :=
  ∃ data, r.pick body = .ok data ∧ (data.truthy = true → Succeeds (r.content data))

/-- The outcome is no error, or one that `except WazuhError` deals with. -/
def Caught {α : Type} (ans : Except Exn α) : Prop := Raises (·.isWazuhError = true) ans

/-- The handler checks the argument. -/
def Access.ArgumentOk : Access → Prop
  | resource uri => uri.resource.valid uri.id = true
  | prompt .triageLastHour => True
  | prompt (.investigateAlert alertId) => 1 ≤ alertId.length ∧ alertId.length ≤ 128
  | prompt (.agentPosture agentId) => 1 ≤ agentId.length ∧ agentId.length ≤ 16

/-- A call came to what the prompt is prepared for. What it fetches besides what it was asked for may
fail with a `WazuhError`. -/
def PromptName.Answered (name : PromptName) : CallEvent → Prop
  | ⟨.acquire _ _, ans⟩ => Succeeds ans
  | ⟨.searchAlerts _, ans⟩ => Succeeds ans
  | ⟨.getAlert _, ans⟩ => ∃ alert, ans = .ok alert ∧ (alert.agent.id.getD "").length ≤ 16
  | ⟨.getAgent _, ans⟩ =>
    match name with
    | agentPosture _ => Succeeds ans
    | _ => Caught ans
  | ⟨.alertsByAgent _, ans⟩ => Caught ans
  | ⟨.listVulnerabilitiesByAgent _, ans⟩ => Caught ans
  | _ => True

/-- A call came to what the handler of the resource is prepared for. -/
def Resource.Answered (r : Resource) : CallEvent → Prop
  | ⟨.acquire _ _, ans⟩ => Succeeds ans
  | ⟨.serverApiGet _ _ _, ans⟩ => Caught ans ∧ ∀ body, ans = .ok body → r.Readable body
  | _ => True

/-- A call came to what the handler is prepared for. -/
def Access.Answered : Access → CallEvent → Prop
  | resource uri => uri.resource.Answered
  | prompt name => name.Answered

/-! ## Messages -/

theorem makeUserMessage_inj {text text' : String} (h : makeUserMessage text = makeUserMessage text') :
    text = text' := by
  simpa [makeUserMessage] using h

theorem getElem?_toList_append {s : String} {i : ℕ} {c : Char} (h : s.toList[i]? = some c) (t : String) :
    (s ++ t).toList[i]? = some c := by
  obtain ⟨hi, -⟩ := List.getElem?_eq_some_iff.mp h
  rw [String.toList_append, List.getElem?_append_left hi, h]

theorem ne_of_getElem? {s t : String} {i : ℕ} {c d : Char} (hs : s.toList[i]? = some c)
    (ht : t.toList[i]? = some d) (hne : c ≠ d) : s ≠ t := by
  rintro rfl
  exact hne (Option.some.inj (hs.symm.trans ht))

theorem triageText_get (result : Rows Alert) : (triageText result).toList[5]? = some 'i' := by
  unfold triageText
  iterate 8 apply getElem?_toList_append
  decide

theorem investigateText_get (alertId : String) (alert : Alert) (agent neighbors : String) :
    (investigateText alertId alert agent neighbors).toList[0]? = some 'I' := by
  unfold investigateText
  iterate 10 apply getElem?_toList_append
  decide

theorem postureText_get (agentId : String) (agent : Agent) (alerts vulns : String) :
    (postureText agentId agent alerts vulns).toList[6]? = some 'p' := by
  unfold postureText
  iterate 9 apply getElem?_toList_append
  decide

/-- A quoted text begins with a quote. -/
theorem reprStr_get (text : String) :
    (Json.reprStr text).toList[0]? = some '"' ∨ (Json.reprStr text).toList[0]? = some '\'' := by
  unfold Json.reprStr
  simp only [String.toList_ofList]
  split
  · exact .inl rfl
  · exact .inr rfl

variable {name : PromptName} {session : Session}

theorem not_returned_error (x : Exn) : ¬ name.Returned (.error x) := by
  rintro ⟨_, -, h⟩
  cases h

theorem not_returned_triage (code : SafeCode) : ¬ PromptName.triageLastHour.Returned
    (.ok (makeUserMessage ("Triage fetch failed (" ++ code.text ++ "). Retry or check upstream."))) := by
  rintro ⟨_, ⟨result, rfl⟩, h⟩
  refine ne_of_getElem? (i := 5) (c := 'e') ?_ (triageText_get result) ?_
    (makeUserMessage_inj (Except.ok.inj h))
  · iterate 2 apply getElem?_toList_append
    decide
  · decide

theorem not_returned_investigate (alertId : String) : ¬ (PromptName.investigateAlert alertId).Returned
    (.ok (makeUserMessage
      ("Alert " ++ Json.reprStr alertId ++ " not found. Ask the user for a valid alert id."))) := by
  rintro ⟨_, ⟨alert, agent, neighbors, rfl⟩, h⟩
  refine ne_of_getElem? (i := 0) (c := 'A') ?_ (investigateText_get alertId alert agent neighbors) ?_
    (makeUserMessage_inj (Except.ok.inj h))
  · iterate 2 apply getElem?_toList_append
    decide
  · decide

theorem not_returned_posture (agentId : String) : ¬ (PromptName.agentPosture agentId).Returned
    (.ok (makeUserMessage
      ("Agent " ++ Json.reprStr agentId ++ " not found. Ask the user for a valid agent id."))) := by
  rintro ⟨_, ⟨agent, alerts, vulns, rfl⟩, h⟩
  have htext := makeUserMessage_inj (Except.ok.inj h)
  have hsixth : ("Agent " ++ Json.reprStr agentId).toList[6]? = (Json.reprStr agentId).toList[0]? := by
    rw [String.toList_append, List.getElem?_append_right (by decide)]
    rfl
  rcases reprStr_get agentId with hquote | hquote
  · refine ne_of_getElem? (i := 6) (c := '"') ?_ (postureText_get agentId agent alerts vulns) (by decide) htext
    exact getElem?_toList_append (hsixth.trans hquote) _
  · refine ne_of_getElem? (i := 6) (c := '\'') ?_ (postureText_get agentId agent alerts vulns) (by decide) htext
    exact getElem?_toList_append (hsixth.trans hquote) _

/-! ## Prompts -/

/-- A step of a prompt emits nothing, or an `ok` that names it. -/
def OkStep (tool : String) (ev : CallEvent) : Prop :=
  ∀ event ∈ CallEvent.emitted ev, event.tool = tool ∧ event.outcome = .ok

theorem every_catchWazuh {α : Type} {P : CallEvent → Prop} {p : CallProg α} (h : p.Every P) :
    (CallProg.catchWazuh p).Every P := by
  refine every_bind (every_attempt h) fun out => ?_
  rcases out with (e | e | _ | e | e | e) | a <;> trivial

section Every

variable {tool : String} {α : Type}

/-- A call that emits nothing. -/
theorem every_call {c : Call} {k : c.Result → CallProg α} (hc : ∀ r, CallEvent.emitted ⟨c, r⟩ = [])
    (hk : ∀ r, (k r).Every (OkStep tool)) : (Prog.op c k).Every (OkStep tool) :=
  fun r => ⟨by rw [OkStep, hc]; simp, hk r⟩

theorem every_emit {event : AuditEvent} (htool : event.tool = tool) (hok : event.outcome = .ok) :
    (CallProg.emit event).Every (OkStep tool) := by
  refine fun _ => ⟨?_, trivial⟩
  rintro event' hevent
  obtain rfl : event' = event := by simpa [CallEvent.emitted] using hevent
  exact ⟨htool, hok⟩

theorem every_checked {β : Type} {out : Except Exn β} {p : β → CallProg α}
    (h : ∀ b, (p b).Every (OkStep tool)) : (do let b ← out; p b : CallProg α).Every (OkStep tool) :=
  every_bind (every_ofExcept out) h

theorem every_getAgent (args : GetAgentArgs) : (CallProg.getAgent args).Every (OkStep tool) :=
  every_call (fun _ => rfl) every_ofExcept

theorem every_alertsByAgent (args : AlertsByAgentArgs) :
    (CallProg.alertsByAgent args).Every (OkStep tool) := every_call (fun _ => rfl) every_ofExcept

theorem every_alertContextCalls (agentId : String) :
    (alertContextCalls agentId).Every (OkStep tool) := by
  unfold alertContextCalls
  split
  · trivial
  · refine every_bind ?_ fun agent => every_bind ?_ fun neighbors => trivial
    · exact every_bind (every_catchWazuh (every_checked fun _ => every_getAgent _)) fun _ => trivial
    · exact every_bind (every_catchWazuh (every_checked fun _ => every_alertsByAgent _)) fun _ => trivial

/-- **All that a prompt emits is `ok`.** -/
theorem every_prompt_ok (name : PromptName) (session : Session) :
    (name.calls session).Every (OkStep name.tool) := by
  have hacquire (upstream : Upstream) :
      (CallProg.acquire upstream session.tenantId).Every (OkStep name.tool) :=
    every_call (fun _ => rfl) every_ofExcept
  have hmonotonic : CallProg.monotonic.Every (OkStep name.tool) := every_call (fun _ => rfl) every_ret
  cases name with
  | triageLastHour =>
    refine every_bind (hacquire .indexer) fun _ => every_bind hmonotonic fun started => ?_
    refine every_bind (every_catchWazuh (every_call (fun _ => rfl) every_ofExcept)) fun out => ?_
    cases out with
    | error e => trivial
    | ok result =>
      exact every_bind hmonotonic fun ended => every_bind (every_emit rfl rfl) fun _ => trivial
  | investigateAlert alertId =>
    refine every_bind (hacquire .indexer) fun _ => every_bind (hacquire .serverApi) fun _ => ?_
    refine every_bind hmonotonic fun started => every_bind (every_emit rfl rfl) fun _ => ?_
    refine every_bind (every_catchWazuh (every_checked fun _ =>
      every_call (fun _ => rfl) every_ofExcept)) fun out => ?_
    cases out with
    | error e =>
      simp only
      split <;> trivial
    | ok alert =>
      refine every_bind (every_alertContextCalls _) fun context => every_bind hmonotonic fun ended => ?_
      exact every_bind (every_emit rfl rfl) fun _ => trivial
  | agentPosture agentId =>
    refine every_bind (hacquire .indexer) fun _ => every_bind (hacquire .serverApi) fun _ => ?_
    refine every_bind hmonotonic fun started => ?_
    refine every_bind (every_catchWazuh (every_checked fun _ => every_getAgent _)) fun out => ?_
    cases out with
    | error e =>
      simp only
      split <;> trivial
    | ok agent =>
      refine every_bind ?_ fun alerts => every_bind ?_ fun vulns => every_bind hmonotonic fun ended => ?_
      · exact every_bind (every_catchWazuh (every_checked fun _ => every_alertsByAgent _)) fun _ => trivial
      · exact every_bind (every_catchWazuh (every_checked fun _ =>
          every_call (fun _ => rfl) every_ofExcept)) fun _ => trivial
      · exact every_bind (every_emit rfl rfl) fun _ => trivial

end Every

/-! ### What is returned, and what was emitted -/

/-- An event has been emitted, if the outcome is good. -/
def Shows {α : Type} (G : Except Exn α → Prop) (tr : List CallEvent) (out : Except Exn α) : Prop :=
  G out → ∃ ev ∈ tr, CallEvent.emitted ev ≠ []

section Outcome

variable {α β : Type} {H : CallEvent → Prop} {G : Except Exn α → Prop} {p : CallProg α}

theorem shows_bind {f : β → CallProg α} {q : CallProg β} (hG : ∀ x, ¬ G (.error x))
    (hf : ∀ b, (f b).All (Shows G)) : (q >>= f).All (Shows G) := by
  refine all_bind_right hf (fun tr x h => absurd h (hG x)) fun tr tr' out hout h => ?_
  obtain ⟨ev, hev, hemitted⟩ := hout h
  exact ⟨ev, List.mem_append_right _ hev, hemitted⟩

theorem shows_emit {event : AuditEvent} {f : Unit → CallProg α} :
    (CallProg.emit event >>= f).All (Shows G) :=
  fun _ => all_of_forall _ fun _ _ _ => ⟨_, List.mem_cons_self, by simp [CallEvent.emitted]⟩

theorem never_bind {f : β → CallProg α} {q : CallProg β} (hG : ∀ x, ¬ G (.error x))
    (hf : ∀ b, (f b).All fun _ out => ¬ G out) : (q >>= f).All fun _ out => ¬ G out :=
  all_bind_right hf (fun _ x => hG x) fun _ _ _ h => h

/-- What `except WazuhError` makes of an outcome. -/
def caught : Except Exn α → Except Exn (Except WazuhError α)
  | .ok a => .ok (.ok a)
  | .error (.wazuh e) => .ok (.error e)
  | .error x => .error x

theorem all_catchWazuh {Q : List CallEvent → Except Exn (Except WazuhError α) → Prop} :
    (CallProg.catchWazuh p).All Q ↔ p.All fun tr out => Q tr (caught out) := by
  unfold CallProg.catchWazuh
  rw [all_bind, all_attempt]
  refine all_congr fun tr out => ?_
  rcases out with (e | e | _ | e | e | e) | a <;> simp [caught]

theorem succeeds_caught {out : Except Exn α} : Succeeds (caught out) ↔ Caught out := by
  rcases out with (e | e | _ | e | e | e) | a <;>
    simp [Succeeds, Caught, Raises, caught, Exn.isWazuhError]

theorem found_caught {out : Except Exn α} {P : α → Prop} :
    (∃ a, caught out = .ok (.ok a) ∧ P a) ↔ ∃ a, out = .ok a ∧ P a := by
  rcases out with (e | e | _ | e | e | e) | a <;> simp [caught]

theorem exact_call {c : Call} {k : c.Result → Except Exn α} (h : ∀ r, G (k r) ↔ H ⟨c, r⟩) :
    (Prog.op c fun r => ofExcept (k r)).All (Exact H G) := by
  intro r
  rw [all_ofExcept]
  show G (k r) ↔ ∀ ev ∈ [(⟨c, r⟩ : CallEvent)], H ev
  rw [h]
  simp

/-- What comes after a part that only has to succeed. -/
theorem exact_then {q : CallProg β} {f : β → CallProg α} (hG : ∀ x, ¬ G (.error x))
    (hq : q.All (Exact H Succeeds)) (hf : ∀ b, (f b).All (Exact H G)) : (q >>= f).All (Exact H G) :=
  all_exact_bind hq (fun b _ => hf b) (fun b hb => absurd (succeeds_ok b) hb)
    fun x => iff_of_false (not_succeeds_error x) (hG x)

theorem checked_ok {lo hi : ℕ} {text : String} {f : Sized lo hi → CallProg α}
    (h : lo ≤ text.length ∧ text.length ≤ hi) :
    (do let a ← sizedField lo hi text; f a : CallProg α) = f ⟨text, h⟩ := by
  show ofExcept (sizedField lo hi text) >>= f = f ⟨text, h⟩
  rw [sizedField, dif_pos h]
  rfl

theorem checked_error {lo hi : ℕ} {text : String} {f : Sized lo hi → CallProg α}
    (h : ¬ (lo ≤ text.length ∧ text.length ≤ hi)) :
    (do let a ← sizedField lo hi text; f a : CallProg α) = .raise .validation := by
  show ofExcept (sizedField lo hi text) >>= f = .raise .validation
  rw [sizedField, dif_neg h]
  rfl

end Outcome

theorem shows_prompt (name : PromptName) (session : Session) :
    (name.calls session).All (Shows name.Returned) := by
  cases name with
  | triageLastHour =>
    refine shows_bind not_returned_error fun _ => shows_bind not_returned_error fun started => ?_
    refine shows_bind not_returned_error fun out => ?_
    cases out with
    | error e => exact fun h => absurd h (not_returned_triage e.code)
    | ok result => exact shows_bind not_returned_error fun ended => shows_emit
  | investigateAlert alertId =>
    refine shows_bind not_returned_error fun _ => shows_bind not_returned_error fun _ => ?_
    exact shows_bind not_returned_error fun started => shows_emit
  | agentPosture agentId =>
    refine shows_bind not_returned_error fun _ => shows_bind not_returned_error fun _ => ?_
    refine shows_bind not_returned_error fun started => shows_bind not_returned_error fun out => ?_
    cases out with
    | error e =>
      simp only
      split
      · exact fun h => absurd h (not_returned_posture agentId)
      · exact fun h => absurd h (not_returned_error _)
    | ok agent =>
      refine shows_bind not_returned_error fun alerts => shows_bind not_returned_error fun vulns => ?_
      exact shows_bind not_returned_error fun ended => shows_emit

/-! ### Which answers lead to the message -/

section Exactness

variable {name : PromptName}

theorem exact_acquire (upstream : Upstream) (tenantId : String) :
    (CallProg.acquire upstream tenantId).All (Exact name.Answered Succeeds) :=
  exact_call fun _ => Iff.rfl

theorem exact_monotonic : CallProg.monotonic.All (Exact name.Answered Succeeds) :=
  fun _ => iff_of_true (succeeds_ok _) (by simp [PromptName.Answered])

theorem exact_emit (event : AuditEvent) : (CallProg.emit event).All (Exact name.Answered Succeeds) :=
  fun _ => iff_of_true (succeeds_ok _) (by simp [PromptName.Answered])

/-- The last steps of a prompt, which return its message. -/
theorem exact_finish {message : ℚ → Json} {event : ℚ → AuditEvent}
    (hmessage : ∀ ended, name.Message (message ended)) :
    (do
      let ended ← CallProg.monotonic
      CallProg.emit (event ended)
      return message ended : CallProg Json).All (Exact name.Answered name.Returned) := by
  refine exact_then not_returned_error exact_monotonic fun ended => ?_
  refine exact_then not_returned_error (exact_emit _) fun _ => ?_
  exact exact_nil ⟨_, hmessage ended, rfl⟩

theorem exact_triage (session : Session) :
    (PromptName.triageLastHour.calls session).All
      (Exact PromptName.triageLastHour.Answered PromptName.triageLastHour.Returned) := by
  refine exact_then not_returned_error (exact_acquire _ _) fun _ => ?_
  refine exact_then not_returned_error exact_monotonic fun started => ?_
  refine all_exact_bind (G := fun out => ∃ result, out = .ok (.ok result) ∧ True) ?_ ?_ ?_ ?_
  · rw [all_catchWazuh]
    refine exact_call fun r => found_caught.trans ?_
    simp [PromptName.Answered, Succeeds]
  · rintro _ ⟨result, hresult, -⟩
    obtain rfl := Except.ok.inj hresult
    exact exact_finish fun _ => ⟨result, rfl⟩
  · rintro (e | result) hbad
    · exact not_returned_triage e.code
    · exact absurd ⟨result, rfl, trivial⟩ hbad
  · exact fun x => iff_of_false (by rintro ⟨_, h, -⟩; cases h) (not_returned_error x)

/-- What is shown of something that may be missing. -/
theorem exact_block {α β : Type} {p : CallProg α} {show' : Except WazuhError α → β}
    (hp : p.All (Exact name.Answered Caught)) :
    (do let out ← CallProg.catchWazuh p; return show' out : CallProg β).All
      (Exact name.Answered Succeeds) := by
  refine exact_then not_succeeds_error ?_ fun out => exact_nil (succeeds_ok _)
  rw [all_catchWazuh]
  exact hp.mono fun tr out hout => succeeds_caught.trans hout

theorem exact_alertContextCalls {alertId : String} {agentId : String} (h : agentId.length ≤ 16) :
    (alertContextCalls agentId).All (Exact (PromptName.investigateAlert alertId).Answered Succeeds) := by
  unfold alertContextCalls
  split
  · exact exact_nil (succeeds_ok _)
  · rename_i hne
    have hsized : 1 ≤ agentId.length ∧ agentId.length ≤ 16 :=
      ⟨Nat.one_le_iff_ne_zero.mpr fun hzero => hne (String.length_eq_zero_iff.mp hzero), h⟩
    refine exact_then not_succeeds_error ?_ fun agent => ?_
    · apply exact_block
      rw [checked_ok hsized]
      exact exact_call fun _ => Iff.rfl
    · refine exact_then not_succeeds_error ?_ fun neighbors => exact_nil (succeeds_ok _)
      apply exact_block
      rw [checked_ok hsized]
      exact exact_call fun _ => Iff.rfl

/-- The agent of the alert has an identifier that `GetAgentArgs` rejects. -/
theorem never_alertContextCalls {agentId : String} (h : ¬ agentId.length ≤ 16) :
    (alertContextCalls agentId).All fun _ out => ¬ Succeeds out := by
  unfold alertContextCalls
  split
  · rename_i hempty
    rw [hempty] at h
    exact absurd (Nat.zero_le 16) h
  · unfold agentBlockCalls
    rw [checked_error fun hsized => h hsized.2]
    exact not_succeeds_error _

theorem exact_investigate {alertId : String} (h : 1 ≤ alertId.length ∧ alertId.length ≤ 128)
    (session : Session) :
    ((PromptName.investigateAlert alertId).calls session).All
      (Exact (PromptName.investigateAlert alertId).Answered
        (PromptName.investigateAlert alertId).Returned) := by
  refine exact_then not_returned_error (exact_acquire _ _) fun _ => ?_
  refine exact_then not_returned_error (exact_acquire _ _) fun _ => ?_
  refine exact_then not_returned_error exact_monotonic fun started => ?_
  refine exact_then not_returned_error (exact_emit _) fun _ => ?_
  refine all_exact_bind
    (G := fun out => ∃ alert, out = .ok (.ok alert) ∧ (alert.agent.id.getD "").length ≤ 16) ?_ ?_ ?_ ?_
  · rw [all_catchWazuh, checked_ok h]
    exact exact_call fun r => found_caught
  · rintro _ ⟨alert, halert, hlength⟩
    obtain rfl := Except.ok.inj halert
    refine exact_then not_returned_error (exact_alertContextCalls hlength) fun context => ?_
    exact exact_finish fun _ => ⟨alert, context.1, context.2, rfl⟩
  · rintro (e | alert) hbad
    · simp only
      split
      · exact not_returned_investigate alertId
      · exact not_returned_error _
    · have hlength : ¬ (alert.agent.id.getD "").length ≤ 16 := fun hle => hbad ⟨alert, rfl, hle⟩
      simp only
      rw [all_bind]
      refine (never_alertContextCalls hlength).mono fun tr out hout => ?_
      cases out with
      | error x => exact not_returned_error x
      | ok context => exact absurd (succeeds_ok _) hout
  · exact fun x => iff_of_false (by rintro ⟨_, h, -⟩; cases h) (not_returned_error x)

theorem exact_posture {agentId : String} (h : 1 ≤ agentId.length ∧ agentId.length ≤ 16)
    (session : Session) :
    ((PromptName.agentPosture agentId).calls session).All
      (Exact (PromptName.agentPosture agentId).Answered (PromptName.agentPosture agentId).Returned) := by
  refine exact_then not_returned_error (exact_acquire _ _) fun _ => ?_
  refine exact_then not_returned_error (exact_acquire _ _) fun _ => ?_
  refine exact_then not_returned_error exact_monotonic fun started => ?_
  refine all_exact_bind (G := fun out => ∃ agent, out = .ok (.ok agent) ∧ True) ?_ ?_ ?_ ?_
  · rw [all_catchWazuh, checked_ok h]
    refine exact_call fun r => found_caught.trans ?_
    simp [PromptName.Answered, Succeeds]
  · rintro _ ⟨agent, hagent, -⟩
    obtain rfl := Except.ok.inj hagent
    refine exact_then not_returned_error ?_ fun alerts => exact_then not_returned_error ?_ fun vulns => ?_
    · apply exact_block
      rw [checked_ok h]
      exact exact_call fun _ => Iff.rfl
    · apply exact_block
      rw [checked_ok h]
      exact exact_call fun _ => Iff.rfl
    · exact exact_finish fun _ => ⟨agent, alerts, vulns, rfl⟩
  · rintro (e | agent) hbad
    · simp only
      split
      · exact not_returned_posture agentId
      · exact not_returned_error _
    · exact absurd ⟨agent, rfl, trivial⟩ hbad
  · exact fun x => iff_of_false (by rintro ⟨_, h, -⟩; cases h) (not_returned_error x)

/-- **A prompt returns its message** exactly if its argument is accepted and all calls come to what it is
prepared for. -/
theorem returned_iff (name : PromptName) (session : Session) :
    (name.calls session).All fun tr out =>
      name.Returned out ↔ (Access.prompt name).ArgumentOk ∧ ∀ ev ∈ tr, name.Answered ev := by
  by_cases harg : (Access.prompt name).ArgumentOk
  · have hexact : (name.calls session).All (Exact name.Answered name.Returned) := by
      cases name with
      | triageLastHour => exact exact_triage session
      | investigateAlert alertId => exact exact_investigate harg session
      | agentPosture agentId => exact exact_posture harg session
    exact hexact.mono fun tr out hout => hout.trans (and_iff_right harg).symm
  · have hnever : (name.calls session).All fun _ out => ¬ name.Returned out := by
      cases name with
      | triageLastHour => exact absurd trivial harg
      | investigateAlert alertId =>
        refine never_bind not_returned_error fun _ => never_bind not_returned_error fun _ => ?_
        refine never_bind not_returned_error fun started => never_bind not_returned_error fun _ => ?_
        rw [checked_error harg]
        exact not_returned_error _
      | agentPosture agentId =>
        refine never_bind not_returned_error fun _ => never_bind not_returned_error fun _ => ?_
        refine never_bind not_returned_error fun started => ?_
        rw [checked_error harg]
        exact not_returned_error _
    exact hnever.mono fun tr out hout => iff_of_false hout fun hall => harg hall.1

end Exactness

theorem returned_map {name : PromptName} {out : Except Exn Json} :
    (Access.prompt name).Returned (out.map .prompt) ↔ name.Returned out := by
  unfold Access.Returned PromptName.Returned
  cases out with
  | error x => simp [Except.map]
  | ok message => simp [Except.map]

/-- **A prompt is audited exactly when it returns its message.** -/
theorem prompt_audited_iff_returned (name : PromptName) (session : Session) :
    (name.calls session).All fun tr out =>
      AccessAudited (.prompt name) (tr.flatMap CallEvent.emitted) (out.map .prompt) ↔
        name.Returned out := by
  refine ((every_prompt_ok name session).all.and (shows_prompt name session)).mono ?_
  rintro tr out ⟨hok, hshows⟩
  have hall : ∀ event ∈ tr.flatMap CallEvent.emitted, event.tool = name.tool ∧ event.outcome = .ok := by
    intro event hevent
    obtain ⟨ev, hev, hemitted⟩ := List.mem_flatMap.mp hevent
    exact hok ev hev event hemitted
  rw [← returned_map]
  constructor
  · intro haudited
    by_contra hreturned
    obtain ⟨⟨event, hevent, -, herror⟩, -⟩ := haudited.failed hreturned
    rw [(hall event hevent).2] at herror
    cases herror
  · intro hreturned
    obtain ⟨ev, hev, hemitted⟩ := hshows (returned_map.mp hreturned)
    obtain ⟨event, hevent⟩ := List.exists_mem_of_ne_nil _ hemitted
    have hmem : event ∈ tr.flatMap CallEvent.emitted := List.mem_flatMap.mpr ⟨ev, hev, hevent⟩
    obtain ⟨htool, houtcome⟩ := hall event hmem
    exact ⟨⟨event, hmem, htool⟩, iff_of_true ⟨event, hmem, htool, houtcome⟩ hreturned,
      fun hnot => absurd hreturned hnot⟩

/-! ## Resources -/

section Single

variable {access : Access} {event : AuditEvent} {out : Except Exn McpResult}

theorem not_audited_nil : ¬ AccessAudited access [] out := by
  rintro ⟨⟨_, h, -⟩, -, -⟩
  cases h

theorem audited_ok (htool : event.tool = access.tool) (hok : event.outcome = .ok) :
    AccessAudited access [event] out ↔ access.Returned out := by
  constructor
  · exact fun h => h.ok_iff.mp ⟨event, List.mem_singleton_self _, htool, hok⟩
  · intro h
    exact ⟨⟨event, List.mem_singleton_self _, htool⟩,
      iff_of_true ⟨event, List.mem_singleton_self _, htool, hok⟩ h, fun hnot => absurd h hnot⟩

theorem audited_error (htool : event.tool = access.tool) (herror : event.outcome = .error)
    (h : ¬ access.Returned out) : AccessAudited access [event] out := by
  have hnone : ∀ event' ∈ [event], event'.tool = access.tool → event'.outcome ≠ .ok := by
    rintro event' hmem -
    rw [List.mem_singleton.mp hmem, herror]
    exact nofun
  refine ⟨⟨event, List.mem_singleton_self _, htool⟩, iff_of_false ?_ h, fun _ => ⟨?_, hnone⟩⟩
  · rintro ⟨event', hmem, htool', hok⟩
    exact hnone event' hmem htool' hok
  · exact ⟨event, List.mem_singleton_self _, htool, herror⟩

end Single

/-- The audit of a resource read, as it depends on the identifier and the answers. -/
def ResourceLaw (uri : ResourceUri) (tr : List CallEvent) (out : Except Exn ResourceContent) : Prop :=
  AccessAudited (.resource uri) (tr.flatMap CallEvent.emitted) (out.map .resource) ↔
    (Access.resource uri).ArgumentOk ∧ ∀ ev ∈ tr, uri.resource.Answered ev

theorem not_returned_resource (uri : ResourceUri) (x : Exn) :
    ¬ (Access.resource uri).Returned ((.error x : Except Exn ResourceContent).map .resource) := by
  rintro ⟨_, h⟩
  cases h

variable {uri : ResourceUri}

/-- Nothing is emitted where the handler is not prepared for something. -/
theorem resourceLaw_silent {tr : List CallEvent} {out : Except Exn ResourceContent}
    (hsilent : tr.flatMap CallEvent.emitted = [])
    (h : ¬ ((Access.resource uri).ArgumentOk ∧ ∀ ev ∈ tr, uri.resource.Answered ev)) :
    ResourceLaw uri tr out := by
  rw [ResourceLaw, hsilent]
  exact iff_of_false not_audited_nil h

/-- The request of a resource read, and its answer. -/
def ResourceUri.got (uri : ResourceUri) (session : Session) (ans : Except Exn Json) : CallEvent :=
  ⟨.serverApiGet (uri.resource.path uri.id) (uri.resource.params uri.id) session.wazuhUser, ans⟩

variable {session : Session}

/-- One event is emitted after the answer. -/
theorem resourceLaw_emitted {ans : Except Exn Json} {event : AuditEvent}
    {out : Except Exn ResourceContent} (hvalid : (Access.resource uri).ArgumentOk)
    (h : AccessAudited (.resource uri) [event] (out.map .resource) ↔
      uri.resource.Answered (uri.got session ans)) :
    ResourceLaw uri [uri.got session ans, ⟨.emit event, ()⟩] out := by
  show AccessAudited (.resource uri) [event] _ ↔ _
  rw [h, and_iff_right hvalid]
  simp [Resource.Answered]

theorem answered_wazuh (e : WazuhError) : uri.resource.Answered (uri.got session (.error (.wazuh e))) :=
  ⟨raises_error rfl, nofun⟩

theorem answered_ok_iff {body : Json} :
    uri.resource.Answered (uri.got session (.ok body)) ↔ uri.resource.Readable body := by
  refine ⟨fun h => h.2 body rfl, fun h => ⟨raises_ok body, fun body' hbody => ?_⟩⟩
  obtain rfl := Except.ok.inj hbody
  exact h

/-- What the handler makes of a body. -/
theorem resourceLaw_body (hvalid : (Access.resource uri).ArgumentOk) (body : Json) :
    (do
      let data ← uri.resource.pick body
      if data.truthy then
        CallProg.emit { session.auditEvent uri.resource.tool [(uri.resource.argName, .str uri.id)] .ok with
          resultCount := 1 }
        let content ← uri.resource.content data
        return ⟨content.dumps, uri.resource.ttlSeconds⟩
      else
        CallProg.emit (session.failureEvent uri.resource.tool [(uri.resource.argName, .str uri.id)]
          (.safe .notFound))
        .raise (.wazuh ⟨.notFound, uri.resource.notFound, 404, none⟩) : CallProg ResourceContent).All
      fun tr out => ResourceLaw uri ([uri.got session (.ok body)] ++ tr) out := by
  show (ofExcept (uri.resource.pick body) >>= _ : CallProg ResourceContent).All _
  refine all_ofExcept_bind (fun data hpick => ?_) fun x hpick => ?_
  · by_cases htruthy : data.truthy = true
    · rw [if_pos htruthy]
      intro _
      show (ofExcept (uri.resource.content data) >>= _ : CallProg ResourceContent).All _
      refine all_ofExcept_bind (fun content hcontent => ?_) fun x hcontent => ?_
      · refine resourceLaw_emitted hvalid ((audited_ok rfl rfl).trans ?_)
        exact iff_of_true ⟨_, rfl⟩ (answered_ok_iff.mpr ⟨data, hpick, fun _ => ⟨content, hcontent⟩⟩)
      · refine resourceLaw_emitted hvalid ((audited_ok rfl rfl).trans ?_)
        refine iff_of_false (not_returned_resource uri x) fun hanswered => ?_
        obtain ⟨data', hpick', hcontent'⟩ := answered_ok_iff.mp hanswered
        obtain rfl := Except.ok.inj (hpick.symm.trans hpick')
        have hsucceeds := hcontent' htruthy
        rw [hcontent] at hsucceeds
        exact not_succeeds_error x hsucceeds
    · rw [if_neg htruthy]
      intro _
      refine resourceLaw_emitted hvalid (iff_of_true ?_ ?_)
      · exact audited_error rfl rfl (not_returned_resource uri _)
      · exact answered_ok_iff.mpr ⟨data, hpick, fun h => absurd h htruthy⟩
  · refine resourceLaw_silent rfl fun h => ?_
    obtain ⟨data, hpick', -⟩ := answered_ok_iff.mp (h.2 _ (List.mem_singleton_self _))
    cases hpick.symm.trans hpick'

theorem resourceLaw_read (uri : ResourceUri) (session : Session) :
    (uri.resource.readCalls session uri.id).All (ResourceLaw uri) := by
  unfold Resource.readCalls
  show (ofExcept (require (uri.resource.valid uri.id)) >>= _ : CallProg ResourceContent).All _
  by_cases hvalid : uri.resource.valid uri.id = true
  swap
  · rw [require, if_neg hvalid]
    exact resourceLaw_silent rfl fun h => hvalid h.1
  rw [require, if_pos hvalid]
  show (CallProg.catchWazuh _ >>= _ : CallProg ResourceContent).All _
  rw [all_bind, all_catchWazuh]
  intro ans
  rw [all_ofExcept]
  have hforeign {x : Exn} (hx : x.isWazuhError = false) :
      ResourceLaw uri [uri.got session (.error x)] (.error x) := by
    refine resourceLaw_silent rfl fun h => ?_
    have hcaught : x.isWazuhError = true := (h.2 _ (List.mem_singleton_self _)).1 x rfl
    rw [hx] at hcaught
    cases hcaught
  rcases ans with (e | e | _ | e | e | e) | body
  · intro _
    show ResourceLaw uri [uri.got session (.error (.wazuh e)), _] _
    refine resourceLaw_emitted hvalid (iff_of_true ?_ (answered_wazuh e))
    exact audited_error rfl rfl (not_returned_resource uri _)
  · exact hforeign rfl
  · exact hforeign rfl
  · exact hforeign rfl
  · exact hforeign rfl
  · exact hforeign rfl
  · exact resourceLaw_body hvalid body

theorem resource_audited_iff (uri : ResourceUri) (session : Session) :
    (uri.calls session).All (ResourceLaw uri) := by
  unfold ResourceUri.calls
  rw [all_bind]
  intro ans
  rw [all_ofExcept]
  cases ans with
  | error x =>
    refine resourceLaw_silent rfl fun h => ?_
    exact not_succeeds_error x (h.2 _ (List.mem_singleton_self _))
  | ok _ =>
    refine (resourceLaw_read uri session).mono fun tr out h => ?_
    unfold ResourceLaw at h ⊢
    rw [List.flatMap_append, List.forall_mem_append]
    refine h.trans (and_congr_right fun _ => (and_iff_right ?_).symm)
    intro ev hev
    rw [List.mem_singleton.mp hev]
    exact succeeds_ok ()

/-! ## Accesses -/

/-- **An access is audited** exactly if its argument passes the handler's check and all calls come to
what the handler is prepared for. -/
theorem access_audited_iff (access : Access) (session : Session) :
    (access.calls session).All fun tr out =>
      AccessAudited access (tr.flatMap CallEvent.emitted) out ↔
        access.ArgumentOk ∧ ∀ ev ∈ tr, access.Answered ev := by
  cases access with
  | resource uri =>
    show (McpResult.resource <$> uri.calls session).All _
    rw [all_map]
    exact resource_audited_iff uri session
  | prompt name =>
    show (McpResult.prompt <$> name.calls session).All _
    rw [all_map]
    refine ((prompt_audited_iff_returned name session).and (returned_iff name session)).mono ?_
    rintro tr out ⟨haudited, hreturned⟩
    exact haudited.trans hreturned

/-- The indexer is too slow for `triage_last_hour`, which says so and emits nothing. -/
theorem not_audited_of_timeout :
    let session : Session := ⟨"alice", "acme", "admin", .oauth, none⟩
    ¬ ((Access.prompt .triageLastHour).calls session).All fun tr out =>
      AccessAudited (.prompt .triageLastHour) (tr.flatMap CallEvent.emitted) out := by
  intro session hall
  have h := hall.run fun
    | .searchAlerts _ => .error (.wazuh ⟨.upstreamTimeout, "upstream request timed out", 504, none⟩)
    | .acquire _ _ => .ok ()
    | .serverApiGet _ _ _ => .error .lookupError
    | .getAlert _ => .error .lookupError
    | .getAgent _ => .error .lookupError
    | .alertsByAgent _ => .error .lookupError
    | .listVulnerabilitiesByAgent _ => .error .lookupError
    | .monotonic => (0 : ℚ)
    | .emit _ => ()
  exact not_audited_nil h

end WazuhMcp
