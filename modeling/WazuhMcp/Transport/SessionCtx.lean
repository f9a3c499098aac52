import WazuhMcp.Auth.Session
import WazuhMcp.Foundations.Runs

/-!
# The session of a request

`CURRENT_SESSION` is a context variable. The middleware sets it in the task of a request and resets
it when the response is there; in between, `call_next` runs the MCP endpoint in a task of its own.
The endpoint does not handle a message itself: the manager of the streamable transport starts one
server task for each MCP session id, from within the first request of that session, and the server
task spawns a task for each message it is handed. So the handler of a message has a copy of the
context of whichever request opened the MCP session, and `current_session()` returns the session of
that request.

`sessionBound_iff`: in a run, every handler sees the session of the request it serves exactly when
every message is handled in an MCP session that was opened with the same session.
-/

namespace WazuhMcp.Transport

/-- The tasks of the server. -/
inductive TaskId where
  /-- the middleware's `dispatch` of a request -/
  | request (r : ℕ)
  /-- the endpoint, run by `call_next` -/
  | endpoint (r : ℕ)
  /-- the server of an MCP session id -/
  | server (mcpSession : String)
  /-- the handler of the message of a request -/
  | handler (r : ℕ)
  deriving DecidableEq

/-- The state of the transport: for each request, by its number, the session that the factory has
built from its Authorization header, the value `CURRENT_SESSION` is to be reset to, and the MCP
session its message went to; for each MCP session id, the request that opened it. -/
structure TransportState where
  currentSession : Contexts TaskId Session
  built : ℕ → Option Session
  token : ℕ → Option Session
  mcpSession : ℕ → Option String
  opener : String → Option ℕ
  /-- what `current_session()` returned, handler by handler -/
  observed : List (ℕ × Option Session)

/-- The state before the first request. -/
def TransportState.init : TransportState where
  currentSession := .unset
  built := fun _ => none
  token := fun _ => none
  mcpSession := fun _ => none
  opener := fun _ => none
  observed := []

/-- The steps of the transport. -/
inductive TransportAction where
  /-- the factory returns a session for the request, and `dispatch` goes on to `call_next` -/
  | authenticated (r : ℕ) (session : Session)
  /-- the endpoint hands the request's message to the server of an MCP session id -/
  | deliver (r : ℕ) (mcpSession : String)
  /-- the server spawns the handler of the message, which asks for its session -/
  | handle (r : ℕ)
  /-- `dispatch` leaves its `try` block -/
  | finish (r : ℕ)
  deriving DecidableEq

namespace TransportState

/-- `set_current_session(session)` in the task of the request, and `call_next` from it. -/
def authenticated (st : TransportState) (r : ℕ) (session : Session) : TransportState :=
  match st.built r with
  | some _ => st
  | none =>
    { st with
      built := Function.update st.built r (some session)
      token := Function.update st.token r (st.currentSession (.request r))
      currentSession := (st.currentSession.assign (.request r) (some session)).spawn
        (.endpoint r) (.request r) }

/-- The first message of an MCP session starts its server, from within the request it came with. -/
def deliver (st : TransportState) (r : ℕ) (mcpSession : String) : TransportState :=
  match st.built r, st.mcpSession r, st.opener mcpSession with
  | none, _, _ => st
  | _, some _, _ => st
  | some _, none, some _ =>
    { st with mcpSession := Function.update st.mcpSession r (some mcpSession) }
  | some _, none, none =>
    { st with
      mcpSession := Function.update st.mcpSession r (some mcpSession)
      opener := Function.update st.opener mcpSession (some r)
      currentSession := st.currentSession.spawn (.server mcpSession) (.endpoint r) }

/-- The server of the message's MCP session spawns its handler, which calls `current_session()`. -/
def handle (st : TransportState) (r : ℕ) : TransportState :=
  match st.mcpSession r with
  | none => st
  | some mcpSession =>
    let contexts := st.currentSession.spawn (.handler r) (.server mcpSession)
    { st with
      currentSession := contexts
      observed := st.observed ++ [(r, contexts (.handler r))] }

/-- `CURRENT_SESSION.reset(token)` in the task of the request. -/
def finish (st : TransportState) (r : ℕ) : TransportState :=
  match st.built r with
  | none => st
  | some _ => { st with currentSession := st.currentSession.assign (.request r) (st.token r) }

/-- One step; a step that is not enabled changes nothing. -/
def step (st : TransportState) : TransportAction → TransportState
  | .authenticated r session => st.authenticated r session
  | .deliver r mcpSession => st.deliver r mcpSession
  | .handle r => st.handle r
  | .finish r => st.finish r

/-! ## What the contexts hold -/

/-- The endpoint of a request has its session in its context, and the server of an MCP session has
the session of the request that opened it. -/
structure Inv (st : TransportState) : Prop where
  endpoint : ∀ r s, st.built r = some s → st.currentSession (.endpoint r) = some s
  server : ∀ m o, st.opener m = some o →
    (st.built o).isSome ∧ st.currentSession (.server m) = st.built o
  delivered : ∀ r m, st.mcpSession r = some m → (st.built r).isSome ∧ (st.opener m).isSome
  observed : ∀ rs ∈ st.observed, (st.built rs.1).isSome

theorem inv_init : init.Inv where
  endpoint := by simp [init]
  server := by simp [init]
  delivered := by simp [init]
  observed := by simp [init]

variable {st : TransportState}

theorem Inv.authenticated (h : st.Inv) (r : ℕ) (session : Session) :
    (st.authenticated r session).Inv := by
  rw [TransportState.authenticated]
  split
  · exact h
  · rename_i hnone
    have hbuilt {o : ℕ} (ho : (st.built o).isSome) :
        Function.update st.built r (some session) o = st.built o := by
      refine Function.update_of_ne ?_ _ _
      rintro rfl
      simp [hnone] at ho
    refine ⟨fun r' s hs => ?_, fun m o hm => ?_, fun r' m hm => ?_, fun rs hrs => ?_⟩
    · by_cases hr : r' = r
      · subst hr
        simpa using hs
      · simp only [Function.update_of_ne hr] at hs
        simpa [hr] using h.endpoint r' s hs
    · obtain ⟨ho, hctx⟩ := h.server m o hm
      simpa [hbuilt ho, ho] using hctx
    · obtain ⟨hr, hopen⟩ := h.delivered r' m hm
      simpa [hbuilt hr, hr] using hopen
    · simpa [hbuilt (h.observed rs hrs)] using h.observed rs hrs

theorem Inv.deliver (h : st.Inv) (r : ℕ) (mcpSession : String) :
    (st.deliver r mcpSession).Inv := by
  rw [TransportState.deliver]
  split
  · exact h
  · exact h
  · rename_i s o hbuilt hnone hopener
    refine ⟨h.endpoint, h.server, fun r' m hm => ?_, h.observed⟩
    by_cases hr : r' = r
    · subst hr
      obtain rfl : mcpSession = m := by simpa using hm
      simp [hbuilt, hopener]
    · exact h.delivered r' m (by simpa [hr] using hm)
  · rename_i s hbuilt hnone hopener
    have hopen {m : String} (hm : (st.opener m).isSome) :
        Function.update st.opener mcpSession (some r) m = st.opener m := by
      refine Function.update_of_ne ?_ _ _
      rintro rfl
      simp [hopener] at hm
    refine ⟨fun r' s hs => by simpa using h.endpoint r' s hs, fun m o hm => ?_, fun r' m hm => ?_,
      h.observed⟩
    · by_cases hmcp : m = mcpSession
      · subst hmcp
        obtain rfl : r = o := by simpa using hm
        simp [hbuilt, h.endpoint r s hbuilt]
      · simpa [hmcp] using h.server m o (by simpa [hmcp] using hm)
    · by_cases hr : r' = r
      · subst hr
        obtain rfl : mcpSession = m := by simpa using hm
        simp [hbuilt]
      · obtain ⟨hb, ho⟩ := h.delivered r' m (by simpa [hr] using hm)
        exact ⟨hb, by simpa [hopen ho] using ho⟩

theorem Inv.handle (h : st.Inv) (r : ℕ) : (st.handle r).Inv := by
  rw [TransportState.handle]
  split
  · exact h
  · rename_i m hm
    refine ⟨fun r' s hs => by simpa using h.endpoint r' s hs,
      fun m' o hm' => by simpa using h.server m' o hm', h.delivered, fun rs hrs => ?_⟩
    rcases List.mem_append.mp hrs with hrs | hrs
    · exact h.observed rs hrs
    · obtain rfl := List.mem_singleton.mp hrs
      exact (h.delivered r m hm).1

theorem Inv.finish (h : st.Inv) (r : ℕ) : (st.finish r).Inv := by
  rw [TransportState.finish]
  split
  · exact h
  · exact ⟨fun r' s hs => by simpa using h.endpoint r' s hs,
      fun m o hm => by simpa using h.server m o hm, h.delivered, h.observed⟩

theorem Inv.step (h : st.Inv) (a : TransportAction) : (st.step a).Inv := by
  cases a with
  | authenticated r session => exact h.authenticated r session
  | deliver r mcpSession => exact h.deliver r mcpSession
  | handle r => exact h.handle r
  | finish r => exact h.finish r

/-! ## The session that a handler sees -/

/-- Every handler has seen the session that the factory built from its own request. -/
def SessionBound (st : TransportState) : Prop :=
  ∀ rs ∈ st.observed, ∃ s, rs.2 = some s ∧ st.built rs.1 = some s

/-- The message about to be handled came with the session of the request that opened its MCP
session. -/
def OpenedWithSameSession (st : TransportState) : TransportAction → Prop
  | .handle r => ∀ m o, st.mcpSession r = some m → st.opener m = some o → st.built r = st.built o
  | _ => True

/-- A step other than a handler's leaves the law as it was. -/
theorem sessionBound_congr {st' : TransportState} (hobs : st'.observed = st.observed)
    (hbuilt : ∀ rs ∈ st.observed, st'.built rs.1 = st.built rs.1) :
    st'.SessionBound ↔ st.SessionBound := by
  simp only [SessionBound, hobs]
  exact forall₂_congr fun rs hrs => by rw [hbuilt rs hrs]

theorem sessionBound_handle (h : st.Inv) (r : ℕ) :
    (st.handle r).SessionBound ↔ st.SessionBound ∧ st.OpenedWithSameSession (.handle r) := by
  rw [TransportState.handle]
  split
  · rename_i hm
    simp [OpenedWithSameSession, hm]
  · rename_i m hm
    obtain ⟨hbuilt, hopen⟩ := h.delivered r m hm
    obtain ⟨s, hs⟩ := Option.isSome_iff_exists.mp hbuilt
    obtain ⟨o, ho⟩ := Option.isSome_iff_exists.mp hopen
    obtain ⟨-, hctx⟩ := h.server m o ho
    simp only [SessionBound, OpenedWithSameSession, List.mem_append, List.mem_singleton, hm,
      or_imp, forall_and, forall_eq, Contexts.spawn_self, hctx, hs, Option.some.injEq]
    refine and_congr_right fun _ => ?_
    constructor
    · rintro ⟨s', ho', rfl⟩ _ o' rfl hopen'
      obtain rfl : o = o' := Option.some.inj (ho.symm.trans hopen')
      exact ho'.symm
    · intro h'
      exact ⟨s, (h' m o rfl ho).symm, rfl⟩

/-- One step keeps the law exactly when it handles no message of another session. -/
theorem sessionBound_step (h : st.Inv) (a : TransportAction) :
    (st.step a).SessionBound ↔ st.SessionBound ∧ st.OpenedWithSameSession a := by
  cases a with
  | authenticated r session =>
    refine Iff.trans ?_ (and_iff_left trivial).symm
    rw [TransportState.step, TransportState.authenticated]
    split
    · exact Iff.rfl
    · rename_i hnone
      refine sessionBound_congr rfl fun rs hrs => Function.update_of_ne ?_ _ _
      intro hr
      have := h.observed rs hrs
      simp [hr, hnone] at this
  | deliver r mcpSession =>
    refine Iff.trans ?_ (and_iff_left trivial).symm
    rw [TransportState.step, TransportState.deliver]
    split <;> exact sessionBound_congr rfl fun _ _ => rfl
  | handle r => exact sessionBound_handle h r
  | finish r =>
    refine Iff.trans ?_ (and_iff_left trivial).symm
    rw [TransportState.step, TransportState.finish]
    split <;> exact sessionBound_congr rfl fun _ _ => rfl

end TransportState

open TransportState in
/-- **Every handler sees the session of its own request** exactly when every message is handled in
an MCP session opened by a request with that same session. -/
theorem sessionBound_iff (acts : List TransportAction) :
    (Runs.exec step .init acts).SessionBound ↔
      Runs.EachStep step OpenedWithSameSession .init acts := by
  refine Runs.exec_iff_eachStep ?_ fun pre a => sessionBound_step ?_ a
  · simp [SessionBound, TransportState.init]
  · exact Runs.exec_invariant inv_init (fun st a h => h.step a) pre

/-- Alice opens an MCP session and Bob, with a token of his own, sends a message in it: its handler
runs as Alice. -/
theorem sessionBound_fails_on_shared_session :
    ¬ ∀ acts : List TransportAction, (Runs.exec TransportState.step .init acts).SessionBound := by
  intro h
  let alice : Session :=
    { userId := "alice", tenantId := "acme", rbacRole := "admin", authMethod := .oauth }
  let bob : Session :=
    { userId := "bob", tenantId := "beta", rbacRole := "readonly", authMethod := .oauth }
  obtain ⟨s, hseen, hbuilt⟩ := h
    [.authenticated 0 alice, .deliver 0 "m", .finish 0, .authenticated 1 bob, .deliver 1 "m",
      .handle 1] (1, some alice) (by decide)
  have hbob : some bob = some s := hbuilt
  rw [← hseen] at hbob
  exact absurd hbob (by decide)

end WazuhMcp.Transport
