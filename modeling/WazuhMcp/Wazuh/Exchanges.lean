import WazuhMcp.Wazuh.ServerApi

/-!
# How a call of the Server API client ends

A call sends the request it was built for at the end of its run, if it gets so far. Before that it sends
requests for a token and, where the token was stale, the same request once more, which the service
refused. A call that returns returns the body of the response to that last request (`all_exchange`).
-/

namespace WazuhMcp.ServerApiClient

open Interact

/-- The status of the response to a request. -/
def responseStatus (ev : UpEvent) : Option ℕ :=
  match ev with
  | ⟨.send _, .ok resp⟩ => some resp.statusCode
  | _ => none

/-- The service refuses the token of a request. -/
def Refused (ev : UpEvent) : Prop := responseStatus ev = some 401

instance (ev : UpEvent) : Decidable (Refused ev) := inferInstanceAs (Decidable (_ = _))

/-- What a call does before its last request: each request is for a token, or is its own and refused. -/
def Prepares (build : String → UpRequest) (tr : List UpEvent) : Prop :=
  ∀ ev ∈ tr, ∀ req, ev.op = .send req → req = mintRequest ∨ (∃ jwt, req = build jwt) ∧ Refused ev

/-- A run that ends with a request of the call, whose response is read if the call returns. -/
def Replies (build : String → UpRequest) (tr : List UpEvent) (out : Except Exn Json) : Prop :=
  ∃ init jwt ans, tr = init ++ [⟨.send (build jwt), ans⟩] ∧ Prepares build init ∧
    ∀ body, out = .ok body → ∃ resp, ans = .ok resp ∧ resp.statusCode < 400 ∧ resp.json = .ok body

/-- The two ends of a call: it fails before its last request, or comes to it. -/
def Exchanged (build : String → UpRequest) (tr : List UpEvent) (out : Except Exn Json) : Prop :=
  (∃ x, out = .error x) ∧ Prepares build tr ∨ Replies build tr out

variable {build : String → UpRequest}

theorem prepares_append {tr tr' : List UpEvent} (h : Prepares build tr) (h' : Prepares build tr') :
    Prepares build (tr ++ tr') := by
  intro ev hev
  rcases List.mem_append.mp hev with hev | hev
  · exact h ev hev
  · exact h' ev hev

/-- A step that asks for a token only. -/
theorem prepares_of_mints {α : Type} {p : UpProg α} (h : p.Sends (· = mintRequest)) :
    p.All fun tr _ => Prepares build tr :=
  (Prog.Every.all h).mono fun _ _ htr ev hev req hop => .inl (htr ev hev req hop)

/-- What a call makes of the response that it keeps. -/
def settle (resp : UpResponse) : UpProg Json :=
  if 400 ≤ resp.statusCode then .raise (.wazuh (mapHttpError resp.statusCode))
  else Prog.ofExcept (rethrow resp.json)

theorem all_settle (resp : UpResponse) :
    (settle resp).All fun tr out => tr = [] ∧
      ∀ body, out = .ok body → resp.statusCode < 400 ∧ resp.json = .ok body := by
  rw [settle]
  split
  · exact ⟨rfl, fun body h => nomatch h⟩
  · rename_i hstatus
    rw [Prog.all_ofExcept]
    refine ⟨rfl, fun body h => ⟨not_le.mp hstatus, ?_⟩⟩
    cases hjson : resp.json with
    | ok json =>
      rw [hjson] at h
      exact congrArg _ (Except.ok.inj h)
    | error x =>
      rw [hjson] at h
      cases h

/-- The last request of a call, and what is made of its response. -/
theorem all_send_settle {init : List UpEvent} (hinit : Prepares build init) (jwt : String) :
    (send (build jwt) >>= settle).All fun tr out => Replies build (init ++ tr) out := by
  rw [Prog.all_bind]
  intro ans
  cases ans with
  | error x => exact ⟨init, jwt, _, rfl, hinit, fun body h => nomatch h⟩
  | ok resp =>
    refine (all_settle resp).mono fun tr out hout => ?_
    obtain ⟨rfl, hbody⟩ := hout
    exact ⟨init, jwt, _, rfl, hinit, fun body h => ⟨resp, rfl, hbody body h⟩⟩

/-- A request that is refused for its token prepares for the next. -/
theorem prepares_refused {jwt : String} {resp : UpResponse} (h : resp.statusCode = 401) :
    Prepares build [⟨.send (build jwt), .ok resp⟩] := by
  intro ev hev req hop
  obtain rfl := List.mem_singleton.mp hev
  exact .inr ⟨⟨jwt, (UpOp.send.inj hop).symm⟩, congrArg some h⟩

/-- **How a call ends**: before its last request, or with it. -/
theorem all_exchange (build : String → UpRequest) : (exchange build).All (Exchanged build) := by
  have hensure : ensureJwt.All fun tr _ => Prepares build tr := prepares_of_mints sends_ensureJwt
  have hforce : refreshJwtForce.All fun tr _ => Prepares build tr :=
    prepares_of_mints sends_refreshJwtForce
  refine (Prog.all_bind _ _ _).mpr (hensure.mono fun tr out htr => ?_)
  cases out with
  | error x => exact .inl ⟨⟨x, rfl⟩, htr⟩
  | ok token =>
    refine (Prog.all_bind _ _ _).mpr fun ans => ?_
    cases ans with
    | error x => exact .inr ⟨tr, token, _, rfl, htr, fun body h => nomatch h⟩
    | ok resp =>
      refine (Prog.all_bind _ _ _).mpr ?_
      rw [replay]
      split
      · -- the token is refused: a new one is minted, and the request sent again
        rename_i hstatus
        have hrefused : Prepares build (tr ++ [⟨.send (build token), .ok resp⟩]) :=
          prepares_append htr (prepares_refused hstatus)
        refine (Prog.all_bind _ _ _).mpr (hforce.mono fun tr' out htr' => ?_)
        have hinit := prepares_append hrefused htr'
        cases out with
        | error x =>
          refine .inl ⟨⟨x, rfl⟩, ?_⟩
          simpa using hinit
        | ok token' =>
          refine ((Prog.all_bind _ _ _).mp (all_send_settle hinit token')).mono fun tr'' out h => ?_
          cases out with
          | error x => exact .inr (by simpa using h)
          | ok resp' =>
            refine Prog.All.mono h fun tr₃ out h => .inr ?_
            simpa using h
      · refine (all_settle resp).mono fun tr' out hout => ?_
        obtain ⟨rfl, hbody⟩ := hout
        exact .inr ⟨tr, token, _, rfl, htr, fun body h => ⟨resp, rfl, hbody body h⟩⟩

/-- A call with a fresh token to a service that answers it. -/
theorem run_exchange {env : ∀ op : UpOp, op.Result} {jwt : String} {status : ℕ} {body : Json}
    (hlock : env .lock = .ok ()) (htoken : env .freshToken = some jwt)
    (hsend : env (.send (build jwt)) = .ok ⟨status, .ok body⟩) (hstatus : status < 400) :
    (exchange build).run env = ([⟨.lock, .ok ()⟩, ⟨.freshToken, some jwt⟩,
      ⟨.send (build jwt), .ok ⟨status, .ok body⟩⟩], .ok body) := by
  have hensure : ensureJwt.run env = ([⟨.lock, .ok ()⟩, ⟨.freshToken, some jwt⟩], .ok jwt) := by
    rw [ensureJwt, Prog.run_bind]
    simp [UpProg.lock, Prog.run, hlock, htoken, rethrow, Prog.ofExcept]
  have hsent : (send (build jwt)).run env =
      ([⟨.send (build jwt), .ok ⟨status, .ok body⟩⟩], .ok ⟨status, .ok body⟩) := by
    simp [send, Prog.run, hsend]
  have hkept : status ≠ 401 := by omega
  have hok : ¬ 400 ≤ status := by omega
  rw [exchange, Prog.run_bind, hensure]
  simp [Prog.run_bind, hsent, replay, hkept, hok, rethrow, Prog.ofExcept, Prog.run]

/-- The services at their best, with a token in the cache and one response to every request. -/
def answeringEnv (jwt : String) (resp : UpResponse) : ∀ op : UpOp, op.Result
  | .freshToken => some jwt
  | .send _ => .ok resp
  | op => servingEnv op

/-- **What a call sends**: a property that token requests have is one of every request of the call exactly
if it is one of the request that the call was built for. -/
theorem sends_exchange_bind_iff {α : Type} {P : UpRequest → Prop} {f : Json → UpProg α}
    (hmint : P mintRequest) (hf : ∀ resp, (f resp).Sends P) :
    (exchange build >>= f).Sends P ↔ ∀ jwt, P (build jwt) := by
  constructor
  · intro h jwt
    let env := answeringEnv jwt ⟨200, .ok (.obj [])⟩
    have hsent : (⟨.send (build jwt), .ok ⟨200, .ok (.obj [])⟩⟩ : UpEvent) ∈
        ((exchange build >>= f).run env).1 := by
      rw [Prog.run_bind, run_exchange rfl rfl rfl (by decide)]
      simp
    exact h.run env _ hsent _ rfl
  · intro h
    exact UpProg.sends_bind (sends_exchange hmint h) hf

end WazuhMcp.ServerApiClient
