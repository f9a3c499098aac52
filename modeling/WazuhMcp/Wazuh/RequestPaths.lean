import WazuhMcp.Foundations.Observe
import WazuhMcp.Wazuh.ServerApi

/-!
# The two request paths of the Server API client

`_request` and `put_raw` each hold their own copy of the loop that sends a request, mints a token on a
401 response and sends the request again. `requestSteps` and `putRawSteps` are these copies, statement
by statement; they are what `request` and `putRaw` come to.

* Both copies are the same to an observer who sees everything but the method and the body of the
  request they are asked to send (`requestSteps_same`).
* A run of either is one of four (`CallRun`), which says what is sent, when it is sent again, and what
  the call comes to (`SafeReplay`).
-/

namespace WazuhMcp.ServerApiClient

open Interact

/-! ## The copies -/

/-- `_request(method, path, params=..., json=..., run_as=...)`, statement by statement. -/
def requestSteps (method path : String) (params : JsonObject) (json : Option Json)
    (runAs : Option String) : UpProg Json := do
  let token ← ensureJwt
  let effectiveParams := match runAs with
    | none => params
    | some user => Dict.set params "run_as" (.str user)
  let build (jwt : String) : UpRequest :=
    { upstream := .serverApi
      method := method
      path := path
      params := effectiveParams
      payload := json.elim .empty .json
      authorization := .bearer jwt }
  let resp ← send (build token)
  let resp ←
    (if resp.statusCode = 401 then do
      -- retry once: a second 401 surfaces as `auth_expired`
      let token ← refreshJwtForce
      send (build token)
    else
      pure resp : UpProg UpResponse)
  if 400 ≤ resp.statusCode then
    .raise (.wazuh (mapHttpError resp.statusCode))
  else
    Prog.ofExcept (rethrow resp.json)

/-- `put_raw(path, content=..., content_type=..., params=..., run_as=...)`, statement by statement. -/
def putRawSteps (path content contentType : String) (params : JsonObject) (runAs : Option String) :
    UpProg Json := do
  let token ← ensureJwt
  let effectiveParams := match runAs with
    | none => params
    | some user => Dict.set params "run_as" (.str user)
  let build (jwt : String) : UpRequest :=
    { upstream := .serverApi
      method := "PUT"
      path := path
      params := effectiveParams
      payload := .content contentType content
      authorization := .bearer jwt }
  let resp ← send (build token)
  let resp ←
    (if resp.statusCode = 401 then do
      let token ← refreshJwtForce
      send (build token)
    else
      pure resp : UpProg UpResponse)
  if 400 ≤ resp.statusCode then
    .raise (.wazuh (mapHttpError resp.statusCode))
  else
    Prog.ofExcept (rethrow resp.json)

/-- The request that `_request` is asked to send. -/
def requestAsked (method path : String) (params : JsonObject) (json : Option Json)
    (runAs : Option String) (jwt : String) : UpRequest where
  upstream := .serverApi
  method := method
  path := path
  params := effectiveParams params runAs
  payload := json.elim .empty .json
  authorization := .bearer jwt

/-- The request that `put_raw` is asked to send. -/
def putRawAsked (path content contentType : String) (params : JsonObject) (runAs : Option String)
    (jwt : String) : UpRequest where
  upstream := .serverApi
  method := "PUT"
  path := path
  params := effectiveParams params runAs
  payload := .content contentType content
  authorization := .bearer jwt

theorem requestSteps_eq (method path : String) (params : JsonObject) (json : Option Json)
    (runAs : Option String) :
    requestSteps method path params json runAs
      = exchange (requestAsked method path params json runAs) := by
  cases runAs with
  | none => rfl
  | some user => rfl

theorem putRawSteps_eq (path content contentType : String) (params : JsonObject)
    (runAs : Option String) :
    putRawSteps path content contentType params runAs
      = exchange (putRawAsked path content contentType params runAs) := by
  cases runAs with
  | none => rfl
  | some user => rfl

/-- The client's methods go through the first copy. -/
theorem request_eq_requestSteps (method path : String) (params : JsonObject) (json : Option Json)
    (runAs : Option String) :
    request method path params json runAs = requestSteps method path params json runAs :=
  (requestSteps_eq method path params json runAs).symm

/-- The upload of a rule file goes through the second copy. -/
theorem putRaw_eq_putRawSteps (path content contentType : String) (params : JsonObject)
    (runAs : Option String) :
    putRaw path content contentType params runAs = putRawSteps path content contentType params runAs :=
  (putRawSteps_eq path content contentType params runAs).symm

/-! ## What the answers come to -/

/-- The answer to a send, with a timeout mapped. -/
def sent : Except ForeignExn UpResponse → Except Exn UpResponse
  | .ok resp => .ok resp
  | .error x => .error (if x.exn.isTimeout then .wazuh mapTimeout else x.exn)

/-- What the answer to the last send of a call comes to: the body, or the mapped error. -/
def callResult (ans : Except ForeignExn UpResponse) : Except Exn Json := do
  let resp ← sent ans
  if 400 ≤ resp.statusCode then
    .error (.wazuh (mapHttpError resp.statusCode))
  else
    rethrow resp.json

/-- What the answer to a request for a token comes to: the token, or the mapped error. -/
def mintResult (ans : Except ForeignExn UpResponse) : Except Exn String := do
  let resp ← sent ans
  if 400 ≤ resp.statusCode then
    .error (.wazuh (mapHttpError resp.statusCode))
  else
    let body ← rethrow resp.json
    let data ← body.getD "data" (.obj [])
    match ← data.getD "token" .null with
    | .str token => if token = "" then .error (.wazuh (mapHttpError 500)) else .ok token
    | _ => .error (.wazuh (mapHttpError 500))

/-- Whether the answer is a 401 response. -/
def unauthorized : Except ForeignExn UpResponse → Bool
  | .ok resp => resp.statusCode == 401
  | .error _ => false

theorem send_eq (req : UpRequest) : send req = .op (.send req) fun ans => .ofExcept (sent ans) := by
  unfold send
  congr 1
  funext ans
  cases ans with
  | ok resp => rfl
  | error x => rfl

theorem mintLocked_eq :
    mintLocked = .op (.send mintRequest) fun ans =>
      Prog.ofExcept (mintResult ans) >>= fun token => .op (.storeToken token) fun _ => .ret token := by
  rw [mintLocked, send_eq]
  show Prog.op _ _ = _
  congr 1
  funext ans
  cases ans with
  | error x => rfl
  | ok resp =>
    show (if _ then _ else _) = Prog.ofExcept (if _ then _ else _) >>= _
    split
    · rfl
    · cases hbody : rethrow resp.json with
      | error x => rfl
      | ok body =>
        change (Prog.ofExcept (body.getD "data" _) >>= _) = Prog.ofExcept (body.getD "data" _ >>= _) >>= _
        cases hdata : body.getD "data" (.obj []) with
        | error x => rfl
        | ok data =>
          change (Prog.ofExcept (data.getD "token" _) >>= _)
            = Prog.ofExcept (data.getD "token" _ >>= _) >>= _
          cases htoken : data.getD "token" .null with
          | error x => rfl
          | ok token =>
            cases token with
            | str token =>
              show (if _ then _ else _) = Prog.ofExcept (if _ then _ else _) >>= _
              split <;> rfl
            | _ => rfl

/-! ## What a call does -/

/-- A request that carries a token: every request but those for a token. -/
def carriesToken (req : UpRequest) : Bool := req.authorization ≠ .basic

/-- The request with a token that the step sends, with its answer, if it sends one. -/
def callOf : UpEvent → Option (UpRequest × Except ForeignExn UpResponse)
  | ⟨.send req, ans⟩ => if carriesToken req then some (req, ans) else none
  | _ => none

/-- The requests with a token that the trace sends, each with its answer. -/
def calls (tr : List UpEvent) : List (UpRequest × Except ForeignExn UpResponse) :=
  tr.filterMap callOf

@[simp] theorem calls_append (tr tr' : List UpEvent) : calls (tr ++ tr') = calls tr ++ calls tr' :=
  List.filterMap_append

/-- A run of a call that was asked to send `asked jwt` with a token `jwt`. -/
inductive CallRun (asked : String → UpRequest) : List UpEvent → Except Exn Json → Prop where
  /-- there is no token to send the request with -/
  | noToken {tr : List UpEvent} {x : Exn} (htoken : ensureJwt.Runs tr (.error x)) :
      CallRun asked tr (.error x)
  /-- the request is sent, and not answered with 401 -/
  | once {tr : List UpEvent} {jwt : String} {ans : Except ForeignExn UpResponse}
      (htoken : ensureJwt.Runs tr (.ok jwt)) (hans : unauthorized ans = false) :
      CallRun asked (tr ++ [⟨.send (asked jwt), ans⟩]) (callResult ans)
  /-- it is answered with 401, and there is no new token -/
  | notMinted {tr tr' : List UpEvent} {jwt : String} {ans : Except ForeignExn UpResponse} {x : Exn}
      (htoken : ensureJwt.Runs tr (.ok jwt)) (hans : unauthorized ans = true)
      (hmint : refreshJwtForce.Runs tr' (.error x)) :
      CallRun asked (tr ++ ⟨.send (asked jwt), ans⟩ :: tr') (.error x)
  /-- it is answered with 401, and sent again with a new token -/
  | replayed {tr tr' : List UpEvent} {jwt jwt' : String} {ans ans' : Except ForeignExn UpResponse}
      (htoken : ensureJwt.Runs tr (.ok jwt)) (hans : unauthorized ans = true)
      (hmint : refreshJwtForce.Runs tr' (.ok jwt')) :
      CallRun asked (tr ++ ⟨.send (asked jwt), ans⟩ :: (tr' ++ [⟨.send (asked jwt'), ans'⟩]))
        (callResult ans')

theorem runs_ofExcept {α : Type} {out out' : Except Exn α} {tr : List UpEvent} :
    (Prog.ofExcept out : UpProg α).Runs tr out' ↔ tr = [] ∧ out' = out := by
  cases out with
  | ok a => exact Iff.rfl
  | error x => exact Iff.rfl

theorem runs_send {req : UpRequest} {tr : List UpEvent} {out : Except Exn UpResponse} :
    (send req).Runs tr out ↔ ∃ ans, tr = [⟨.send req, ans⟩] ∧ out = sent ans := by
  rw [send_eq]
  constructor
  · rintro ⟨ans, tr', rfl, h⟩
    obtain ⟨rfl, rfl⟩ := runs_ofExcept.mp h
    exact ⟨ans, rfl, rfl⟩
  · rintro ⟨ans, rfl, rfl⟩
    exact ⟨ans, [], rfl, runs_ofExcept.mpr ⟨rfl, rfl⟩⟩

/-- What follows the last send of a call. -/
def conclude (resp : UpResponse) : UpProg Json :=
  if 400 ≤ resp.statusCode then
    .raise (.wazuh (mapHttpError resp.statusCode))
  else
    Prog.ofExcept (rethrow resp.json)

theorem runs_conclude {ans : Except ForeignExn UpResponse} {resp : UpResponse}
    (hans : sent ans = .ok resp) {tr : List UpEvent} {out : Except Exn Json} :
    (conclude resp).Runs tr out ↔ tr = [] ∧ out = callResult ans := by
  have hresult : callResult ans =
      if 400 ≤ resp.statusCode then .error (.wazuh (mapHttpError resp.statusCode))
      else rethrow resp.json := by
    rw [callResult, hans]
    rfl
  rw [conclude, hresult]
  split
  · exact Iff.rfl
  · exact runs_ofExcept

theorem sent_ok {ans : Except ForeignExn UpResponse} {resp : UpResponse} (h : .ok resp = sent ans) :
    ans = .ok resp := by
  cases ans with
  | ok resp' => rw [Except.ok.inj h]
  | error x => cases h

/-- The runs of what follows the first answer. -/
theorem replay_runs {asked : String → UpRequest} {resp : UpResponse} {tr : List UpEvent}
    {out : Except Exn UpResponse} (h : (replay asked resp).Runs tr out) :
    (resp.statusCode ≠ 401 ∧ tr = [] ∧ out = .ok resp) ∨
      (resp.statusCode = 401 ∧ ∃ x, refreshJwtForce.Runs tr (.error x) ∧ out = .error x) ∨
      (resp.statusCode = 401 ∧ ∃ tr' jwt ans, refreshJwtForce.Runs tr' (.ok jwt) ∧
        tr = tr' ++ [⟨.send (asked jwt), ans⟩] ∧ out = sent ans) := by
  rw [replay] at h
  split at h
  · rename_i hstatus
    rcases Prog.runs_bind.mp h with ⟨tr', tr'', jwt, rfl, hmint, h⟩ | ⟨x, rfl, hx⟩
    · obtain ⟨ans, rfl, rfl⟩ := runs_send.mp h
      exact .inr (.inr ⟨hstatus, tr', jwt, ans, hmint, rfl, rfl⟩)
    · exact .inr (.inl ⟨hstatus, x, hx, rfl⟩)
  · rename_i hstatus
    obtain ⟨rfl, rfl⟩ := h
    exact .inl ⟨hstatus, rfl, rfl⟩

/-- **The runs of a call** are of the four kinds. -/
theorem exchange_runs {asked : String → UpRequest} {tr : List UpEvent} {out : Except Exn Json}
    (h : (exchange asked).Runs tr out) : CallRun asked tr out := by
  rcases Prog.runs_bind.mp h with ⟨tr₁, tr₂, jwt, rfl, htoken, hcall⟩ | ⟨x, rfl, hx⟩
  · rcases Prog.runs_bind.mp hcall with ⟨tr₃, tr₄, resp, rfl, hsend, hrest⟩ | ⟨x, rfl, hx⟩
    · obtain ⟨ans, rfl, hans⟩ := runs_send.mp hsend
      obtain rfl := sent_ok hans
      rcases Prog.runs_bind.mp hrest with ⟨tr₅, tr₆, resp', rfl, hreplay, hend⟩ | ⟨x, rfl, hx⟩
      · rcases replay_runs hreplay with ⟨hstatus, rfl, hresp⟩ | ⟨-, x, -, hresp⟩ |
          ⟨hstatus, tr', jwt', ans', hmint, rfl, hresp⟩
        · have hsent : sent (.ok resp) = .ok resp' := hresp.symm
          obtain ⟨rfl, rfl⟩ := (runs_conclude hsent).mp hend
          exact .once htoken (beq_eq_false_iff_ne.mpr hstatus)
        · cases hresp
        · obtain ⟨rfl, rfl⟩ := (runs_conclude hresp.symm).mp hend
          rw [List.append_nil]
          exact .replayed htoken (beq_iff_eq.mpr hstatus) hmint
      · rcases replay_runs hx with ⟨-, -, hresp⟩ | ⟨hstatus, y, hmint, hy⟩ |
          ⟨hstatus, tr', jwt', ans', hmint, rfl, hresp⟩
        · cases hresp
        · cases hy
          exact .notMinted htoken (beq_iff_eq.mpr hstatus) hmint
        · have hresult : .error x = callResult ans' := by rw [callResult, ← hresp]; rfl
          rw [hresult]
          exact .replayed htoken (beq_iff_eq.mpr hstatus) hmint
    · obtain ⟨ans, rfl, hans⟩ := runs_send.mp hx
      have hresult : .error x = callResult ans := by rw [callResult, ← hans]; rfl
      rw [hresult]
      refine .once htoken ?_
      cases ans with
      | ok resp => cases hans
      | error y => rfl
  · exact .noToken hx

/-! ## Tokens -/

/-- The last event of a run, and what the call comes to by it. -/
inductive EndsAs : UpEvent → Except Exn Json → Prop where
  /-- waiting for the lock is cancelled -/
  | lock (x : ForeignExn) : EndsAs ⟨.lock, .error x⟩ (.error x.exn)
  /-- the request for a token fails -/
  | mint {ans : Except ForeignExn UpResponse} {x : Exn} (h : mintResult ans = .error x) :
      EndsAs ⟨.send mintRequest, ans⟩ (.error x)
  /-- the request is answered -/
  | call {req : UpRequest} (h : carriesToken req = true) (ans : Except ForeignExn UpResponse) :
      EndsAs ⟨.send req, ans⟩ (callResult ans)

theorem runs_lock {tr : List UpEvent} {out : Except Exn Unit} :
    UpProg.lock.Runs tr out ↔ ∃ ans : Except ForeignExn Unit, tr = [⟨.lock, ans⟩] ∧ out = rethrow ans := by
  constructor
  · rintro ⟨ans, tr', rfl, h⟩
    obtain ⟨rfl, rfl⟩ := runs_ofExcept.mp h
    exact ⟨ans, rfl, rfl⟩
  · rintro ⟨ans, rfl, rfl⟩
    exact ⟨ans, [], rfl, runs_ofExcept.mpr ⟨rfl, rfl⟩⟩

/-- A mint: one request, and the token is stored if there is one. -/
theorem mintLocked_runs {tr : List UpEvent} {out : Except Exn String} (h : mintLocked.Runs tr out) :
    ∃ ans, out = mintResult ans ∧
      ((∃ x, out = .error x ∧ tr = [⟨.send mintRequest, ans⟩]) ∨
        ∃ jwt, out = .ok jwt ∧ tr = [⟨.send mintRequest, ans⟩, ⟨.storeToken jwt, ()⟩]) := by
  rw [mintLocked_eq] at h
  obtain ⟨ans, tr', rfl, h⟩ := h
  replace h : (Prog.ofExcept (mintResult ans) >>= _).Runs tr' out := h
  refine ⟨ans, ?_⟩
  cases hans : mintResult ans with
  | error x =>
    rw [hans] at h
    obtain ⟨rfl, rfl⟩ := h
    exact ⟨rfl, .inl ⟨x, rfl, rfl⟩⟩
  | ok jwt =>
    rw [hans] at h
    obtain ⟨_, _, rfl, rfl, rfl⟩ := h
    exact ⟨rfl, .inr ⟨jwt, rfl, rfl⟩⟩

/-- A forced mint that succeeds. -/
theorem refreshJwtForce_runs_ok {tr : List UpEvent} {jwt : String}
    (h : refreshJwtForce.Runs tr (.ok jwt)) :
    ∃ ans, mintResult ans = .ok jwt ∧
      tr = [⟨.lock, .ok ()⟩, ⟨.send mintRequest, ans⟩, ⟨.storeToken jwt, ()⟩] := by
  rcases Prog.runs_bind.mp h with ⟨tr₁, tr₂, _, rfl, hlock, hmint⟩ | ⟨x, hx, -⟩
  · obtain ⟨ans, rfl, hans⟩ := runs_lock.mp hlock
    obtain ⟨resp, hresp, ⟨x, hx, -⟩ | ⟨jwt', hjwt, rfl⟩⟩ := mintLocked_runs hmint
    · cases hx
    · cases hjwt
      cases ans with
      | error x => cases hans
      | ok _ => exact ⟨resp, hresp.symm, rfl⟩
  · cases hx

/-- A forced mint that fails. -/
theorem refreshJwtForce_runs_error {tr : List UpEvent} {x : Exn}
    (h : refreshJwtForce.Runs tr (.error x)) : ∃ pre ev, tr = pre ++ [ev] ∧ EndsAs ev (.error x) := by
  rcases Prog.runs_bind.mp h with ⟨tr₁, tr₂, _, rfl, hlock, hmint⟩ | ⟨y, hy, hlock⟩
  · obtain ⟨resp, hresp, ⟨y, hy, rfl⟩ | ⟨jwt, hjwt, -⟩⟩ := mintLocked_runs hmint
    · exact ⟨tr₁, _, rfl, .mint hresp.symm⟩
    · cases hjwt
  · cases hy
    obtain ⟨ans, rfl, hans⟩ := runs_lock.mp hlock
    cases ans with
    | error y =>
      cases hans
      exact ⟨[], _, rfl, .lock y⟩
    | ok _ => cases hans

/-- Looking for a token that fails. -/
theorem ensureJwt_runs_error {tr : List UpEvent} {x : Exn} (h : ensureJwt.Runs tr (.error x)) :
    ∃ pre ev, tr = pre ++ [ev] ∧ EndsAs ev (.error x) := by
  rcases Prog.runs_bind.mp h with ⟨tr₁, tr₂, _, rfl, hlock, token, tr₃, rfl, hmint⟩ | ⟨y, hy, hlock⟩
  · cases token with
    | some jwt => cases hmint.2
    | none =>
      obtain ⟨resp, hresp, ⟨y, hy, rfl⟩ | ⟨jwt, hjwt, -⟩⟩ := mintLocked_runs hmint
      · exact ⟨tr₁ ++ [_], _, by rw [List.append_assoc]; rfl, .mint hresp.symm⟩
      · cases hjwt
  · cases hy
    obtain ⟨ans, rfl, hans⟩ := runs_lock.mp hlock
    cases ans with
    | error y =>
      cases hans
      exact ⟨[], _, rfl, .lock y⟩
    | ok _ => cases hans

/-- Neither looking for a token nor minting one sends a request with a token. -/
theorem calls_eq_nil {tr : List UpEvent} (h : ∀ req ∈ requests tr, req = mintRequest) :
    calls tr = [] := by
  rw [calls, List.filterMap_eq_nil_iff]
  rintro ⟨op, ans⟩ hev
  cases op with
  | send req =>
    have hreq : req = mintRequest := h req (mem_requests.mpr ⟨_, hev, rfl⟩)
    rw [hreq]
    rfl
  | _ => rfl

theorem requests_of_runs {α : Type} {p : UpProg α} {P : UpRequest → Prop} (hp : p.Sends P)
    {tr : List UpEvent} {out : Except Exn α} (h : p.Runs tr out) : ∀ req ∈ requests tr, P req :=
  Prog.all_iff_runs.mp hp.all tr out h

/-! ## Safe replay -/

/-- What a run of a call satisfies that was asked to send `asked jwt` with a token `jwt`. -/
structure SafeReplay (asked : String → UpRequest) (tr : List UpEvent) (out : Except Exn Json) :
    Prop where
  /-- the request goes out at most twice, and nothing else does but requests for a token -/
  sends : ∀ req ∈ requests tr, req = mintRequest ∨ ∃ jwt, req = asked jwt
  at_most_two : (calls tr).length ≤ 2
  /-- when it goes out again, the first was answered with 401, a new token has been minted since, and
  the request differs from the first in that token only -/
  replayed : ∀ pre post req ans, tr = pre ++ ⟨.send req, ans⟩ :: post → carriesToken req = true →
    calls pre ≠ [] → ∃ before first ans₁ mint jwt,
      pre = before ++ [⟨.send first, ans₁⟩, ⟨.lock, .ok ()⟩, ⟨.send mintRequest, mint⟩,
        ⟨.storeToken jwt, ()⟩] ∧ carriesToken first = true ∧ unauthorized ans₁ = true ∧
      mintResult mint = .ok jwt ∧ req = { first with authorization := .bearer jwt }
  /-- the call comes to what its last event does -/
  ended : ∃ pre ev, tr = pre ++ [ev] ∧ EndsAs ev out
  /-- when nothing is executed that is answered with 401, at most one of the sends is executed -/
  executed_once : ∀ executed : ℕ → Prop,
    (∀ i c, (calls tr)[i]? = some c → unauthorized c.2 = true → ¬ executed i) →
    ∀ i j, i < (calls tr).length → j < (calls tr).length → executed i → executed j → i = j

/-- The request varies with its token only. -/
def Carries (asked : String → UpRequest) : Prop :=
  ∀ jwt jwt', asked jwt' = { asked jwt with authorization := .bearer jwt' }

theorem Carries.authorization {asked : String → UpRequest} (h : Carries asked) (jwt : String) :
    (asked jwt).authorization = .bearer jwt := by rw [h jwt jwt]

theorem Carries.carriesToken {asked : String → UpRequest} (h : Carries asked) (jwt : String) :
    carriesToken (asked jwt) = true := by
  rw [ServerApiClient.carriesToken, h.authorization]
  rfl

theorem calls_cons_send {req : UpRequest} (h : carriesToken req = true)
    (ans : Except ForeignExn UpResponse) (tr : List UpEvent) :
    calls (⟨.send req, ans⟩ :: tr) = (req, ans) :: calls tr := by
  have hcall : callOf ⟨.send req, ans⟩ = some (req, ans) := if_pos h
  rw [calls, List.filterMap_cons_some hcall]
  rfl

theorem carries_requestAsked (method path : String) (params : JsonObject) (json : Option Json)
    (runAs : Option String) : Carries (requestAsked method path params json runAs) :=
  fun _ _ => rfl

theorem carries_putRawAsked (path content contentType : String) (params : JsonObject)
    (runAs : Option String) : Carries (putRawAsked path content contentType params runAs) :=
  fun _ _ => rfl

section Run

variable {asked : String → UpRequest} {tr : List UpEvent} {out : Except Exn Json}

theorem calls_ensureJwt {out : Except Exn String} (h : ensureJwt.Runs tr out) : calls tr = [] :=
  calls_eq_nil (requests_of_runs sends_ensureJwt h)

theorem calls_refreshJwtForce {out : Except Exn String} (h : refreshJwtForce.Runs tr out) :
    calls tr = [] := calls_eq_nil (requests_of_runs sends_refreshJwtForce h)

/-- The sends of a run: none, one, or a second after a 401 response to the first. -/
theorem CallRun.calls (hasked : Carries asked) (h : CallRun asked tr out) :
    calls tr = [] ∨ (∃ c, calls tr = [c]) ∨ ∃ c c', calls tr = [c, c'] ∧ unauthorized c.2 = true := by
  cases h with
  | noToken htoken => exact .inl (calls_ensureJwt htoken)
  | @once tr jwt ans htoken hans =>
    refine .inr (.inl ⟨(asked jwt, ans), ?_⟩)
    rw [calls_append, calls_ensureJwt htoken, calls_cons_send (hasked.carriesToken _)]
    rfl
  | @notMinted tr tr' jwt ans x htoken hans hmint =>
    refine .inr (.inl ⟨(asked jwt, ans), ?_⟩)
    rw [calls_append, calls_ensureJwt htoken, calls_cons_send (hasked.carriesToken _),
      calls_refreshJwtForce hmint]
    rfl
  | @replayed tr tr' jwt jwt' ans ans' htoken hans hmint =>
    refine .inr (.inr ⟨(asked jwt, ans), (asked jwt', ans'), ?_, hans⟩)
    rw [calls_append, calls_ensureJwt htoken, calls_cons_send (hasked.carriesToken _), calls_append,
      calls_refreshJwtForce hmint, calls_cons_send (hasked.carriesToken _)]
    rfl

/-- A send before which another went out is the last step of a run that sends twice. -/
theorem CallRun.second (hasked : Carries asked) (h : CallRun asked tr out) {pre post : List UpEvent}
    {req : UpRequest} {ans : Except ForeignExn UpResponse} (htr : tr = pre ++ ⟨.send req, ans⟩ :: post)
    (hreq : carriesToken req = true) (hpre : ServerApiClient.calls pre ≠ []) :
    ∃ before mid jwt jwt' first, ensureJwt.Runs before (.ok jwt) ∧ unauthorized first = true ∧
      refreshJwtForce.Runs mid (.ok jwt') ∧ pre = before ++ ⟨.send (asked jwt), first⟩ :: mid ∧
      req = asked jwt' := by
  have htwo : (ServerApiClient.calls tr).length =
      (ServerApiClient.calls pre).length + (ServerApiClient.calls post).length + 1 := by
    rw [htr, calls_append, calls_cons_send hreq, List.length_append, List.length_cons]
    omega
  have hpos : 0 < (ServerApiClient.calls pre).length := List.length_pos_iff.mpr hpre
  cases h with
  | noToken htoken =>
    rw [calls_ensureJwt htoken, List.length_nil] at htwo
    omega
  | once htoken hans =>
    rw [calls_append, calls_ensureJwt htoken, calls_cons_send (hasked.carriesToken _)] at htwo
    simp only [List.nil_append, List.length_cons] at htwo
    have hnil : (ServerApiClient.calls []).length = 0 := rfl
    omega
  | notMinted htoken hans hmint =>
    rw [calls_append, calls_ensureJwt htoken, calls_cons_send (hasked.carriesToken _),
      calls_refreshJwtForce hmint] at htwo
    simp only [List.nil_append, List.length_cons, List.length_nil] at htwo
    omega
  | @replayed before mid jwt jwt' first ans' htoken hans hmint =>
    rw [calls_append, calls_ensureJwt htoken, calls_cons_send (hasked.carriesToken _), calls_append,
      calls_refreshJwtForce hmint, calls_cons_send (hasked.carriesToken _)] at htwo
    simp only [List.nil_append, List.length_cons] at htwo
    have hnil : (ServerApiClient.calls []).length = 0 := rfl
    have hsplit : (before ++ ⟨.send (asked jwt), first⟩ :: mid) ++ [⟨.send (asked jwt'), ans'⟩]
        = pre ++ ⟨.send req, ans⟩ :: post := by rw [← htr, List.append_assoc]; rfl
    rcases List.eq_nil_or_concat post with rfl | ⟨post', last, rfl⟩
    · obtain ⟨hbefore, hlast⟩ := List.append_inj' hsplit rfl
      cases hlast
      exact ⟨before, mid, jwt, jwt', first, htoken, hans, hmint, hbefore.symm, rfl⟩
    · -- the last step of the run is a send, so nothing comes after the second one
      have hlast : pre ++ ⟨.send req, ans⟩ :: post'.concat last
          = (pre ++ ⟨.send req, ans⟩ :: post') ++ [last] := by simp
      obtain ⟨-, hlast⟩ := List.append_inj' (hsplit.trans hlast) rfl
      cases hlast
      rw [List.concat_eq_append, calls_append, calls_cons_send (hasked.carriesToken _),
        List.length_append, List.length_cons] at htwo
      omega

/-- A run ends with the answer to its request, or before it has one. -/
theorem CallRun.ended (hasked : Carries asked) (h : CallRun asked tr out) :
    ∃ pre ev, tr = pre ++ [ev] ∧ EndsAs ev out := by
  cases h with
  | noToken htoken => exact ensureJwt_runs_error htoken
  | once htoken hans => exact ⟨_, _, rfl, .call (hasked.carriesToken _) _⟩
  | notMinted htoken hans hmint =>
    obtain ⟨pre, ev, rfl, hends⟩ := refreshJwtForce_runs_error hmint
    exact ⟨_, ev, by rw [← List.cons_append, ← List.append_assoc], hends⟩
  | replayed htoken hans hmint =>
    exact ⟨_, _, by rw [← List.cons_append, ← List.append_assoc], .call (hasked.carriesToken _) _⟩

/-- **Every run of a call is a safe replay.** -/
theorem safeReplay_of_runs (hasked : Carries asked) (h : (exchange asked).Runs tr out) :
    SafeReplay asked tr out := by
  have hrun : CallRun asked tr out := exchange_runs h
  have hcalls := hrun.calls hasked
  refine ⟨?_, ?_, ?_, hrun.ended hasked, ?_⟩
  · exact requests_of_runs (sends_exchange (.inl rfl) fun jwt => .inr ⟨jwt, rfl⟩) h
  · rcases hcalls with hcalls | ⟨c, hcalls⟩ | ⟨c, c', hcalls, -⟩ <;> rw [hcalls] <;> simp
  · intro pre post req ans htr hreq hpre
    obtain ⟨before, mid, jwt, jwt', first, -, hans, hmint, rfl, rfl⟩ :=
      hrun.second hasked htr hreq hpre
    obtain ⟨mint, hminted, rfl⟩ := refreshJwtForce_runs_ok hmint
    exact ⟨before, asked jwt, first, mint, jwt', rfl, hasked.carriesToken jwt, hans, hminted,
      hasked jwt jwt'⟩
  · intro executed hexecuted i j hi hj hdone hdone'
    rcases hcalls with hcalls | ⟨c, hcalls⟩ | ⟨c, c', hcalls, hans⟩
    · rw [hcalls] at hi
      exact absurd hi (Nat.not_lt_zero i)
    · rw [hcalls, List.length_singleton] at hi hj
      omega
    · -- the first of the two is answered with 401, so only the second may be executed
      have hfirst : ¬ executed 0 := hexecuted 0 c (by rw [hcalls]; rfl) hans
      rw [hcalls, List.length_cons, List.length_singleton] at hi hj
      have hi0 : i ≠ 0 := by rintro rfl; exact hfirst hdone
      have hj0 : j ≠ 0 := by rintro rfl; exact hfirst hdone'
      omega

end Run

/-! ## The two copies -/

/-- The request without its method and its body. -/
def withoutBody (req : UpRequest) : UpRequest :=
  if carriesToken req then { req with method := "", payload := .empty } else req

/-- What is seen of a step by an observer who does not see the method and the body of a request. -/
def seen : UpEvent → UpEvent
  | ⟨.send req, ans⟩ => ⟨.send (withoutBody req), ans⟩
  | ev => ev

/-- Sends that differ in what is not seen. -/
theorem same_send {req req' : UpRequest} (h : withoutBody req = withoutBody req') :
    Prog.Same seen (send req) (send req') := by
  intro steps out
  rw [send_eq, send_eq, Prog.observes_op, Prog.observes_op]
  apply exists_congr
  intro ans
  show (∃ rest, steps = ⟨.send (withoutBody req), ans⟩ :: rest ∧ _)
    ↔ ∃ rest, steps = ⟨.send (withoutBody req'), ans⟩ :: rest ∧ _
  rw [h]

/-- Calls that are asked to send what looks alike look alike. -/
theorem same_exchange {asked asked' : String → UpRequest}
    (h : ∀ jwt, withoutBody (asked jwt) = withoutBody (asked' jwt)) :
    Prog.Same seen (exchange asked) (exchange asked') := by
  refine Prog.Same.bind (.refl _) fun token => ?_
  refine Prog.Same.bind (same_send (h token)) fun resp => ?_
  refine Prog.Same.bind ?_ fun resp => .refl _
  rw [replay, replay]
  split
  · exact Prog.Same.bind (.refl _) fun token => same_send (h token)
  · exact .refl _

/-- **The two copies agree, and replay safely.** On the same path, parameters and user they take the
same steps and come to the same, whatever the service answers; and what either is asked to send is
executed at most once, if nothing is that is answered with 401. -/
theorem request_paths_agree (method path content contentType : String) (params : JsonObject)
    (json : Option Json) (runAs : Option String) :
    Prog.Same seen (requestSteps method path params json runAs)
        (putRawSteps path content contentType params runAs) ∧
      (requestSteps method path params json runAs).All
        (SafeReplay (requestAsked method path params json runAs)) ∧
      (putRawSteps path content contentType params runAs).All
        (SafeReplay (putRawAsked path content contentType params runAs)) := by
  rw [requestSteps_eq, putRawSteps_eq]
  refine ⟨same_exchange fun jwt => rfl, ?_, ?_⟩
  · exact Prog.all_iff_runs.mpr fun tr out =>
      safeReplay_of_runs (carries_requestAsked method path params json runAs)
  · exact Prog.all_iff_runs.mpr fun tr out =>
      safeReplay_of_runs (carries_putRawAsked path content contentType params runAs)

end WazuhMcp.ServerApiClient
