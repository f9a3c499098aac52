import Mathlib.Data.Rat.Defs
import WazuhMcp.Base.Json
import WazuhMcp.Foundations.Prog

/-!
# What the clients do

The steps by which tools, resources and prompts reach the two upstream services: acquiring a
tenant's client from its pool, the Server API client's use of its cached token, and sending an HTTP
request. Everything above the clients is a program over these steps, and the services may answer
them in any way.
-/

namespace WazuhMcp

open Interact

/-- The two services behind the server. -/
inductive Upstream where
  | indexer
  | serverApi
  deriving DecidableEq, Repr

/-- The body of an HTTP request. -/
inductive Payload where
  | empty
  | json (body : Json)
  | content (contentType : String) (text : String)

/-- The credentials a request carries. -/
inductive Authorization where
  | basic
  | bearer (token : String)
  deriving DecidableEq, Repr

/-- An HTTP request, relative to the base URL of its client. -/
structure UpRequest where
  upstream : Upstream
  method : String
  path : String
  params : JsonObject := []
  payload : Payload := .empty
  authorization : Authorization

/-- An HTTP response: its status, and what `resp.json()` comes to. -/
structure UpResponse where
  statusCode : ℕ
  json : Except ForeignExn Json

/-- A step of a client. -/
inductive UpOp where
  /-- `pool.acquire(tenant_id)` -/
  | acquire (upstream : Upstream) (tenantId : String)
  /-- entering `async with self._lock` -/
  | lock
  /-- the cached token, unless it is missing or 80% of its lifetime have passed -/
  | freshToken
  /-- the cached token is replaced -/
  | storeToken (token : String)
  | send (req : UpRequest)
  /-- `time.monotonic()`, in seconds -/
  | monotonic

/-- What a step may come to. -/
@[reducible] def UpOp.Result : UpOp → Type
  | .acquire _ _ => Except ForeignExn Unit
  | .lock => Except ForeignExn Unit
  | .freshToken => Option String
  | .storeToken _ => Unit
  | .send _ => Except ForeignExn UpResponse
  | .monotonic => ℚ

/-- A program over the steps of the clients. -/
abbrev UpProg := Prog UpOp UpOp.Result Exn

/-- A step of a client, with what it came to. -/
abbrev UpEvent := Event UpOp UpOp.Result

/-- The services at their best: everything succeeds. -/
def servingEnv : ∀ op : UpOp, op.Result
  | .acquire _ _ => .ok ()
  | .lock => .ok ()
  | .freshToken => some "jwt"
  | .storeToken _ => ()
  | .send _ => .ok ⟨200, .ok (.obj [])⟩
  | .monotonic => 0

/-- The request that the step sends, if it sends one. -/
def UpOp.request : UpOp → Option UpRequest
  | .send req => some req
  | _ => none

/-- The step is the client's own: it takes no client from a pool, and sends nothing. -/
def UpOp.internal : UpOp → Bool
  | .acquire _ _ => false
  | .send _ => false
  | _ => true

/-- What a foreign exception is when it propagates. -/
def rethrow {α : Type} : Except ForeignExn α → Except Exn α
  | .ok a => .ok a
  | .error x => .error x.exn

namespace UpProg

/-- `await pool.acquire(tenant_id)` -/
def acquire (upstream : Upstream) (tenantId : String) : UpProg Unit :=
  .op (.acquire upstream tenantId) fun r => .ofExcept (rethrow r)

/-- `async with self._lock`, up to where it is entered. -/
def lock : UpProg Unit := .op .lock fun r => .ofExcept (rethrow r)

/-- `time.monotonic()` -/
def monotonic : UpProg ℚ := .op .monotonic .ret

end UpProg

/-! ## What a program sends -/

/-- Every request that the program sends satisfies `P`. -/
def UpProg.Sends {α : Type} (p : UpProg α) (P : UpRequest → Prop) : Prop :=
  p.Every fun ev => ∀ req, ev.op = .send req → P req

namespace UpProg

variable {α β : Type} {P : UpRequest → Prop}

@[simp] theorem sends_ret (a : α) : Sends (.ret a) P := trivial

@[simp] theorem sends_pure (a : α) : Sends (pure a) P := trivial

@[simp] theorem sends_raise (x : Exn) : Sends (.raise x : UpProg α) P := trivial

@[simp] theorem sends_ofExcept (out : Except Exn α) : Sends (.ofExcept out) P :=
  Prog.every_ofExcept out

theorem sends_bind {p : UpProg α} {f : α → UpProg β} (hp : p.Sends P) (hf : ∀ a, (f a).Sends P) :
    Sends (p >>= f) P := Prog.every_bind hp hf

/-- A step that sends nothing. -/
theorem sends_op {op : UpOp} {k : op.Result → UpProg α} (hop : ∀ req, op ≠ .send req)
    (hk : ∀ r, (k r).Sends P) : Sends (.op op k) P :=
  fun r => ⟨fun req hreq => absurd hreq (hop req), hk r⟩

end UpProg

/-- The requests of a trace, in order. -/
def requests (tr : List UpEvent) : List UpRequest := tr.filterMap fun ev => ev.op.request

theorem mem_requests {tr : List UpEvent} {req : UpRequest} :
    req ∈ requests tr ↔ ∃ ev ∈ tr, ev.op = .send req := by
  rw [requests, List.mem_filterMap]
  refine exists_congr fun ev => and_congr_right fun _ => ?_
  cases ev.op <;> simp [UpOp.request]

/-- What every request satisfies holds of the requests of every run. -/
theorem UpProg.Sends.all {α : Type} {p : UpProg α} {P : UpRequest → Prop} (h : p.Sends P) :
    p.All fun tr _ => ∀ req ∈ requests tr, P req := by
  refine (Prog.Every.all h).mono fun tr _ htr req hreq => ?_
  obtain ⟨ev, hev, hop⟩ := mem_requests.mp hreq
  exact htr ev hev req hop

/-- `int((end - started) * 1000)` -/
def elapsedMs (started ended : ℚ) : ℤ :=
  let ms := (ended - started) * 1000
  ms.num.tdiv ms.den

/-! ## Errors -/

/-- `map_http_error(resp)` -/
def mapHttpError (status : ℕ) : WazuhError :=
  if status = 401 then ⟨.authExpired, "upstream authentication expired", status, none⟩
  else if status = 403 then ⟨.forbidden, "upstream denied the request", status, none⟩
  else if status = 404 then ⟨.notFound, "upstream resource not found", status, none⟩
  else if status = 429 then ⟨.rateLimited, "upstream rate limit exceeded", status, none⟩
  else if status = 400 then ⟨.invalidQuery, "query was rejected by the backend", status, none⟩
  else ⟨.upstreamError, "upstream returned an error", status, none⟩

/-- `map_timeout()` -/
def mapTimeout : WazuhError := ⟨.upstreamTimeout, "upstream request timed out", 504, none⟩

end WazuhMcp
