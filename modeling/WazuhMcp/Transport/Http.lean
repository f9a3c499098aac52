import WazuhMcp.Auth.Session
import WazuhMcp.Base.Errors
import WazuhMcp.Foundations.Dict
import WazuhMcp.Foundations.Prog
import WazuhMcp.Foundations.Text

/-!
# The HTTP transport

`SessionMiddleware` wraps the whole ASGI app. It authenticates the requests whose `request.url.path`
is protected and passes the others on, while the router behind it goes by `scope["path"]`. The two
paths agree as long as the URL that Starlette puts together from scheme, Host header and path parses
back into that path.

* `protects_urlPath_iff`: for a request to `/mcp`, the parsed path is protected exactly when the
  Host header leaves it so (`HostKeepsPath`): it holds none of the characters `/`, `?` and `#`, or
  what it puts before the path is itself under `/mcp`.
* `gateComplete_iff`: every request that reaches the MCP endpoint has been authenticated exactly
  when that is so, or the URL does not parse at all.
-/

namespace WazuhMcp

open Interact

/-! ## Requests -/

/-- The part of a request that the middleware and the router read. -/
structure HttpRequest where
  /-- the Host header -/
  host : String
  /-- `scope["path"]` -/
  path : String
  headers : Dict String String := []
  client : Option String := none

/-- `RequestContext` -/
structure RequestContext where
  headers : Dict String String
  clientIp : String
  deriving DecidableEq

/-- `JSONResponse` -/
structure HttpResponse where
  statusCode : ℕ
  body : Dict String String
  headers : Dict String String := []
  deriving DecidableEq

/-- `_title_header(name)` -/
def titleHeader (name : String) : String := Text.join '-' ((Text.split '-' name).map Text.capitalize)

/-- The context that the middleware hands to the session factory. -/
def HttpRequest.context (req : HttpRequest) : RequestContext where
  headers := req.headers.foldl (fun d kv => Dict.set d (titleHeader kv.1) kv.2) []
  clientIp := req.client.getD ""

/-! ## URLs -/

/-- The characters that `urlsplit` deletes from a URL before it parses it. -/
def unsafeUrlChar (c : Char) : Bool := c == '\t' || c == '\r' || c == '\n'

/-- The characters that end the network location of a URL. -/
def endsNetloc (c : Char) : Bool := c == '/' || c == '?' || c == '#'

/-- The network location that `urlsplit` reads off the text after `scheme://`. -/
def netloc (rest : List Char) : List Char := rest.takeWhile (!endsNetloc ·)

/-- `request.url.path`: the path of `scheme://` followed by `rest`, as `urlsplit` parses it.
`bracketsOk` is its check of what stands between the brackets of an IPv6 address. -/
def urlPath (bracketsOk : List Char → Bool) (rest : String) : Except Exn String :=
  let rest := rest.toList.filter (!unsafeUrlChar ·)
  let loc := netloc rest
  if loc.contains '[' != loc.contains ']' || (loc.contains '[' && !bracketsOk loc) then
    .error (.exception "ValueError")
  else
    let rest := rest.dropWhile (!endsNetloc ·)
    let rest := rest.takeWhile (· != '#')
    .ok (String.ofList (rest.takeWhile (· != '?')))

/-- Whether the router matches the path with the endpoint of the mounted MCP app. The `$` of its
`^/mcp$` also matches before a final newline. -/
def routesToMcp (path : String) : Bool := path == "/mcp" || path == "/mcp\n"

/-! ## The middleware -/

/-- What the middleware awaits: the session factory, and the app behind it, which is either the MCP
endpoint, with the session in its context, or some other route. -/
inductive HttpOp where
  | build (ctx : RequestContext)
  | endpoint (session : Option Session)
  | otherRoute
  deriving DecidableEq

/-- What these return when they do not raise. -/
@[reducible] def HttpOp.Result : HttpOp → Type
  | .build _ => Session
  | .endpoint _ => HttpResponse
  | .otherRoute => HttpResponse

/-- A run of the middleware. -/
abbrev HttpProg := Prog HttpOp (fun op => Except Exn op.Result) Exn

/-- An awaited step of the middleware, with its outcome. -/
abbrev HttpEvent := Event HttpOp fun op => Except Exn op.Result

/-- `SessionMiddleware` -/
structure SessionMiddleware where
  protectPaths : List String
  metadataUrl : String
  bracketsOk : List Char → Bool

namespace SessionMiddleware

/-- The test of `dispatch` for a protected path. -/
def protects (m : SessionMiddleware) (path : String) : Bool :=
  m.protectPaths.any fun p =>
    path == p || Text.startsWith path (Text.rstrip (· == '/') p ++ "/")

/-- The response to a request that fails to authenticate. -/
def refusal (m : SessionMiddleware) (e : AuthError) : HttpResponse :=
  let errCode := if e.httpStatus = 403 then "insufficient_scope" else "invalid_token"
  let challenge := "Bearer realm=\"mcp\", error=\"" ++ errCode ++ "\""
  let challenge := if m.metadataUrl ≠ "" then
      challenge ++ ", resource_metadata=\"" ++ m.metadataUrl ++ "\""
    else challenge
  { statusCode := e.httpStatus
    body := [("error", e.publicMessage)]
    headers := [("WWW-Authenticate", challenge)] }

/-- `call_next(request)`, with the session that the context holds. -/
def callNext (req : HttpRequest) (session : Option Session) : HttpProg HttpResponse :=
  if routesToMcp req.path then Prog.await (A := HttpOp.Result) (.endpoint session)
  else Prog.await (A := HttpOp.Result) .otherRoute

/-- `dispatch(request, call_next)` -/
def dispatch (m : SessionMiddleware) (req : HttpRequest) : HttpProg HttpResponse := do
  let path ← Prog.ofExcept (urlPath m.bracketsOk (req.host ++ req.path))
  if !m.protects path then
    callNext req none
  else
    let built ← Prog.attempt (Prog.await (A := HttpOp.Result) (.build req.context))
    match built with
    | .ok session => callNext req (some session)
    | .error (.auth e) => return m.refusal e
    | .error x => .raise x

end SessionMiddleware

/-- The middleware that `build_asgi_app` wraps around the app. -/
def appMiddleware (metadataUrl : String) (bracketsOk : List Char → Bool) : SessionMiddleware where
  protectPaths := ["/mcp"]
  metadataUrl := metadataUrl
  bracketsOk := bracketsOk

/-! ## Which path is protected -/

/-- What a Host header may hold for `/mcp` to stay protected behind it. -/
def HostKeepsPath (host : String) : Prop :=
  match (host.toList.filter (!unsafeUrlChar ·)).dropWhile (!endsNetloc ·) with
  | [] => True
  | c :: cs =>
    c = '/' ∧
      let segment := cs.takeWhile fun d => d != '?' && d != '#'
      segment = "mcp".toList ∨ "mcp/".toList <+: segment

theorem protects_iff {metadataUrl : String} {bracketsOk : List Char → Bool} {path : List Char} :
    (appMiddleware metadataUrl bracketsOk).protects (String.ofList path) = true ↔
      path = "/mcp".toList ∨ "/mcp/".toList <+: path := by
  have hbase : Text.rstrip (· == '/') "/mcp" ++ "/" = "/mcp/" := by decide
  rw [SessionMiddleware.protects, appMiddleware]
  simp only [List.any_cons, List.any_nil, Bool.or_false, Bool.or_eq_true, beq_iff_eq, hbase,
    Text.startsWith, String.toList_ofList, List.isPrefixOf_iff_prefix]
  rw [← String.toList_inj, String.toList_ofList]

/-- A path that goes to the MCP endpoint reads `/mcp` in a URL. -/
theorem filter_of_routesToMcp {path : String} (h : routesToMcp path = true) :
    path.toList.filter (!unsafeUrlChar ·) = "/mcp".toList := by
  rcases (by simpa [routesToMcp] using h : path = "/mcp" ∨ path = "/mcp\n") with rfl | rfl
  · decide
  · decide

/-- The path that is left of a URL once its network location is cut off. -/
theorem takeWhile_takeWhile_path (rest : List Char) :
    (rest.takeWhile (· != '#')).takeWhile (· != '?') =
      rest.takeWhile fun d => d != '?' && d != '#' := by
  rw [List.takeWhile_takeWhile]
  congr 1
  funext d
  by_cases h : d = '#' <;> by_cases h' : d = '?' <;> simp [h, h']

/-- What a Host header leaves under `/mcp` stays there when `/mcp` is appended, and nothing else
gets there. -/
theorem under_mcp_append_iff (cs : List Char) :
    (cs ++ "/mcp".toList = "mcp".toList ∨ "mcp/".toList <+: cs ++ "/mcp".toList) ↔
      (cs = "mcp".toList ∨ "mcp/".toList <+: cs) := by
  match cs with
  | [] => decide
  | [_] => simp
  | [_, _] => simp
  | [_, _, _] =>
    simp [eq_comm (a := 'm'), eq_comm (a := 'c'), eq_comm (a := 'p')]
  | _ :: _ :: _ :: _ :: _ => simp

/-- **The path that Starlette parses** for a request to `/mcp` is protected exactly when the Host
header leaves it so. -/
theorem protects_urlPath_iff {metadataUrl : String} {bracketsOk : List Char → Bool}
    {req : HttpRequest} {path : String} (hroute : routesToMcp req.path = true)
    (hpath : urlPath bracketsOk (req.host ++ req.path) = .ok path) :
    (appMiddleware metadataUrl bracketsOk).protects path = true ↔ HostKeepsPath req.host := by
  rw [urlPath, String.toList_append, List.filter_append, filter_of_routesToMcp hroute] at hpath
  simp only [takeWhile_takeWhile_path] at hpath
  split at hpath
  · cases hpath
  · rw [← Except.ok.inj hpath, protects_iff, HostKeepsPath]
    set h := req.host.toList.filter (!unsafeUrlChar ·) with hh
    rw [List.dropWhile_append]
    cases hdrop : h.dropWhile (!endsNetloc ·) with
    | nil => simp [endsNetloc]
    | cons c cs =>
      have hc : endsNetloc c = true := by
        have := List.head?_dropWhile_not (!endsNetloc ·) h
        simpa [hdrop] using this
      simp only [List.isEmpty_cons, Bool.false_eq_true, if_false, List.cons_append]
      by_cases hslash : c = '/'
      · subst hslash
        have hcons (p : List Char) : ('/' :: p = "/mcp".toList ∨ "/mcp/".toList <+: '/' :: p) ↔
            (p = "mcp".toList ∨ "mcp/".toList <+: p) := by
          simp
        rw [List.takeWhile_cons_of_pos (by decide), hcons, List.takeWhile_append]
        split
        · rename_i hall
          have hseg : cs.takeWhile (fun d => d != '?' && d != '#') = cs :=
            (List.takeWhile_prefix _).eq_of_length hall
          have hmcp : "/mcp".toList.takeWhile (fun d => d != '?' && d != '#') = "/mcp".toList := by
            decide
          rw [hseg, hmcp, under_mcp_append_iff]
          simp
        · simp
      · have hcut : (c != '?' && c != '#') = false := by
          simp only [endsNetloc, Bool.or_eq_true, beq_iff_eq] at hc
          rcases hc with (hc | rfl) | rfl
          · exact absurd hc hslash
          · decide
          · decide
        rw [List.takeWhile_cons_of_neg (by simp [hcut])]
        simp [hslash]

/-! ## The authentication gate -/

/-- Whether the step invokes the MCP endpoint. -/
def HttpOp.isEndpoint : HttpOp → Bool
  | .endpoint _ => true
  | _ => false

/-- The law of the gate, for the steps of one request: before the MCP endpoint is invoked, the
factory has returned a session for this very request, and after an `AuthError` it never is. -/
structure GateComplete (req : HttpRequest) (tr : List HttpEvent) : Prop where
  authenticated : Guarded (fun pre => ∃ s, (⟨.build req.context, .ok s⟩ : HttpEvent) ∈ pre)
    (fun ev => ev.op.isEndpoint) tr
  refused : ∀ e, (⟨.build req.context, .error (.auth e)⟩ : HttpEvent) ∈ tr →
    ∀ ev ∈ tr, ev.op.isEndpoint = false

theorem gateComplete_of_no_endpoint {req : HttpRequest} {tr : List HttpEvent}
    (h : ∀ ev ∈ tr, ev.op.isEndpoint = false) : GateComplete req tr where
  authenticated := guarded_of_forall_not fun ev hev => by simp [h ev hev]
  refused := fun _ _ => h

theorem gateComplete_of_build {req : HttpRequest} {s : Session} {ev : HttpEvent}
    (hev : ∀ ctx, ev.op ≠ .build ctx) :
    GateComplete req [⟨.build req.context, .ok s⟩, ev] where
  authenticated := by
    change Guarded _ _ ([⟨.build req.context, .ok s⟩] ++ [ev])
    refine guarded_append (guarded_of_forall_not (by simp [HttpOp.isEndpoint])) ⟨s, by simp⟩ ?_
    exact fun more ⟨s, hs⟩ => ⟨s, List.mem_append_left _ hs⟩
  refused := by
    intro e he
    simp only [List.mem_cons, List.not_mem_nil, or_false] at he
    rcases he with he | he
    · simp at he
    · exact absurd (congrArg Event.op he).symm (hev _)

namespace SessionMiddleware

variable {m : SessionMiddleware} {req : HttpRequest} {path : String}

theorem dispatch_of_error {e : Exn} (h : urlPath m.bracketsOk (req.host ++ req.path) = .error e) :
    m.dispatch req = .raise e := by
  rw [dispatch, h]
  rfl

theorem dispatch_of_unprotected (h : urlPath m.bracketsOk (req.host ++ req.path) = .ok path)
    (hpath : m.protects path = false) : m.dispatch req = callNext req none := by
  rw [dispatch, h]
  change (if !m.protects path then _ else _ : HttpProg HttpResponse) = _
  rw [hpath]
  rfl

theorem callNext_of_route (h : routesToMcp req.path = true) (session : Option Session) :
    callNext req session = Prog.await (A := HttpOp.Result) (.endpoint session) := by
  rw [callNext, if_pos h]

theorem callNext_of_not_route (h : routesToMcp req.path = false) (session : Option Session) :
    callNext req session = Prog.await (A := HttpOp.Result) .otherRoute := by
  rw [callNext, if_neg (by simp [h])]

theorem callNext_gateComplete (hroute : routesToMcp req.path = false) (session : Option Session) :
    (callNext req session).All fun tr _ => GateComplete req tr := by
  rw [callNext_of_not_route hroute]
  exact (Prog.all_await _ _).mpr fun out =>
    gateComplete_of_no_endpoint (by simp [HttpOp.isEndpoint])

/-- On a protected path the gate holds, whatever the factory and the app do. -/
theorem dispatch_gateComplete_of_protected
    (h : urlPath m.bracketsOk (req.host ++ req.path) = .ok path) (hpath : m.protects path = true) :
    (m.dispatch req).All fun tr _ => GateComplete req tr := by
  rw [dispatch, h]
  change (if !m.protects path then _ else _ : HttpProg HttpResponse).All _
  rw [hpath]
  simp only [Bool.not_true, Bool.false_eq_true, if_false, Prog.all_bind, Prog.all_attempt,
    Prog.all_await]
  intro built
  cases built with
  | ok session =>
    cases hroute : routesToMcp req.path with
    | true =>
      simp only [callNext_of_route hroute]
      exact (Prog.all_await _ _).mpr fun out => gateComplete_of_build (by simp)
    | false =>
      simp only [callNext_of_not_route hroute]
      exact (Prog.all_await _ _).mpr fun out => gateComplete_of_build (by simp)
  | error x =>
    have hnone : GateComplete req [⟨.build req.context, .error x⟩] :=
      gateComplete_of_no_endpoint (by simp [HttpOp.isEndpoint])
    cases x <;> simpa using hnone

end SessionMiddleware

/-- **Every request that reaches the MCP endpoint has been authenticated** exactly when the router
does not match its path, or its URL does not parse, or its Host header keeps the path. -/
theorem gateComplete_iff (metadataUrl : String) (bracketsOk : List Char → Bool)
    (req : HttpRequest) :
    (((appMiddleware metadataUrl bracketsOk).dispatch req).All fun tr _ => GateComplete req tr) ↔
      routesToMcp req.path = false ∨
        (∃ e, urlPath bracketsOk (req.host ++ req.path) = .error e) ∨ HostKeepsPath req.host := by
  set m := appMiddleware metadataUrl bracketsOk with hm
  constructor
  · intro hall
    by_contra! hbad
    obtain ⟨hroute, hparse, hhost⟩ := hbad
    have hroute : routesToMcp req.path = true := by simpa using hroute
    cases hpath : urlPath bracketsOk (req.host ++ req.path) with
    | error e => exact hparse e hpath
    | ok path =>
      have hprot : m.protects path = false := by
        rw [← Bool.not_eq_true, protects_urlPath_iff hroute hpath]
        exact hhost
      rw [SessionMiddleware.dispatch_of_unprotected hpath hprot,
        SessionMiddleware.callNext_of_route hroute] at hall
      -- the endpoint is the very first thing awaited
      have hgate := (Prog.all_await _ _).mp hall (.error Exn.cancelled)
      obtain ⟨s, hs⟩ := hgate.authenticated [] _ [] rfl rfl
      exact absurd hs (by simp)
  · intro h
    cases hpath : urlPath bracketsOk (req.host ++ req.path) with
    | error e =>
      rw [SessionMiddleware.dispatch_of_error hpath]
      exact gateComplete_of_no_endpoint (by simp)
    | ok path =>
      by_cases hprot : m.protects path = true
      · exact SessionMiddleware.dispatch_gateComplete_of_protected hpath hprot
      · rw [SessionMiddleware.dispatch_of_unprotected hpath (by simpa using hprot)]
        rcases h with hroute | ⟨e, he⟩ | hhost
        · exact SessionMiddleware.callNext_gateComplete hroute none
        · rw [hpath] at he
          cases he
        · refine SessionMiddleware.callNext_gateComplete ?_ none
          by_contra hroute
          exact hprot ((protects_urlPath_iff (by simpa using hroute) hpath).mpr hhost)

/-- A Host header with a slash in it: the MCP endpoint is the first thing that runs. -/
theorem gateComplete_fails_on_host :
    ¬ ∀ (metadataUrl : String) (bracketsOk : List Char → Bool) (req : HttpRequest),
      ((appMiddleware metadataUrl bracketsOk).dispatch req).All fun tr _ => GateComplete req tr := by
  intro h
  let req : HttpRequest := { host := "mcp.test/", path := "/mcp" }
  have hpath : urlPath (fun _ => true) (req.host ++ req.path) = .ok "//mcp" := by decide
  have hprot : (appMiddleware "" fun _ => true).protects "//mcp" = false := by decide
  have hall := h "" (fun _ => true) req
  rw [SessionMiddleware.dispatch_of_unprotected hpath hprot,
    SessionMiddleware.callNext_of_route (by decide)] at hall
  have hgate := (Prog.all_await _ _).mp hall (.error Exn.cancelled)
  obtain ⟨s, hs⟩ := hgate.authenticated [] _ [] rfl rfl
  exact absurd hs (by simp)

end WazuhMcp
