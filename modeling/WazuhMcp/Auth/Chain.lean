import WazuhMcp.Auth.ApiKey
import WazuhMcp.Auth.Soundness

/-!
# Failing to authenticate

`ChainSessionFactory` sends a bearer token to the factory that its shape calls for. `SessionMiddleware`
answers an `AuthError` of the factory with a 401 or 403 challenge and lets everything else through, so
that whatever else is raised on the way to a session escapes.

`challenged_iff_answerable` lists all of it: a header that is no JSON object, a key id that cannot be
looked up, an answer of the identity provider that cannot be read, a key that cannot be imported, a
verified issuer that cannot be looked up, and the entries of the key file that `Checkable` rules out.
-/

namespace WazuhMcp

open Fallible Interact

/-! ## What the factories raise -/

namespace TokenFactory

variable {Key : Type} {codec : TokenCodec Key} {f : TokenFactory} {ctx : RequestContext} {now : ℤ}
  {lookup : KeyLookup} {claims : JsonObject}

theorem authErrorOnly_extractBearer (ctx : RequestContext) : AuthErrorOnly (extractBearer ctx) := by
  unfold extractBearer
  cases bearerText (authorizationOf ctx) with
  | none => exact raises_error rfl
  | some token => exact raises_ok token

theorem authErrorOnly_unverifiedIss (token : String) : AuthErrorOnly (unverifiedIss codec token) := by
  unfold unverifiedIss
  split
  · split <;> exact raises_ok _
  · exact raises_error rfl

/-- If the header of the token can be decoded, it is an object. -/
def HeaderReadable (codec : TokenCodec Key) (ctx : RequestContext) : Prop :=
  ∀ token, extractBearer ctx = .ok token → ∀ header, headerOf codec token = some header →
    ∃ members, header = .obj members

/-- Up to the call of `get_key`, a build trips over nothing but the header. -/
theorem authErrorOnly_route : AuthErrorOnly (f.route codec ctx) ↔ HeaderReadable codec ctx := by
  unfold route HeaderReadable
  refine raises_bind.trans ((and_iff_right (authErrorOnly_extractBearer ctx)).trans ?_)
  apply forall₂_congr
  intro token _
  unfold unverifiedHeader
  cases hheader : headerOf codec token with
  | none => exact iff_of_true (raises_error rfl) (by simp)
  | some header =>
    cases header with
    | obj members =>
      refine iff_of_true ?_ (by simp)
      show AuthErrorOnly (if !(JsonObject.get members "kid").truthy then _ else _)
      split
      · exact raises_error rfl
      · show AuthErrorOnly (if !f.allows (JsonObject.get members "alg") then _ else _)
        split
        · exact raises_error rfl
        · apply (authErrorOnly_unverifiedIss token).bind
          intro issuer
          split
          · exact raises_error rfl
          · exact raises_ok _
    | _ => exact iff_of_false (not_authErrorOnly_error rfl) (by simp)

/-- The claims are checked without surprises exactly if their issuer can be looked up. -/
theorem authErrorOnly_checkIssuer {f : OAuthSessionFactory} :
    AuthErrorOnly (f.checkIssuer claims) ↔ (claims.get "iss").hashed.isSome := by
  unfold OAuthSessionFactory.checkIssuer
  cases claims.get "iss" with
  | arr xs => exact iff_of_false (not_authErrorOnly_error rfl) Bool.false_ne_true
  | obj kvs => exact iff_of_false (not_authErrorOnly_error rfl) Bool.false_ne_true
  | str iss =>
    refine iff_of_true ?_ rfl
    show AuthErrorOnly (if iss ∈ f.validIssuers then _ else _)
    split
    · exact raises_ok _
    · exact raises_error rfl
  | _ => exact iff_of_true (raises_error rfl) rfl

theorem authErrorOnly_checkAudience {f : OAuthSessionFactory} :
    AuthErrorOnly (f.checkAudience claims) := by
  unfold OAuthSessionFactory.checkAudience
  split
  · split
    · exact raises_ok _
    · exact raises_error rfl
  · split
    · exact raises_ok _
    · exact raises_error rfl
  · exact raises_error rfl

theorem authErrorOnly_checkTimes {f : OAuthSessionFactory} :
    AuthErrorOnly (f.checkTimes now claims) := by
  unfold OAuthSessionFactory.checkTimes
  split
  · exact raises_error rfl
  · split
    · exact raises_error rfl
    · split
      · exact raises_error rfl
      · split
        · exact raises_error rfl
        · exact raises_ok _

theorem authErrorOnly_buildSession {f : OAuthSessionFactory} :
    AuthErrorOnly (f.buildSession claims) := by
  unfold OAuthSessionFactory.buildSession
  show AuthErrorOnly (if !(claims.get "sub").truthy then _ else _)
  split
  · exact raises_error rfl
  · apply Raises.bind
    · unfold OAuthSessionFactory.resolveTenantId
      split
      · exact raises_ok _
      · exact raises_error rfl
      · split
        · exact raises_error rfl
        · exact raises_ok _
      · split
        · exact raises_error rfl
        · exact raises_ok _
      · exact raises_ok _
    · intro tenantId
      apply Raises.bind
      · unfold OAuthSessionFactory.resolveRbacRole
        split
        · exact raises_ok _
        · exact raises_ok _
        · exact raises_error rfl
      · exact fun rbac => raises_ok _

theorem authErrorOnly_claims :
    AuthErrorOnly (f.validateClaims now claims >>= fun _ => f.buildSession claims) ↔
      (claims.get "iss").hashed.isSome := by
  refine raises_bind.trans ((and_iff_left fun _ _ => authErrorOnly_buildSession).trans ?_)
  unfold OAuthSessionFactory.validateClaims
  refine raises_bind.trans ((and_iff_left fun _ _ => ?_).trans authErrorOnly_checkIssuer)
  exact authErrorOnly_checkAudience.bind fun _ => authErrorOnly_checkTimes

/-- The key can be imported, and the claims that it verifies name an issuer that can be looked up. -/
def KeyUsable (codec : TokenCodec Key) (f : TokenFactory) (token : String) (jwk : Json) : Prop :=
  ∃ key, codec.importKey jwk = .ok key ∧
    ∀ claims, codec.decode token key f.algorithms = .ok claims → (claims.get "iss").hashed.isSome

theorem authErrorOnly_accept {jwk : Json} :
    AuthErrorOnly (f.accept codec now lookup (some jwk)) ↔ KeyUsable codec f lookup.token jwk := by
  unfold accept KeyUsable
  cases hkey : codec.importKey jwk with
  | error name => simpa [hkey] using not_authErrorOnly_error rfl
  | ok key =>
    simp only [hkey, Except.ok.injEq, exists_eq_left']
    cases hclaims : codec.decode lookup.token key f.algorithms with
    | error e => exact iff_of_true (raises_error rfl) (by simp)
    | ok claims =>
      simp only [Except.ok.injEq, forall_eq']
      exact authErrorOnly_claims

/-- After the call of `get_key`, a build trips over what the call has raised, and over an unusable
key. -/
theorem authErrorOnly_finish {out : KeyOutcome} : AuthErrorOnly (f.finish codec now lookup out) ↔
    AuthErrorOnly out ∧ ∀ jwk, out = .ok (some jwk) → KeyUsable codec f lookup.token jwk := by
  refine raises_bind.trans (and_congr_right fun _ => ?_)
  constructor
  · exact fun h jwk hjwk => authErrorOnly_accept.mp (h (some jwk) hjwk)
  · rintro h (- | jwk) hout
    · exact raises_error rfl
    · exact authErrorOnly_accept.mpr (h jwk hout)

end TokenFactory

namespace OAuthRun

open TokenFactory

variable {Key : Type} (f : TokenFactory) (codec : TokenCodec Key) (s : OAuthRun)

/-- The key was asked for under a key id that can be looked up, what came of the requests of the call
can be read, and the key that it has returned is usable. -/
structure KeyServed (lookup : KeyLookup) (j : ℕ) (entry : CacheEntry) : Prop where
  kid : lookup.kid.hashed.isSome
  responses : ∀ r ∈ entry.run.responses, r.caller = j → r.Readable
  key : ∀ jwk, entry.run.calls[j]? = some ⟨lookup.kid, .ended (.ok (some jwk))⟩ →
    KeyUsable codec f lookup.token jwk

/-- Nothing in the token and in what the identity provider has answered stands in the way of a verdict
on the build. -/
def Answerable (b : BuildCall) : Prop :=
  HeaderReadable codec b.ctx ∧
    match b.point with
    | .ended lookup j _ _ => ∀ entry, s.caches.get lookup.issuer = some entry →
      KeyServed f codec lookup j entry
    | _ => True

variable {f codec s}

/-- **The ways in which a build fails** with something else than an `AuthError`. -/
theorem authErrorOnly_iff_answerable (hlinked : Linked f codec s) {b : BuildCall} (hb : b ∈ s.builds)
    {out : Except Exn Session} (hout : b.point.outcome = some out) :
    out = .error Exn.cancelled ∨ (AuthErrorOnly out ↔ s.Answerable f codec b) := by
  obtain ⟨ctx, point⟩ := b
  have hplaced : s.Placed f codec ⟨ctx, point⟩ := hlinked.builds _ hb
  cases point with
  | fetching lookup j => cases hout
  | refused x =>
    obtain rfl := Option.some.inj hout
    have hroute : f.route codec ctx = .error x := hplaced
    right
    calc AuthErrorOnly (.error x : Except Exn Session)
      _ ↔ AuthErrorOnly (f.route codec ctx) := by
        rw [hroute]
        exact Iff.trans raises_error_iff (Iff.symm raises_error_iff)
      _ ↔ HeaderReadable codec ctx := authErrorOnly_route
      _ ↔ s.Answerable f codec ⟨ctx, .refused x⟩ := (and_iff_left trivial).symm
  | ended lookup j now out' =>
    obtain rfl : out' = out := Option.some.inj hout
    obtain ⟨hroute, entry, keyOut, hget, hcall, hfinish⟩ := hplaced
    obtain ⟨-, acts, hrun⟩ := (hlinked.caches _ _ hget).2
    have hended := (JwksRun.accounted_exec entry.cache acts).ended j lookup.kid keyOut (hrun ▸ hcall)
    have hnoauth := JwksRun.noAuthErrors_exec entry.cache acts j lookup.kid keyOut (hrun ▸ hcall)
    rw [← hrun] at hended
    have hheader : HeaderReadable codec ctx := authErrorOnly_route.mp (hroute ▸ raises_ok lookup)
    refine hended.imp (fun hcancelled => ?_) fun hsucceeds => ?_
    · rw [hfinish, hcancelled]
      rfl
    calc AuthErrorOnly out'
      _ ↔ AuthErrorOnly keyOut ∧
          ∀ jwk, keyOut = .ok (some jwk) → KeyUsable codec f lookup.token jwk := by
        rw [hfinish]
        exact authErrorOnly_finish
      _ ↔ KeyServed f codec lookup j entry := by
        rw [hnoauth.authErrorOnly_iff, hsucceeds]
        constructor
        · rintro ⟨⟨hkid, hresponses⟩, hkey⟩
          refine ⟨hkid, hresponses, fun jwk hjwk => hkey jwk ?_⟩
          exact KeyPoint.ended.inj (KeyCall.mk.inj (Option.some.inj (hcall.symm.trans hjwk))).2
        · rintro ⟨hkid, hresponses, hkey⟩
          exact ⟨⟨hkid, hresponses⟩, fun jwk hjwk => hkey jwk (hjwk ▸ hcall)⟩
      _ ↔ s.Answerable f codec ⟨ctx, .ended lookup j now out'⟩ := by
        refine ((and_iff_right hheader).trans ?_).symm
        exact ⟨fun h => h entry hget, fun h entry' hget' => Option.some.inj (hget.symm.trans hget') ▸ h⟩

end OAuthRun

/-! ## The chain -/

/-- Where a token is sent. -/
inductive ChainTarget where
  | apiKey
  | oauth

/-- `ChainSessionFactory(oauth=…, api_key=…)` -/
structure ChainSessionFactory where
  oauth : TokenFactory
  apiKey : ApiKeySessionFactory

/-- `ChainSessionFactory.build(ctx)`, up to the factory that it calls. -/
def ChainSessionFactory.target (ctx : RequestContext) : Except Exn ChainTarget := do
  let token ← TokenFactory.extractBearer ctx
  if isApiKey token then .ok .apiKey
  else if token.toList.count '.' = 2 then .ok .oauth
  else .error (.auth (.invalidToken "unrecognised token shape"))

/-- Where a build is: refused by the chain, ended by the API keys at some time, or passed on to build
`i` of the OAuth factory. -/
inductive ChainPoint where
  | refused (x : Exn)
  | keyed (utcNow : ℚ) (out : Except Exn Session)
  | delegated (i : ℕ)

/-- A call of `ChainSessionFactory.build(ctx)`. -/
structure ChainCall where
  ctx : RequestContext
  point : ChainPoint

/-- The OAuth factory at work, and the builds of the chain. -/
structure ChainRun where
  oauth : OAuthRun
  calls : List ChainCall

/-- A step of a run. -/
inductive ChainAction where
  /-- a call of `build(ctx)`; the clocks are those of the cache and of the key store -/
  | start (ctx : RequestContext) (now utcNow : ℚ)
  /-- a step of the OAuth factory other than a call of its `build(ctx)` -/
  | oauth (a : OAuthAction)

namespace ChainRun

variable {Key : Type} (chain : ChainSessionFactory) (codec : TokenCodec Key) (checker : KeyChecker)
  (s : ChainRun)

def new : ChainRun := ⟨.new chain.oauth, []⟩

def addCall (c : ChainCall) : ChainRun := { s with calls := s.calls ++ [c] }

/-- A step of the OAuth factory. -/
def stepOAuth (a : OAuthAction) : ChainRun := { s with oauth := s.oauth.step chain.oauth codec a }

/-- A call of `build(ctx)`, up to its first await. -/
def startBuild (ctx : RequestContext) (now utcNow : ℚ) : ChainRun :=
  match ChainSessionFactory.target ctx with
  | .error x => s.addCall ⟨ctx, .refused x⟩
  | .ok .apiKey => s.addCall ⟨ctx, .keyed utcNow (chain.apiKey.build checker utcNow ctx)⟩
  | .ok .oauth =>
    (s.stepOAuth chain codec (.start ctx now)).addCall ⟨ctx, .delegated s.oauth.builds.length⟩

/-- One step of a run. -/
def step : ChainAction → ChainRun
  | .start ctx now utcNow => s.startBuild chain codec checker ctx now utcNow
  | .oauth (.start _ _) => s
  | .oauth a => s.stepOAuth chain codec a

/-- What the build has come to, if it has ended. -/
def outcome (c : ChainCall) : Option (Except Exn Session) :=
  match c.point with
  | .refused x => some (.error x)
  | .keyed _ out => some out
  | .delegated i => s.oauth.builds[i]?.bind (·.point.outcome)

/-- The build is where its token has brought it. -/
def Placed (c : ChainCall) : Prop :=
  match c.point with
  | .refused x => ChainSessionFactory.target c.ctx = .error x
  | .keyed utcNow out => ChainSessionFactory.target c.ctx = .ok .apiKey ∧
    out = chain.apiKey.build checker utcNow c.ctx
  | .delegated i => ChainSessionFactory.target c.ctx = .ok .oauth ∧
    ∃ point, s.oauth.builds[i]? = some ⟨c.ctx, point⟩

/-- Nothing in the request, the key file and the answers of the identity provider stands in the way of a
verdict. -/
def Answerable (c : ChainCall) : Prop :=
  match c.point with
  | .refused _ => True
  | .keyed utcNow _ => ∀ token, TokenFactory.extractBearer c.ctx = .ok token →
    ∀ entry, chain.apiKey.store.records.get (rpartition token).1 = some entry →
      entry.Checkable checker utcNow (rpartition token).2
  | .delegated i => ∀ b, s.oauth.builds[i]? = some b → s.oauth.Answerable chain.oauth codec b

/-- The builds are where their tokens have brought them, and so are those of the OAuth factory. -/
structure Linked : Prop where
  oauth : OAuthRun.Linked chain.oauth codec s.oauth
  calls : ∀ c ∈ s.calls, s.Placed chain checker c

variable {chain codec checker s}

theorem target_eq_apiKey {ctx : RequestContext} (h : ChainSessionFactory.target ctx = .ok .apiKey) :
    ∃ token, TokenFactory.extractBearer ctx = .ok token ∧ isApiKey token = true := by
  obtain ⟨token, htoken, h⟩ := bind_eq_ok.mp h
  refine ⟨token, htoken, ?_⟩
  by_contra hkey
  rw [if_neg hkey] at h
  split at h <;> cases h

theorem isAuthError_of_target {ctx : RequestContext} {x : Exn}
    (h : ChainSessionFactory.target ctx = .error x) : x.isAuthError = true := by
  have hauth : AuthErrorOnly (ChainSessionFactory.target ctx) := by
    apply (TokenFactory.authErrorOnly_extractBearer ctx).bind
    intro token
    split
    · exact raises_ok _
    · split
      · exact raises_ok _
      · exact raises_error rfl
  exact hauth x h

/-! ## Runs of the chain -/

theorem Placed.stepOAuth {c : ChainCall} (h : s.Placed chain checker c) (a : OAuthAction) :
    (s.stepOAuth chain codec a).Placed chain checker c := by
  obtain ⟨ctx, point⟩ := c
  cases point with
  | refused x => exact h
  | keyed utcNow out => exact h
  | delegated i =>
    obtain ⟨htarget, point, hget⟩ := h
    exact ⟨htarget, OAuthRun.get_builds_step a hget⟩

namespace Linked

theorem addCall (h : Linked chain codec checker s) {c : ChainCall} (hc : s.Placed chain checker c) :
    Linked chain codec checker (s.addCall c) where
  oauth := h.oauth
  calls c' hc' := by
    rcases List.mem_append.mp hc' with hold | hnew
    · exact h.calls c' hold
    · obtain rfl := List.mem_singleton.mp hnew
      exact hc

theorem stepOAuth (h : Linked chain codec checker s) (a : OAuthAction) :
    Linked chain codec checker (s.stepOAuth chain codec a) where
  oauth := h.oauth.step a
  calls c hc := (h.calls c hc).stepOAuth a

theorem startBuild (h : Linked chain codec checker s) (ctx : RequestContext) (now utcNow : ℚ) :
    Linked chain codec checker (s.startBuild chain codec checker ctx now utcNow) := by
  unfold ChainRun.startBuild
  cases htarget : ChainSessionFactory.target ctx with
  | error x => exact h.addCall htarget
  | ok target =>
    cases target with
    | apiKey => exact h.addCall ⟨htarget, rfl⟩
    | oauth => exact (h.stepOAuth _).addCall ⟨htarget, OAuthRun.get_builds_start ctx now⟩

/-- **Every step keeps the run together.** -/
theorem step (h : Linked chain codec checker s) (a : ChainAction) :
    Linked chain codec checker (s.step chain codec checker a) := by
  cases a with
  | start ctx now utcNow => exact h.startBuild ctx now utcNow
  | oauth a =>
    cases a with
    | start ctx now => exact h
    | _ => exact h.stepOAuth _

theorem exec (chain : ChainSessionFactory) (codec : TokenCodec Key) (checker : KeyChecker)
    (acts : List ChainAction) :
    Linked chain codec checker (Runs.exec (ChainRun.step chain codec checker) (.new chain) acts) :=
  Runs.exec_invariant ⟨.new chain.oauth codec, fun c hc => by cases hc⟩ (fun _ a h => h.step a) acts

end Linked

/-- The ways in which the build fails with something else than an `AuthError`. -/
theorem authErrorOnly_iff_answerable (hlinked : Linked chain codec checker s) {c : ChainCall}
    (hc : c ∈ s.calls) {out : Except Exn Session} (hout : s.outcome c = some out) :
    out = .error Exn.cancelled ∨ (AuthErrorOnly out ↔ s.Answerable chain codec checker c) := by
  obtain ⟨ctx, point⟩ := c
  have hplaced : s.Placed chain checker ⟨ctx, point⟩ := hlinked.calls _ hc
  cases point with
  | refused x =>
    obtain rfl := Option.some.inj hout
    exact .inr (iff_of_true (raises_error (isAuthError_of_target hplaced)) trivial)
  | keyed utcNow out' =>
    obtain rfl : out' = out := Option.some.inj hout
    obtain ⟨htarget, hbuild⟩ := hplaced
    obtain ⟨token, htoken, hkey⟩ := target_eq_apiKey htarget
    right
    rw [hbuild, ApiKeySessionFactory.authErrorOnly_build htoken hkey]
    constructor
    · intro h token' htoken'
      obtain rfl := Except.ok.inj (htoken.symm.trans htoken')
      exact h
    · exact fun h => h token htoken
  | delegated i =>
    obtain ⟨-, point, hget⟩ := hplaced
    have hpoint : point.outcome = some out := by
      obtain ⟨b, hb, hbout⟩ := Option.bind_eq_some_iff.mp hout
      obtain rfl := Option.some.inj (hget.symm.trans hb)
      exact hbout
    refine (OAuthRun.authErrorOnly_iff_answerable hlinked.oauth (List.mem_of_getElem? hget)
      hpoint).imp_right fun hiff => hiff.trans ?_
    constructor
    · exact fun h b hb => Option.some.inj (hget.symm.trans hb) ▸ h
    · exact fun h => h _ hget

end ChainRun

/-! ## The middleware -/

namespace SessionMiddleware

variable {m : SessionMiddleware} {req : HttpRequest} {path : String}

theorem statusCode_refusal (e : AuthError) : (m.refusal e).statusCode ∈ [401, 403] := by
  show e.httpStatus ∈ [401, 403]
  cases e <;> simp [AuthError.httpStatus]

/-- What the middleware does with the outcome of the factory. -/
theorem dispatch_of_built (h : urlPath m.bracketsOk (req.host ++ req.path) = .ok path)
    (hpath : m.protects path = true) (x : Exn) :
    (m.dispatch req).All fun tr out => ⟨.build req.context, .error x⟩ ∈ tr →
      ∀ e, x = .auth e → out = .ok (m.refusal e) := by
  rw [dispatch, h]
  change (if !m.protects path then _ else _ : HttpProg HttpResponse).All _
  rw [hpath]
  simp only [Bool.not_true, Bool.false_eq_true, if_false, Prog.all_bind, Prog.all_attempt,
    Prog.all_await]
  intro built
  cases built with
  | ok session =>
    have hnone (ev : HttpEvent) (hev : ∀ ctx, ev.op ≠ .build ctx) :
        (⟨.build req.context, .error x⟩ : HttpEvent) ∉ [⟨.build req.context, .ok session⟩, ev] := by
      simp only [List.mem_cons, List.not_mem_nil, or_false, not_or]
      exact ⟨fun heq => by simp at heq, fun heq => hev _ (congrArg Event.op heq).symm⟩
    cases hroute : routesToMcp req.path with
    | true =>
      simp only [callNext_of_route hroute]
      exact (Prog.all_await _ _).mpr fun out hmem => absurd hmem (hnone _ (by simp))
    | false =>
      simp only [callNext_of_not_route hroute]
      exact (Prog.all_await _ _).mpr fun out hmem => absurd hmem (hnone _ (by simp))
  | error y =>
    cases y with
    | auth e =>
      rintro hmem e' rfl
      have hevent := List.mem_singleton.mp hmem
      simp only [Event.mk.injEq, heq_eq_eq, Except.error.injEq, Exn.auth.injEq, true_and] at hevent
      rw [hevent]
    | _ =>
      rintro hmem e' rfl
      have hevent := List.mem_singleton.mp hmem
      simp at hevent

end SessionMiddleware

/-- The outcome of a build is a session or an `AuthError`, for which the middleware answers a request to
a protected path with its challenge. -/
structure Challenged (ctx : RequestContext) (out : Except Exn Session) : Prop where
  raises : AuthErrorOnly out
  refusal : ∀ (m : SessionMiddleware) (req : HttpRequest) (path : String), req.context = ctx →
    urlPath m.bracketsOk (req.host ++ req.path) = .ok path → m.protects path = true →
      ∀ x, out = .error x → (m.dispatch req).All fun tr res => ⟨.build ctx, .error x⟩ ∈ tr →
        ∃ e, res = .ok (m.refusal e) ∧ (m.refusal e).statusCode ∈ [401, 403]

theorem challenged_iff {ctx : RequestContext} {out : Except Exn Session} :
    Challenged ctx out ↔ AuthErrorOnly out := by
  refine ⟨fun h => h.raises, fun h => ⟨h, ?_⟩⟩
  rintro m req path rfl hurl hpath x hx
  have hauth := h x hx
  cases x with
  | auth e =>
    refine (SessionMiddleware.dispatch_of_built hurl hpath (.auth e)).mono fun tr res hres hmem => ?_
    exact ⟨e, hres hmem e rfl, SessionMiddleware.statusCode_refusal e⟩
  | _ => cases hauth

/-- **Failing to authenticate is answered** exactly if nothing in the request, the key file and the
answers of the identity provider stands in the way of a verdict, unless the build is cancelled. -/
theorem ChainRun.challenged_iff_answerable {Key : Type} (chain : ChainSessionFactory)
    (codec : TokenCodec Key) (checker : KeyChecker) (acts : List ChainAction) :
    let s := Runs.exec (step chain codec checker) (.new chain) acts
    ∀ c ∈ s.calls, ∀ out, s.outcome c = some out → out ≠ .error Exn.cancelled →
      (Challenged c.ctx out ↔ s.Answerable chain codec checker c) := by
  intro s c hc out hout hcancelled
  have hiff := authErrorOnly_iff_answerable (Linked.exec chain codec checker acts) hc hout
  exact challenged_iff.trans (hiff.resolve_left hcancelled)

namespace ChainRun

/-! ## Two requests -/

/-- A chain that knows no API keys. -/
def exampleChain : ChainSessionFactory where
  oauth := OAuthRun.exampleFactory
  apiKey := ⟨.empty⟩

def exampleChecker : KeyChecker where
  verifyHash _ _ := .rejected
  fromIsoFormat _ := none

/-- `W10` is an empty list, and `e30` an empty object. -/
def exampleCodec : TokenCodec Unit where
  loadSegment segment :=
    if segment = "W10" then some (.arr []) else if segment = "e30" then some (.obj []) else none
  importKey _ := .error "InvalidKeyTypeError"
  decode _ _ _ := .error .badSignature

/-- The token is presented. -/
def exampleActs (token : String) : List ChainAction :=
  [.start ⟨[("Authorization", "Bearer " ++ token)], ""⟩ 0 0]

def exampleRun (token : String) : ChainRun :=
  Runs.exec (step exampleChain exampleCodec exampleChecker) (.new exampleChain) (exampleActs token)

/-- What the builds that have ended have come to. -/
def outcomes (s : ChainRun) : List (Except Exn Session) := s.calls.filterMap s.outcome

/-- A token without a key id is refused as it should be. -/
theorem challenged_iff_answerable_of_empty :
    ∃ c ∈ (exampleRun "e30.e30.e30").calls,
      (exampleRun "e30.e30.e30").outcome c = some (.error (.auth (.invalidToken "missing kid"))) ∧
      (exampleRun "e30.e30.e30").Answerable exampleChain exampleCodec exampleChecker c := by
  have hmem : .error (.auth (.invalidToken "missing kid")) ∈ outcomes (exampleRun "e30.e30.e30") := by
    decide +kernel
  obtain ⟨c, hc, hout⟩ := List.mem_filterMap.mp hmem
  have hiff := challenged_iff_answerable exampleChain exampleCodec exampleChecker
    (exampleActs "e30.e30.e30") c hc _ hout (by simp [Exn.cancelled])
  exact ⟨c, hc, hout, hiff.mp (challenged_iff.mpr (raises_error rfl))⟩

/-- A token with a header that is no object. -/
theorem not_challenged : ¬ ∀ (Key : Type) (chain : ChainSessionFactory) (codec : TokenCodec Key)
    (checker : KeyChecker) (acts : List ChainAction),
      let s := Runs.exec (step chain codec checker) (.new chain) acts
      ∀ c ∈ s.calls, ∀ out, s.outcome c = some out → out ≠ .error Exn.cancelled →
        Challenged c.ctx out := by
  intro hall
  have hmem : .error Exn.attributeError ∈ outcomes (exampleRun "W10.e30.e30") := by decide +kernel
  obtain ⟨c, hc, hout⟩ := List.mem_filterMap.mp hmem
  have hchallenged := hall _ exampleChain exampleCodec exampleChecker (exampleActs "W10.e30.e30") c hc _
    hout (by simp [Exn.attributeError, Exn.cancelled])
  exact not_authErrorOnly_error rfl hchallenged.raises

end ChainRun

end WazuhMcp
