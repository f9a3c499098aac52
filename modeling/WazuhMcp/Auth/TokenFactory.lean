import WazuhMcp.Auth.JwksCalls
import WazuhMcp.Auth.OAuth
import WazuhMcp.Transport.Http

/-!
# From a bearer token to a session

`OAuthSessionFactory.build` reads the key id and the issuer off the token before anything is verified,
asks the JWKS cache of that issuer for the key, and then verifies the token and checks its claims. Each
trusted issuer has a cache of its own, made for the first token that names it.

A run is a list of steps of any number of builds and of the caches of all issuers: a build up to the
call of `get_key`, a step of one of the caches, and a build from the end of that call on. What the JOSE
library does with keys and tokens, and how a segment of a token is decoded, are parameters.
-/

namespace WazuhMcp

/-- How `jwt.decode` fails: by `ExpiredTokenError`, `BadSignatureError` or another `Exception`. -/
inductive DecodeError where
  | expired (detail : String)
  | badSignature
  | other (detail : String)

/-- What `build` raises for it. -/
def DecodeError.authError : DecodeError → AuthError
  | .expired detail => .expiredToken detail
  | .badSignature => .invalidToken "bad signature"
  | .other detail => .invalidToken detail

/-- What the factory does not do itself. -/
structure TokenCodec (Key : Type) where
  /-- `json.loads(base64.urlsafe_b64decode(segment + pad))`, if it does not raise -/
  loadSegment : String → Option Json
  /-- `JWKRegistry.import_key(jwk)`, or the class of the exception that it raises -/
  importKey : Json → Except String Key
  /-- `jwt.decode(token, key, algorithms=…).claims` -/
  decode : String → Key → List String → Except DecodeError JsonObject

/-- `OAuthSessionFactory`, with the signing algorithms that it allows. -/
structure TokenFactory extends OAuthSessionFactory where
  algorithms : List String
  nonempty : algorithms ≠ []
  signed : ∀ a ∈ algorithms, Text.lower a ≠ "none"

/-- What a token says of itself before it is verified. -/
structure KeyLookup where
  token : String
  kid : Json
  issuer : String

namespace TokenFactory

/-- `OAuthSessionFactory(...)` -/
def new (issuer audience : String) (algorithms rbacClaims : List String) (index : IssuerIndex)
    (skew : ℤ) : Except Exn TokenFactory :=
  if hnone : ∃ a ∈ algorithms, Text.lower a = "none" then .error Exn.valueError
  else if hempty : algorithms = [] then .error Exn.valueError
  else .ok
    { toOAuthSessionFactory := .new issuer audience rbacClaims index skew
      algorithms := algorithms
      nonempty := hempty
      signed := fun a ha h => hnone ⟨a, ha, h⟩ }

/-- `headers.get("Authorization") or headers.get("authorization") or ""` -/
def authorizationOf (ctx : RequestContext) : String :=
  match ctx.headers.get "Authorization" with
  | some auth => if auth = "" then (ctx.headers.get "authorization").getD "" else auth
  | none => (ctx.headers.get "authorization").getD ""

/-- The text after `Bearer `, which the header must begin with. -/
def bearerText (auth : String) : Option String :=
  if Text.startsWith auth "Bearer " then
    some (Text.strip isSpace (String.ofList (auth.toList.drop "Bearer ".length)))
  else none

theorem bearerText_eq {token : String} (h : Text.strip isSpace token = token) :
    bearerText ("Bearer " ++ token) = some token := by
  have hstart : Text.startsWith ("Bearer " ++ token) "Bearer " = true := by
    simp [Text.startsWith, String.toList_append]
  have hdrop : ("Bearer " ++ token).toList.drop "Bearer ".length = token.toList := by
    rw [String.toList_append]
    exact List.drop_left' rfl
  unfold bearerText
  rw [if_pos hstart, hdrop, String.ofList_toList, h]

/-- `_extract_bearer(ctx)` -/
def extractBearer (ctx : RequestContext) : Except Exn String :=
  (bearerText (authorizationOf ctx)).elim (.error (.auth (.invalidToken "missing bearer"))) .ok

section Codec

variable {Key : Type} (codec : TokenCodec Key) (f : TokenFactory)

/-- The header of a token, if its first segment can be decoded. -/
def headerOf (token : String) : Option Json :=
  (Text.split '.' token)[0]?.bind codec.loadSegment

/-- The payload of a token, if it has a second segment and that can be decoded. -/
def payloadOf (token : String) : Option Json :=
  (Text.split '.' token)[1]?.bind codec.loadSegment

/-- `_unverified_header(token)` -/
def unverifiedHeader (token : String) : Except Exn Json :=
  (headerOf codec token).elim (.error (.auth (.invalidToken "malformed JWT"))) .ok

/-- `_unverified_iss(token)`: whatever is raised in it is turned into an `InvalidToken`. -/
def unverifiedIss (token : String) : Except Exn String :=
  match payloadOf codec token with
  | some (.obj payload) =>
    match JsonObject.get payload "iss" with
    | .null => .ok ""
    | iss => .ok iss.pyStr
  | _ => .error (.auth (.invalidToken "malformed JWT payload"))

/-- `alg in self._algorithms` -/
def allows : Json → Bool
  | .str alg => alg ∈ f.algorithms
  | _ => false

/-- `build(ctx)` up to the call of `get_key`. -/
def route (ctx : RequestContext) : Except Exn KeyLookup := do
  let token ← extractBearer ctx
  let header ← unverifiedHeader codec token
  let kid ← header.getD "kid" .null
  if !kid.truthy then
    .error (.auth (.invalidToken "missing kid"))
  else
    let alg ← header.getD "alg" .null
    if !f.allows alg then
      .error (.auth (.invalidToken ("disallowed alg " ++ alg.pyRepr)))
    else
      let issuer ← unverifiedIss codec token
      if issuer ∉ f.validIssuers then
        .error (.auth (.invalidToken ("issuer not trusted: " ++ Json.reprStr issuer)))
      else
        .ok ⟨token, kid, issuer⟩

/-- `build(ctx)` with what `get_key` has returned. -/
def accept (now : ℤ) (lookup : KeyLookup) (found : Option Json) : Except Exn Session :=
  match found with
  | none => .error (.auth (.invalidToken ("unknown kid " ++ lookup.kid.pyRepr)))
  | some jwk =>
    match codec.importKey jwk with
    | .error name => .error (.exception name)
    | .ok key =>
      match codec.decode lookup.token key f.algorithms with
      | .error e => .error (.auth e.authError)
      | .ok claims => do
        f.validateClaims now claims
        f.buildSession claims

/-- `build(ctx)` from the end of `get_key` on. -/
def finish (now : ℤ) (lookup : KeyLookup) (out : KeyOutcome) : Except Exn Session := do
  f.accept codec now lookup (← out)

/-- What is known of a token for which a key is asked. -/
structure Routes (ctx : RequestContext) (lookup : KeyLookup) : Prop where
  bearer : extractBearer ctx = .ok lookup.token
  header : ∃ header alg, headerOf codec lookup.token = some (.obj header) ∧
    JsonObject.get header "kid" = lookup.kid ∧ JsonObject.get header "alg" = .str alg ∧
    alg ∈ f.algorithms
  issuer : unverifiedIss codec lookup.token = .ok lookup.issuer
  trusted : lookup.issuer ∈ f.validIssuers

variable {codec f}

theorem mem_algorithms_of_allows {alg : Json} (h : f.allows alg) :
    ∃ a, alg = .str a ∧ a ∈ f.algorithms := by
  cases alg with
  | str a => exact ⟨a, rfl, of_decide_eq_true h⟩
  | _ => cases h

theorem routes_of_route {ctx : RequestContext} {lookup : KeyLookup}
    (h : f.route codec ctx = .ok lookup) : f.Routes codec ctx lookup := by
  unfold route at h
  obtain ⟨token, htoken, h⟩ := Fallible.bind_eq_ok.mp h
  obtain ⟨header, hheader, h⟩ := Fallible.bind_eq_ok.mp h
  obtain ⟨kid, hkid, h⟩ := Fallible.bind_eq_ok.mp h
  split at h
  · cases h
  · obtain ⟨alg, halg, h⟩ := Fallible.bind_eq_ok.mp h
    split at h
    · cases h
    · rename_i hallows
      obtain ⟨issuer, hissuer, h⟩ := Fallible.bind_eq_ok.mp h
      split at h
      · cases h
      · rename_i htrusted
        obtain rfl := Except.ok.inj h
        obtain ⟨d, rfl, hd⟩ := Json.getD_eq_ok.mp hkid
        obtain ⟨d', heq, hd'⟩ := Json.getD_eq_ok.mp halg
        obtain rfl := Json.obj.inj heq
        obtain ⟨a, rfl, ha⟩ := mem_algorithms_of_allows (f := f) (by simpa using hallows)
        refine ⟨htoken, ⟨d, a, ?_, hd, hd', ha⟩, hissuer, not_not.mp htrusted⟩
        unfold unverifiedHeader at hheader
        cases hload : headerOf codec token with
        | none =>
          rw [hload] at hheader
          cases hheader
        | some x =>
          rw [hload] at hheader
          exact congrArg some (Except.ok.inj hheader)

end Codec

end TokenFactory

/-! ## Runs -/

/-- A JWKS cache at work. -/
structure CacheEntry where
  cache : JwksCache
  run : JwksRun

/-- `DEFAULT_TTL_SECONDS` -/
def defaultTtlSeconds : ℤ := 600

namespace CacheEntry

/-- `JwksCache(issuer=issuer)` -/
def new (issuer : String) : CacheEntry := ⟨.new issuer defaultTtlSeconds, {}⟩

/-- A step of the cache. -/
def step (entry : CacheEntry) (a : JwksAction) : CacheEntry :=
  { entry with run := entry.run.step entry.cache a }

/-- What call `j` of `get_key` has come to, if it has ended. -/
def outcome (entry : CacheEntry) (j : ℕ) : Option KeyOutcome :=
  match entry.run.calls[j]? with
  | some ⟨_, .ended out⟩ => some out
  | _ => none

end CacheEntry

/-- Where a build is: refused before a key was asked for, awaiting call `j` of `get_key` of the cache of
the issuer, or ended at some time. -/
inductive BuildPoint where
  | refused (x : Exn)
  | fetching (lookup : KeyLookup) (j : ℕ)
  | ended (lookup : KeyLookup) (j : ℕ) (now : ℤ) (out : Except Exn Session)

/-- What the build has come to, if it has ended. -/
def BuildPoint.outcome : BuildPoint → Option (Except Exn Session)
  | .refused x => some (.error x)
  | .fetching _ _ => none
  | .ended _ _ _ out => some out

/-- A call of `build(ctx)`. -/
structure BuildCall where
  ctx : RequestContext
  point : BuildPoint

/-- The caches of the issuers, and the builds. -/
structure OAuthRun where
  caches : Dict String CacheEntry
  builds : List BuildCall

/-- A step of a run. -/
inductive OAuthAction where
  /-- a call of `build(ctx)`; the reading of the clock is that of the cache, if it comes to one -/
  | start (ctx : RequestContext) (now : ℚ)
  /-- a step of the cache of the issuer other than a call of `get_key` -/
  | cache (issuer : String) (a : JwksAction)
  /-- build `i` goes on when its `get_key` has ended, at `time.time()` -/
  | resume (i : ℕ) (now : ℤ)

namespace OAuthRun

variable {Key : Type} (f : TokenFactory) (codec : TokenCodec Key) (s : OAuthRun)

/-- The factory as it is built: with the cache of its own issuer. -/
def new : OAuthRun := ⟨[(f.issuer, .new f.issuer)], []⟩

/-- `_jwks_for(issuer)`: the cache of the issuer, made if it is not there yet. -/
def jwksFor (issuer : String) : CacheEntry := (s.caches.get issuer).getD (.new issuer)

def setCache (issuer : String) (entry : CacheEntry) : OAuthRun :=
  { s with caches := s.caches.set issuer entry }

def addBuild (b : BuildCall) : OAuthRun := { s with builds := s.builds ++ [b] }

def setBuild (i : ℕ) (b : BuildCall) : OAuthRun := { s with builds := s.builds.set i b }

/-- A call of `build(ctx)`, up to its first await. -/
def startBuild (ctx : RequestContext) (now : ℚ) : OAuthRun :=
  match f.route codec ctx with
  | .error x => s.addBuild ⟨ctx, .refused x⟩
  | .ok lookup =>
    let entry := s.jwksFor lookup.issuer
    (s.setCache lookup.issuer (entry.step (.start lookup.kid now))).addBuild
      ⟨ctx, .fetching lookup entry.run.calls.length⟩

/-- A step of the cache of the issuer. -/
def stepCache (issuer : String) (a : JwksAction) : OAuthRun :=
  match s.caches.get issuer with
  | some entry => s.setCache issuer (entry.step a)
  | none => s

/-- Build `i` goes on, if its `get_key` has ended. -/
def resumeBuild (i : ℕ) (now : ℤ) : OAuthRun :=
  match s.builds[i]? with
  | some ⟨ctx, .fetching lookup j⟩ =>
    match (s.caches.get lookup.issuer).bind (·.outcome j) with
    | some out => s.setBuild i ⟨ctx, .ended lookup j now (f.finish codec now lookup out)⟩
    | none => s
  | _ => s

/-- One step of a run. -/
def step : OAuthAction → OAuthRun
  | .start ctx now => s.startBuild f codec ctx now
  | .cache _ (.start _ _) => s
  | .cache issuer a => s.stepCache issuer a
  | .resume i now => s.resumeBuild f codec i now

/-! ## Builds stay where they are -/

section Kept

variable {f codec s}

/-- A build is still there after a step, for its request. -/
theorem get_builds_step (a : OAuthAction) {i : ℕ} {ctx : RequestContext} {point : BuildPoint}
    (h : s.builds[i]? = some ⟨ctx, point⟩) :
    ∃ point', (s.step f codec a).builds[i]? = some ⟨ctx, point'⟩ := by
  have hlt := (List.getElem?_eq_some_iff.mp h).1
  cases a with
  | start ctx' now =>
    refine ⟨point, ?_⟩
    show (s.startBuild f codec ctx' now).builds[i]? = _
    unfold startBuild
    cases f.route codec ctx' with
    | error x => exact (List.getElem?_append_left hlt).trans h
    | ok lookup => exact (List.getElem?_append_left hlt).trans h
  | cache issuer a =>
    refine ⟨point, ?_⟩
    cases a with
    | start kid now => exact h
    | _ =>
      show (s.stepCache issuer _).builds[i]? = _
      unfold stepCache
      cases s.caches.get issuer <;> exact h
  | resume j now =>
    show ∃ point', (s.resumeBuild f codec j now).builds[i]? = _
    unfold resumeBuild
    split
    · rename_i ctx' lookup k hj
      split
      · by_cases hij : j = i
        · subst hij
          obtain ⟨rfl, -⟩ := BuildCall.mk.inj (Option.some.inj (hj.symm.trans h))
          exact ⟨_, List.getElem?_set_self hlt⟩
        · exact ⟨point, (List.getElem?_set_ne hij).trans h⟩
      · exact ⟨point, h⟩
    · exact ⟨point, h⟩

/-- A build that starts is the last one. -/
theorem get_builds_start (ctx : RequestContext) (now : ℚ) :
    ∃ point, (s.step f codec (.start ctx now)).builds[s.builds.length]? = some ⟨ctx, point⟩ := by
  show ∃ point, (s.startBuild f codec ctx now).builds[s.builds.length]? = _
  unfold startBuild
  cases f.route codec ctx with
  | error x => exact ⟨_, List.getElem?_concat_length⟩
  | ok lookup => exact ⟨_, List.getElem?_concat_length⟩

end Kept

/-! ## What holds of every run -/

/-- A cache of the issuer, at some point of a run of it. -/
structure IsCacheOf (issuer : String) (entry : CacheEntry) : Prop where
  cache : entry.cache = .new issuer defaultTtlSeconds
  run : ∃ acts, entry.run = Runs.exec (JwksRun.step entry.cache) {} acts

/-- The build is where its token, the call of `get_key` and what came of it have brought it. -/
def Placed (b : BuildCall) : Prop :=
  match b.point with
  | .refused x => f.route codec b.ctx = .error x
  | .fetching lookup j =>
    f.route codec b.ctx = .ok lookup ∧ ∃ entry point, s.caches.get lookup.issuer = some entry ∧
      entry.run.calls[j]? = some ⟨lookup.kid, point⟩
  | .ended lookup j now out =>
    f.route codec b.ctx = .ok lookup ∧ ∃ entry keyOut, s.caches.get lookup.issuer = some entry ∧
      entry.run.calls[j]? = some ⟨lookup.kid, .ended keyOut⟩ ∧ out = f.finish codec now lookup keyOut

/-- The caches are those of trusted issuers, and the builds are where they have been brought. -/
structure Linked : Prop where
  caches : ∀ issuer entry, s.caches.get issuer = some entry →
    issuer ∈ f.validIssuers ∧ IsCacheOf issuer entry
  builds : ∀ b ∈ s.builds, s.Placed f codec b

variable {f codec s}

theorem isCacheOf_new (issuer : String) : IsCacheOf issuer (.new issuer) := ⟨rfl, [], rfl⟩

theorem IsCacheOf.step {issuer : String} {entry : CacheEntry} (h : IsCacheOf issuer entry)
    (a : JwksAction) : IsCacheOf issuer (entry.step a) := by
  obtain ⟨hcache, acts, hrun⟩ := h
  refine ⟨hcache, acts ++ [a], ?_⟩
  show entry.run.step entry.cache a = Runs.exec (JwksRun.step entry.cache) {} (acts ++ [a])
  rw [Runs.exec_append_singleton, ← hrun]

theorem get_of_outcome {entry : CacheEntry} {j : ℕ} {kid : Json} {point : KeyPoint} {out : KeyOutcome}
    (hcall : entry.run.calls[j]? = some ⟨kid, point⟩) (hout : entry.outcome j = some out) :
    entry.run.calls[j]? = some ⟨kid, .ended out⟩ := by
  unfold CacheEntry.outcome at hout
  rw [hcall] at hout
  cases point with
  | ended out' =>
    obtain rfl : out' = out := Option.some.inj hout
    exact hcall
  | _ => cases hout

namespace Linked

theorem jwksFor (h : Linked f codec s) (issuer : String) : IsCacheOf issuer (s.jwksFor issuer) := by
  unfold OAuthRun.jwksFor
  cases hget : s.caches.get issuer with
  | none => exact isCacheOf_new issuer
  | some entry => exact (h.caches issuer entry hget).2

/-- A step of a cache leaves the calls of all builds where they can be found. -/
theorem getCall (issuer : String) (a : JwksAction) {issuer' : String} {entry : CacheEntry} {j : ℕ}
    {kid : Json} {point : KeyPoint} (hget : s.caches.get issuer' = some entry)
    (hcall : entry.run.calls[j]? = some ⟨kid, point⟩) :
    ∃ entry' point', (s.setCache issuer ((s.jwksFor issuer).step a)).caches.get issuer' = some entry' ∧
      entry'.run.calls[j]? = some ⟨kid, point'⟩ ∧ ∀ out, point = .ended out → point' = .ended out := by
  show ∃ entry' point', (s.caches.set issuer _).get issuer' = some entry' ∧ _
  by_cases hissuer : issuer' = issuer
  · subst hissuer
    have hentry : s.jwksFor issuer' = entry := by rw [OAuthRun.jwksFor, hget]; rfl
    obtain ⟨point', hcall', hended⟩ := JwksRun.kept_step entry.cache entry.run a j kid point hcall
    exact ⟨_, point', Dict.get_set_self _ _ _, hentry ▸ hcall', hended⟩
  · exact ⟨entry, point, (Dict.get_set_of_ne _ hissuer _).trans hget, hcall, fun _ hout => hout⟩

theorem setCache (h : Linked f codec s) {issuer : String} (hissuer : issuer ∈ f.validIssuers)
    (a : JwksAction) : Linked f codec (s.setCache issuer ((s.jwksFor issuer).step a)) where
  caches issuer' entry hget := by
    have hset : (s.caches.set issuer ((s.jwksFor issuer).step a)).get issuer' = some entry := hget
    rw [Dict.get_set] at hset
    split at hset
    · rename_i heq
      obtain rfl := Option.some.inj hset
      subst heq
      exact ⟨hissuer, (h.jwksFor issuer').step a⟩
    · exact h.caches issuer' entry hset
  builds b hb := by
    obtain ⟨ctx, point⟩ := b
    have hplaced : s.Placed f codec ⟨ctx, point⟩ := h.builds _ hb
    cases point with
    | refused x => exact hplaced
    | fetching lookup j =>
      obtain ⟨hroute, entry, point, hget, hcall⟩ := hplaced
      obtain ⟨entry', point', hget', hcall', -⟩ := getCall issuer a hget hcall
      exact ⟨hroute, entry', point', hget', hcall'⟩
    | ended lookup j now out =>
      obtain ⟨hroute, entry, keyOut, hget, hcall, hout⟩ := hplaced
      obtain ⟨entry', point', hget', hcall', hended⟩ := getCall issuer a hget hcall
      obtain rfl := hended keyOut rfl
      exact ⟨hroute, entry', keyOut, hget', hcall', hout⟩

theorem addBuild (h : Linked f codec s) {b : BuildCall} (hb : s.Placed f codec b) :
    Linked f codec (s.addBuild b) where
  caches := h.caches
  builds b' hb' := by
    rcases List.mem_append.mp hb' with hold | hnew
    · exact h.builds b' hold
    · obtain rfl := List.mem_singleton.mp hnew
      exact hb

theorem setBuild (h : Linked f codec s) {i : ℕ} {b : BuildCall} (hb : s.Placed f codec b) :
    Linked f codec (s.setBuild i b) where
  caches := h.caches
  builds b' hb' := by
    rcases List.mem_or_eq_of_mem_set hb' with hold | rfl
    · exact h.builds b' hold
    · exact hb

theorem stepCache (h : Linked f codec s) (issuer : String) (a : JwksAction) :
    Linked f codec (s.stepCache issuer a) := by
  unfold OAuthRun.stepCache
  cases hget : s.caches.get issuer with
  | none => exact h
  | some entry =>
    have hentry : s.jwksFor issuer = entry := by rw [OAuthRun.jwksFor, hget]; rfl
    rw [← hentry]
    exact h.setCache (h.caches issuer entry hget).1 a

theorem startBuild (h : Linked f codec s) (ctx : RequestContext) (now : ℚ) :
    Linked f codec (s.startBuild f codec ctx now) := by
  unfold OAuthRun.startBuild
  cases hroute : f.route codec ctx with
  | error x => exact h.addBuild hroute
  | ok lookup =>
    refine (h.setCache (TokenFactory.routes_of_route hroute).trusted _).addBuild ⟨hroute, ?_⟩
    obtain ⟨point, hcall⟩ := JwksRun.get_step_start (s.jwksFor lookup.issuer).cache
      (s.jwksFor lookup.issuer).run lookup.kid now
    exact ⟨_, point, Dict.get_set_self _ _ _, hcall⟩

theorem resumeBuild (h : Linked f codec s) (i : ℕ) (now : ℤ) :
    Linked f codec (s.resumeBuild f codec i now) := by
  unfold OAuthRun.resumeBuild
  split
  · rename_i ctx lookup j hbuild
    cases hout : (s.caches.get lookup.issuer).bind (·.outcome j) with
    | none => exact h
    | some out =>
      obtain ⟨entry, hget, hentry⟩ := Option.bind_eq_some_iff.mp hout
      have hplaced : s.Placed f codec ⟨ctx, .fetching lookup j⟩ :=
        h.builds _ (List.mem_of_getElem? hbuild)
      obtain ⟨hroute, entry', point, hget', hcall⟩ := hplaced
      obtain rfl : entry = entry' := Option.some.inj (hget.symm.trans hget')
      exact h.setBuild ⟨hroute, entry, out, hget, get_of_outcome hcall hentry, rfl⟩
  · exact h

/-- **Every step keeps the run together.** -/
theorem step (h : Linked f codec s) (a : OAuthAction) : Linked f codec (s.step f codec a) := by
  cases a with
  | start ctx now => exact h.startBuild ctx now
  | cache issuer a =>
    cases a with
    | start kid now => exact h
    | _ => exact h.stepCache issuer _
  | resume i now => exact h.resumeBuild i now

theorem new (f : TokenFactory) (codec : TokenCodec Key) : Linked f codec (.new f) where
  caches issuer entry hget := by
    have hget' : (if issuer = f.issuer then some (.new f.issuer) else none) = some entry := by
      simpa [OAuthRun.new, Dict.get, Dict.lookup_cons] using hget
    split at hget'
    · rename_i heq
      obtain rfl := Option.some.inj hget'
      rw [heq]
      exact ⟨List.mem_cons_self, isCacheOf_new f.issuer⟩
    · cases hget'
  builds b hb := by cases hb

theorem exec (f : TokenFactory) (codec : TokenCodec Key) (acts : List OAuthAction) :
    Linked f codec (Runs.exec (OAuthRun.step f codec) (.new f) acts) :=
  Runs.exec_invariant (new f codec) (fun _ a h => h.step a) acts

end Linked

end OAuthRun

end WazuhMcp
