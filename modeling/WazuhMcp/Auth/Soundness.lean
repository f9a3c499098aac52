import WazuhMcp.Auth.Audience
import WazuhMcp.Auth.JwksThrottle
import WazuhMcp.Auth.TokenFactory

/-!
# Which tokens are accepted

The issuer is read off a token before it is verified, to choose the cache in which its key is looked up,
and off the verified claims, where it is only checked to be trusted. As the two are read off one
segment, the key is one that the verified issuer has published, whatever the other trusted issuers
publish, and no cache ever asks anyone but its own issuer.

What is left open are the times: a comparison with `NaN` is false, so that an `exp` that is `NaN` has
not passed, and an `nbf` or `iat` that is `NaN` has come (`sound_iff_dated`).
-/

namespace WazuhMcp

/-- The number is at least `y`. -/
def FloatVal.AtLeast : FloatVal → ℤ → Prop
  | .fin q, y => y ≤ q
  | .inf, _ => True
  | .negInf, _ => False
  | .nan, _ => False

/-- The number is at most `y`. -/
def FloatVal.AtMost : FloatVal → ℤ → Prop
  | .fin q, y => q ≤ y
  | .inf, _ => False
  | .negInf, _ => True
  | .nan, _ => False

theorem FloatVal.ltInt_eq_false {v : FloatVal} {y : ℤ} :
    v.ltInt y = false ↔ v = .nan ∨ v.AtLeast y := by
  cases v <;> simp [ltInt, AtLeast]

theorem FloatVal.gtInt_eq_false {v : FloatVal} {y : ℤ} :
    v.gtInt y = false ↔ v = .nan ∨ v.AtMost y := by
  cases v <;> simp [gtInt, AtMost]

theorem FloatVal.not_atLeast_nan (y : ℤ) : ¬ FloatVal.nan.AtLeast y := id

theorem FloatVal.not_atMost_nan (y : ℤ) : ¬ FloatVal.nan.AtMost y := id

namespace OAuthRun

open OAuthSessionFactory TokenFactory

variable {Key : Type}

/-- What the JOSE library promises of `jwt.decode`: it verifies the signature with the key, and the
claims are the second segment of the token. -/
structure Verified (codec : TokenCodec Key) (Verifies : Key → String → Prop) : Prop where
  signature : ∀ token key algorithms claims, codec.decode token key algorithms = .ok claims →
    Verifies key token
  payload : ∀ token key algorithms claims, codec.decode token key algorithms = .ok claims →
    payloadOf codec token = some (.obj claims)

/-- The issuer has published the key under the key id, in answer to a request of its cache that went to
it. -/
def PublishedBy (s : OAuthRun) (issuer : String) (kid jwk : Json) : Prop :=
  ∃ entry h, s.caches.get issuer = some entry ∧ kid.hashed = some h ∧
    ∃ r ∈ entry.run.responses, r.Publishes h jwk ∧
      ∃ q ∈ entry.run.requests, q.caller = r.caller ∧ q.purpose = r.purpose ∧
        entry.run.SentToIssuer (.new issuer defaultTtlSeconds) q

/-- The token is one that a session may be built from. -/
structure Sound (f : TokenFactory) (codec : TokenCodec Key) (Verifies : Key → String → Prop)
    (s : OAuthRun) (now : ℤ) (token : String) (claims : JsonObject) : Prop where
  signed : ∃ header iss jwk key, headerOf codec token = some (.obj header) ∧
    claims.get "iss" = .str iss ∧ iss ∈ f.validIssuers ∧
    s.PublishedBy iss (JsonObject.get header "kid") jwk ∧ codec.importKey jwk = .ok key ∧
    Verifies key token
  algorithm : ∃ header alg, headerOf codec token = some (.obj header) ∧
    JsonObject.get header "alg" = .str alg ∧ alg ∈ f.algorithms ∧ Text.lower alg ≠ "none"
  exp : ∃ exp, (claims.get "exp").number = some exp ∧ exp.AtLeast (now - f.skew)
  nbf : ∀ nbf, (claims.get "nbf").number = some nbf → nbf.AtMost (now + f.skew)
  iat : ∀ iat, (claims.get "iat").number = some iat → iat.AtMost (now + f.skew)
  sub : (claims.get "sub").truthy = true

/-- None of the times of the token is `NaN`. -/
def Dated (claims : JsonObject) : Prop :=
  ∀ name ∈ ["exp", "nbf", "iat"], (claims.get name).number ≠ some .nan

/-- Only trusted issuers have been asked for anything. -/
def ContactsTrusted (f : TokenFactory) (s : OAuthRun) : Prop :=
  ∀ issuer entry, s.caches.get issuer = some entry → issuer ∈ f.validIssuers ∧
    ∀ q ∈ entry.run.requests, entry.run.SentToIssuer (.new issuer defaultTtlSeconds) q

variable {f : TokenFactory} {codec : TokenCodec Key} {s : OAuthRun} {Verifies : Key → String → Prop}
  {claims : JsonObject} {now : ℤ}

/-- The times that are checked are as they should be, unless they are `NaN`. -/
theorem timely_iff_of_dated (htimely : f.Timely now claims) :
    ((∃ exp, (claims.get "exp").number = some exp ∧ exp.AtLeast (now - f.skew)) ∧
      (∀ nbf, (claims.get "nbf").number = some nbf → nbf.AtMost (now + f.skew)) ∧
      ∀ iat, (claims.get "iat").number = some iat → iat.AtMost (now + f.skew)) ↔ Dated claims := by
  obtain ⟨⟨exp, hexp, hpassed⟩, hnbf, hiat⟩ := htimely
  constructor
  · rintro ⟨⟨exp', hexp', hleast⟩, hnbf', hiat'⟩ name hname hnan
    rcases (by simpa using hname : name = "exp" ∨ name = "nbf" ∨ name = "iat") with rfl | rfl | rfl
    · obtain rfl := Option.some.inj (hexp'.symm.trans hnan)
      exact FloatVal.not_atLeast_nan _ hleast
    · exact FloatVal.not_atMost_nan _ (hnbf' _ hnan)
    · exact FloatVal.not_atMost_nan _ (hiat' _ hnan)
  · intro hdated
    have hat (name : String) (hname : name ∈ ["exp", "nbf", "iat"]) (v : FloatVal)
        (hv : (claims.get name).number = some v) : v ≠ .nan := by
      rintro rfl
      exact hdated name hname hv
    refine ⟨⟨exp, hexp, ?_⟩, fun nbf hn => ?_, fun iat hi => ?_⟩
    · exact (FloatVal.ltInt_eq_false.mp hpassed).resolve_left (hat "exp" (by simp) exp hexp)
    · exact (FloatVal.gtInt_eq_false.mp (hnbf nbf hn)).resolve_left (hat "nbf" (by simp) nbf hn)
    · exact (FloatVal.gtInt_eq_false.mp (hiat iat hi)).resolve_left (hat "iat" (by simp) iat hi)

/-- The issuer that is read off an unverified payload. -/
theorem unverifiedIss_of_payload {token iss : String}
    (hpayload : payloadOf codec token = some (.obj claims)) (hiss : claims.get "iss" = .str iss) :
    unverifiedIss codec token = .ok iss := by
  unfold unverifiedIss
  rw [hpayload]
  simp only [hiss]
  rfl

/-- When a build comes to asking for a key. -/
theorem route_eq_ok {ctx : RequestContext} {token alg issuer : String} {header : JsonObject}
    {kid : Json} (hbearer : extractBearer ctx = .ok token) (hheader : headerOf codec token = some (.obj header))
    (hkid : JsonObject.get header "kid" = kid) (halg : JsonObject.get header "alg" = .str alg)
    (htruthy : kid.truthy = true ∧ alg ∈ f.algorithms)
    (hissuer : unverifiedIss codec token = .ok issuer) (htrusted : issuer ∈ f.validIssuers) :
    f.route codec ctx = .ok ⟨token, kid, issuer⟩ := by
  have hunverified : unverifiedHeader codec token = .ok (.obj header) := by
    unfold unverifiedHeader
    rw [hheader]
    rfl
  have hallows : f.allows (.str alg) = true := decide_eq_true htruthy.2
  have hkid' : (Json.obj header).getD "kid" .null = .ok kid := congrArg Except.ok hkid
  have halg' : (Json.obj header).getD "alg" .null = .ok (.str alg) := congrArg Except.ok halg
  unfold route
  simp [hbearer, hunverified, hkid', halg', htruthy.1, hallows, hissuer, htrusted, bind, Except.bind]

/-- What has happened for a session to be built. -/
theorem finish_eq_ok {lookup : KeyLookup} {out : KeyOutcome} {session : Session}
    (h : f.finish codec now lookup out = .ok session) :
    ∃ jwk key claims, out = .ok (some jwk) ∧ codec.importKey jwk = .ok key ∧
      codec.decode lookup.token key f.algorithms = .ok claims ∧ f.validateClaims now claims = .ok () ∧
      f.buildSession claims = .ok session := by
  obtain ⟨found, rfl, haccept⟩ := Fallible.bind_eq_ok.mp h
  unfold accept at haccept
  cases found with
  | none => cases haccept
  | some jwk =>
    cases hkey : codec.importKey jwk with
    | error name => simp [hkey] at haccept
    | ok key =>
      cases hclaims : codec.decode lookup.token key f.algorithms with
      | error e => simp [hkey, hclaims] at haccept
      | ok claims =>
        simp only [hkey, hclaims] at haccept
        obtain ⟨⟨⟩, hvalid, hbuild⟩ := Fallible.bind_eq_ok.mp haccept
        exact ⟨jwk, key, claims, rfl, hkey, hclaims, hvalid, hbuild⟩

theorem sent_of_isCacheOf {issuer : String} {entry : CacheEntry} (hentry : IsCacheOf issuer entry) :
    ∀ q ∈ entry.run.requests, entry.run.SentToIssuer (.new issuer defaultTtlSeconds) q := by
  obtain ⟨hcache, acts, hrun⟩ := hentry
  rw [hrun, hcache]
  exact (JwksRun.Traced.exec _ acts).sent

/-- What a cache has returned was published by its issuer. -/
theorem publishedBy_of_served {issuer : String} {entry : CacheEntry} {j : ℕ} {kid jwk : Json}
    (hget : s.caches.get issuer = some entry) (hentry : IsCacheOf issuer entry)
    (hcall : entry.run.calls[j]? = some ⟨kid, .ended (.ok (some jwk))⟩) :
    s.PublishedBy issuer kid jwk := by
  have hsent := sent_of_isCacheOf hentry
  obtain ⟨-, acts, hrun⟩ := hentry
  have htraced := JwksRun.Traced.exec entry.cache acts
  have hasked := JwksRun.asked_exec entry.cache acts
  rw [← hrun] at htraced hasked
  obtain ⟨h, hhashed, r, hr, hpublishes⟩ := htraced.served _ (List.mem_of_getElem? hcall) jwk rfl
  obtain ⟨q, hq, hcaller, hpurpose⟩ := hasked.responses r hr
  exact ⟨entry, h, hget, hhashed, r, hr, hpublishes, q, hq, hcaller, hpurpose, hsent q hq⟩

/-- **A session is built from a sound token** exactly if none of the times of the token is `NaN`, and no
untrusted issuer is ever asked. -/
theorem sound_iff_dated (f : TokenFactory) (codec : TokenCodec Key) (Verifies : Key → String → Prop)
    (hverified : Verified codec Verifies) (acts : List OAuthAction) :
    let s := Runs.exec (step f codec) (new f) acts
    s.ContactsTrusted f ∧
    ∀ b ∈ s.builds, ∀ lookup j now session, b.point = .ended lookup j now (.ok session) →
      ∃ token claims, extractBearer b.ctx = .ok token ∧ payloadOf codec token = some (.obj claims) ∧
        (s.Sound f codec Verifies now token claims ↔ Dated claims) := by
  have hlinked := Linked.exec f codec acts
  constructor
  · intro issuer entry hget
    obtain ⟨htrusted, hentry⟩ := hlinked.caches issuer entry hget
    exact ⟨htrusted, sent_of_isCacheOf hentry⟩
  · rintro ⟨ctx, point⟩ hb lookup j now session hpoint
    obtain rfl : point = _ := hpoint
    obtain ⟨hroute, entry, keyOut, hget, hcall, hout⟩ :
      Placed f codec _ ⟨ctx, .ended lookup j now (.ok session)⟩ := hlinked.builds _ hb
    obtain ⟨jwk, key, claims, rfl, hkey, hdecode, hvalid, hbuild⟩ := finish_eq_ok hout.symm
    have hroutes := routes_of_route hroute
    have hpayload := hverified.payload _ _ _ _ hdecode
    obtain ⟨⟨iss, htrusted, hiss⟩, -, htimely⟩ := validateClaims_eq_ok.mp hvalid
    -- both issuers are read off the second segment of the token
    have hissuer : iss = lookup.issuer :=
      Except.ok.inj ((unverifiedIss_of_payload hpayload hiss).symm.trans hroutes.issuer)
    refine ⟨lookup.token, claims, hroutes.bearer, hpayload, ?_⟩
    rw [← timely_iff_of_dated htimely]
    constructor
    · exact fun hsound => ⟨hsound.exp, hsound.nbf, hsound.iat⟩
    · rintro ⟨hexp, hnbf, hiat⟩
      obtain ⟨header, alg, hheader, hkid, halg, hallowed⟩ := hroutes.header
      refine ⟨⟨header, iss, jwk, key, hheader, hiss, htrusted, ?_, hkey,
        hverified.signature _ _ _ _ hdecode⟩, ⟨header, alg, hheader, halg, hallowed,
        f.signed alg hallowed⟩, hexp, hnbf, hiat, truthy_sub_of_buildSession hbuild⟩
      rw [hissuer, hkid]
      exact publishedBy_of_served hget (hlinked.caches _ _ hget).2 hcall

/-! ## Two tokens -/

/-- `{"alg":"ES256","kid":"k1"}` -/
def exampleHeader : String := "eyJhbGciOiJFUzI1NiIsImtpZCI6ImsxIn0"

/-- `{"iss":"https://idp.test","aud":"wazuh-mcp","sub":"alice","exp":2000}` -/
def datedPayload : String :=
  "eyJpc3MiOiJodHRwczovL2lkcC50ZXN0IiwiYXVkIjoid2F6dWgtbWNwIiwic3ViIjoiYWxpY2UiLCJleHAiOjIwMDB9"

/-- `{"iss":"https://idp.test","aud":"wazuh-mcp","sub":"alice","exp":NaN}` -/
def undatedPayload : String :=
  "eyJpc3MiOiJodHRwczovL2lkcC50ZXN0IiwiYXVkIjoid2F6dWgtbWNwIiwic3ViIjoiYWxpY2UiLCJleHAiOk5hTn0"

def datedSignature : String :=
  "5UpZKln-NAgofLrPTsP2DFcTvcfF4cupll_SgyK9wqGfjFOgY9FVZ73SD5EvMsgjl5WhJwWH-g62FfqVHgZMAA"

def undatedSignature : String :=
  "QDszmKPhp22ORd8nmT5mhPikU4V2Bz-9jDDb-y8bJpn4ZXB558-NmUGIQqLcV3JSYJ6_FzC7xtvsWKAqrItZNA"

def exampleToken (payload signature : String) : String :=
  Text.join '.' [exampleHeader, payload, signature]

def datedToken : String := exampleToken datedPayload datedSignature

def undatedToken : String := exampleToken undatedPayload undatedSignature

def exampleClaims (exp : Json) : JsonObject :=
  [("iss", .str "https://idp.test"), ("aud", .str "wazuh-mcp"), ("sub", .str "alice"), ("exp", exp)]

/-- The segments of the two tokens. -/
def exampleSegment (segment : String) : Option Json :=
  if segment = exampleHeader then some (.obj [("alg", .str "ES256"), ("kid", .str "k1")])
  else if segment = datedPayload then some (.obj (exampleClaims (.int 2000)))
  else if segment = undatedPayload then some (.obj (exampleClaims (.float ⟨.nan, "nan"⟩)))
  else none

/-- The coordinates of the key that has signed the two tokens. -/
def examplePoint : String × String :=
  ("Ilcd5lvr1-ZO2TKhUL6RJ4LdHQqjIyfN0EOvDM9lXGQ", "CuKM9hAP1j1HXcTnlzVdyOL8VQYYfb2Kr1g0KGAAz9A")

/-- The point of a key on a curve. -/
def examplePointOf : Json → Except String (String × String)
  | .obj jwk =>
    match JsonObject.get jwk "x", JsonObject.get jwk "y" with
    | .str x, .str y => .ok (x, y)
    | _, _ => .error "MissingKeyError"
  | _ => .error "InvalidKeyTypeError"

/-- The key verifies the two tokens, and no other is known to be signed. -/
def ExampleVerifies (key : String × String) (token : String) : Prop :=
  key = examplePoint ∧ token ∈ [datedToken, undatedToken]

instance (key : String × String) (token : String) : Decidable (ExampleVerifies key token) :=
  inferInstanceAs (Decidable (key = examplePoint ∧ token ∈ [datedToken, undatedToken]))

def exampleCodec : TokenCodec (String × String) where
  loadSegment := exampleSegment
  importKey := examplePointOf
  decode token key _ :=
    if ExampleVerifies key token then
      match ((Text.split '.' token)[1]?).bind exampleSegment with
      | some (.obj claims) => .ok claims
      | _ => .error (.other "invalid_payload")
    else .error .badSignature

theorem verified_exampleCodec : Verified exampleCodec ExampleVerifies where
  signature token key algorithms claims h := by
    by_contra hnot
    simp [exampleCodec, hnot] at h
  payload token key algorithms claims h := by
    by_cases hverifies : ExampleVerifies key token
    · simp only [exampleCodec, if_pos hverifies] at h
      unfold payloadOf
      show ((Text.split '.' token)[1]?).bind exampleSegment = _
      split at h
      · rename_i hsegment
        rw [hsegment, Except.ok.inj h]
      · cases h
    · simp [exampleCodec, hverifies] at h

/-- A factory with one tenant, for the tokens of its issuer. -/
def exampleFactory : TokenFactory where
  toOAuthSessionFactory := ofTenants
    [{ tenantId := "acme", defaultRbacRole := "readonly", oauthIssuer := some "https://idp.test" }]
    "https://idp.test" "wazuh-mcp" ["wazuh_mcp_role"] 30
  algorithms := ["ES256"]
  nonempty := by simp
  signed := by decide +kernel

/-- The session that is built for either token. -/
def exampleSession : Session where
  userId := "alice"
  tenantId := "acme"
  rbacRole := "readonly"
  authMethod := .oauth

/-- The request that presents the token. -/
def exampleContext (token : String) : RequestContext := ⟨[("Authorization", "Bearer " ++ token)], ""⟩

/-- The key that has signed the two tokens. -/
def exampleKey : Json := .obj [("kty", .str "EC"), ("crv", .str "P-256"), ("kid", .str "k1"),
  ("x", .str examplePoint.1), ("y", .str examplePoint.2)]

def discoveryAnswer : IdpAnswer :=
  .response 200 (.ok (.obj [("jwks_uri", .str "https://idp.test/certs")]))

def keySetAnswer : IdpAnswer := .response 200 (.ok (.obj [("keys", .arr [exampleKey])]))

/-- The issuer serves its key; the build ends at 1000. -/
def exampleAnswers : List OAuthAction :=
  [.cache "https://idp.test" (.answer 0 discoveryAnswer 0),
    .cache "https://idp.test" (.answer 0 keySetAnswer 0), .resume 0 1000]

/-- A run up to the end of its only build. -/
def exampleRun (token : String) : OAuthRun :=
  Runs.exec (step exampleFactory exampleCodec) (new exampleFactory)
    (.start (exampleContext token) 0 :: exampleAnswers)

/-- The token and what it holds are those of one of the two. -/
structure IsExample (payload signature : String) (exp : Json) : Prop where
  parts : ∀ part ∈ [exampleHeader, payload, signature], '.' ∉ part.toList
  last : ∃ c, signature.toList.getLast? = some c ∧ isSpace c = false
  segment : exampleSegment payload = some (.obj (exampleClaims exp))
  signed : exampleToken payload signature ∈ [datedToken, undatedToken]
  valid : exampleFactory.validateClaims 1000 (exampleClaims exp) = .ok ()
  session : exampleFactory.buildSession (exampleClaims exp) = .ok exampleSession

namespace IsExample

variable {payload signature : String} {exp : Json}

theorem split (h : IsExample payload signature exp) :
    Text.split '.' (exampleToken payload signature) = [exampleHeader, payload, signature] :=
  Text.split_join h.parts (by simp)

theorem payload_eq (h : IsExample payload signature exp) :
    payloadOf exampleCodec (exampleToken payload signature) = some (.obj (exampleClaims exp)) := by
  unfold payloadOf
  rw [h.split]
  exact h.segment

theorem header_eq (h : IsExample payload signature exp) :
    headerOf exampleCodec (exampleToken payload signature) =
      some (.obj [("alg", .str "ES256"), ("kid", .str "k1")]) := by
  unfold headerOf
  rw [h.split]
  show exampleSegment exampleHeader = _
  exact if_pos rfl

theorem bearer (h : IsExample payload signature exp) :
    extractBearer (exampleContext (exampleToken payload signature)) =
      .ok (exampleToken payload signature) := by
  have hchars : (exampleToken payload signature).toList =
      exampleHeader.toList ++ '.' :: (payload.toList ++ '.' :: signature.toList) := by
    simp [exampleToken, Text.join, List.intercalate]
  obtain ⟨last, hlast, hspace⟩ := h.last
  have hstrip :
      Text.strip isSpace (exampleToken payload signature) = exampleToken payload signature := by
    apply Text.strip_eq_self
    · rw [hchars, List.head?_append, show exampleHeader.toList.head? = some 'e' by decide +kernel]
      rintro c ⟨⟩
      decide
    · rw [hchars, List.getLast?_append, List.getLast?_cons, List.getLast?_append, List.getLast?_cons,
        hlast]
      rintro c ⟨⟩
      exact hspace
  unfold extractBearer
  have hauthorization : authorizationOf (exampleContext (exampleToken payload signature)) =
      "Bearer " ++ exampleToken payload signature := by
    have hne : "Bearer " ++ exampleToken payload signature ≠ "" := by
      intro hempty
      simpa [String.toList_append] using congrArg String.toList hempty
    unfold authorizationOf exampleContext
    simp [Dict.get, Dict.lookup_cons, hne]
  rw [hauthorization, bearerText_eq hstrip]
  rfl

theorem route (h : IsExample payload signature exp) :
    exampleFactory.route exampleCodec (exampleContext (exampleToken payload signature)) =
      .ok ⟨exampleToken payload signature, .str "k1", "https://idp.test"⟩ := by
  apply route_eq_ok (f := exampleFactory) h.bearer h.header_eq rfl rfl (by decide +kernel)
    (unverifiedIss_of_payload h.payload_eq rfl)
  decide +kernel

theorem finish (h : IsExample payload signature exp) {jwk : Json}
    (hjwk : examplePointOf jwk = .ok examplePoint) : exampleFactory.finish exampleCodec 1000
      ⟨exampleToken payload signature, .str "k1", "https://idp.test"⟩ (.ok (some jwk)) =
        .ok exampleSession := by
  have hdecode : exampleCodec.decode (exampleToken payload signature) examplePoint
      exampleFactory.algorithms = .ok (exampleClaims exp) := by
    have hverifies : ExampleVerifies examplePoint (exampleToken payload signature) := ⟨rfl, h.signed⟩
    simp only [exampleCodec, if_pos hverifies, h.split]
    simp [h.segment]
  have himport : exampleCodec.importKey jwk = .ok examplePoint := hjwk
  show exampleFactory.accept exampleCodec 1000 _ (some jwk) = _
  unfold accept
  simp only [himport, hdecode, h.valid, h.session, bind, Except.bind]

/-- The cache of the issuer once it has served the key. -/
def exampleEntry : CacheEntry :=
  (((CacheEntry.new "https://idp.test").step (.start (.str "k1") 0)).step
    (.answer 0 discoveryAnswer 0)).step (.answer 0 keySetAnswer 0)

theorem outcome_exampleEntry : ∃ jwk, exampleEntry.outcome 0 = some (.ok (some jwk)) ∧
    examplePointOf jwk = .ok examplePoint := by
  have hpoint : (exampleEntry.outcome 0).map (fun out => out.map fun key => key.map examplePointOf) =
      some (.ok (some (.ok examplePoint))) := by
    decide +kernel
  obtain ⟨out, hout, heq⟩ := Option.map_eq_some_iff.mp hpoint
  rcases out with x | - | jwk
  · cases heq
  · cases heq
  · exact ⟨jwk, hout, Option.some.inj (Except.ok.inj heq)⟩

/-- A session is built for the token at 1000. -/
theorem built (h : IsExample payload signature exp) :
    ∃ lookup, ⟨exampleContext (exampleToken payload signature),
      .ended lookup 0 1000 (.ok exampleSession)⟩ ∈ (exampleRun (exampleToken payload signature)).builds := by
  obtain ⟨jwk, houtcome, hjwk⟩ := outcome_exampleEntry
  set ctx := exampleContext (exampleToken payload signature)
  set lookup : KeyLookup := ⟨exampleToken payload signature, .str "k1", "https://idp.test"⟩
  let s (entry : CacheEntry) : OAuthRun := ⟨[("https://idp.test", entry)], [⟨ctx, .fetching lookup 0⟩]⟩
  have hstart : (new exampleFactory).step exampleFactory exampleCodec (.start ctx 0) =
      s ((CacheEntry.new "https://idp.test").step (.start (.str "k1") 0)) := by
    show (new exampleFactory).startBuild exampleFactory exampleCodec ctx 0 = _
    unfold startBuild
    rw [h.route]
    rfl
  have hcache (entry : CacheEntry) (i : ℕ) (ans : IdpAnswer) :
      (s entry).step exampleFactory exampleCodec (.cache "https://idp.test" (.answer i ans 0)) =
        s (entry.step (.answer i ans 0)) := rfl
  have hresume : ((s exampleEntry).step exampleFactory exampleCodec (.resume 0 1000)).builds =
      [⟨ctx, .ended lookup 0 1000 (.ok exampleSession)⟩] := by
    have hget : (s exampleEntry).caches.get lookup.issuer = some exampleEntry := by
      show Dict.get [("https://idp.test", exampleEntry)] "https://idp.test" = _
      rw [Dict.get, Dict.lookup_cons, if_pos rfl]
    have hbuild : (s exampleEntry).builds[0]? = some ⟨ctx, .fetching lookup 0⟩ := rfl
    show ((s exampleEntry).resumeBuild exampleFactory exampleCodec 0 1000).builds = _
    unfold resumeBuild
    simp only [hbuild, hget, Option.bind_some, houtcome]
    rw [h.finish hjwk]
    rfl
  refine ⟨lookup, ?_⟩
  unfold exampleRun exampleAnswers
  simp only [Runs.exec, List.foldl_cons, List.foldl_nil]
  rw [hstart, hcache, hcache]
  exact hresume ▸ List.mem_cons_self

end IsExample

theorem isExample_dated : IsExample datedPayload datedSignature (.int 2000) where
  parts := by simp; decide +kernel
  last := ⟨'A', by decide +kernel⟩
  segment := by
    have hne : datedPayload ≠ exampleHeader := by decide +kernel
    simp [exampleSegment, hne]
  signed := List.mem_cons_self
  valid := by decide +kernel
  session := by decide +kernel

theorem isExample_undated : IsExample undatedPayload undatedSignature (.float ⟨.nan, "nan"⟩) where
  parts := by simp; decide +kernel
  last := ⟨'A', by decide +kernel⟩
  segment := by
    have hne : undatedPayload ≠ exampleHeader ∧ undatedPayload ≠ datedPayload := by decide +kernel
    simp [exampleSegment, hne]
  signed := List.mem_cons_of_mem _ List.mem_cons_self
  valid := by decide +kernel
  session := by decide +kernel

/-- The token that expires at 2000 is accepted at 1000, and is sound. -/
theorem sound_iff_dated_of_datedToken :
    ∃ b ∈ (exampleRun datedToken).builds,
      (∃ lookup j, b.point = .ended lookup j 1000 (.ok exampleSession)) ∧
      (exampleRun datedToken).Sound exampleFactory exampleCodec ExampleVerifies 1000 datedToken
        (exampleClaims (.int 2000)) := by
  obtain ⟨lookup, hb⟩ := isExample_dated.built
  obtain ⟨token, claims, htoken, hpayload, hiff⟩ := (sound_iff_dated exampleFactory exampleCodec
    ExampleVerifies verified_exampleCodec _).2 _ hb lookup 0 _ _ rfl
  obtain rfl := Except.ok.inj (isExample_dated.bearer.symm.trans htoken)
  rw [isExample_dated.payload_eq] at hpayload
  obtain rfl := Json.obj.inj (Option.some.inj hpayload)
  refine ⟨_, hb, ⟨lookup, 0, rfl⟩, hiff.mpr ?_⟩
  intro name hname
  rcases (by simpa using hname : name = "exp" ∨ name = "nbf" ∨ name = "iat") with rfl | rfl | rfl <;>
    decide +kernel

/-- A token that is verified, and never expires. -/
theorem not_sound : ¬ ∀ (Key : Type) (f : TokenFactory) (codec : TokenCodec Key)
    (Verifies : Key → String → Prop), Verified codec Verifies → ∀ acts,
      let s := Runs.exec (step f codec) (new f) acts
      s.ContactsTrusted f ∧
      ∀ b ∈ s.builds, ∀ lookup j now session, b.point = .ended lookup j now (.ok session) →
        ∃ token claims, extractBearer b.ctx = .ok token ∧ payloadOf codec token = some (.obj claims) ∧
          s.Sound f codec Verifies now token claims := by
  intro hall
  obtain ⟨lookup, hb⟩ := isExample_undated.built
  obtain ⟨token, claims, htoken, hpayload, hsound⟩ := (hall _ exampleFactory exampleCodec
    ExampleVerifies verified_exampleCodec _).2 _ hb lookup 0 _ _ rfl
  obtain rfl := Except.ok.inj (isExample_undated.bearer.symm.trans htoken)
  rw [isExample_undated.payload_eq] at hpayload
  obtain rfl := Json.obj.inj (Option.some.inj hpayload)
  obtain ⟨exp, hexp, hleast⟩ := hsound.exp
  obtain rfl : FloatVal.nan = exp := Option.some.inj hexp
  exact FloatVal.not_atLeast_nan _ hleast

end OAuthRun

end WazuhMcp
