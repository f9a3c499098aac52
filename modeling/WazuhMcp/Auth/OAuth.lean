import WazuhMcp.Auth.Session
import WazuhMcp.Base.Json
import WazuhMcp.Tenancy.IssuerIndex

/-!
# OAuth sessions

`OAuthSessionFactory` accepts the claims of a token whose signature has been verified
(`validateClaims`) and builds a session from them (`buildSession`). The tenant of the session comes
from the `tenant_id` claim when there is one, and else from the issuer.

A claim that names a tenant registered under another issuer is refused when the token's issuer
belongs to one tenant alone. When it belongs to none, as the global issuer may, or to several, there
is no tenant to compare with, and the claim is taken as it stands: `issuerBound_iff` says that these
are exactly the tokens that cross the boundary between issuers.
-/

namespace WazuhMcp

/-- The characters that `str.strip()` removes. -/
def isSpace (c : Char) : Bool :=
  let n := c.toNat
  (0x09 ≤ n && n ≤ 0x0d) || (0x1c ≤ n && n ≤ 0x20) || n == 0x85 || n == 0xa0 || n == 0x1680 ||
    (0x2000 ≤ n && n ≤ 0x200a) || n == 0x2028 || n == 0x2029 || n == 0x202f || n == 0x205f ||
    n == 0x3000

/-- `OAuthSessionFactory`, as far as claims go. -/
structure OAuthSessionFactory where
  issuer : String
  audience : String
  rbacClaims : List String
  index : IssuerIndex
  skew : ℤ

namespace OAuthSessionFactory

/-- `OAuthSessionFactory(...)` -/
def new (issuer audience : String) (rbacClaims : List String) (index : IssuerIndex) (skew : ℤ) :
    OAuthSessionFactory where
  issuer := canonicalise issuer
  audience := audience
  rbacClaims := rbacClaims
  index := index
  skew := skew

/-- `self._valid_issuers` -/
def validIssuers (f : OAuthSessionFactory) : List String := f.issuer :: f.index.knownIssuers

/-- The issuer check of `_validate_claims`: membership in a set of strings, which raises on an
unhashable value. -/
def checkIssuer (f : OAuthSessionFactory) (claims : JsonObject) : Except Exn Unit :=
  match claims.get "iss" with
  | .arr _ => .error Exn.typeError
  | .obj _ => .error Exn.typeError
  | .str iss =>
    if iss ∈ f.validIssuers then .ok ()
    else .error (.auth (.invalidToken ("issuer mismatch: " ++ Json.reprStr iss)))
  | iss => .error (.auth (.invalidToken ("issuer mismatch: " ++ iss.pyRepr)))

/-- The audience check of `_validate_claims`. -/
def checkAudience (f : OAuthSessionFactory) (claims : JsonObject) : Except Exn Unit :=
  match claims.get "aud" with
  | .str aud =>
    if aud = f.audience then .ok ()
    else .error (.auth (.invalidToken ("audience mismatch: " ++ Json.reprStr aud)))
  | .arr auds =>
    if auds.any fun aud => match aud with | .str s => s == f.audience | _ => false then .ok ()
    else .error (.auth (.invalidToken ("audience mismatch: " ++ (Json.arr auds).pyRepr)))
  | _ => .error (.auth (.invalidToken "aud claim missing"))

/-- The time checks of `_validate_claims`. -/
def checkTimes (f : OAuthSessionFactory) (now : ℤ) (claims : JsonObject) : Except Exn Unit :=
  match (claims.get "exp").number with
  | none => .error (.auth (.invalidToken "exp missing"))
  | some exp =>
    if exp.ltInt (now - f.skew) then .error (.auth (.expiredToken "token expired"))
    else if (claims.get "nbf").number.any (·.gtInt (now + f.skew)) then
      .error (.auth (.invalidToken "not yet valid"))
    else if (claims.get "iat").number.any (·.gtInt (now + f.skew)) then
      .error (.auth (.invalidToken "iat in future"))
    else .ok ()

/-- `_validate_claims(claims)` -/
def validateClaims (f : OAuthSessionFactory) (now : ℤ) (claims : JsonObject) : Except Exn Unit := do
  f.checkIssuer claims
  f.checkAudience claims
  f.checkTimes now claims

/-- `_pick_rbac(claims, priority)` -/
def pickRbac (claims : JsonObject) : List String → Option String
  | [] => none
  | key :: rest =>
    match claims.get key with
    | .null => pickRbac claims rest
    | .arr [] => pickRbac claims rest
    | .arr (val :: _) => some val.pyStr
    | val => some val.pyStr

/-- `_pick_wazuh_user(claims, tenant_cfg)` -/
def pickWazuhUser (claims : JsonObject) (tenantCfg : Option TenantConfig) : Option String :=
  tenantCfg.bind fun cfg =>
    match claims.get cfg.wazuhUserClaim with
    | .null => none
    | .arr [] => none
    | .arr (val :: _) => some val.pyStr
    | val =>
      let s := Text.strip isSpace val.pyStr
      if s = "" then none else some s

/-- The issuer `_build_session` looks the tenant up by. -/
def claimedIssuer (claims : JsonObject) : String := (claims.getD "iss" (.str "")).pyStr

/-- The `tenant_id` of the session that `_build_session` builds. -/
def resolveTenantId (f : OAuthSessionFactory) (claims : JsonObject) : Except Exn String :=
  match claims.get "tenant_id", f.index.get (claimedIssuer claims) with
  | .null, some issTenantCfg => .ok issTenantCfg.tenantId
  | .null, none => .error (.auth (.missingClaim "tenant_id" "no tenant resolution path"))
  | .str claimTenant, some issTenantCfg =>
    if claimTenant ≠ issTenantCfg.tenantId ∧ (f.index.getByTenantId claimTenant).isSome then
      .error (.auth (.invalidToken
        ("claim tenant " ++ Json.reprStr claimTenant ++ " != iss tenant " ++
          Json.reprStr issTenantCfg.tenantId)))
    else .ok claimTenant
  | claimTenant, some issTenantCfg =>
    -- a claim that is no string never equals the tenant id
    if (f.index.getByTenantId claimTenant.pyStr).isSome then
      .error (.auth (.invalidToken
        ("claim tenant " ++ claimTenant.pyRepr ++ " != iss tenant " ++
          Json.reprStr issTenantCfg.tenantId)))
    else .ok claimTenant.pyStr
  | claimTenant, none => .ok claimTenant.pyStr

/-- The role of the session that `_build_session` builds: a claim, or else the tenant's default. -/
def resolveRbacRole (f : OAuthSessionFactory) (claims : JsonObject)
    (tenantCfg : Option TenantConfig) : Except Exn String :=
  match pickRbac claims f.rbacClaims, tenantCfg with
  | some rbac, _ => .ok rbac
  | none, some cfg => .ok cfg.defaultRbacRole
  | none, none => .error (.auth (.missingClaim "rbac_role" "no rbac claim found"))

/-- `_build_session(claims)` -/
def buildSession (f : OAuthSessionFactory) (claims : JsonObject) : Except Exn Session :=
  let sub := claims.get "sub"
  if !sub.truthy then
    .error (.auth (.missingClaim "sub" "no sub in token"))
  else do
    let tenantId ← f.resolveTenantId claims
    let tenantCfg := (f.index.getByTenantId tenantId).or (f.index.get (claimedIssuer claims))
    let rbac ← f.resolveRbacRole claims tenantCfg
    return {
      userId := sub.pyStr
      tenantId := tenantId
      rbacRole := rbac
      authMethod := .oauth
      wazuhUser := pickWazuhUser claims tenantCfg }

/-! ## The tenant of a session -/

section

variable {f : OAuthSessionFactory} {claims : JsonObject}

/-- The configuration that `_build_session` reads the role and the user of a session by. -/
def sessionCfg (f : OAuthSessionFactory) (claims : JsonObject) (tenantId : String) :
    Option TenantConfig :=
  (f.index.getByTenantId tenantId).or (f.index.get (claimedIssuer claims))

/-- What a session is built from: the tenant that is resolved, and the user picked by its
configuration. -/
theorem of_buildSession {s : Session} (h : f.buildSession claims = .ok s) :
    f.resolveTenantId claims = .ok s.tenantId ∧
      s.wazuhUser = pickWazuhUser claims (f.sessionCfg claims s.tenantId) := by
  rw [buildSession] at h
  split at h
  · cases h
  · cases htenant : f.resolveTenantId claims with
    | error e =>
      rw [htenant] at h
      cases h
    | ok tenantId =>
      rw [htenant] at h
      cases hrole : f.resolveRbacRole claims ((f.index.getByTenantId tenantId).or
          (f.index.get (claimedIssuer claims))) with
      | error e =>
        simp [bind, Except.bind, hrole] at h
      | ok rbac =>
        simp only [bind, Except.bind, hrole, pure, Except.pure, Except.ok.injEq] at h
        rw [← h]
        exact ⟨rfl, rfl⟩

/-- A session is built for the resolved tenant. -/
theorem resolveTenantId_of_buildSession {s : Session} (h : f.buildSession claims = .ok s) :
    f.resolveTenantId claims = .ok s.tenantId := (of_buildSession h).1

/-- A session has a subject. -/
theorem truthy_sub_of_buildSession {s : Session} (h : f.buildSession claims = .ok s) :
    (claims.get "sub").truthy = true := by
  by_contra hsub
  rw [buildSession, if_pos (by simpa using hsub)] at h
  cases h

/-- With a subject and a registered tenant, a session is always built. -/
theorem buildSession_of_resolveTenantId {tenantId : String} {cfg : TenantConfig}
    (hsub : (claims.get "sub").truthy = true) (htenant : f.resolveTenantId claims = .ok tenantId)
    (hcfg : f.index.getByTenantId tenantId = some cfg) :
    ∃ s, f.buildSession claims = .ok s ∧ s.tenantId = tenantId := by
  have hrole : ∃ rbac, f.resolveRbacRole claims (some cfg) = .ok rbac := by
    cases hpick : pickRbac claims f.rbacClaims with
    | none => exact ⟨cfg.defaultRbacRole, by simp [resolveRbacRole, hpick]⟩
    | some rbac => exact ⟨rbac, by simp [resolveRbacRole, hpick]⟩
  obtain ⟨rbac, hrole⟩ := hrole
  simp [buildSession, hsub, htenant, hcfg, hrole, bind, Except.bind, pure, Except.pure]

/-- Where the tenant of a session comes from: the only tenant of the issuer, or a claim that the
issuer's tenant does not contradict, or a claim that there is no tenant to compare with. -/
theorem resolveTenantId_cases {tenantId : String} (h : f.resolveTenantId claims = .ok tenantId) :
    (∃ t, f.index.get (claimedIssuer claims) = some t ∧
      (tenantId = t.tenantId ∨ f.index.getByTenantId tenantId = none)) ∨
    (f.index.get (claimedIssuer claims) = none ∧ claims.get "tenant_id" ≠ .null ∧
      tenantId = (claims.get "tenant_id").pyStr) := by
  rw [resolveTenantId] at h
  split at h
  · rename_i t _ ht
    exact .inl ⟨t, ht, .inl (Except.ok.inj h).symm⟩
  · cases h
  · rename_i claim t hclaim ht
    split at h
    · cases h
    · rename_i hne
      obtain rfl := Except.ok.inj h
      rw [not_and_or, not_not, Option.not_isSome_iff_eq_none] at hne
      exact .inl ⟨t, ht, hne⟩
  · rename_i t ht _ _
    split at h
    · cases h
    · rename_i hnone
      obtain rfl := Except.ok.inj h
      exact .inl ⟨t, ht, .inr (Option.not_isSome_iff_eq_none.mp hnone)⟩
  · rename_i hnone hnull
    obtain rfl := Except.ok.inj h
    exact .inr ⟨hnone, hnull, rfl⟩

end

/-! ## The issuer of a tenant -/

variable (registry : TenantRegistry) (issuer audience : String) (rbacClaims : List String) (skew : ℤ)

/-- The factory that `load_http_config` builds over the registered tenants. -/
def ofRegistry : OAuthSessionFactory :=
  new issuer audience rbacClaims (IssuerIndex.ofTenants registry.tenants) skew

/-- The tenant of the session, when it is registered with an issuer, is registered with the issuer
of the token. -/
def IssuerBound (claims : JsonObject) (s : Session) : Prop :=
  ∀ t ∈ registry.tenants, t.tenantId = s.tenantId → ∀ i, t.oauthIssuer = some i →
    canonicalise (claimedIssuer claims) = canonicalise i

/-- A token whose issuer is not that of exactly one tenant, and whose `tenant_id` claim names a
tenant registered under another issuer. -/
structure ClaimsForeignTenant (claims : JsonObject) : Prop where
  claim : claims.get "tenant_id" ≠ .null
  unresolved : ∀ t, registry.tenants.filter
    (IssuerIndex.declares (canonicalise (claimedIssuer claims))) ≠ [t]
  foreign : ∃ t ∈ registry.tenants, t.tenantId = (claims.get "tenant_id").pyStr ∧
    ∃ i, t.oauthIssuer = some i ∧ canonicalise (claimedIssuer claims) ≠ canonicalise i

variable {registry issuer audience rbacClaims skew}

/-- **A session crosses the boundary between issuers** exactly when it is built from a token with a
subject whose `tenant_id` claim names a tenant of another issuer while the token's own issuer does
not stand for exactly one tenant. -/
theorem issuerBound_iff (now : ℤ) (claims : JsonObject) :
    ((ofRegistry registry issuer audience rbacClaims skew).validateClaims now claims = .ok () →
      ∀ s, (ofRegistry registry issuer audience rbacClaims skew).buildSession claims = .ok s →
        IssuerBound registry claims s) ↔
    ¬ ((ofRegistry registry issuer audience rbacClaims skew).validateClaims now claims = .ok () ∧
      (claims.get "sub").truthy = true ∧ ClaimsForeignTenant registry claims) := by
  set f := ofRegistry registry issuer audience rbacClaims skew with hf
  have hindex : f.index = IssuerIndex.ofTenants registry.tenants := rfl
  have hget (i : String) (t : TenantConfig) : f.index.get i = some t ↔
      registry.tenants.filter (IssuerIndex.declares (canonicalise i)) = [t] :=
    IssuerIndex.get_eq_some_iff
  have hbyId (id : String) : f.index.getByTenantId id = registry.find? id :=
    IssuerIndex.getByTenantId_ofTenants registry id
  constructor
  · rintro h ⟨hvalid, hsub, hclaim, hunresolved, t, ht, htid, i, hi, hne⟩
    have hnone : f.index.get (claimedIssuer claims) = none := by
      rw [Option.eq_none_iff_forall_ne_some]
      exact fun t' ht' => hunresolved t' ((hget _ t').mp ht')
    have htenant : f.resolveTenantId claims = .ok (claims.get "tenant_id").pyStr := by
      rw [resolveTenantId, hnone]
      cases hval : claims.get "tenant_id" <;> simp_all
    obtain ⟨s, hs, hsid⟩ := buildSession_of_resolveTenantId hsub htenant
      ((hbyId _).trans (TenantRegistry.find?_eq_some_iff.mpr ⟨ht, htid⟩))
    exact hne (h hvalid s hs t ht (htid.trans hsid.symm) i hi)
  · rintro h hvalid s hs t ht htid i hi
    rcases resolveTenantId_cases (resolveTenantId_of_buildSession hs) with
      ⟨t', ht', hid⟩ | ⟨hnone, hclaim, hid⟩
    · rcases hid with hid | hid
      · -- the issuer's own tenant: the registry has no other under that id
        have hfilter := (hget _ t').mp ht'
        have hmem : t' ∈ registry.tenants ∧
            IssuerIndex.declares (canonicalise (claimedIssuer claims)) t' = true :=
          List.mem_filter.mp (hfilter ▸ List.mem_singleton_self t')
        have heq : t = t' := List.inj_on_of_nodup_map registry.nodup ht hmem.1 (htid.trans hid)
        subst heq
        obtain ⟨i', hi', hcanon⟩ := IssuerIndex.declares_iff.mp hmem.2
        rw [hi] at hi'
        rw [← hcanon, Option.some.inj hi']
      · rw [hbyId, TenantRegistry.find?_eq_none_iff] at hid
        exact absurd htid (hid t ht)
    · by_contra hne
      refine h ⟨hvalid, truthy_sub_of_buildSession hs, hclaim, fun t' ht' => ?_, t, ht, htid.trans hid, i,
        hi, hne⟩
      rw [(hget _ t').mpr ht'] at hnone
      cases hnone

/-- A token of the global issuer, which no tenant declares, that names the tenant of a partner's
issuer: the session it yields is that tenant's. -/
theorem issuerBound_fails_on_global_issuer :
    ¬ ∀ (registry : TenantRegistry) (issuer audience : String) (rbacClaims : List String) (skew : ℤ)
      (now : ℤ) (claims : JsonObject),
      (ofRegistry registry issuer audience rbacClaims skew).validateClaims now claims = .ok () →
        ∀ s, (ofRegistry registry issuer audience rbacClaims skew).buildSession claims = .ok s →
          IssuerBound registry claims s := by
  intro h
  let beta : TenantConfig :=
    { tenantId := "beta", defaultRbacRole := "readonly", oauthIssuer := some "https://partner.test/" }
  let claims : JsonObject :=
    [("iss", .str "https://idp.test"), ("aud", .str "wazuh-mcp"), ("exp", .int 1000),
      ("sub", .str "alice"), ("tenant_id", .str "beta")]
  let factory := ofRegistry (.single beta) "https://idp.test/" "wazuh-mcp" ["wazuh_mcp_role"] 30
  have hvalid : factory.validateClaims 900 claims = .ok () := by decide +kernel
  have hbuild : factory.buildSession claims = .ok
      { userId := "alice", tenantId := "beta", rbacRole := "readonly", authMethod := .oauth } := by
    decide +kernel
  have hbound := h (.single beta) _ _ _ _ _ claims hvalid _ hbuild beta (by simp [TenantRegistry.single])
    rfl _ rfl
  exact absurd hbound (by decide)

end OAuthSessionFactory

end WazuhMcp
