import WazuhMcp.Auth.OAuth

/-!
# The audience of a token

`_validate_claims` compares the audience of a token with the one of the server before it is known which
tenant the token is for. The `oauth_audience` of a tenant is never read: tokens for the tenant are
accepted for the audience of the server, and refused for the tenant's own (`audienceBound_iff`).
-/

namespace WazuhMcp

namespace OAuthSessionFactory

/-! ## What the checks accept -/

section Checks

variable (f : OAuthSessionFactory) (now : ℤ) (claims : JsonObject)

/-- The `iss` claim is one of the trusted issuers. -/
def Trusted : Prop := ∃ iss ∈ f.validIssuers, claims.get "iss" = .str iss

/-- The `aud` claim is the audience, or a list that holds it. -/
def HasAudience (audience : String) : Prop :=
  claims.get "aud" = .str audience ∨ ∃ auds, claims.get "aud" = .arr auds ∧ .str audience ∈ auds

/-- `exp` is a number that has not passed, and `nbf` and `iat`, where they are numbers, have come. -/
def Timely : Prop :=
  (∃ exp, (claims.get "exp").number = some exp ∧ exp.ltInt (now - f.skew) = false) ∧
  (∀ nbf, (claims.get "nbf").number = some nbf → nbf.gtInt (now + f.skew) = false) ∧
  ∀ iat, (claims.get "iat").number = some iat → iat.gtInt (now + f.skew) = false

variable {f now claims}

theorem checkIssuer_eq_ok : f.checkIssuer claims = .ok () ↔ f.Trusted claims := by
  unfold checkIssuer Trusted
  cases claims.get "iss" with
  | str iss => by_cases hiss : iss ∈ f.validIssuers <;> simp [hiss]
  | _ => simp

theorem checkAudience_eq_ok : f.checkAudience claims = .ok () ↔ HasAudience claims f.audience := by
  unfold checkAudience HasAudience
  cases claims.get "aud" with
  | str aud => by_cases haud : aud = f.audience <;> simp [haud]
  | arr auds =>
    constructor
    · intro h
      simp only at h
      split at h
      · rename_i hany
        obtain ⟨aud, hmem, haud⟩ := List.any_eq_true.mp hany
        cases aud with
        | str s =>
          obtain rfl : s = f.audience := by simpa using haud
          exact .inr ⟨auds, rfl, hmem⟩
        | _ => cases haud
      · cases h
    · rintro (h | ⟨auds', heq, hmem⟩)
      · cases h
      · obtain rfl := Json.arr.inj heq
        exact if_pos (List.any_eq_true.mpr ⟨_, hmem, by simp⟩)
  | _ => simp

theorem checkTimes_eq_ok : f.checkTimes now claims = .ok () ↔ f.Timely now claims := by
  unfold checkTimes Timely
  have hany : ∀ x : Option FloatVal, x.any (·.gtInt (now + f.skew)) = true ↔
      ¬ ∀ v, x = some v → v.gtInt (now + f.skew) = false := by
    intro x
    cases x <;> simp
  cases hexp : (claims.get "exp").number with
  | none => simp
  | some exp =>
    simp only
    split
    · rename_i hpassed
      simp [hpassed]
    · rename_i hpassed
      split
      · rename_i hnbf
        exact iff_of_false nofun fun h => (hany _).mp hnbf h.2.1
      · rename_i hnbf
        split
        · rename_i hiat
          exact iff_of_false nofun fun h => (hany _).mp hiat h.2.2
        · rename_i hiat
          refine iff_of_true rfl ⟨⟨exp, rfl, by simpa using hpassed⟩, ?_, ?_⟩
          · exact not_not.mp (mt (hany _).mpr hnbf)
          · exact not_not.mp (mt (hany _).mpr hiat)

theorem validateClaims_eq_ok : f.validateClaims now claims = .ok () ↔
    f.Trusted claims ∧ HasAudience claims f.audience ∧ f.Timely now claims := by
  rw [← checkIssuer_eq_ok, ← checkAudience_eq_ok, ← checkTimes_eq_ok]
  unfold validateClaims
  cases f.checkIssuer claims with
  | error x => simp [bind, Except.bind]
  | ok u =>
    cases f.checkAudience claims with
    | error x => simp [bind, Except.bind]
    | ok u' => simp [bind, Except.bind]

end Checks

/-! ## The tenant that the claims name -/

section

variable (tenants : List TenantConfig) (issuer audience : String) (rbacClaims : List String) (skew : ℤ)
  (now : ℤ) (claims : JsonObject)

/-- The tenant that a tenant id stands for, the last of that id. -/
def registered (tenantId : String) : Option TenantConfig :=
  tenants.reverse.find? fun t => t.tenantId = tenantId

/-- The claims name the tenant id: as that of the only tenant of the issuer, or in the `tenant_id` claim,
which that tenant does not contradict unless nothing is registered under it. -/
def Names (tenantId : String) : Prop :=
  (claims.get "tenant_id" = .null ∧ ∃ t, t.tenantId = tenantId ∧
    tenants.filter (IssuerIndex.declares (canonicalise (claimedIssuer claims))) = [t]) ∨
  (claims.get "tenant_id" ≠ .null ∧ tenantId = (claims.get "tenant_id").pyStr ∧
    ∀ t, tenants.filter (IssuerIndex.declares (canonicalise (claimedIssuer claims))) = [t] →
      claims.get "tenant_id" = .str t.tenantId ∨ registered tenants tenantId = none)

/-- The `oauth_audience` of the tenant, if it configures one. -/
def ownAudience (tenantId : String) : Option String :=
  (registered tenants tenantId).bind TenantConfig.oauthAudience

/-- The factory over the tenants. -/
abbrev ofTenants : OAuthSessionFactory :=
  new issuer audience rbacClaims (IssuerIndex.ofTenants tenants) skew

/-- The audience of a token is that of its tenant: a session is only built if the token is for the
tenant's own audience, or for that of the server if the tenant has none; and no token that is gets
refused for its audience. -/
structure AudienceBound : Prop where
  accepted : (ofTenants tenants issuer audience rbacClaims skew).validateClaims now claims = .ok () →
    ∀ s, (ofTenants tenants issuer audience rbacClaims skew).buildSession claims = .ok s →
      HasAudience claims ((ownAudience tenants s.tenantId).getD audience)
  notRefused : ∀ tenantId, Names tenants claims tenantId →
    HasAudience claims ((ownAudience tenants tenantId).getD audience) →
    (ofTenants tenants issuer audience rbacClaims skew).checkIssuer claims = .ok () →
    (ofTenants tenants issuer audience rbacClaims skew).checkAudience claims = .ok ()

/-- A token of a trusted issuer that names a tenant with an audience of its own, and is for one of the
two audiences only: for that of the tenant, or for that of the server while nothing else is wrong. -/
def OtherAudience : Prop :=
  (ofTenants tenants issuer audience rbacClaims skew).Trusted claims ∧
  ∃ tenantId own, Names tenants claims tenantId ∧ ownAudience tenants tenantId = some own ∧
    ((HasAudience claims own ∧ ¬ HasAudience claims audience) ∨
    (HasAudience claims audience ∧ ¬ HasAudience claims own ∧ (claims.get "sub").truthy = true ∧
      (ofTenants tenants issuer audience rbacClaims skew).Timely now claims))

variable {tenants issuer audience rbacClaims skew now claims} {tenantId : String}

theorem getByTenantId_ofTenants (tenants : List TenantConfig) (tenantId : String) :
    (IssuerIndex.ofTenants tenants).getByTenantId tenantId = registered tenants tenantId := by
  unfold registered
  induction tenants using List.reverseRecOn with
  | nil => rfl
  | append_singleton ts t ih =>
    have hset : (IssuerIndex.ofTenants (ts ++ [t])).byTenantId =
        (IssuerIndex.ofTenants ts).byTenantId.set t.tenantId t := by
      rw [IssuerIndex.ofTenants_append_singleton, IssuerIndex.add]
      cases t.oauthIssuer <;> rfl
    rw [IssuerIndex.getByTenantId, hset, Dict.lookup_set, List.reverse_append, List.reverse_singleton,
      List.singleton_append, List.find?_cons, ← ih]
    by_cases hid : t.tenantId = tenantId
    · simp [hid]
    · simp [hid, Ne.symm hid, IssuerIndex.getByTenantId]

/-- What a `tenant_id` claim resolves to when the issuer stands for a tenant. -/
theorem resolveTenantId_of_claim {f : OAuthSessionFactory} {t : TenantConfig}
    (hclaim : claims.get "tenant_id" ≠ .null) (ht : f.index.get (claimedIssuer claims) = some t) :
    f.resolveTenantId claims = .ok tenantId ↔ tenantId = (claims.get "tenant_id").pyStr ∧
      (claims.get "tenant_id" = .str t.tenantId ∨ f.index.getByTenantId tenantId = none) := by
  unfold resolveTenantId
  rw [ht]
  cases hval : claims.get "tenant_id" with
  | null => exact absurd hval hclaim
  | str claim =>
    simp only
    split
    · rename_i hother
      refine iff_of_false nofun ?_
      rintro ⟨rfl, heq | hnone⟩
      · exact hother.1 (Json.str.inj heq)
      · rw [hnone] at hother
        cases hother.2
    · rename_i hsame
      rw [not_and_or, not_not, Option.not_isSome_iff_eq_none] at hsame
      constructor
      · intro hok
        obtain rfl := Except.ok.inj hok
        exact ⟨rfl, hsame.imp_left (congrArg Json.str)⟩
      · rintro ⟨rfl, -⟩
        rfl
  | _ =>
    simp only
    split
    · rename_i hsome
      refine iff_of_false nofun ?_
      rintro ⟨rfl, heq | hnone⟩
      · cases heq
      · rw [hnone] at hsome
        cases hsome
    · rename_i hnone
      constructor
      · intro hok
        obtain rfl := Except.ok.inj hok
        exact ⟨rfl, .inr (Option.not_isSome_iff_eq_none.mp hnone)⟩
      · rintro ⟨rfl, -⟩
        rfl

/-- **The tenant of a session** is the one that the claims name. -/
theorem resolveTenantId_eq_ok :
    (ofTenants tenants issuer audience rbacClaims skew).resolveTenantId claims = .ok tenantId ↔
      Names tenants claims tenantId := by
  have hget : ∀ t, (ofTenants tenants issuer audience rbacClaims skew).index.get (claimedIssuer claims) =
      some t ↔ tenants.filter (IssuerIndex.declares (canonicalise (claimedIssuer claims))) = [t] :=
    fun t => IssuerIndex.get_eq_some_iff
  have hbyId : ∀ id, (ofTenants tenants issuer audience rbacClaims skew).index.getByTenantId id =
      registered tenants id := getByTenantId_ofTenants tenants
  unfold Names
  simp only [← hget]
  cases ht : (ofTenants tenants issuer audience rbacClaims skew).index.get (claimedIssuer claims) with
  | none =>
    unfold resolveTenantId
    rw [ht]
    cases claims.get "tenant_id" <;> simp [eq_comm]
  | some t =>
    by_cases hclaim : claims.get "tenant_id" = .null
    · unfold resolveTenantId
      rw [ht, hclaim]
      simp [eq_comm]
    · rw [resolveTenantId_of_claim hclaim ht, hbyId]
      simp [hclaim]

/-- **The audience of a token** is that of its tenant unless the tenant has one of its own, and the token
is not for both. -/
theorem audienceBound_iff (tenants : List TenantConfig) (issuer audience : String)
    (rbacClaims : List String) (skew now : ℤ) (claims : JsonObject) :
    AudienceBound tenants issuer audience rbacClaims skew now claims ↔
      ¬ OtherAudience tenants issuer audience rbacClaims skew now claims := by
  constructor
  · rintro hbound ⟨htrusted, tenantId, own, hnames, hown, hother⟩
    rcases hother with ⟨hhas, hnot⟩ | ⟨hhas, hnot, hsub, htimely⟩
    · have hok := hbound.notRefused tenantId hnames (by rwa [hown]) (checkIssuer_eq_ok.mpr htrusted)
      exact hnot (checkAudience_eq_ok.mp hok)
    · obtain ⟨cfg, hcfg, -⟩ := Option.bind_eq_some_iff.mp hown
      obtain ⟨s, hs, hid⟩ := buildSession_of_resolveTenantId hsub (resolveTenantId_eq_ok.mpr hnames)
        ((getByTenantId_ofTenants tenants tenantId).trans hcfg)
      have hgot := hbound.accepted (validateClaims_eq_ok.mpr ⟨htrusted, hhas, htimely⟩) s hs
      rw [hid, hown] at hgot
      exact hnot hgot
  · intro hother
    constructor
    · intro hvalid s hs
      obtain ⟨htrusted, hhas, htimely⟩ := validateClaims_eq_ok.mp hvalid
      cases hown : ownAudience tenants s.tenantId with
      | none => exact hhas
      | some own =>
        by_contra hnot
        refine hother ⟨htrusted, s.tenantId, own,
          resolveTenantId_eq_ok.mp (resolveTenantId_of_buildSession hs), hown,
          .inr ⟨hhas, hnot, truthy_sub_of_buildSession hs, htimely⟩⟩
    · intro tenantId hnames hhas hissuer
      rw [checkAudience_eq_ok]
      cases hown : ownAudience tenants tenantId with
      | none => rwa [hown] at hhas
      | some own =>
        by_contra hnot
        rw [hown] at hhas
        exact hother ⟨checkIssuer_eq_ok.mp hissuer, tenantId, own, hnames, hown, .inl ⟨hhas, hnot⟩⟩

/-- A token for the audience of the server, which names a tenant that has its own. -/
theorem not_audienceBound : ¬ ∀ (tenants : List TenantConfig) (issuer audience : String)
    (rbacClaims : List String) (skew now : ℤ) (claims : JsonObject),
    AudienceBound tenants issuer audience rbacClaims skew now claims := by
  intro h
  let acme : TenantConfig := {
    tenantId := "acme", defaultRbacRole := "readonly", oauthIssuer := some "https://idp.test",
    oauthAudience := some "acme-api" }
  let claims : JsonObject :=
    [("iss", .str "https://idp.test"), ("aud", .str "wazuh-mcp"), ("exp", .int 1000), ("sub", .str "alice")]
  let factory := ofTenants [acme] "https://idp.test" "wazuh-mcp" ["wazuh_mcp_role"] 30
  have hvalid : factory.validateClaims 900 claims = .ok () := by decide +kernel
  have hbuild : factory.buildSession claims = .ok
      { userId := "alice", tenantId := "acme", rbacRole := "readonly", authMethod := .oauth } := by
    decide +kernel
  have hhas := (h [acme] _ _ _ _ _ claims).accepted hvalid _ hbuild
  rcases hhas with heq | ⟨auds, heq, -⟩
  · exact absurd (Json.str.inj heq) (by decide +kernel)
  · cases heq

end

end OAuthSessionFactory

end WazuhMcp
