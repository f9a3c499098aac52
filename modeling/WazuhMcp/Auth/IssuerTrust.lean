import WazuhMcp.Auth.Soundness

/-!
# Which issuers are trusted

The issuers of the configuration are trusted by their canonical forms, without trailing slashes, and the
issuer index looks a tenant up by the canonical form of an issuer. The test of trust compares the issuer of
a token as it stands: `acceptsIssuer_iff` says that it accepts the configured issuers that are written
without a trailing slash, so an issuer that a token writes with one is refused though the index knows it.
-/

namespace WazuhMcp

/-- The issuer has the canonical form of the global one or of some tenant's. -/
def ConfiguredIssuer (issuer : String) (tenants : List TenantConfig) (iss : String) : Prop :=
  canonicalise iss = canonicalise issuer ∨
    ∃ t ∈ tenants, t.oauthIssuer.map canonicalise = some (canonicalise iss)

/-- `iss in self._valid_issuers`, the test of `build` and of `_validate_claims`. -/
def AcceptsIssuer (f : OAuthSessionFactory) (iss : String) : Prop := iss ∈ f.validIssuers

/-- `_validate_claims` makes the test on the verified claims. -/
theorem checkIssuer_iff_acceptsIssuer {f : OAuthSessionFactory} {claims : JsonObject} {iss : String}
    (hiss : claims.get "iss" = .str iss) : f.checkIssuer claims = .ok () ↔ AcceptsIssuer f iss := by
  rw [OAuthSessionFactory.checkIssuer_eq_ok]
  constructor
  · rintro ⟨iss', haccepts, hiss'⟩
    obtain rfl := Json.str.inj (hiss.symm.trans hiss')
    exact haccepts
  · intro haccepts
    exact ⟨iss, haccepts, hiss⟩

open TokenFactory OAuthRun in
/-- `build` makes the test on what the token says before it is verified. -/
theorem route_iff_acceptsIssuer {Key : Type} {codec : TokenCodec Key} {f : TokenFactory}
    {ctx : RequestContext} {token alg iss : String} {header : JsonObject}
    (hbearer : extractBearer ctx = .ok token) (hheader : headerOf codec token = some (.obj header))
    (halg : JsonObject.get header "alg" = .str alg)
    (htruthy : (JsonObject.get header "kid").truthy = true ∧ alg ∈ f.algorithms)
    (hissuer : unverifiedIss codec token = .ok iss) :
    (∃ lookup, f.route codec ctx = .ok lookup) ↔ AcceptsIssuer f.toOAuthSessionFactory iss := by
  constructor
  · rintro ⟨lookup, hlookup⟩
    have hroutes := routes_of_route hlookup
    obtain rfl := Except.ok.inj (hbearer.symm.trans hroutes.bearer)
    obtain rfl := Except.ok.inj (hissuer.symm.trans hroutes.issuer)
    exact hroutes.trusted
  · intro haccepts
    exact ⟨_, route_eq_ok hbearer hheader rfl halg htruthy hissuer haccepts⟩

variable {issuer audience : String} {rbacClaims : List String} {tenants : List TenantConfig} {skew : ℤ}
  {iss : String}

/-- **An accepted issuer** is a configured one in canonical form. -/
theorem acceptsIssuer_iff :
    AcceptsIssuer (.new issuer audience rbacClaims (.ofTenants tenants) skew) iss ↔
      canonicalise iss = iss ∧ ConfiguredIssuer issuer tenants iss := by
  have hvalid : AcceptsIssuer (.new issuer audience rbacClaims (.ofTenants tenants) skew) iss ↔
      iss = canonicalise issuer ∨ ∃ t ∈ tenants, t.oauthIssuer.map canonicalise = some iss := by
    refine List.mem_cons.trans (or_congr Iff.rfl ?_)
    rw [OAuthSessionFactory.new, IssuerIndex.mem_knownIssuers]
    simp only [IssuerIndex.declares_iff_map]
  rw [hvalid]
  constructor
  · intro h
    have hcanonical : canonicalise iss = iss := by
      rcases h with rfl | ⟨t, -, ht⟩
      · exact canonicalise_canonicalise issuer
      · obtain ⟨issuer', -, rfl⟩ := Option.map_eq_some_iff.mp ht
        exact canonicalise_canonicalise issuer'
    refine ⟨hcanonical, ?_⟩
    unfold ConfiguredIssuer
    rw [hcanonical]
    exact h
  · rintro ⟨hcanonical, h⟩
    unfold ConfiguredIssuer at h
    rw [hcanonical] at h
    exact h

/-- Accepted issuers of one canonical form are one issuer. -/
theorem eq_of_canonicalise_eq {f : OAuthSessionFactory} {iss' : String}
    (hf : f = .new issuer audience rbacClaims (.ofTenants tenants) skew) (h : AcceptsIssuer f iss)
    (h' : AcceptsIssuer f iss') (heq : canonicalise iss = canonicalise iss') : iss = iss' := by
  subst hf
  calc iss = canonicalise iss := (acceptsIssuer_iff.mp h).1.symm
    _ = canonicalise iss' := heq
    _ = iss' := (acceptsIssuer_iff.mp h').1

/-- **When trust agrees with resolution.** For every global issuer and tenants, the test of trust accepts
an issuer exactly if its canonical form is a configured one, and issuers that it accepts under one
canonical form have one JWKS cache and one entry of the index, just when the issuer has no trailing slash
or its canonical form is not configured. -/
theorem issuerTrust_agrees_iff (issuer audience : String) (rbacClaims : List String)
    (tenants : List TenantConfig) (skew : ℤ) (iss : String) :
    ((AcceptsIssuer (.new issuer audience rbacClaims (.ofTenants tenants) skew) iss ↔
        ConfiguredIssuer issuer tenants iss) ∧
      ∀ iss', AcceptsIssuer (.new issuer audience rbacClaims (.ofTenants tenants) skew) iss →
        AcceptsIssuer (.new issuer audience rbacClaims (.ofTenants tenants) skew) iss' →
        canonicalise iss = canonicalise iss' →
        (∀ s : OAuthRun, s.jwksFor iss = s.jwksFor iss') ∧
          (IssuerIndex.ofTenants tenants).get iss = (IssuerIndex.ofTenants tenants).get iss') ↔
    canonicalise iss = iss ∨ ¬ ConfiguredIssuer issuer tenants iss := by
  have hsame (iss' : String)
      (h : AcceptsIssuer (.new issuer audience rbacClaims (.ofTenants tenants) skew) iss)
      (h' : AcceptsIssuer (.new issuer audience rbacClaims (.ofTenants tenants) skew) iss')
      (heq : canonicalise iss = canonicalise iss') :
      (∀ s : OAuthRun, s.jwksFor iss = s.jwksFor iss') ∧
        (IssuerIndex.ofTenants tenants).get iss = (IssuerIndex.ofTenants tenants).get iss' := by
    obtain rfl := eq_of_canonicalise_eq rfl h h' heq
    exact ⟨fun _ => rfl, rfl⟩
  rw [and_iff_left hsame, acceptsIssuer_iff, and_iff_right_iff_imp, imp_iff_or_not]

/-- A token whose issuer ends in a slash, as the configured one does, is refused. -/
theorem not_issuerTrust_agrees :
    ¬ ∀ (issuer audience : String) (rbacClaims : List String) (tenants : List TenantConfig) (skew : ℤ)
      (iss : String), AcceptsIssuer (.new issuer audience rbacClaims (.ofTenants tenants) skew) iss ↔
        ConfiguredIssuer issuer tenants iss := by
  intro h
  have haccepts := (h "https://idp.test/" "wazuh-mcp" [] [] 30 "https://idp.test/").mpr (.inl rfl)
  exact absurd (acceptsIssuer_iff.mp haccepts).1 (by decide +kernel)

end WazuhMcp
