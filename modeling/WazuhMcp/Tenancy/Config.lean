import Mathlib.Data.List.Nodup
import WazuhMcp.Base.Errors
import WazuhMcp.Foundations.Dict

/-!
# Tenants

The configuration of a tenant, and the registry that resolves a `tenant_id` to it. A registry never
holds two tenants of one id: `YamlTenantRegistry` refuses to load such a file, and the other two
registries hold at most one tenant.
-/

namespace WazuhMcp

/-- `TenantConfig` -/
structure TenantConfig where
  tenantId : String
  defaultRbacRole : String
  oauthIssuer : Option String := none
  oauthAudience : Option String := none
  wazuhUserClaim : String := "wazuh_user"
  roleToolAllowlist : Option (Dict String (List String)) := none
  writeAllowlist : Option (List String) := none
  activeResponseAllowlist : List String := []
  agentGroupAllowlist : List String := []
  deriving DecidableEq

/-- `TenantRegistry`: the tenants in their configured order, no two with one id. -/
structure TenantRegistry where
  tenants : List TenantConfig
  nodup : (tenants.map TenantConfig.tenantId).Nodup

namespace TenantRegistry

/-- `SingleTenantRegistry(tenant)` -/
def single (tenant : TenantConfig) : TenantRegistry := ⟨[tenant], List.nodup_singleton _⟩

/-- `_EmptyRegistry()` -/
def empty : TenantRegistry := ⟨[], List.nodup_nil⟩

/-- One entry of the loop of `YamlTenantRegistry.__init__`. -/
def add (r : TenantRegistry) (cfg : TenantConfig) : Except Exn TenantRegistry :=
  if h : cfg.tenantId ∈ r.tenants.map TenantConfig.tenantId then
    .error (.exception "ValueError")
  else
    .ok ⟨r.tenants ++ [cfg], by
      rw [List.map_append, List.map_singleton, List.nodup_append]
      exact ⟨r.nodup, List.nodup_singleton _, fun a ha b hb hab =>
        h (List.mem_singleton.mp hb ▸ hab ▸ ha)⟩⟩

/-- `YamlTenantRegistry(path)`, on the validated entries of the file. -/
def ofEntries (entries : List TenantConfig) : Except Exn TenantRegistry :=
  entries.foldlM add empty

/-- The configuration stored under a tenant id. -/
def find? (r : TenantRegistry) (tenantId : String) : Option TenantConfig :=
  r.tenants.find? fun t => t.tenantId = tenantId

/-- `registry.get(tenant_id)` -/
def get (r : TenantRegistry) (tenantId : String) : Except Exn TenantConfig :=
  (r.find? tenantId).elim (.error Exn.keyError) .ok

/-- A tenant is found under its id, and nothing else is. -/
theorem find?_eq_some_iff {r : TenantRegistry} {tenantId : String} {t : TenantConfig} :
    r.find? tenantId = some t ↔ t ∈ r.tenants ∧ t.tenantId = tenantId := by
  constructor
  · intro h
    exact ⟨List.mem_of_find?_eq_some h, by simpa using List.find?_some h⟩
  · rintro ⟨ht, rfl⟩
    have hsome : (r.find? t.tenantId).isSome := by
      rw [find?, List.find?_isSome]
      exact ⟨t, ht, by simp⟩
    obtain ⟨t', ht'⟩ := Option.isSome_iff_exists.mp hsome
    have hid : t'.tenantId = t.tenantId := by simpa using List.find?_some ht'
    rw [ht', List.inj_on_of_nodup_map r.nodup (List.mem_of_find?_eq_some ht') ht hid]

theorem find?_eq_none_iff {r : TenantRegistry} {tenantId : String} :
    r.find? tenantId = none ↔ ∀ t ∈ r.tenants, t.tenantId ≠ tenantId := by
  simp [find?]

end TenantRegistry

end WazuhMcp
