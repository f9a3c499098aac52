import WazuhMcp.Foundations.Fallible
import WazuhMcp.RateLimit.TokenBucket
import WazuhMcp.Tenancy.Config

/-!
# The settings of a tenant

The rest of a tenant's configuration: where its upstreams are and how they are trusted, its rate limits
and its audit sinks. The server looks tenants up by their id here as elsewhere, and what `TenantConfig`
holds of a tenant is found under its id too (`registry_find?`).
-/

namespace WazuhMcp

/-- `AuditSinkConfig`: a sink of one of the five kinds. -/
inductive AuditSinkConfig where
  | stderr
  | stdout
  | file (path : String) (rotateSizeMb keep : ℕ)
  | http (url : String) (batch flushMs maxAttempts : ℕ)
  | wazuhIndexer (indexPrefix : String) (batch flushMs maxAttempts : ℕ)
  deriving DecidableEq

/-- `TenantConfig`, with the fields that the clients, the limiter and the sinks go by. A URL is what `str`
makes of it. -/
structure TenantSettings extends TenantConfig where
  indexerUrl : String
  serverApiUrl : Option String := none
  verifyTls : Bool := true
  caBundlePath : Option String := none
  rateLimit : RateLimit.RateLimitConfig := {}
  auditSinks : List AuditSinkConfig := []

/-- The tenants of a server in their configured order, no two with one id. -/
structure SettingsRegistry where
  tenants : List TenantSettings
  nodup : (tenants.map fun t => t.tenantId).Nodup

namespace SettingsRegistry

/-- The registry of one tenant. -/
def single (tenant : TenantSettings) : SettingsRegistry := ⟨[tenant], List.nodup_singleton _⟩

/-- `_EmptyRegistry()` -/
def empty : SettingsRegistry := ⟨[], List.nodup_nil⟩

/-- One entry of the loop of `YamlTenantRegistry.__init__`. -/
def add (r : SettingsRegistry) (cfg : TenantSettings) : Except Exn SettingsRegistry :=
  if h : cfg.tenantId ∈ r.tenants.map fun t => t.tenantId then
    .error Exn.valueError
  else
    .ok ⟨r.tenants ++ [cfg], by
      rw [List.map_append, List.map_singleton, List.nodup_append]
      exact ⟨r.nodup, List.nodup_singleton _, fun a ha b hb hab =>
        h (List.mem_singleton.mp hb ▸ hab ▸ ha)⟩⟩

/-- `YamlTenantRegistry(path)`, on the validated entries of the file. -/
def ofEntries (entries : List TenantSettings) : Except Exn SettingsRegistry :=
  entries.foldlM add empty

/-- The settings stored under a tenant id. -/
def find? (r : SettingsRegistry) (tenantId : String) : Option TenantSettings :=
  r.tenants.find? fun t => t.tenantId = tenantId

/-- `registry.get(tenant_id)` -/
def get (r : SettingsRegistry) (tenantId : String) : Except Exn TenantSettings :=
  (r.find? tenantId).elim (.error Exn.keyError) .ok

/-- The registry, as far as policies and sessions go by it. -/
def registry (r : SettingsRegistry) : TenantRegistry where
  tenants := r.tenants.map TenantSettings.toTenantConfig
  nodup := by rw [List.map_map]; exact r.nodup

theorem find?_registry (r : SettingsRegistry) (tenantId : String) :
    r.registry.find? tenantId = (r.find? tenantId).map TenantSettings.toTenantConfig := by
  unfold find? TenantRegistry.find? registry
  rw [List.find?_map]
  rfl

theorem tenantId_of_find? {r : SettingsRegistry} {tenantId : String} {t : TenantSettings}
    (h : r.find? tenantId = some t) : t.tenantId = tenantId := by
  simpa using List.find?_some h

/-- A tenant is found under its id, and nothing else is. -/
theorem find?_eq_some_iff {r : SettingsRegistry} {tenantId : String} {t : TenantSettings} :
    r.find? tenantId = some t ↔ t ∈ r.tenants ∧ t.tenantId = tenantId := by
  constructor
  · exact fun h => ⟨List.mem_of_find?_eq_some h, tenantId_of_find? h⟩
  · rintro ⟨ht, rfl⟩
    have hsome : (r.find? t.tenantId).isSome := List.find?_isSome.mpr ⟨t, ht, by simp⟩
    obtain ⟨t', ht'⟩ := Option.isSome_iff_exists.mp hsome
    rw [ht', List.inj_on_of_nodup_map r.nodup (List.mem_of_find?_eq_some ht') ht
      (tenantId_of_find? ht')]

theorem find?_eq_none_iff {r : SettingsRegistry} {tenantId : String} :
    r.find? tenantId = none ↔ tenantId ∉ r.tenants.map fun t => t.tenantId := by
  simp [find?]

/-- What an entry does: it is the tenant's, who had none. -/
theorem add_eq_ok {r r' : SettingsRegistry} {cfg : TenantSettings} (h : r.add cfg = .ok r') :
    r.find? cfg.tenantId = none ∧ r'.tenants = r.tenants ++ [cfg] := by
  unfold add at h
  split at h
  · cases h
  · rename_i hmem
    obtain rfl := Except.ok.inj h
    exact ⟨find?_eq_none_iff.mpr hmem, rfl⟩

theorem add_of_find?_eq_none {r : SettingsRegistry} {cfg : TenantSettings}
    (h : r.find? cfg.tenantId = none) : ∃ r', r.add cfg = .ok r' := by
  rw [find?_eq_none_iff] at h
  exact ⟨_, dif_neg h⟩

theorem find?_of_add {r r' : SettingsRegistry} {cfg : TenantSettings} (h : r.add cfg = .ok r')
    (tenantId : String) :
    r'.find? tenantId = (r.find? tenantId).or (if cfg.tenantId = tenantId then some cfg else none) := by
  unfold find?
  rw [(add_eq_ok h).2, List.find?_append, List.find?_singleton]
  simp

/-- What is found under an id depends on the entries of that id only. -/
theorem find?_ofEntries_congr {entries entries' : List TenantSettings} {r r' : SettingsRegistry}
    {tenantId : String}
    (hentries : (entries.filter fun cfg => cfg.tenantId = tenantId) =
      entries'.filter fun cfg => cfg.tenantId = tenantId)
    (h : ofEntries entries = .ok r) (h' : ofEntries entries' = .ok r') :
    r.find? tenantId = r'.find? tenantId := by
  refine Fallible.read_foldlM_congr (fun cfg : TenantSettings => cfg.tenantId = tenantId)
    (fun r : SettingsRegistry => r.find? tenantId) ?_ ?_ hentries h h'
  · intro r cfg r' hcfg hadd
    rw [find?_of_add hadd, if_neg (of_decide_eq_false hcfg), Option.or_none]
  · intro r s cfg r' hcfg hread hadd
    obtain rfl := of_decide_eq_true hcfg
    obtain ⟨s', hs'⟩ := add_of_find?_eq_none (hread.symm.trans (add_eq_ok hadd).1)
    exact ⟨s', hs', by rw [find?_of_add hadd, find?_of_add hs', hread]⟩

/-- The loop keeps the order of its entries. -/
theorem tenants_ofEntries {entries : List TenantSettings} {r : SettingsRegistry}
    (h : ofEntries entries = .ok r) : r.tenants = entries := by
  suffices hloop : ∀ (entries : List TenantSettings) (r r' : SettingsRegistry),
      entries.foldlM add r = .ok r' → r'.tenants = r.tenants ++ entries from hloop entries empty r h
  intro entries
  induction entries with
  | nil =>
    intro r r' h
    obtain rfl := Except.ok.inj h
    exact (List.append_nil _).symm
  | cons cfg entries ih =>
    intro r r' h
    rw [List.foldlM_cons, Fallible.bind_eq_ok] at h
    obtain ⟨r₁, hadd, h⟩ := h
    rw [ih r₁ r' h, (add_eq_ok hadd).2, List.append_assoc, List.singleton_append]

theorem get_eq_ok {r : SettingsRegistry} {tenantId : String} {t : TenantSettings} :
    r.get tenantId = .ok t ↔ r.find? tenantId = some t := by
  unfold get
  cases r.find? tenantId <;> simp

end SettingsRegistry

end WazuhMcp
