import WazuhMcp.Observability.Audit
import WazuhMcp.Tenancy.Config

/-!
# Role-based access

A policy maps a role to the tool patterns it may use. The resolvers read the policies of a session's
tenant off the registry; for a tenant that is not registered they emit an audit event and deny
everything (`all_resolve`).
-/

namespace WazuhMcp

open Interact

/-- The tool patterns of each role. -/
abbrev Policy := Dict String (List String)

/-! ## Matching -/

/-- Whether a tool matches one pattern: `*`, the tool's own name, or `<domain>.*`. -/
def patternMatches (toolName pattern : String) : Bool :=
  pattern == "*" || pattern == toolName ||
    (Text.endsWith pattern ".*" && Text.startsWith toolName (Text.dropRight pattern 2 ++ "."))

/-- `tool_matches(tool_name, allowlist)` -/
def toolMatches (toolName : String) (allowlist : List String) : Bool :=
  allowlist.any (patternMatches toolName)

/-- `is_allowed(session, tool_name, effective_allowlist)` -/
def isAllowed (session : Session) (toolName : String) (effectiveAllowlist : Policy) : Bool :=
  (effectiveAllowlist.lookup session.rbacRole).elim false (toolMatches toolName)

/-- A role without patterns, known or not, is denied every tool. -/
theorem isAllowed_eq_false {session : Session} {policy : Policy}
    (h : (policy.lookup session.rbacRole).getD [] = []) (toolName : String) :
    isAllowed session toolName policy = false := by
  rw [isAllowed]
  cases hrole : policy.lookup session.rbacRole with
  | none => rfl
  | some patterns =>
    obtain rfl : patterns = [] := by simpa [hrole] using h
    rfl

/-! ## Defaults and overrides -/

/-- `_DEFAULTS` -/
def defaultRoleToolAllowlist : Policy :=
  [("admin", ["*"]),
    ("analyst", ["alerts.*", "agents.*", "vulnerabilities.*", "mitre.*", "hunt.*", "fim.*"]),
    ("readonly", ["alerts.*", "agents.get_agent", "agents.list_agents", "vulnerabilities.*",
      "mitre.*", "fim.*"])]

/-- `effective_allowlist_for(tenant_override=...)` -/
def effectiveAllowlistFor (tenantOverride : Option Policy) : Policy :=
  (tenantOverride.getD []).foldl (fun result kv => result.set kv.1 kv.2) defaultRoleToolAllowlist

/-- What a role may use: the tenant's last word on it, else the default. -/
theorem lookup_effectiveAllowlistFor (tenantOverride : Option Policy) (role : String) :
    (effectiveAllowlistFor tenantOverride).lookup role =
      ((tenantOverride.getD []).reverse.lookup role).or (defaultRoleToolAllowlist.lookup role) := by
  suffices h : ∀ (d base : Policy),
      (d.foldl (fun result kv => result.set kv.1 kv.2) base).lookup role =
        (d.reverse.lookup role).or (base.lookup role) from h _ _
  intro d
  induction d with
  | nil => simp
  | cons kv d ih =>
    intro base
    rw [List.foldl_cons, ih, Dict.lookup_set, List.reverse_cons, List.lookup_append, Dict.lookup_cons]
    by_cases h : role = kv.1
    · cases d.reverse.lookup role <;> simp [h]
    · cases d.reverse.lookup role <;> simp [h]

/-! ## Resolvers -/

/-- The event of a resolver whose tenant is not registered. -/
def resolveMiss (session : Session) : AuditEvent :=
  { session.failureEvent "<rbac.resolve>" [] (.safe .forbidden) with
    errorReason := some "tenant_not_registered" }

/-- What the resolvers share: read the tenant's configuration, or emit an event and fall back. -/
def resolve {α : Type} (registry : TenantRegistry) (missing : α) (read : TenantConfig → α)
    (session : Session) : AppProg α :=
  match registry.get session.tenantId with
  | .ok cfg => .ret (read cfg)
  | .error _ => do
    AppProg.emit (resolveMiss session)
    return missing

/-- `make_rbac_policy(registry, audit_emitter)` -/
def makeRbacPolicy (registry : TenantRegistry) : Session → AppProg Policy :=
  resolve registry [] fun cfg => effectiveAllowlistFor cfg.roleToolAllowlist

/-- `make_write_allowlist(registry, audit_emitter)` -/
def makeWriteAllowlist (registry : TenantRegistry) : Session → AppProg (Option (List String)) :=
  resolve registry (some []) TenantConfig.writeAllowlist

/-- `make_ar_allowlist(registry, audit_emitter)` -/
def makeArAllowlist (registry : TenantRegistry) : Session → AppProg (List String) :=
  resolve registry [] TenantConfig.activeResponseAllowlist

/-- `make_ar_group_allowlist(registry, audit_emitter)` -/
def makeArGroupAllowlist (registry : TenantRegistry) : Session → AppProg (List String) :=
  resolve registry [] TenantConfig.agentGroupAllowlist

/-- What a resolver returns: the fallback for a tenant that is not registered. -/
def resolved {α : Type} (registry : TenantRegistry) (missing : α) (read : TenantConfig → α)
    (session : Session) : α :=
  (registry.find? session.tenantId).elim missing read

/-- The role allowlist in effect for a session. -/
def effectivePolicy (registry : TenantRegistry) (session : Session) : Policy :=
  resolved registry [] (fun cfg => effectiveAllowlistFor cfg.roleToolAllowlist) session

/-- What a resolver emits: an event for a tenant that is not registered. -/
def resolveEvents (registry : TenantRegistry) (session : Session) : List AppEvent :=
  (registry.find? session.tenantId).elim [⟨.emit (resolveMiss session), ()⟩] fun _ => []

/-- **A resolver** has one run, which never raises. -/
theorem all_resolve {α : Type} (registry : TenantRegistry) (missing : α) (read : TenantConfig → α)
    (session : Session) (Q : List AppEvent → Except Exn α → Prop) :
    (resolve registry missing read session).All Q ↔
      Q (resolveEvents registry session) (.ok (resolved registry missing read session)) := by
  rw [resolve, resolveEvents, resolved, TenantRegistry.get]
  cases registry.find? session.tenantId with
  | none => exact ⟨fun h => h (), fun h _ => h⟩
  | some cfg => exact Iff.rfl

theorem mem_resolveEvents {registry : TenantRegistry} {session : Session} {ev : AppEvent}
    (h : ev ∈ resolveEvents registry session) : ev.op = .emit (resolveMiss session) := by
  rw [resolveEvents] at h
  cases hfind : registry.find? session.tenantId with
  | none =>
    rw [hfind] at h
    rw [List.mem_singleton.mp h]
  | some cfg =>
    rw [hfind] at h
    cases h

@[simp] theorem sent_resolveEvents (registry : TenantRegistry) (session : Session) :
    sent (resolveEvents registry session) = [] :=
  List.filterMap_eq_nil_iff.mpr fun ev hev => by rw [mem_resolveEvents hev]; rfl

end WazuhMcp
