import WazuhMcp.Observability.Audit
import WazuhMcp.Tenancy.Settings

/-!
# The audit sinks and who receives an event

The server builds the sinks of each tenant's configuration, and `MultiSinkAuditEmitter.emit` hands an event
to the global sinks and to those of the tenant that the event is of, whatever other tenants there are
(`sinksFor_build`).
-/

namespace WazuhMcp

/-! ## Sinks -/

/-- A sink as its constructor leaves it. -/
inductive SinkObject where
  | stderr
  | stdout
  | file (path : String) (rotateSizeBytes keep : ℕ)
  | http (url : String) (batch flushMs maxAttempts : ℕ)
  | wazuhIndexer (tenantId indexPrefix : String) (batch flushMs maxAttempts : ℕ)
  deriving DecidableEq

/-- A sink of the server. Sinks that are built alike are different objects: they are told apart by whose
they are, a tenant's or global, and by their place among these. -/
structure AuditSink where
  owner : Option String
  place : ℕ
  sink : SinkObject
  deriving DecidableEq

/-- One turn of the loop of `_build_sinks`. `mkdir` is what comes of making the directory of a file. -/
def buildSink (mkdir : String → Except Exn Unit) (hasPool : Bool) (tenantId : String) :
    AuditSinkConfig → Except Exn SinkObject
  | .stderr => .ok .stderr
  | .stdout => .ok .stdout
  | .file path rotateSizeMb keep => do
    mkdir path
    return .file path (rotateSizeMb * 1024 * 1024) keep
  | .http url batch flushMs maxAttempts => .ok (.http url batch flushMs maxAttempts)
  | .wazuhIndexer indexPrefix batch flushMs maxAttempts =>
    if hasPool then .ok (.wazuhIndexer tenantId indexPrefix batch flushMs maxAttempts)
    else .error (.exception "RuntimeError")

/-- `_build_sinks(tenant, indexer_pool=...)` -/
def buildSinks (mkdir : String → Except Exn Unit) (hasPool : Bool) (tenant : TenantSettings) :
    Except Exn (List AuditSink) :=
  tenant.auditSinks.zipIdx.mapM fun cfg => do
    return ⟨some tenant.tenantId, cfg.2, ← buildSink mkdir hasPool tenant.tenantId cfg.1⟩

/-- `except Exception as e: raise RuntimeError(...) from e` -/
def wrapFailure {α : Type} : Except Exn α → Except Exn α
  | .ok a => .ok a
  | .error x => .error (if x.isException then .exception "RuntimeError" else x)

/-- `_build_per_tenant_sinks(all_tenants, indexer_pool=...)` -/
def buildPerTenantSinks (mkdir : String → Except Exn Unit) (hasPool : Bool)
    (allTenants : List TenantSettings) : Except Exn (Dict String (List AuditSink)) :=
  allTenants.foldlM (fun out t => do
    return out.set t.tenantId (← wrapFailure (buildSinks mkdir hasPool t))) []

/-! ## What is built -/

/-- The sink of a configuration. -/
def AuditSinkConfig.sinkObject (tenantId : String) : AuditSinkConfig → SinkObject
  | .stderr => .stderr
  | .stdout => .stdout
  | .file path rotateSizeMb keep => .file path (rotateSizeMb * 1024 * 1024) keep
  | .http url batch flushMs maxAttempts => .http url batch flushMs maxAttempts
  | .wazuhIndexer indexPrefix batch flushMs maxAttempts =>
    .wazuhIndexer tenantId indexPrefix batch flushMs maxAttempts

/-- The tenant's own sinks. -/
def TenantSettings.ownSinks (tenant : TenantSettings) : List AuditSink :=
  tenant.auditSinks.zipIdx.map fun cfg =>
    ⟨some tenant.tenantId, cfg.2, cfg.1.sinkObject tenant.tenantId⟩

section Build

variable {mkdir : String → Except Exn Unit} {hasPool : Bool}

/-- A sink that is built does not depend on how it came about. -/
theorem eq_of_buildSink {tenantId : String} {cfg : AuditSinkConfig} {sink : SinkObject}
    (h : buildSink mkdir hasPool tenantId cfg = .ok sink) : sink = cfg.sinkObject tenantId := by
  cases cfg with
  | stderr | stdout | http => exact (Except.ok.inj h).symm
  | file path rotateSizeMb keep =>
    obtain ⟨_, -, h⟩ := Fallible.bind_eq_ok.mp h
    exact (Except.ok.inj h).symm
  | wazuhIndexer indexPrefix batch flushMs maxAttempts =>
    cases hasPool with
    | true => exact (Except.ok.inj h).symm
    | false => cases h

theorem eq_of_buildSinks {tenant : TenantSettings} {sinks : List AuditSink}
    (h : buildSinks mkdir hasPool tenant = .ok sinks) : sinks = tenant.ownSinks := by
  unfold buildSinks at h
  unfold TenantSettings.ownSinks
  generalize tenant.auditSinks.zipIdx = cfgs at h
  induction cfgs generalizing sinks with
  | nil => exact (Except.ok.inj h).symm
  | cons cfg cfgs ih =>
    rw [List.mapM_cons] at h
    obtain ⟨sink, hsink, h⟩ := Fallible.bind_eq_ok.mp h
    obtain ⟨rest, hrest, h⟩ := Fallible.bind_eq_ok.mp h
    obtain ⟨object, hobject, hsink⟩ := Fallible.bind_eq_ok.mp hsink
    obtain rfl := Except.ok.inj h
    obtain rfl := Except.ok.inj hsink
    rw [List.map_cons, ih hrest, eq_of_buildSink hobject]

/-- The sinks of all tenants, where they can be built. -/
theorem eq_of_buildPerTenantSinks {r : SettingsRegistry} {out : Dict String (List AuditSink)}
    (h : buildPerTenantSinks mkdir hasPool r.tenants = .ok out) :
    out = r.tenants.map fun t => (t.tenantId, t.ownSinks) := by
  suffices hloop : ∀ (tenants : List TenantSettings) (base : Dict String (List AuditSink)),
      (tenants.map fun t => t.tenantId).Nodup → (∀ t ∈ tenants, base.get t.tenantId = none) →
      tenants.foldlM (fun (out : Dict String (List AuditSink)) t => do
        return out.set t.tenantId (← wrapFailure (buildSinks mkdir hasPool t))) base = .ok out →
      out = base ++ tenants.map fun t => (t.tenantId, t.ownSinks) from
    hloop r.tenants [] r.nodup (fun _ _ => rfl) h
  intro tenants
  induction tenants with
  | nil =>
    intro base _ _ h
    rw [List.map_nil, List.append_nil]
    exact (Except.ok.inj h).symm
  | cons t tenants ih =>
    intro base hnodup hbase h
    rw [List.foldlM_cons, Fallible.bind_eq_ok] at h
    obtain ⟨next, hnext, h⟩ := h
    obtain ⟨sinks, hsinks, hnext⟩ := Fallible.bind_eq_ok.mp hnext
    obtain rfl := Except.ok.inj hnext
    obtain ⟨ht, hnodup⟩ := List.nodup_cons.mp hnodup
    have hown : sinks = t.ownSinks := by
      cases hbuild : buildSinks mkdir hasPool t with
      | error x =>
        rw [hbuild] at hsinks
        cases hsinks
      | ok built =>
        rw [hbuild] at hsinks
        rw [← Except.ok.inj hsinks, eq_of_buildSinks hbuild]
    have hnone := hbase t List.mem_cons_self
    rw [ih _ hnodup (fun t' ht' => ?_) h, Dict.set_of_get_none hnone, hown, List.map_cons,
      List.append_assoc, List.singleton_append]
    rw [Dict.get_set_of_ne _ ?_]
    · exact hbase t' (List.mem_cons_of_mem _ ht')
    · intro heq
      exact ht (List.mem_map.mpr ⟨t', ht', heq⟩)

end Build

/-! ## The emitter -/

/-- `MultiSinkAuditEmitter` -/
structure MultiSinkAuditEmitter where
  globalSinks : List AuditSink
  perTenantSinks : Dict String (List AuditSink)

namespace MultiSinkAuditEmitter

/-- `MultiSinkAuditEmitter(per_tenant_sinks=...)`: its global sink is one on the standard error stream. -/
def new (perTenantSinks : Dict String (List AuditSink)) : MultiSinkAuditEmitter where
  globalSinks := [⟨none, 0, .stderr⟩]
  perTenantSinks := perTenantSinks

/-- `self._all_sinks` -/
def allSinks (e : MultiSinkAuditEmitter) : List AuditSink :=
  e.globalSinks ++ e.perTenantSinks.flatMap Prod.snd

/-- The sinks that `emit` submits an event to, in order. -/
def sinksFor (e : MultiSinkAuditEmitter) (event : AuditEvent) : List AuditSink :=
  e.globalSinks ++ (e.perTenantSinks.get event.tenant).getD []

variable {mkdir : String → Except Exn Unit} {hasPool : Bool} {r : SettingsRegistry}
  {perTenantSinks : Dict String (List AuditSink)}

/-- **Who receives an event**: the global sinks and those of its tenant. -/
theorem sinksFor_build (h : buildPerTenantSinks mkdir hasPool r.tenants = .ok perTenantSinks)
    (event : AuditEvent) :
    (new perTenantSinks).sinksFor event =
      (new perTenantSinks).globalSinks ++ (r.find? event.tenant).elim [] TenantSettings.ownSinks := by
  unfold sinksFor
  rw [show (new perTenantSinks).perTenantSinks = perTenantSinks from rfl, eq_of_buildPerTenantSinks h,
    Dict.get_map, ← SettingsRegistry.find?]
  cases r.find? event.tenant <;> rfl

/-- Of all sinks, an event goes to the global ones and to its tenant's. -/
theorem mem_sinksFor_build (h : buildPerTenantSinks mkdir hasPool r.tenants = .ok perTenantSinks)
    (event : AuditEvent) (s : AuditSink) :
    s ∈ (new perTenantSinks).sinksFor event ↔ s ∈ (new perTenantSinks).globalSinks ∨
      s ∈ (new perTenantSinks).allSinks ∧ s.owner = some event.tenant := by
  have howner : ∀ (t : TenantSettings), s ∈ t.ownSinks → s.owner = some t.tenantId := by
    intro t hs
    obtain ⟨cfg, -, rfl⟩ := List.mem_map.mp hs
    rfl
  have hall : (new perTenantSinks).allSinks =
      (new perTenantSinks).globalSinks ++ r.tenants.flatMap TenantSettings.ownSinks := by
    unfold allSinks
    rw [show (new perTenantSinks).perTenantSinks = perTenantSinks from rfl, eq_of_buildPerTenantSinks h,
      List.flatMap_map]
  rw [sinksFor_build h, hall, List.mem_append, List.mem_append]
  apply or_congr_right
  constructor
  · intro hs
    cases hfind : r.find? event.tenant with
    | none =>
      rw [hfind] at hs
      cases hs
    | some t =>
      rw [hfind] at hs
      refine ⟨.inr (List.mem_flatMap.mpr ⟨t, List.mem_of_find?_eq_some hfind, hs⟩), ?_⟩
      rw [howner t hs, SettingsRegistry.tenantId_of_find? hfind]
  · rintro ⟨hs | hs, hwhose⟩
    · obtain rfl := List.mem_singleton.mp hs
      cases hwhose
    · obtain ⟨t, ht, hs⟩ := List.mem_flatMap.mp hs
      rw [howner t hs] at hwhose
      rw [SettingsRegistry.find?_eq_some_iff.mpr ⟨ht, Option.some.inj hwhose⟩]
      exact hs

end MultiSinkAuditEmitter

end WazuhMcp
