import WazuhMcp.Auth.OAuth
import WazuhMcp.Observability.Emitter
import WazuhMcp.RateLimit.Breaker
import WazuhMcp.RateLimit.Keys
import WazuhMcp.RateLimit.Limiter
import WazuhMcp.Server.Registration
import WazuhMcp.Wazuh.PoolClients

/-!
# The HTTP server

`load_http_config` reads the files of the configuration, and `build_http_app` puts the server together from
them: the pools of clients, the audit sinks, the rate limiter and the policies. Either may raise, and then
the server does not boot. `madeOf_of_bootHttp` says what a server that has booted is made of.

How a session comes about is not here: a server is asked by sessions.
-/

namespace WazuhMcp

open Interact

/-! ## The rate limiter -/

/-- `RateLimiterConfig.backend` -/
inductive LimiterBackend where
  | inProcess
  | redis
  deriving DecidableEq

/-- `RateLimiterConfig` -/
structure RateLimiterConfig where
  backend : LimiterBackend := .inProcess
  keyPrefix : RateLimit.KeyPrefix := ⟨"wazuhmcp:rl", by decide, by decide, by decide⟩
  breaker : RateLimit.BreakerConfig := {}

/-- The rate limiter of a server: an `InProcessRateLimiter` or a `RedisRateLimiter`. -/
inductive RateLimiter where
  | inProcess (limits : RateLimit.Limits)
  | redis (url : String) (limits : RateLimit.Limits) (keyPrefix : RateLimit.KeyPrefix)
    (breaker : RateLimit.BreakerConfig)

/-- The limits that the limiter goes by. -/
def RateLimiter.limits : RateLimiter → RateLimit.Limits
  | .inProcess limits => limits
  | .redis _ limits _ _ => limits

/-- What a server finds where it is started: what comes of making the directory of a file, the environment
variable `WAZUH_MCP_REDIS_URL`, and whether the Redis client can read a URL. -/
structure HostEnv where
  mkdir : String → Except Exn Unit
  redisUrl : Option String
  fromUrl : String → Except Exn Unit

/-- The limits of a limiter, which computes in double precision. -/
def limiterLimits (default : RateLimit.RateLimitConfig) (perTenant : Dict String RateLimit.RateLimitConfig) :
    RateLimit.Limits where
  default := default
  perTenant := perTenant
  rounding := .binary64

/-- `_build_rate_limiter(cfg=..., default=..., per_tenant=...)` -/
def buildRateLimiter (env : HostEnv) (cfg : RateLimiterConfig) (default : RateLimit.RateLimitConfig)
    (perTenant : Dict String RateLimit.RateLimitConfig) : Except Exn RateLimiter :=
  match cfg.backend with
  | .inProcess => .ok (.inProcess (limiterLimits default perTenant))
  | .redis =>
    let redisUrl := Text.strip isSpace (env.redisUrl.getD "")
    if redisUrl = "" then .error (.exception "RuntimeError")
    else do
      env.fromUrl redisUrl
      return .redis redisUrl (limiterLimits default perTenant) cfg.keyPrefix cfg.breaker

/-! ## The configuration -/

/-- The files of the configuration, as far as they are about tenants: the validated entries of
`tenants.yaml`, the entries of `secrets.yaml`, and what `RateLimiterConfig.model_validate` makes of
`rate_limiter` in `server.yaml`. -/
structure ConfigDir where
  tenants : List TenantSettings
  secrets : JsonObject
  rateLimiter : Except Exn RateLimiterConfig

/-- `HttpAppConfig` -/
structure HttpAppConfig where
  pool : BoundPool
  serverApiPool : BoundPool
  tenant : Option TenantSettings := none
  registry : Option SettingsRegistry := none
  limiter : Option RateLimiter := none
  audit : Option MultiSinkAuditEmitter := none
  rateLimiterRaw : Except Exn RateLimiterConfig := .ok {}

/-- `load_http_config(config_dir)` -/
def loadHttpConfig (dir : ConfigDir) : Except Exn HttpAppConfig := do
  let registry ← SettingsRegistry.ofEntries dir.tenants
  let secrets ← YamlSecretStore.ofEntries dir.secrets
  let allTenants ← dir.tenants.mapM fun t => registry.get t.tenantId
  return {
    pool := ⟨.indexer, registry, secrets⟩
    serverApiPool := ⟨.serverApi, registry, secrets⟩
    tenant := allTenants.head?
    registry := some registry
    rateLimiterRaw := dir.rateLimiter }

/-! ## The server -/

/-- What `build_http_app` registers the tools, resources and prompts with. -/
structure HttpApp where
  indexerPool : BoundPool
  serverApiPool : BoundPool
  audit : MultiSinkAuditEmitter
  limiter : RateLimiter
  policies : Policies

/-- The limiter of `build_http_app`: the one that the configuration brings, or a new one. -/
def HttpAppConfig.buildLimiter (env : HostEnv) (cfg : HttpAppConfig) : Except Exn RateLimiter :=
  match cfg.limiter with
  | some limiter => .ok limiter
  | none => do
    let allTenants := cfg.registry.elim [] SettingsRegistry.tenants
    let default := cfg.tenant.elim {} TenantSettings.rateLimit
    let perTenant := allTenants.foldl (fun (d : Dict String RateLimit.RateLimitConfig) t =>
      d.set t.tenantId t.rateLimit) []
    buildRateLimiter env (← cfg.rateLimiterRaw) default perTenant

/-- `build_http_app(http_cfg, audit)` -/
def buildHttpApp (env : HostEnv) (cfg : HttpAppConfig) (audit : Option MultiSinkAuditEmitter) :
    Except Exn HttpApp := do
  let perTenantSinks ← buildPerTenantSinks env.mkdir true (cfg.registry.elim [] SettingsRegistry.tenants)
  let auditEmitter := (audit.or cfg.audit).getD (.new perTenantSinks)
  let limiter ← cfg.buildLimiter env
  let registry := (cfg.registry.or (cfg.tenant.map .single)).getD .empty
  return {
    indexerPool := cfg.pool
    serverApiPool := cfg.serverApiPool
    audit := auditEmitter
    limiter := limiter
    policies := .ofRegistry registry.registry }

/-- `run_http(config_dir)`, up to where it serves. -/
def bootHttp (env : HostEnv) (dir : ConfigDir) : Except Exn HttpApp := do
  let cfg ← loadHttpConfig dir
  buildHttpApp env cfg none

/-! ## What a booted server is made of -/

/-- The server is made of this registry and this store. -/
structure HttpApp.MadeOf (app : HttpApp) (r : SettingsRegistry) (secrets : YamlSecretStore) : Prop where
  indexerPool : app.indexerPool = ⟨.indexer, r, secrets⟩
  serverApiPool : app.serverApiPool = ⟨.serverApi, r, secrets⟩
  audit : ∃ mkdir perTenantSinks, buildPerTenantSinks mkdir true r.tenants = .ok perTenantSinks ∧
    app.audit = .new perTenantSinks
  limiter : app.limiter.limits.perTenant = r.tenants.map fun t => (t.tenantId, t.rateLimit)
  policies : app.policies = .ofRegistry r.registry

theorem limits_of_buildRateLimiter {env : HostEnv} {cfg : RateLimiterConfig}
    {default : RateLimit.RateLimitConfig} {perTenant : Dict String RateLimit.RateLimitConfig}
    {limiter : RateLimiter} (h : buildRateLimiter env cfg default perTenant = .ok limiter) :
    limiter.limits = limiterLimits default perTenant := by
  unfold buildRateLimiter at h
  split at h
  · rw [← Except.ok.inj h]
    rfl
  · dsimp only at h
    split at h
    · cases h
    · obtain ⟨_, -, h⟩ := Fallible.bind_eq_ok.mp h
      rw [← Except.ok.inj h]
      rfl

/-- **A server that has booted** is made of what its files say. -/
theorem madeOf_of_bootHttp {env : HostEnv} {dir : ConfigDir} {app : HttpApp}
    (h : bootHttp env dir = .ok app) :
    ∃ r secrets, SettingsRegistry.ofEntries dir.tenants = .ok r ∧
      YamlSecretStore.ofEntries dir.secrets = .ok secrets ∧ app.MadeOf r secrets := by
  obtain ⟨cfg, hcfg, h⟩ := Fallible.bind_eq_ok.mp h
  obtain ⟨r, hr, hcfg⟩ := Fallible.bind_eq_ok.mp hcfg
  obtain ⟨secrets, hsecrets, hcfg⟩ := Fallible.bind_eq_ok.mp hcfg
  obtain ⟨allTenants, -, hcfg⟩ := Fallible.bind_eq_ok.mp hcfg
  obtain rfl := Except.ok.inj hcfg
  obtain ⟨perTenantSinks, hsinks, h⟩ := Fallible.bind_eq_ok.mp h
  obtain ⟨limiter, hlimiter, h⟩ := Fallible.bind_eq_ok.mp h
  obtain ⟨rlCfg, -, hlimiter⟩ := Fallible.bind_eq_ok.mp hlimiter
  obtain rfl := Except.ok.inj h
  refine ⟨r, secrets, hr, hsecrets, rfl, rfl, ⟨_, _, hsinks, rfl⟩, ?_, rfl⟩
  rw [limits_of_buildRateLimiter hlimiter]
  exact Dict.foldl_set _ _ r.nodup

end WazuhMcp
