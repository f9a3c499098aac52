import WazuhMcp.Foundations.Runs
import WazuhMcp.Foundations.Text
import WazuhMcp.Tenancy.Settings

/-!
# The client pools

`IndexerClientPool` and `ServerApiClientPool` hold one client for each tenant. `acquire` makes it when it
is first asked for: it takes the lock, looks whether the client is there, asks the registry for the tenant
and the secret store for a user and a password, and constructs the client with them. The lock is held
while the secret store is awaited.

A run is any number of calls of `acquire` at once. Between two awaits a call runs on without another
coming in between, so that a step of a run is what a call does up to its next await, or to its end.

The two pools differ in the names of the secrets and the base URL, and in three points of order: the
indexer pool looks into its map before it asks for the lock; the other pool has a flag that refuses calls,
and takes the lock to close. `acquireStep_effect` says what a step may do.
-/

namespace WazuhMcp

/-! ## Clients -/

/-- How the server's certificate is verified. -/
inductive Verify where
  | bundle (path : String)
  | flag (verify : Bool)
  deriving DecidableEq

/-- A client as its constructor leaves it. -/
structure HttpClient where
  baseUrl : String
  verify : Verify
  user : String
  password : String
  deriving DecidableEq

/-- `IndexerClient(...)` and `ServerApiClient(...)`, where they do not raise. -/
def HttpClient.new (baseUrl user password : String) (verifyTls : Bool) (caBundlePath : Option String) :
    HttpClient where
  baseUrl := Text.rstrip (· == '/') baseUrl
  verify := caBundlePath.elim (.flag verifyTls) .bundle
  user := user
  password := password

/-- `_derive_server_api_url(tenant)` -/
def deriveServerApiUrl (tenant : TenantSettings) : String :=
  let u := Text.rstrip (· == '/') tenant.indexerUrl
  if Text.contains u ":9200" then Text.replace u ":9200" ":55000" else u ++ ":55000"

/-- A pool: the names of its secrets, the base URL of its clients, and its own ways. -/
structure ClientPool where
  userSecret : String
  passwordSecret : String
  baseUrl : TenantSettings → String
  /-- `acquire` looks into the map before it asks for the lock -/
  readsUnlocked : Bool
  /-- `aclose_all` takes the lock, and sets a flag that `acquire` looks at -/
  guarded : Bool

/-- The client that the pool makes of a tenant's settings and secrets. -/
def ClientPool.client (pool : ClientPool) (tenant : TenantSettings) (user password : String) :
    HttpClient :=
  .new (pool.baseUrl tenant) user password tenant.verifyTls tenant.caBundlePath

/-- `IndexerClientPool` -/
def indexerClientPool : ClientPool where
  userSecret := "indexer_user"
  passwordSecret := "indexer_password"
  baseUrl tenant := tenant.indexerUrl
  readsUnlocked := true
  guarded := false

/-- `ServerApiClientPool` -/
def serverApiClientPool : ClientPool where
  userSecret := "server_api_user"
  passwordSecret := "server_api_password"
  baseUrl tenant :=
    match tenant.serverApiUrl with
    | some url => Text.rstrip (· == '/') url
    | none => deriveServerApiUrl tenant
  readsUnlocked := false
  guarded := true

/-- The two pools. -/
inductive PoolKind where
  | indexer
  | serverApi
  deriving DecidableEq

/-- The pool of a kind. -/
def PoolKind.pool : PoolKind → ClientPool
  | .indexer => indexerClientPool
  | .serverApi => serverApiClientPool

/-! ## Calls of `acquire` -/

/-- Where a call of `acquire` stands. -/
inductive AcquirePoint where
  /-- awaiting the lock -/
  | waiting
  /-- awaiting the user, with the lock -/
  | fetchingUser (tenant : TenantSettings)
  /-- awaiting the password, with the lock -/
  | fetchingPassword (tenant : TenantSettings) (user : String)
  /-- returned a client, by its number, or raised -/
  | ended (out : Except Exn ℕ)

/-- The call is inside `async with self._lock`. -/
def AcquirePoint.holding : AcquirePoint → Bool
  | .fetchingUser _ => true
  | .fetchingPassword _ _ => true
  | _ => false

/-- A call of `acquire`. -/
structure AcquireCall where
  tenantId : String
  point : AcquirePoint

/-- Who holds the lock. -/
inductive LockHolder where
  | call (i : ℕ)
  | close
  deriving DecidableEq

/-- A client that the pool has constructed, and for whom. -/
structure MadeClient where
  tenantId : String
  client : HttpClient

/-- An answer of the secret store. -/
structure SecretAnswer where
  tenantId : String
  name : String
  value : String
  deriving DecidableEq

/-- The state of a pool: its map, its lock and its flag; the calls of `acquire`; the clients that it has
constructed, by their numbers; and what the secret store has answered. -/
structure PoolState where
  clients : Dict String ℕ
  lock : Option LockHolder
  closed : Bool
  calls : List AcquireCall
  made : List MadeClient
  answers : List SecretAnswer

namespace PoolState

/-- A new pool. -/
def new : PoolState where
  clients := []
  lock := none
  closed := false
  calls := []
  made := []
  answers := []

/-- A call begins, and comes to a point. -/
def addCall (st : PoolState) (tenantId : String) (point : AcquirePoint) : PoolState :=
  { st with calls := st.calls ++ [⟨tenantId, point⟩] }

/-- A call comes to a point. -/
def setPoint (st : PoolState) (i : ℕ) (tenantId : String) (point : AcquirePoint) : PoolState :=
  { st with calls := st.calls.set i ⟨tenantId, point⟩ }

/-- A call leaves `async with self._lock` with an exception. -/
def fail (st : PoolState) (i : ℕ) (tenantId : String) (x : Exn) : PoolState :=
  { st.setPoint i tenantId (.ended (.error x)) with lock := none }

/-- The secret store answers. -/
def answer (st : PoolState) (tenantId name value : String) : PoolState :=
  { st with answers := st.answers ++ [⟨tenantId, name, value⟩] }

/-- A call constructs the client, stores it, and returns it. -/
def construct (st : PoolState) (i : ℕ) (tenantId : String) (client : HttpClient) : PoolState :=
  let k := st.made.length
  { st.setPoint i tenantId (.ended (.ok k)) with
    made := st.made ++ [⟨tenantId, client⟩]
    clients := st.clients.set tenantId k
    lock := none }

end PoolState

/-- A step of a call of `acquire`: it begins, gets the lock, is answered by the secret store or by its
cancellation while it awaits it, constructs the client or fails to, or is cancelled as it awaits the
lock. -/
inductive AcquireAction where
  | acquire (tenantId : String)
  | enter (i : ℕ)
  | userFetched (i : ℕ) (user : Except Exn String)
  | passwordFetched (i : ℕ) (password : Except Exn String) (constructed : Except Exn Unit)
  | cancel (i : ℕ)

section Acquire

variable (pool : ClientPool) (registry : SettingsRegistry)

/-- What a call does once it has the lock. -/
def PoolState.enter (st : PoolState) (i : ℕ) (tenantId : String) : PoolState :=
  if pool.guarded && st.closed then
    st.setPoint i tenantId (.ended (.error (.exception "RuntimeError")))
  else
    match st.clients.get tenantId with
    | some k => st.setPoint i tenantId (.ended (.ok k))
    | none =>
      match registry.get tenantId with
      | .error x => st.setPoint i tenantId (.ended (.error x))
      | .ok tenant => { st.setPoint i tenantId (.fetchingUser tenant) with lock := some (.call i) }

/-- One step; a step that is not enabled changes nothing. -/
def PoolState.acquireStep (st : PoolState) : AcquireAction → PoolState
  | .acquire tenantId =>
    match pool.readsUnlocked, st.clients.get tenantId with
    | true, some k => st.addCall tenantId (.ended (.ok k))
    | _, _ => st.addCall tenantId .waiting
  | .enter i =>
    match st.calls[i]?, st.lock with
    | some ⟨tenantId, .waiting⟩, none => st.enter pool registry i tenantId
    | _, _ => st
  | .userFetched i user =>
    match st.calls[i]? with
    | some ⟨tenantId, .fetchingUser tenant⟩ =>
      match user with
      | .error x => st.fail i tenantId x
      | .ok user =>
        (st.answer tenantId pool.userSecret user).setPoint i tenantId (.fetchingPassword tenant user)
    | _ => st
  | .passwordFetched i password constructed =>
    match st.calls[i]? with
    | some ⟨tenantId, .fetchingPassword tenant user⟩ =>
      match password with
      | .error x => st.fail i tenantId x
      | .ok password =>
        let st := st.answer tenantId pool.passwordSecret password
        match constructed with
        | .error x => st.fail i tenantId x
        | .ok () => st.construct i tenantId (pool.client tenant user password)
    | _ => st
  | .cancel i =>
    match st.calls[i]? with
    | some ⟨tenantId, .waiting⟩ => st.setPoint i tenantId (.ended (.error Exn.cancelled))
    | _ => st

end Acquire

/-! ## What a step does -/

variable {pool : ClientPool} {registry : SettingsRegistry} {st st' : PoolState} {a : AcquireAction}

/-- The call whose step it is. -/
def AcquireAction.caller (st : PoolState) : AcquireAction → ℕ
  | .acquire _ => st.calls.length
  | .enter i => i
  | .userFetched i _ => i
  | .passwordFetched i _ _ => i
  | .cancel i => i

/-- What a step of `acquire` may do. -/
inductive AcquireEffect (pool : ClientPool) (registry : SettingsRegistry) (st : PoolState) :
    AcquireAction → PoolState → Prop
  | begun {t : String} : AcquireEffect pool registry st (.acquire t) (st.addCall t .waiting)
  | hit {t : String} {k : ℕ} (hget : st.clients.get t = some k) :
      AcquireEffect pool registry st (.acquire t) (st.addCall t (.ended (.ok k)))
  | found {i : ℕ} {t : String} {k : ℕ} (hcall : st.calls[i]? = some ⟨t, .waiting⟩)
      (hget : st.clients.get t = some k) :
      AcquireEffect pool registry st (.enter i) (st.setPoint i t (.ended (.ok k)))
  | refused {a : AcquireAction} {i : ℕ} {t : String} {x : Exn} (hcall : st.calls[i]? = some ⟨t, .waiting⟩) :
      AcquireEffect pool registry st a (st.setPoint i t (.ended (.error x)))
  | entered {i : ℕ} {t : String} {tenant : TenantSettings} (hcall : st.calls[i]? = some ⟨t, .waiting⟩)
      (hlock : st.lock = none) (hopen : pool.guarded = true → st.closed = false)
      (hget : st.clients.get t = none) (htenant : registry.find? t = some tenant) :
      AcquireEffect pool registry st (.enter i)
        { st.setPoint i t (.fetchingUser tenant) with lock := some (.call i) }
  | userFetched {i : ℕ} {t : String} {tenant : TenantSettings} {user : String}
      (hcall : st.calls[i]? = some ⟨t, .fetchingUser tenant⟩) :
      AcquireEffect pool registry st (.userFetched i (.ok user))
        ((st.answer t pool.userSecret user).setPoint i t (.fetchingPassword tenant user))
  | failed {a : AcquireAction} {i : ℕ} {c : AcquireCall} {x : Exn} (answers : List SecretAnswer)
      (hcall : st.calls[i]? = some c) (hholding : c.point.holding = true) :
      AcquireEffect pool registry st a
        ({ st with answers := st.answers ++ answers }.fail i c.tenantId x)
  | constructed {i : ℕ} {t : String} {tenant : TenantSettings} {user password : String}
      (hcall : st.calls[i]? = some ⟨t, .fetchingPassword tenant user⟩) :
      AcquireEffect pool registry st (.passwordFetched i (.ok password) (.ok ()))
        ((st.answer t pool.passwordSecret password).construct i t (pool.client tenant user password))
  | idle {a : AcquireAction} : AcquireEffect pool registry st a st

variable (pool registry) in
/-- **What a step of `acquire` does** is one of these. -/
theorem acquireStep_effect (st : PoolState) (a : AcquireAction) :
    AcquireEffect pool registry st a (st.acquireStep pool registry a) := by
  cases a with
  | acquire t =>
    unfold PoolState.acquireStep
    dsimp only
    split
    · rename_i hget
      exact .hit hget
    · exact .begun
  | enter i =>
    unfold PoolState.acquireStep
    dsimp only
    split
    · rename_i t hcall hlock
      unfold PoolState.enter
      split
      · exact .refused hcall
      · rename_i hopen
        cases hget : st.clients.get t with
        | some k => exact .found hcall hget
        | none =>
          dsimp only
          cases hregistry : registry.get t with
          | error x => exact .refused hcall
          | ok tenant =>
            refine .entered hcall hlock (fun hguarded => ?_) hget (SettingsRegistry.get_eq_ok.mp hregistry)
            simpa [hguarded] using hopen
    · exact .idle
  | userFetched i user =>
    unfold PoolState.acquireStep
    dsimp only
    split
    · rename_i t tenant hcall
      cases user with
      | error x => simpa using AcquireEffect.failed [] hcall rfl
      | ok user => exact .userFetched hcall
    · exact .idle
  | passwordFetched i password constructed =>
    unfold PoolState.acquireStep
    dsimp only
    split
    · rename_i t tenant user hcall
      cases password with
      | error x => simpa using AcquireEffect.failed [] hcall rfl
      | ok password =>
        cases constructed with
        | error x => exact .failed _ hcall rfl
        | ok built => exact .constructed hcall
    · exact .idle
  | cancel i =>
    unfold PoolState.acquireStep
    dsimp only
    split
    · rename_i t hcall
      exact .refused hcall
    · exact .idle

end WazuhMcp
