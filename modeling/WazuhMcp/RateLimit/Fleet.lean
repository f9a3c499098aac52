import WazuhMcp.Foundations.Pool
import WazuhMcp.RateLimit.Breaker
import WazuhMcp.RateLimit.RedisLimiter

/-!
# A fleet of replicas on one Redis

Any number of calls of `RedisRateLimiter.acquire` at work on several replicas, each with its breaker,
its fallback and its clock, and on the Redis they share. A step of a call may be answered as the
environment chooses: a call of the client may fail whether or not Redis runs the script, at once or
later, and the steps of different calls come in any order.

Redis loses no key before its time to live has passed, the timestamps of the scripts that it runs do
not go back, and neither does the clock of a replica.
-/

namespace WazuhMcp.RateLimit

open Interact

/-! ## The parts -/

namespace BucketId

/-- The tenant of a bucket. -/
def tenantId : BucketId → TenantId
  | .tenant t => t
  | .session t _ => t

/-- The tier of a bucket. -/
def tier : BucketId → Tier
  | .tenant _ => .tenant
  | .session _ _ => .session

/-- What a bucket is configured to hold. -/
def config (limits : Limits) (b : BucketId) : BucketConfig := (limits.cfg b.tenantId.text).bucket b.tier

end BucketId

/-- The arguments of a call of `acquire`. -/
structure Caller where
  tenantId : TenantId
  sessionId : String
  deriving DecidableEq

/-- The bucket of a tier that a call draws on. -/
def Caller.bucket (c : Caller) : Tier → BucketId
  | .tenant => .tenant c.tenantId
  | .session => .session c.tenantId c.sessionId

/-- A call of `acquire` on one of the replicas. -/
structure FleetCall (r : ℕ) extends Caller where
  replica : Fin r

/-- Redis: the hashes under its keys, the timestamp of the last script it ran, and the scripts it has
been asked to run. -/
structure RedisStore where
  hashes : Dict String BucketHash
  lastMs : ℤ
  sent : List ScriptCall

/-- Redis runs the script; a key whose time to live has passed may be gone. -/
def RedisStore.run (fl : Rounding) (s : RedisStore) (call : ScriptCall) (forgotten : Bool) : ℕ × RedisStore :=
  let found := foundHash (s.hashes.get call.key) call.nowMs forgotten
  let (reply, hash) := tokenBucketLua fl found call.capacity call.refillPerSec call.nowMs call.n call.ttl
  (reply, { s with hashes := s.hashes.set call.key hash, lastMs := call.nowMs })

/-- A replica: the breaker and the fields of its `RedisRateLimiter`, and the latest reading of its
clock. -/
structure Replica where
  breaker : Breaker
  scriptSha : Option String
  fallback : Option InProcessRateLimiter
  clock : ℚ

/-- `_ensure_fallback()` -/
def Replica.ensureFallback (rep : Replica) : InProcessRateLimiter := rep.fallback.getD .new

/-- The replicas and their Redis. -/
structure Fleet (r : ℕ) where
  redis : RedisStore
  replicas : Fin r → Replica

/-- A fleet that starts, with the readings of its clocks. -/
def Fleet.new {r : ℕ} (clocks : Fin r → ℚ) (nowMs : ℤ) : Fleet r :=
  ⟨⟨[], nowMs, []⟩, fun i => ⟨.new, none, none, clocks i⟩⟩

/-! ## Steps -/

/-- How the environment answers a step. -/
inductive Fate where
  /-- the replica itself answers -/
  | replica
  /-- the reading of the wall clock -/
  | reads (nowMs : ℤ)
  /-- Redis loads the script -/
  | loads (sha : String)
  /-- Redis runs the script and replies; the key may be gone, if its time to live has passed -/
  | replies (forgotten : Bool)
  /-- the client fails -/
  | fails (x : ClientFailure)
  /-- the in-process limiter takes these readings of the clock -/
  | draws (r : Readings)

/-- A choice of the environment: the reading of the replica's clock, and the answer. -/
structure Choice where
  now : ℚ
  fate : Fate

/-- What happens in Redis by itself: a script that it has been asked to run is run, whether or not
anyone still waits for the reply. -/
structure Delivery where
  index : ℕ
  forgotten : Bool

namespace Fleet

variable {r : ℕ}

/-- The replica is replaced. -/
def setReplica (w : Fleet r) (i : Fin r) (rep : Replica) : Fleet r :=
  { w with replicas := Function.update w.replicas i rep }

/-- How a fleet answers a step of a call, unless the choice does not fit. -/
def serve (cfg : BreakerConfig) (limits : Limits) (w : Fleet r) (c : FleetCall r) :
    (op : LimiterOp) → Choice → Option (op.Ans × Fleet r) := fun op choice =>
  let rep := { w.replicas c.replica with clock := choice.now }
  if choice.now < (w.replicas c.replica).clock then none
  else match op, choice.fate with
    | .enter, .replica =>
      let (out, breaker) := rep.breaker.enter cfg choice.now
      some (out, w.setReplica c.replica { rep with breaker := breaker })
    | .record ok, .replica =>
      let breaker :=
        if ok then rep.breaker.recordSuccess choice.now else rep.breaker.recordFailure cfg choice.now
      some ((), w.setReplica c.replica { rep with breaker := breaker })
    | .scriptSha, .replica => some (rep.scriptSha, w.setReplica c.replica rep)
    | .scriptLoad, .loads sha => some (.ok sha, w.setReplica c.replica rep)
    | .scriptLoad, .fails x => some (.error x, w.setReplica c.replica rep)
    | .setScriptSha sha, .replica =>
      some ((), w.setReplica c.replica { rep with scriptSha := some sha })
    | .nowMs, .reads nowMs => some (nowMs, w.setReplica c.replica rep)
    | .evalsha _ _ call, .replies forgotten =>
      if call.nowMs < w.redis.lastMs then none
      else
        let w := w.setReplica c.replica rep
        let (reply, redis) := w.redis.run limits.rounding call forgotten
        some (.ok reply, { w with redis := { redis with sent := redis.sent ++ [call] } })
    | .evalsha _ _ call, .fails x =>
      let w := w.setReplica c.replica rep
      some (.error x, { w with redis := { w.redis with sent := w.redis.sent ++ [call] } })
    | .fallback tenantId sessionId, .draws r =>
      if (w.replicas c.replica).clock ≤ r.mkTenant ∧ r.mkTenant ≤ r.tenant ∧ r.tenant ≤ r.mkSession ∧
          r.mkSession ≤ r.session ∧ r.session ≤ choice.now then
        let (out, l) := rep.ensureFallback.acquire limits tenantId sessionId r
        some (out, w.setReplica c.replica { rep with fallback := some l })
      else none
    | _, _ => none

/-- A script that Redis has been asked to run is run, once more or after all. -/
def deliver (limits : Limits) (w : Fleet r) (d : Delivery) : Fleet r :=
  match w.redis.sent[d.index]? with
  | none => w
  | some call =>
    if call.nowMs < w.redis.lastMs then w
    else { w with redis := (w.redis.run limits.rounding call d.forgotten).2 }

end Fleet

/-- A deployment: its limits, the prefix of its keys, and how its breakers are configured. -/
structure Deployment where
  limits : Limits
  keyPrefix : String
  breaker : BreakerConfig

namespace Deployment

variable {r : ℕ}

/-- How the fleet answers. -/
def habitat (d : Deployment) (r : ℕ) :
    Habitat LimiterOp LimiterOp.Ans (FleetCall r) Choice Delivery (Fleet r) where
  serve := Fleet.serve d.breaker d.limits
  move := Fleet.deliver d.limits

/-- The program of a call. -/
def call (d : Deployment) (c : FleetCall r) : LimiterProg Unit :=
  acquire d.limits d.keyPrefix c.tenantId.text c.sessionId

/-- A call under way. -/
abbrev CallTask (r : ℕ) := Task LimiterOp LimiterOp.Ans Raised Unit (FleetCall r) Choice

/-- A fleet with its calls. -/
abbrev FleetPool (r : ℕ) := Pool LimiterOp LimiterOp.Ans Raised Unit (FleetCall r) Choice (Fleet r)

/-- The fleet after a run. -/
def run (d : Deployment) (start : Fleet r) (acts : List (PoolAction (FleetCall r) Choice Delivery)) :
    FleetPool r :=
  Runs.exec (Pool.step d.call (d.habitat r)) (Pool.new start) acts

end Deployment

end WazuhMcp.RateLimit
