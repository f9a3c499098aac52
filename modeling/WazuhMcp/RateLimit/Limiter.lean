import WazuhMcp.Foundations.Dict
import WazuhMcp.Foundations.Runs
import WazuhMcp.RateLimit.TokenBucket

/-!
# The in-process limiter

`InProcessRateLimiter.acquire` takes a token from the tenant's bucket and then one from the session's,
each created full when it is first needed. It holds the lock throughout and never waits while holding
it, so calls happen one after another and a run is a list of calls. A call reads the clock when it
makes a bucket, whether or not it keeps it, and when it refreshes one.

`acquire_result`, `acquire_tenantBuckets` and `acquire_sessionBuckets` say what a call comes to, and
`acquire_noninterference` that no call of another tenant shows in a tenant's results.
-/

namespace WazuhMcp.RateLimit

/-- The limits a limiter goes by, `_default` and `_per_tenant`, and how the numbers of its buckets are
rounded. -/
structure Limits where
  default : RateLimitConfig := {}
  perTenant : Dict String RateLimitConfig := []
  rounding : Rounding := .exact

/-- `_cfg(tenant_id)` -/
def Limits.cfg (limits : Limits) (tenantId : String) : RateLimitConfig :=
  (limits.perTenant.get tenantId).getD limits.default

/-- The same limits in exact arithmetic. -/
def Limits.exactly (limits : Limits) : Limits := { limits with rounding := .exact }

/-- The readings of the clock in one call of `acquire`, in order. -/
structure Readings where
  mkTenant : ℚ
  tenant : ℚ
  mkSession : ℚ
  session : ℚ
  deriving DecidableEq

/-- The buckets of an `InProcessRateLimiter`. -/
structure InProcessRateLimiter where
  tenantBuckets : Dict String TokenBucket
  sessionBuckets : Dict (String × String) TokenBucket

namespace InProcessRateLimiter

/-- A new limiter. -/
def new : InProcessRateLimiter := ⟨[], []⟩

/-- `acquire(tenant_id, session_id)`: a tier that refuses raises its `rateLimited`. -/
def acquire (limits : Limits) (l : InProcessRateLimiter) (tenantId sessionId : String)
    (r : Readings) : Except Tier Unit × InProcessRateLimiter :=
  let cfg := limits.cfg tenantId
  let tbucket := (l.tenantBuckets.get tenantId).getD (mkBucket cfg.tenant r.mkTenant)
  let (granted, tbucket) := tbucket.tryAcquire limits.rounding r.tenant 1
  let l := { l with tenantBuckets := l.tenantBuckets.set tenantId tbucket }
  if !granted then (.error .tenant, l)
  else
    let skey := (tenantId, sessionId)
    let sbucket := (l.sessionBuckets.get skey).getD (mkBucket cfg.session r.mkSession)
    let (granted, sbucket) := sbucket.tryAcquire limits.rounding r.session 1
    let l := { l with sessionBuckets := l.sessionBuckets.set skey sbucket }
    if !granted then (.error .session, l) else (.ok (), l)

/-- The bucket a call draws on at the tenant tier. -/
def tenantBucket (limits : Limits) (l : InProcessRateLimiter) (tenantId : String) (mk : ℚ) :
    TokenBucket :=
  (l.tenantBuckets.get tenantId).getD (mkBucket (limits.cfg tenantId).tenant mk)

/-- The bucket a call draws on at the session tier. -/
def sessionBucket (limits : Limits) (l : InProcessRateLimiter) (tenantId sessionId : String)
    (mk : ℚ) : TokenBucket :=
  (l.sessionBuckets.get (tenantId, sessionId)).getD (mkBucket (limits.cfg tenantId).session mk)

/-- The draw of a call at the tenant tier. -/
def drawTenant (limits : Limits) (l : InProcessRateLimiter) (tenantId : String) (r : Readings) :
    Bool × TokenBucket :=
  (l.tenantBucket limits tenantId r.mkTenant).tryAcquire limits.rounding r.tenant 1

/-- The draw of a call at the session tier, if it comes to one. -/
def drawSession (limits : Limits) (l : InProcessRateLimiter) (tenantId sessionId : String)
    (r : Readings) : Bool × TokenBucket :=
  (l.sessionBucket limits tenantId sessionId r.mkSession).tryAcquire limits.rounding r.session 1

variable {limits : Limits} {l : InProcessRateLimiter} {tenantId sessionId : String} {r : Readings}

theorem acquire_eq (limits : Limits) (l : InProcessRateLimiter) (tenantId sessionId : String)
    (r : Readings) :
    l.acquire limits tenantId sessionId r =
      let drawT := l.drawTenant limits tenantId r
      let drawS := l.drawSession limits tenantId sessionId r
      let tenants := l.tenantBuckets.set tenantId drawT.2
      let sessions := l.sessionBuckets.set (tenantId, sessionId) drawS.2
      if !drawT.1 then (.error .tenant, ⟨tenants, l.sessionBuckets⟩)
      else if !drawS.1 then (.error .session, ⟨tenants, sessions⟩)
      else (.ok (), ⟨tenants, sessions⟩) := rfl

/-- **What a call comes to**: it draws on the tenant's bucket and, if that grants, on the session's. -/
theorem acquire_result :
    (l.acquire limits tenantId sessionId r).1 =
      if !(l.drawTenant limits tenantId r).1 then .error .tenant
      else if !(l.drawSession limits tenantId sessionId r).1 then .error .session else .ok () := by
  rw [acquire_eq]
  simp only [apply_ite Prod.fst]

/-- A call returns when both tiers grant. -/
theorem acquire_ok_iff : (l.acquire limits tenantId sessionId r).1 = .ok () ↔
    (l.drawTenant limits tenantId r).1 ∧ (l.drawSession limits tenantId sessionId r).1 := by
  rw [acquire_result]
  cases (l.drawTenant limits tenantId r).1 <;>
    cases (l.drawSession limits tenantId sessionId r).1 <;> simp

theorem acquire_tenantBuckets :
    (l.acquire limits tenantId sessionId r).2.tenantBuckets =
      l.tenantBuckets.set tenantId (l.drawTenant limits tenantId r).2 := by
  rw [acquire_eq]
  simp only
  split
  · rfl
  · split <;> rfl

theorem acquire_sessionBuckets :
    (l.acquire limits tenantId sessionId r).2.sessionBuckets =
      if !(l.drawTenant limits tenantId r).1 then l.sessionBuckets
      else l.sessionBuckets.set (tenantId, sessionId)
        (l.drawSession limits tenantId sessionId r).2 := by
  rw [acquire_eq]
  simp only
  split
  · rfl
  · split <;> rfl

/-! ## Tenants do not interfere -/

/-- What a limiter holds of a tenant: its bucket and those of its sessions. -/
def holds (tenantId : String) (l : InProcessRateLimiter) :
    Option TokenBucket × (String → Option TokenBucket) :=
  (l.tenantBuckets.get tenantId, fun sessionId => l.sessionBuckets.get (tenantId, sessionId))

/-- A call leaves what the limiter holds of other tenants as it was. -/
theorem holds_acquire_of_ne {other : String} (h : other ≠ tenantId) :
    holds other (l.acquire limits tenantId sessionId r).2 = holds other l := by
  have hsession (b : TokenBucket) (s : String) := l.sessionBuckets.get_set_of_ne
    (show (other, s) ≠ (tenantId, sessionId) from fun heq => h (Prod.mk.inj heq).1) b
  rw [holds, acquire_tenantBuckets, Dict.get_set_of_ne _ h, acquire_sessionBuckets]
  split
  · rfl
  · simp only [hsession, holds]

/-- What a call leaves of its own tenant. -/
theorem holds_acquire_self :
    holds tenantId (l.acquire limits tenantId sessionId r).2 =
      (some (l.drawTenant limits tenantId r).2,
        if !(l.drawTenant limits tenantId r).1 then (holds tenantId l).2
        else Function.update (holds tenantId l).2 sessionId
          (some (l.drawSession limits tenantId sessionId r).2)) := by
  rw [holds, acquire_tenantBuckets, Dict.get_set_self, acquire_sessionBuckets]
  split
  · rfl
  · congr 1
    funext s
    rw [Dict.get_set, Function.update_apply]
    simp [holds]

theorem drawTenant_congr {l' : InProcessRateLimiter} (h : holds tenantId l = holds tenantId l') :
    l.drawTenant limits tenantId r = l'.drawTenant limits tenantId r := by
  have htenant : l.tenantBuckets.get tenantId = l'.tenantBuckets.get tenantId := (Prod.mk.inj h).1
  rw [drawTenant, drawTenant, tenantBucket, tenantBucket, htenant]

theorem drawSession_congr {l' : InProcessRateLimiter} (h : holds tenantId l = holds tenantId l') :
    l.drawSession limits tenantId sessionId r = l'.drawSession limits tenantId sessionId r := by
  have hsession : l.sessionBuckets.get (tenantId, sessionId) =
      l'.sessionBuckets.get (tenantId, sessionId) := congrFun (Prod.mk.inj h).2 sessionId
  rw [drawSession, drawSession, sessionBucket, sessionBucket, hsession]

end InProcessRateLimiter

open InProcessRateLimiter

/-- A call of `acquire`. -/
structure Call where
  tenantId : String
  sessionId : String
  readings : Readings
  deriving DecidableEq

/-- What the limiter is after a call. -/
def Call.step (limits : Limits) (l : InProcessRateLimiter) (c : Call) : InProcessRateLimiter :=
  (l.acquire limits c.tenantId c.sessionId c.readings).2

/-- What a call comes to. -/
def Call.result (limits : Limits) (l : InProcessRateLimiter) (c : Call) : Except Tier Unit :=
  (l.acquire limits c.tenantId c.sessionId c.readings).1

/-- The results of a tenant's calls go by what the limiter holds of the tenant. -/
theorem unwinding (limits : Limits) (tenantId : String) :
    Runs.Unwinding (Call.step limits) (Call.result limits) (fun c => c.tenantId = tenantId)
      (holds tenantId) where
  silent l c hlow := holds_acquire_of_ne fun h => by simp [h] at hlow
  step_congr l l' c hlow hview := by
    obtain rfl : c.tenantId = tenantId := by simpa using hlow
    rw [Call.step, Call.step, holds_acquire_self, holds_acquire_self, drawTenant_congr hview,
      drawSession_congr hview, hview]
  out_congr l l' c hlow hview := by
    obtain rfl : c.tenantId = tenantId := by simpa using hlow
    rw [Call.result, Call.result, acquire_result, acquire_result, drawTenant_congr hview,
      drawSession_congr hview]

/-- **A tenant's results** are the same in all runs in which its own calls are the same, whatever the
other tenants do. -/
theorem acquire_noninterference (limits : Limits) (tenantId : String) {calls calls' : List Call}
    (h : calls.filter (fun c => c.tenantId = tenantId) =
      calls'.filter (fun c => c.tenantId = tenantId)) :
    Runs.outputs (Call.step limits) (Call.result limits) (fun c => c.tenantId = tenantId) .new calls =
      Runs.outputs (Call.step limits) (Call.result limits) (fun c => c.tenantId = tenantId) .new
        calls' :=
  (unwinding limits tenantId).outputs_eq rfl h

/-- One tenant that exhausts its own bucket between the calls of another. -/
theorem acquire_noninterference_exhausted :
    let bucket : BucketConfig :=
      { capacity := 1, refillPerSec := 1, refillPerSec_pos := by decide, refillPerSec_le := by decide }
    let limits : Limits := { default := { tenant := bucket, session := bucket } }
    let call (tenantId : String) : Call := ⟨tenantId, "s", 0, 0, 0, 0⟩
    let results := Runs.outputs (Call.step limits) (Call.result limits) (fun c => c.tenantId = "a")
    results .new [call "b", call "a", call "b", call "b", call "a"] =
      results .new [call "a", call "a"] :=
  acquire_noninterference _ "a" rfl

end WazuhMcp.RateLimit
