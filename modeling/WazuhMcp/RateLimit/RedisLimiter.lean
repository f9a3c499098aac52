import WazuhMcp.Foundations.Binary64
import WazuhMcp.Foundations.Prog
import WazuhMcp.RateLimit.Keys
import WazuhMcp.RateLimit.Limiter
import WazuhMcp.RateLimit.Refinement

/-!
# The Redis limiter

`RedisRateLimiter.acquire` as a program: it goes through the circuit breaker to the script for the
tenant's bucket and then for the session's, and turns to the in-process limiter when the breaker
refuses or Redis fails. The breaker, the Redis client, the clocks and the fallback answer its steps,
and the client may fail at any of its own.

Failures are caught by their class, and not every class is (`failureContract_iff`).
-/

namespace WazuhMcp.RateLimit

open Interact

/-! ## Failures -/

/-- An exception of the Redis client, as the `except` clauses of the limiter tell them apart. -/
inductive ClientError where
  /-- `redis.exceptions.ConnectionError`, or a subclass of it such as `AuthenticationError` -/
  | connection (cls : String)
  /-- `redis.exceptions.TimeoutError` -/
  | redisTimeout
  /-- the builtin `TimeoutError` -/
  | timeout
  /-- `redis.exceptions.NoScriptError` -/
  | noScript
  /-- any other `Exception`, such as `ReadOnlyError` or a plain `ResponseError` -/
  | other (cls : String)
  deriving DecidableEq

/-- What `acquire` and the functions it calls may raise. -/
inductive Raised where
  | wazuh (e : WazuhError)
  /-- `CircuitBreakerOpenError` -/
  | breakerOpen (message : String)
  | client (e : ClientError)
  /-- the `CancelledError` that `asyncio.wait_for` throws into what it has waited for too long -/
  | cancelled
  | other (exn : Exn)
  deriving DecidableEq

/-- Whether `acquire` turns to the fallback: `except CircuitBreakerOpenError` and
`except (RedisConnectionError, RedisTimeoutError, TimeoutError)`. -/
def Raised.routed : Raised → Bool
  | .breakerOpen _ | .client (.connection _) | .client .redisTimeout | .client .timeout => true
  | _ => false

/-- How a call of the Redis client fails: by an exception, or by lasting until `asyncio.wait_for` has
waited long enough. -/
inductive ClientFailure where
  | raises (e : ClientError)
  | timesOut
  deriving DecidableEq

/-- What the failure throws into the caller. -/
def ClientFailure.raised : ClientFailure → Raised
  | .raises e => .client e
  | .timesOut => .cancelled

/-! ## The steps of the limiter -/

/-- The key and the arguments that `evalsha` passes to the script. -/
structure ScriptCall where
  key : String
  capacity : ℕ
  refillPerSec : ℚ
  nowMs : ℤ
  n : ℕ
  ttl : ℕ

/-- A step of the limiter. -/
inductive LimiterOp where
  /-- `_breaker.call(fn)`, up to where `fn` is started -/
  | enter
  /-- `_record_success()` or `_record_failure()` -/
  | record (ok : Bool)
  /-- `self._script_sha` -/
  | scriptSha
  /-- `self._redis.script_load(self._script_text)` -/
  | scriptLoad
  /-- `self._script_sha = sha` -/
  | setScriptSha (sha : String)
  /-- `self._now_ms()` -/
  | nowMs
  /-- `self._redis.evalsha(sha, 1, key, …)`, and whether it is the one after a `NOSCRIPT` reply -/
  | evalsha (again : Bool) (sha : String) (call : ScriptCall)
  /-- `_ensure_fallback().acquire(tenant_id, session_id)` -/
  | fallback (tenantId sessionId : String)

/-- What a step is answered by. -/
def LimiterOp.Ans : LimiterOp → Type
  | .enter => Except String Unit
  | .record _ => Unit
  | .scriptSha => Option String
  | .scriptLoad => Except ClientFailure String
  | .setScriptSha _ => Unit
  | .nowMs => ℤ
  | .evalsha _ _ _ => Except ClientFailure ℕ
  | .fallback _ _ => Except Tier Unit

instance (op : LimiterOp) : Inhabited op.Ans :=
  match op with
  | .enter => ⟨.ok ()⟩
  | .record _ => ⟨()⟩
  | .scriptSha => ⟨none⟩
  | .scriptLoad => ⟨.ok ""⟩
  | .setScriptSha _ => ⟨()⟩
  | .nowMs => ⟨(0 : ℤ)⟩
  | .evalsha _ _ _ => ⟨.ok (0 : ℕ)⟩
  | .fallback _ _ => ⟨.ok ()⟩

/-- Code of the limiter. -/
abbrev LimiterProg (α : Type) := Prog LimiterOp LimiterOp.Ans Raised α

/-- A step performed, with its answer. -/
abbrev LimiterEvent := Event LimiterOp LimiterOp.Ans

/-- Perform a step. -/
def LimiterOp.perform (op : LimiterOp) : LimiterProg op.Ans := Prog.perform op

theorem LimiterOp.all_perform_bind {α : Type} {op : LimiterOp} {f : op.Ans → LimiterProg α}
    {Q : List LimiterEvent → Except Raised α → Prop} :
    (op.perform >>= f).All Q ↔ ∀ ans, (f ans).All fun tr out => Q (⟨op, ans⟩ :: tr) out := Iff.rfl

/-! ## Running the script -/

/-- `_load_script()` -/
def loadScript : LimiterProg String := do
  let sha ← .op .scriptLoad fun out => Prog.ofExcept (out.mapError ClientFailure.raised)
  (LimiterOp.setScriptSha sha).perform
  return sha

/-- `_evalsha(sha, key, capacity, refill, n, ttl)`; `again` says which of its two calls it is. -/
def evalsha (again : Bool) (sha key : String) (bucket : BucketConfig) (n ttl : ℕ) : LimiterProg ℕ := do
  let nowMs ← LimiterOp.nowMs.perform
  .op (.evalsha again sha ⟨key, bucket.capacity, bucket.refillPerSec, nowMs, n, ttl⟩) fun out =>
    Prog.ofExcept (out.mapError ClientFailure.raised)

/-- The `try` of `_run_script`: the script is loaded again when Redis does not know it. -/
def evalshaLoading (sha key : String) (bucket : BucketConfig) (n ttl : ℕ) : LimiterProg ℕ := do
  match ← (evalsha false sha key bucket n ttl).attempt with
  | .error (.client .noScript) =>
    let sha ← loadScript
    evalsha true sha key bucket n ttl
  | out => Prog.ofExcept out

/-- `_run_script(key, capacity, refill, n, ttl)` -/
def runScript (key : String) (bucket : BucketConfig) (n ttl : ℕ) : LimiterProg ℕ := do
  let sha ← match (← LimiterOp.scriptSha.perform : Option String) with
    | some sha => pure sha
    | none => loadScript
  evalshaLoading sha key bucket n ttl

/-- `_try_redis_acquire(key, cfg_bucket, ttl)` -/
def tryRedisAcquire (key : String) (bucket : BucketConfig) (ttl : ℕ) : LimiterProg Bool := do
  let result ← runScript key bucket 1 ttl
  return result == 1

/-! ## Through the breaker -/

/-- `asyncio.wait_for(fn(), timeout=…)` -/
def waitFor {α : Type} (fn : LimiterProg α) : LimiterProg α := do
  match ← fn.attempt with
  | .error .cancelled => Prog.raise (.client .timeout)
  | out => Prog.ofExcept out

/-- `_breaker.call(fn)` -/
def breakerCall {α : Type} (fn : LimiterProg α) : LimiterProg α := do
  match (← LimiterOp.enter.perform : Except String Unit) with
  | .error message => Prog.raise (.breakerOpen message)
  | .ok () =>
    match ← (waitFor fn).attempt with
    | .error x =>
      (LimiterOp.record false).perform
      Prog.raise x
    | .ok result =>
      (LimiterOp.record true).perform
      return result

/-! ## Acquiring -/

/-- `await self._ensure_fallback().acquire(tenant_id, session_id)` -/
def acquireFallback (tenantId sessionId : String) : LimiterProg Unit :=
  .op (.fallback tenantId sessionId) fun out =>
    Prog.ofExcept (out.mapError fun tier => .wazuh tier.rateLimited)

/-- A half of `acquire`: the tier's bucket in Redis or, when Redis cannot be had, the fallback, which
settles both tiers. `next` is what remains once the bucket in Redis has granted. -/
def acquireTier (tier : Tier) (tenantId sessionId key : String) (bucket : BucketConfig) (ttl : ℕ)
    (next : LimiterProg Unit) : LimiterProg Unit := do
  match ← (breakerCall (tryRedisAcquire key bucket ttl)).attempt with
  | .error x => if x.routed then acquireFallback tenantId sessionId else Prog.raise x
  | .ok granted => if !granted then Prog.raise (.wazuh tier.rateLimited) else next

/-- Double precision: a quotient is rounded, and doubling is exact as long as it is finite. -/
def FloatArith.binary64 : FloatArith where
  div a b := Binary64.round (a / b)
  double a := if 2 * a < 2 ^ 1024 then some (2 * a) else none

/-- `RedisRateLimiter.acquire(tenant_id, session_id)` -/
def acquire (limits : Limits) (keyPrefix tenantId sessionId : String) : LimiterProg Unit := do
  let cfg := limits.cfg tenantId
  let ttl ← Prog.ofExcept ((ttlFor .binary64 cfg).mapError .other)
  let tenantKey := tenantKey keyPrefix tenantId
  let sessionKey := sessionKey keyPrefix tenantId sessionId
  acquireTier .tenant tenantId sessionId tenantKey cfg.tenant ttl
    (acquireTier .session tenantId sessionId sessionKey cfg.session ttl (pure ()))

/-! ## Which failures are caught -/

/-- Whether the exception is of a class that `acquire` does not catch. -/
def ClientError.uncaught : ClientError → Bool
  | .noScript | .other _ => true
  | _ => false

/-- A failure of the client that nothing catches. `NOSCRIPT` is caught where the script was taken to
be loaded. -/
def Unhandled : LimiterEvent → Prop
  | ⟨.scriptLoad, .error (.raises e)⟩ => e.uncaught
  | ⟨.evalsha again _ _, .error (.raises e)⟩ => e.uncaught ∧ (e = .noScript → again)
  | _ => False

/-- Whether the exception passes through `acquire` to its caller. -/
def Raised.escapes : Raised → Bool
  | .client e => e.uncaught
  | .other _ => true
  | _ => false

section Reports

variable {α β : Type} {tr tr' : List LimiterEvent}

/-- What a run of the script raises tells whether there was a failure that nothing catches. -/
structure Reports (tr : List LimiterEvent) (out : Except Raised α) : Prop where
  escapes : (∃ ev ∈ tr, Unhandled ev) ↔ ∃ x, out = .error x ∧ x.escapes
  client : ∀ x, out = .error x → x = .cancelled ∨ ∃ e, x = .client e

theorem Reports.not_unhandled {a : α} (h : Reports tr (.ok a)) : ∀ ev ∈ tr, ¬ Unhandled ev := by
  intro ev hev hun
  obtain ⟨x, hx, -⟩ := h.escapes.mp ⟨ev, hev, hun⟩
  cases hx

/-- Nothing that goes before matters, unless it is a failure that nothing catches. -/
theorem exists_unhandled_append (h : ∀ ev ∈ tr, ¬ Unhandled ev) :
    (∃ ev ∈ tr ++ tr', Unhandled ev) ↔ ∃ ev ∈ tr', Unhandled ev := by
  constructor
  · rintro ⟨ev, hev, hun⟩
    rcases List.mem_append.mp hev with hev | hev
    · exact absurd hun (h ev hev)
    · exact ⟨ev, hev, hun⟩
  · rintro ⟨ev, hev, hun⟩
    exact ⟨ev, List.mem_append_right _ hev, hun⟩

theorem Reports.append {out : Except Raised α} (h : ∀ ev ∈ tr, ¬ Unhandled ev)
    (hout : Reports tr' out) : Reports (tr ++ tr') out :=
  ⟨(exists_unhandled_append h).trans hout.escapes, hout.client⟩

theorem reports_ok {a : α} (h : ∀ ev ∈ tr, ¬ Unhandled ev) : Reports tr (.ok a) where
  escapes := iff_of_false (fun ⟨ev, hev, hun⟩ => h ev hev hun) fun ⟨_, hx, _⟩ => (by cases hx)
  client x hx := by cases hx

theorem reports_bind {p : LimiterProg α} {f : α → LimiterProg β} (hp : p.All Reports)
    (hf : ∀ a, (f a).All Reports) : (p >>= f).All Reports := by
  rw [Prog.all_bind]
  refine hp.mono fun tr out htr => ?_
  cases out with
  | ok a => exact (hf a).mono fun tr' out' htr' => htr'.append htr.not_unhandled
  | error x => exact ⟨by simpa using htr.escapes, fun y hy => htr.client y (by simpa using hy)⟩

theorem reports_perform (op : LimiterOp) (h : ∀ ans, ¬ Unhandled ⟨op, ans⟩) :
    op.perform.All Reports := by
  intro ans
  refine reports_ok fun ev hev => ?_
  obtain rfl : ev = ⟨op, ans⟩ := by simpa using hev
  exact h ans

/-- A call of the client that ends in an exception. -/
theorem reports_error (tr : List LimiterEvent) {ev : LimiterEvent} {x : ClientFailure}
    (h : ∀ ev ∈ tr, ¬ Unhandled ev) (hev : Unhandled ev ↔ x.raised.escapes) :
    Reports (α := α) (tr ++ [ev]) (.error x.raised) where
  escapes := by
    rw [exists_unhandled_append h]
    simp [hev]
  client y hy := by
    obtain rfl : x.raised = y := by simpa using hy
    cases x with
    | raises e => exact .inr ⟨e, rfl⟩
    | timesOut => exact .inl rfl

theorem loadScript_reports : loadScript.All Reports := by
  refine reports_bind (fun out => ?_) fun sha => reports_bind (reports_perform _ fun ans h => h)
    fun _ => reports_ok (by simp)
  cases out with
  | ok sha => exact reports_ok (by simp [Unhandled])
  | error x =>
    apply reports_error [] (by simp)
    cases x <;> simp [Unhandled, ClientFailure.raised, Raised.escapes]

/-- The first `evalsha` may also end in a `NOSCRIPT` that is caught. -/
theorem evalsha_reports (again : Bool) (sha key : String) (bucket : BucketConfig) (n ttl : ℕ) :
    (evalsha again sha key bucket n ttl).All fun tr out =>
      Reports tr out ∧ (again = false → out ≠ .error (.client .noScript)) ∨
      again = false ∧ out = .error (.client .noScript) ∧ ∀ ev ∈ tr, ¬ Unhandled ev := by
  intro nowMs out
  have hnow : ∀ ev ∈ [(⟨.nowMs, nowMs⟩ : LimiterEvent)], ¬ Unhandled ev := by simp [Unhandled]
  cases out with
  | ok reply => exact .inl ⟨reports_ok (by simp [Unhandled]), by simp⟩
  | error x =>
    by_cases hcaught : again = false ∧ x = .raises .noScript
    · obtain ⟨rfl, rfl⟩ := hcaught
      exact .inr ⟨rfl, rfl, by simp [Unhandled]⟩
    · refine .inl ⟨reports_error _ hnow ?_, fun hagain hx => hcaught ⟨hagain, ?_⟩⟩
      · cases x with
        | raises e => cases e <;> cases again <;> simp_all [Unhandled, ClientFailure.raised,
            Raised.escapes, ClientError.uncaught]
        | timesOut => simp [Unhandled, ClientFailure.raised, Raised.escapes]
      · cases x with
        | raises e => exact congrArg _ (by simpa [ClientFailure.raised] using hx)
        | timesOut => simp [ClientFailure.raised] at hx

theorem evalshaLoading_reports (sha key : String) (bucket : BucketConfig) (n ttl : ℕ) :
    (evalshaLoading sha key bucket n ttl).All Reports := by
  rw [evalshaLoading, Prog.all_bind, Prog.all_attempt]
  refine (evalsha_reports false sha key bucket n ttl).mono fun tr out htr => ?_
  rcases htr with ⟨hreports, hne⟩ | ⟨-, rfl, hnone⟩
  · have hofExcept : (Prog.ofExcept out : LimiterProg ℕ).All fun tr' out' => Reports (tr ++ tr') out' :=
      (Prog.all_ofExcept _ _).mpr (by rwa [List.append_nil])
    dsimp only
    split
    · exact (hne rfl rfl).elim
    · exact hofExcept
  · refine Prog.All.mono ?_ fun tr' out' htr' => Reports.append hnone htr'
    refine reports_bind loadScript_reports fun sha => ?_
    refine (evalsha_reports true sha key bucket n ttl).mono fun tr' out' htr' => ?_
    exact htr'.elim And.left fun h => (by cases h.1)

theorem tryRedisAcquire_reports (key : String) (bucket : BucketConfig) (ttl : ℕ) :
    (tryRedisAcquire key bucket ttl).All Reports := by
  refine reports_bind (reports_bind (reports_perform _ fun ans h => h) fun sha => ?_)
    fun reply => reports_ok (by simp)
  cases sha with
  | some sha =>
    exact reports_bind (reports_ok (by simp)) fun sha => evalshaLoading_reports sha key bucket 1 ttl
  | none => exact reports_bind loadScript_reports fun sha => evalshaLoading_reports sha key bucket 1 ttl

end Reports

/-- What a call through the breaker raises is either routed to the fallback or a failure that nothing
catches. -/
structure Routes {α : Type} (tr : List LimiterEvent) (out : Except Raised α) : Prop where
  escapes : (∃ ev ∈ tr, Unhandled ev) ↔ ∃ x, out = .error x ∧ x.escapes
  routed : ∀ x, out = .error x → x.routed = !x.escapes

theorem waitFor_routes {α : Type} {fn : LimiterProg α} (h : fn.All Reports) :
    (waitFor fn).All Routes := by
  rw [waitFor, Prog.all_bind, Prog.all_attempt]
  refine h.mono fun tr out htr => ?_
  rcases out with x | a
  · rcases htr.client x rfl with rfl | ⟨e, rfl⟩
    · -- a timeout is no failure of the client's
      have hnone := htr.escapes.not.mpr (by simp [Raised.escapes])
      refine ⟨iff_of_false (by simpa using hnone) ?_, ?_⟩
      · simp [Raised.escapes, ClientError.uncaught]
      · simp [Raised.escapes, Raised.routed, ClientError.uncaught]
    · refine ⟨by simpa using htr.escapes, fun x hx => ?_⟩
      obtain rfl : .client e = x := by simpa using hx
      cases e <;> rfl
  · exact ⟨by simpa using htr.escapes, fun x hx => (by cases hx)⟩

theorem breakerCall_routes {α : Type} {fn : LimiterProg α} (h : fn.All Reports) :
    (breakerCall fn).All Routes := by
  rw [breakerCall, LimiterOp.all_perform_bind]
  rintro (message | ⟨⟩)
  · refine ⟨by simp [Unhandled, Raised.escapes], fun x hx => ?_⟩
    obtain rfl : .breakerOpen message = x := by simpa using hx
    rfl
  · rw [Prog.all_bind, Prog.all_attempt]
    refine (waitFor_routes h).mono fun tr out htr => ?_
    cases out with
    | ok a =>
      intro ans
      exact ⟨by simpa [Unhandled] using htr.escapes, fun x hx => (by cases hx)⟩
    | error x =>
      intro ans
      exact ⟨by simpa [Unhandled] using htr.escapes, fun y hy => htr.routed y (by simpa using hy)⟩

/-- The limiter returns, or raises that the rate is exceeded. -/
def Contract (out : Except Raised Unit) : Prop :=
  out = .ok () ∨ ∃ e : WazuhError, e.code = .rateLimited ∧ out = .error (.wazuh e)

/-- The limiter keeps its contract in exactly the runs without a failure that nothing catches. -/
def KeepsContract (tr : List LimiterEvent) (out : Except Raised Unit) : Prop :=
  Contract out ↔ ∀ ev ∈ tr, ¬ Unhandled ev

theorem keepsContract_of_contract {tr : List LimiterEvent} {out : Except Raised Unit}
    (hout : Contract out) (h : ∀ ev ∈ tr, ¬ Unhandled ev) : KeepsContract tr out :=
  iff_of_true hout h

theorem contract_rateLimited (tier : Tier) : Contract (.error (.wazuh tier.rateLimited)) :=
  .inr ⟨_, tier.rateLimited_code, rfl⟩

theorem KeepsContract.append {tr tr' : List LimiterEvent} {out : Except Raised Unit}
    (h : ∀ ev ∈ tr, ¬ Unhandled ev) (hout : KeepsContract tr' out) :
    KeepsContract (tr ++ tr') out := by
  apply hout.trans
  rw [List.forall_mem_append]
  exact ⟨fun h' => ⟨h, h'⟩, And.right⟩

theorem acquireFallback_keepsContract (tenantId sessionId : String) :
    (acquireFallback tenantId sessionId).All KeepsContract := by
  rintro (tier | _)
  · exact keepsContract_of_contract (contract_rateLimited tier) (by simp [Unhandled])
  · exact keepsContract_of_contract (.inl rfl) (by simp [Unhandled])

theorem acquireTier_keepsContract (tier : Tier) (tenantId sessionId key : String)
    (bucket : BucketConfig) (ttl : ℕ) {next : LimiterProg Unit} (hnext : next.All KeepsContract) :
    (acquireTier tier tenantId sessionId key bucket ttl next).All KeepsContract := by
  rw [acquireTier, Prog.all_bind, Prog.all_attempt]
  refine (breakerCall_routes (tryRedisAcquire_reports key bucket ttl)).mono fun tr out htr => ?_
  rcases out with x | granted
  · have hroutes := htr.routed x rfl
    have hescapes := htr.escapes
    cases hx : x.escapes with
    | true =>
      -- the exception reaches the caller
      obtain ⟨ev, hev, hun⟩ := hescapes.mpr ⟨x, rfl, hx⟩
      have hraise : x.routed = false := by rw [hroutes, hx]; rfl
      simp only [hraise, Bool.false_eq_true, if_false]
      refine iff_of_false ?_ fun h => h ev (List.mem_append_left _ hev) hun
      rintro (hok | ⟨e, -, he⟩)
      · cases hok
      · obtain rfl : x = .wazuh e := by simpa using he
        cases hx
    | false =>
      have hroute : x.routed = true := by rw [hroutes, hx]; rfl
      have hnone : ∀ ev ∈ tr, ¬ Unhandled ev := fun ev hev hun => by
        obtain ⟨y, hy, hescapes⟩ := hescapes.mp ⟨ev, hev, hun⟩
        obtain rfl : x = y := by simpa using hy
        rw [hx] at hescapes
        cases hescapes
      simp only [hroute, if_true]
      exact (acquireFallback_keepsContract tenantId sessionId).mono fun _ _ => .append hnone
  · have hnone : ∀ ev ∈ tr, ¬ Unhandled ev := fun ev hev hun => by
      obtain ⟨y, hy, -⟩ := htr.escapes.mp ⟨ev, hev, hun⟩
      cases hy
    cases granted with
    | false => exact keepsContract_of_contract (contract_rateLimited tier) (by simpa using hnone)
    | true => exact hnext.mono fun _ _ => .append hnone

/-! ## The time to live -/

/-- Neither tier takes so long to refill that twice its time is infinite in double precision. -/
def FiniteRefill (cfg : RateLimitConfig) : Prop :=
  ∀ tier, ((cfg.bucket tier).capacity : ℚ) / (cfg.bucket tier).refillPerSec < 2 ^ 1023 - 2 ^ 969

theorem nearest_lt_iff_of_pos {x : ℚ} (hx : 0 < x) :
    Binary64.nearest x < 2 ^ 1023 ↔ x < 2 ^ 1023 - 2 ^ 969 := by
  have hpow (n : ℕ) : (2 : ℚ) ^ (n : ℤ) = 2 ^ n := zpow_natCast 2 n
  have h := Binary64.nearest_lt_iff (k := (1023 : ℕ)) (by norm_num) hx
  rw [show ((1023 : ℕ) : ℤ) - 54 = (969 : ℕ) by norm_num, hpow, hpow] at h
  exact h

theorem two_mul_lt_iff {a : ℚ} : 2 * a < 2 ^ 1024 ↔ a < 2 ^ 1023 := by
  rw [pow_succ' (2 : ℚ) 1023, mul_lt_mul_iff_right₀ (by norm_num)]

/-- Twice the longer of two times, in double precision. -/
theorem double_maxWindow (x y : ℚ) :
    (maxWindow (Binary64.round x) (Binary64.round y)).bind FloatArith.binary64.double =
      if Binary64.nearest x < 2 ^ 1023 ∧ Binary64.nearest y < 2 ^ 1023 then
        some (2 * max (Binary64.nearest x) (Binary64.nearest y)) else none := by
  have hlt : (2 : ℚ) ^ 1023 < 2 ^ 1024 := pow_lt_pow_right₀ (by norm_num) (by norm_num)
  unfold Binary64.round
  by_cases hx : Binary64.nearest x < 2 ^ 1024
  · by_cases hy : Binary64.nearest y < 2 ^ 1024
    · rw [if_pos hx, if_pos hy]
      simp only [maxWindow, Option.bind_some, FloatArith.binary64, two_mul_lt_iff, max_lt_iff]
    · have hlong : ¬ (Binary64.nearest x < 2 ^ 1023 ∧ Binary64.nearest y < 2 ^ 1023) :=
        fun h => hy (h.2.trans hlt)
      rw [if_pos hx, if_neg hy, if_neg hlong]
      rfl
  · have hlong : ¬ (Binary64.nearest x < 2 ^ 1023 ∧ Binary64.nearest y < 2 ^ 1023) :=
      fun h => hx (h.1.trans hlt)
    rw [if_neg hx, if_neg hlong]
    rfl

/-- `_ttl_for` overflows unless both tiers refill in finite time. -/
theorem ttlFor_binary64 (cfg : RateLimitConfig) :
    FiniteRefill cfg ∧ (∃ ttl, ttlFor .binary64 cfg = .ok ttl) ∨
      ¬ FiniteRefill cfg ∧ ttlFor .binary64 cfg = .error (.exception "OverflowError") := by
  let window (tier : Tier) : ℚ := (cfg.bucket tier).capacity / (cfg.bucket tier).refillPerSec
  have hpos (tier : Tier) : 0 < window tier :=
    div_pos (Nat.cast_pos.mpr (cfg.bucket tier).capacity_pos) (cfg.bucket tier).refillPerSec_pos
  have hfinite : FiniteRefill cfg ↔ Binary64.nearest (window .tenant) < 2 ^ 1023 ∧
      Binary64.nearest (window .session) < 2 ^ 1023 := by
    rw [nearest_lt_iff_of_pos (hpos _), nearest_lt_iff_of_pos (hpos _)]
    exact ⟨fun h => ⟨h .tenant, h .session⟩, fun h tier => by cases tier; exacts [h.1, h.2]⟩
  have htwice : refillTwice .binary64 cfg = _ := double_maxWindow (window .tenant) (window .session)
  by_cases h : FiniteRefill cfg
  · rw [if_pos (hfinite.mp h)] at htwice
    exact .inl ⟨h, _, ttlFor_of_some htwice⟩
  · rw [if_neg (hfinite.not.mp h)] at htwice
    exact .inr ⟨h, ttlFor_of_none htwice⟩

/-! ## The contract -/

/-- **The limiter returns or raises that the rate is exceeded** in exactly the runs in which no failure
of the client passes through it, for a configuration whose time to live is finite. -/
theorem failureContract_iff (limits : Limits) (keyPrefix tenantId sessionId : String) :
    (acquire limits keyPrefix tenantId sessionId).All fun tr out =>
      Contract out ↔ FiniteRefill (limits.cfg tenantId) ∧ ∀ ev ∈ tr, ¬ Unhandled ev := by
  rcases ttlFor_binary64 (limits.cfg tenantId) with ⟨hfinite, ttl, httl⟩ | ⟨hinfinite, httl⟩ <;>
    simp only [acquire, httl]
  · refine Prog.All.mono ?_ fun tr out (h : KeepsContract tr out) =>
      h.trans (and_iff_right hfinite).symm
    refine acquireTier_keepsContract _ _ _ _ _ _ (acquireTier_keepsContract _ _ _ _ _ _ ?_)
    exact keepsContract_of_contract (.inl rfl) (by simp)
  · refine iff_of_false ?_ fun h => hinfinite h.1
    rintro (hok | ⟨e, -, he⟩)
    · cases hok
    · cases he

/-- Redis has become read-only. -/
theorem not_contract_of_readOnly :
    ¬ ∀ (limits : Limits) (keyPrefix tenantId sessionId : String),
      (acquire limits keyPrefix tenantId sessionId).All fun _ out => Contract out := by
  intro h
  have hacquire := h {} "wazuhmcp:rl" "acme" "s"
  rcases ttlFor_binary64 {} with ⟨-, ttl, httl⟩ | ⟨-, httl⟩
  · simp only [acquire, Limits.cfg, Dict.get_nil, Option.getD_none, httl] at hacquire
    rcases hacquire (.ok ()) (some "sha") (0 : ℤ) (.error (.raises (.other "ReadOnlyError"))) () with
      hok | ⟨e, -, he⟩
    · cases hok
    · cases he
  · simp only [acquire, Limits.cfg, Dict.get_nil, Option.getD_none, httl] at hacquire
    rcases hacquire with hok | ⟨e, -, he⟩
    · cases hok
    · cases he

end WazuhMcp.RateLimit
