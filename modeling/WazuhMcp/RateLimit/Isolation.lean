import WazuhMcp.RateLimit.FleetBound

/-!
# Two tiers, and what a session may take of its tenant

The session tier is there to keep one session from starving its siblings. A call draws on the tenant's
bucket first, and a call that the session's bucket then denies does not put the token back. So what a
session's calls take of the tenant's tokens is bounded by what the session's bucket grants only in those
runs in which the session's bucket is good for a call before the tenant's bucket grants it a token
(`twoTierIsolation_of_sessionHolds`).

In process a call draws on both buckets before the next one starts. In Redis any number of calls may have
taken a token of the tenant's and not yet drawn on the session's bucket, which then owes a token to each
(`outstanding`).
-/

namespace WazuhMcp.RateLimit

open Interact
open Bucket (Clocked Window)

theorem Caller.bucket_session_inj {c c' : Caller} (h : c.bucket .session = c'.bucket .session) : c = c' := by
  obtain ⟨t, s⟩ := c
  obtain ⟨t', s'⟩ := c'
  obtain ⟨rfl, rfl⟩ := BucketId.session.inj h
  rfl

theorem Caller.bucket_tenant_ne_session (c c' : Caller) : c.bucket .tenant ≠ c'.bucket .session :=
  fun h => by cases h

/-! ## The in-process limiter -/

/-- A call of the in-process limiter, with the readings of the clock that it takes. -/
structure TimedCall extends Caller where
  readings : Readings

/-- A limiter, the latest reading of its clock, and the calls it has decided. -/
structure LocalRun where
  limiter : InProcessRateLimiter
  clock : ℚ
  log : List (TimedCall × Except Tier Unit)

namespace LocalRun

/-- A new limiter, with the reading of its clock. -/
def new (clock : ℚ) : LocalRun := ⟨.new, clock, []⟩

/-- The clock does not go back. -/
def Due (s : LocalRun) (c : TimedCall) : Prop := c.readings.Between s.clock c.readings.session

instance (s : LocalRun) (c : TimedCall) : Decidable (s.Due c) :=
  inferInstanceAs (Decidable (Readings.Between ..))

/-- What a call comes to, and what it leaves of the limiter. -/
def acquire (limits : Limits) (s : LocalRun) (c : TimedCall) : Except Tier Unit × InProcessRateLimiter :=
  s.limiter.acquire limits c.tenantId.text c.sessionId c.readings

/-- A call is decided. -/
def step (limits : Limits) (s : LocalRun) (c : TimedCall) : LocalRun :=
  if s.Due c then
    let (out, l) := s.acquire limits c
    ⟨l, c.readings.session, s.log ++ [(c, out)]⟩
  else s

/-- The limiter after some calls. -/
def run (limits : Limits) (clock : ℚ) (calls : List TimedCall) : LocalRun :=
  Runs.exec (step limits) (new clock) calls

/-- What the limiter would refresh the caller's bucket of the tenant's to, at a reading. -/
def tenantLevel (limits : Limits) (l : InProcessRateLimiter) (c : Caller) (t : ℚ) : ℚ :=
  ((l.tenantBucket limits c.tenantId.text t).refresh limits.rounding t).tokens

/-- The call took a token of the tenant's within the window: it was a call of the caller's that the tenant
tier did not deny. -/
def charged (caller : Caller) (win : Window ℚ) (e : TimedCall × Except Tier Unit) : Bool :=
  e.1.toCaller = caller && e.2 ≠ .error .tenant && win.Has e.1.readings.tenant

/-- A call that the session tier denies leaves the tenant's bucket as it would have been. -/
def AsIfNotMade (limits : Limits) (s : LocalRun) (c : TimedCall) : Prop :=
  s.Due c → (s.acquire limits c).1 = .error .session → ∀ t, c.readings.tenant ≤ t →
    tenantLevel limits (s.acquire limits c).2 c.toCaller t = tenantLevel limits s.limiter c.toCaller t

/-- What the limiter promises of a run: within a window, however wide, the calls of a session take no
more of the tenant's tokens than the session's bucket holds and is refilled with, and a call that is
denied at the session tier leaves the tenant's bucket as it would have been. -/
structure Isolated (limits : Limits) (clock : ℚ) (calls : List TimedCall) : Prop where
  bound : ∀ (caller : Caller) (start : ℚ) (width : ℚ≥0),
    (((run limits clock calls).log.filter (charged caller ⟨start, width⟩)).length : ℚ) ≤
      ((caller.bucket .session).config limits).capacity +
        ((caller.bucket .session).config limits).refillPerSec * width
  asIfNotMade : Runs.EachStep (step limits) (AsIfNotMade limits) (new clock) calls

/-- The bucket of the session's that the call would draw on. -/
def sessionBucket (limits : Limits) (s : LocalRun) (c : TimedCall) : TokenBucket :=
  s.limiter.sessionBucket limits c.tenantId.text c.sessionId c.readings.mkSession

/-- If the tenant's bucket grants the call a token, the session's bucket holds one at that reading, and
still does when the call draws on it, without being rounded up. -/
def SessionHolds (limits : Limits) (s : LocalRun) (c : TimedCall) : Prop :=
  s.Due c → (s.limiter.drawTenant limits c.tenantId.text c.readings).1 = true →
    1 ≤ (s.sessionBucket limits c).levelAt c.readings.tenant ∧
    1 ≤ ((s.sessionBucket limits c).refresh limits.rounding c.readings.session).tokens ∧
    (s.sessionBucket limits c).NotRoundedUp limits.rounding c.readings.session

instance (limits : Limits) (s : LocalRun) (c : TimedCall) : Decidable (SessionHolds limits s c) :=
  inferInstanceAs (Decidable (_ → _))

variable {limits : Limits} {s : LocalRun} {c : TimedCall} {l : InProcessRateLimiter} {before : ℚ}

/-- No call is denied at the session tier. -/
theorem SessionHolds.undenied (h : SessionHolds limits s c) (hdue : s.Due c) :
    (s.acquire limits c).1 ≠ .error .session := by
  rw [acquire, InProcessRateLimiter.acquire_result]
  cases htenant : (s.limiter.drawTenant limits c.tenantId.text c.readings).1 with
  | false => simp
  | true =>
    have hholds : (1 : ℚ) ≤ ((s.sessionBucket limits c).refresh limits.rounding c.readings.session).tokens :=
      (h hdue htenant).2.1
    have hsession : (s.limiter.drawSession limits c.tenantId.text c.sessionId c.readings).1 = true := by
      rw [InProcessRateLimiter.drawSession, TokenBucket.tryAcquire_granted, Nat.cast_one]
      exact hholds
    simp [hsession]

theorem SessionHolds.asIfNotMade (h : SessionHolds limits s c) : AsIfNotMade limits s c :=
  fun hdue hdenied => absurd hdenied (h.undenied hdue)

/-- The invariant of a run: the limiter's buckets are sound, and its clock has not gone back. -/
structure Sound (limits : Limits) (start : ℚ) (s : LocalRun) : Prop where
  fallback : FallbackSound limits s.clock s.limiter
  start_le : start ≤ s.clock

/-- The bucket of a caller's session, which is full as long as no call has made it. -/
def held (limits : Limits) (start : ℚ) (caller : Caller) (s : LocalRun) : Clocked ℚ :=
  ((s.limiter.held (caller.bucket .session)).map TokenBucket.clocked).getD
    (.full ((caller.bucket .session).cap limits) start)

/-- What a call draws on at the session tier, it finds as the bucket is known. -/
theorem Sound.levelAt_sessionBucket {start : ℚ} (h : s.Sound limits start) (t : ℚ) :
    (s.sessionBucket limits c).levelAt t = Clocked.levelAt ((c.bucket .session).cap limits)
      ((c.bucket .session).rate limits) (s.held limits start c.toCaller) t := by
  have hlevel := h.fallback.levelAt (c.bucket .session) c.readings.mkSession t
  refine hlevel.trans ?_
  rw [BucketId.levelAt, held]
  cases s.limiter.held (c.bucket .session) with
  | none =>
    simp only [Option.map_none, Option.getD_none]
    rw [Clocked.levelAt_full BucketId.rate_nonneg, Clocked.levelAt_full BucketId.rate_nonneg]
  | some bucket => rfl

theorem Sound.held_last_le {start : ℚ} (h : s.Sound limits start) (caller : Caller) :
    (s.held limits start caller).last ≤ s.clock := by
  rw [held]
  cases hheld : s.limiter.held (caller.bucket .session) with
  | none => exact h.start_le
  | some bucket => exact (h.fallback _ bucket hheld).2.2

/-- What a call leaves of the buckets of sessions: that of its own is drawn on if the tenant's bucket grants,
and the others are as they were. -/
theorem held_acquire_session (caller : Caller) :
    (s.acquire limits c).2.held (caller.bucket .session) =
      if c.toCaller = caller ∧ (s.limiter.drawTenant limits c.tenantId.text c.readings).1 = true then
        some ((s.sessionBucket limits c).tryAcquire limits.rounding c.readings.session 1).2
      else s.limiter.held (caller.bucket .session) := by
  rw [acquire, Caller.bucket, InProcessRateLimiter.held, InProcessRateLimiter.acquire_sessionBuckets]
  cases (s.limiter.drawTenant limits c.tenantId.text c.readings).1 with
  | false => simp [InProcessRateLimiter.held]
  | true =>
    by_cases hcaller : c.toCaller = caller
    · subst hcaller
      simp only [and_self, if_true, Bool.not_true, Bool.false_eq_true, if_false, Dict.get_set_self]
      rfl
    · have hne : (caller.tenantId.text, caller.sessionId) ≠ (c.tenantId.text, c.sessionId) := by
        intro heq
        obtain ⟨htext, hsession⟩ := Prod.mk.inj heq
        apply hcaller
        rw [Caller.mk.injEq]
        exact ⟨(TenantId.text_injective htext).symm, hsession.symm⟩
      simp [hcaller, Dict.get_set_of_ne _ hne, InProcessRateLimiter.held]

theorem charged_acquire {caller : Caller} {win : Window ℚ} :
    charged caller win (c, (s.acquire limits c).1) = true ↔ (c.toCaller = caller ∧
      (s.limiter.drawTenant limits c.tenantId.text c.readings).1 = true) ∧ win.Has c.readings.tenant := by
  rw [charged, acquire, InProcessRateLimiter.acquire_result]
  cases (s.limiter.drawTenant limits c.tenantId.text c.readings).1 <;>
    cases (s.limiter.drawSession limits c.tenantId.text c.sessionId c.readings).1 <;> simp

/-- The tokens that the calls of a caller have taken of the tenant's, and the bucket of the session's, keep
within what the session's bucket may grant in the window. -/
def Paid (limits : Limits) (start : ℚ) (caller : Caller) (win : Window ℚ) (s : LocalRun) : Prop :=
  Clocked.Within ((caller.bucket .session).cap limits) ((caller.bucket .session).rate limits) win
    ((s.log.filter (charged caller win)).length : ℚ) (s.held limits start caller)

/-- A step leaves the limiter's buckets sound. -/
theorem Sound.step {start : ℚ} (h : s.Sound limits start) : (s.step limits c).Sound limits start := by
  rw [LocalRun.step]
  split
  · rename_i hdue
    refine ⟨FallbackSound.acquire (c := c.toCaller) h.fallback hdue, ?_⟩
    obtain ⟨hmade, hdrawn, hmade', hdrawn', -⟩ := hdue
    exact h.start_le.trans (hmade.trans (hdrawn.trans (hmade'.trans hdrawn')))
  · exact h

/-- **A call for which the session's bucket holds a token** takes what it takes of the tenant's tokens from
what the session's bucket may grant. -/
theorem Paid.step {start : ℚ} {caller : Caller} {win : Window ℚ} (hpaid : s.Paid limits start caller win)
    (h : s.Sound limits start) (hholds : SessionHolds limits s c) (hwidth : 0 ≤ win.width) :
    (s.step limits c).Paid limits start caller win := by
  rw [LocalRun.step]
  split
  swap
  · exact hpaid
  rename_i hdue
  have hlog : ((s.log ++ [(c, (s.acquire limits c).1)]).filter (charged caller win)).length =
      (s.log.filter (charged caller win)).length +
        if charged caller win (c, (s.acquire limits c).1) then 1 else 0 := by
    rw [List.filter_append, List.length_append, List.filter_singleton]
    split <;> simp_all
  rw [Paid, hlog, held, held_acquire_session]
  simp only [charged_acquire]
  by_cases htook : c.toCaller = caller ∧ (s.limiter.drawTenant limits c.tenantId.text c.readings).1 = true
  swap
  · rw [if_neg htook, if_neg fun hc => htook hc.1, Nat.add_zero]
    exact hpaid
  obtain ⟨rfl, htenant⟩ := htook
  obtain ⟨hone, hgranted, hup⟩ := hholds hdue htenant
  have hfirst : (s.held limits start c.toCaller).last ≤ c.readings.tenant :=
    (h.held_last_le c.toCaller).trans (hdue.1.trans hdue.2.1)
  have hthen : c.readings.tenant ≤ c.readings.session := hdue.2.2.1.trans hdue.2.2.2.1
  rw [h.levelAt_sessionBucket] at hone
  have hlevel := hup
  rw [TokenBucket.NotRoundedUp, h.levelAt_sessionBucket] at hlevel
  have htaken := hpaid.take_early BucketId.cap_nonneg BucketId.rate_nonneg hwidth hfirst hthen zero_le_one
    hone hlevel
  have hdrawn : ((s.sessionBucket limits c).tryAcquire limits.rounding c.readings.session 1).2.clocked =
      ⟨((s.sessionBucket limits c).refresh limits.rounding c.readings.session).tokens - 1,
        c.readings.session⟩ := by
    have hyes : ((s.sessionBucket limits c).tryAcquire limits.rounding c.readings.session 1).1 = true := by
      rw [TokenBucket.tryAcquire_granted, Nat.cast_one]
      exact hgranted
    rw [TokenBucket.clocked, TokenBucket.tryAcquire_last, TokenBucket.tryAcquire_tokens, if_pos hyes,
      Nat.cast_one]
  have htook : c.toCaller = c.toCaller ∧
      (s.limiter.drawTenant limits c.tenantId.text c.readings).1 = true := ⟨rfl, htenant⟩
  rw [if_pos htook, Option.map_some, Option.getD_some, hdrawn]
  simp only [htenant, and_self, true_and]
  push_cast
  exact htaken

/-- **The in-process limiter isolates sessions** in the runs in which a session's bucket holds a token
before the tenant's bucket grants one. -/
theorem isolated_of_sessionHolds (limits : Limits) (clock : ℚ) (calls : List TimedCall)
    (hholds : Runs.EachStep (step limits) (SessionHolds limits) (new clock) calls) :
    Isolated limits clock calls := by
  refine ⟨fun caller start width => ?_, hholds.mono fun _ _ => SessionHolds.asIfNotMade⟩
  have hpaid : (run limits clock calls).Sound limits clock ∧
      (run limits clock calls).Paid limits clock caller ⟨start, width⟩ := by
    refine Runs.exec_induction (I := fun s => s.Sound limits clock ∧ s.Paid limits clock caller ⟨start, width⟩)
      ⟨⟨fallbackSound_new clock, le_rfl⟩, ?_⟩ (fun s c hs hc => ⟨hs.1.step, hs.2.step hs.1 hc width.2⟩) hholds
    rw [Paid, LocalRun.new, List.filter_nil, List.length_nil, Nat.cast_zero]
    exact Clocked.within_zero BucketId.cap_nonneg BucketId.rate_nonneg width.2 le_rfl
  exact hpaid.2.granted_le

end LocalRun

/-! ## The Redis limiter -/

namespace Deployment

variable {r : ℕ}

/-- Redis grants a call of the caller's a token of its bucket of the tier. -/
def took (d : Deployment) (caller : Caller) (tier : Tier) (c : FleetCall r) (s : LimiterEvent × Choice) : Bool :=
  c.toCaller = caller && replyOf s.1 = some (bucketKey d.keyPrefix (caller.bucket tier), 1)

/-- The reading at which Redis has run the script. -/
def ranAt : LimiterEvent → Option ℚ
  | ⟨.evalsha _ _ call, .ok _⟩ => some (call.nowMs / 1000)
  | _ => none

/-- A call of the caller's takes a token of the tenant's within the window. -/
def charged (d : Deployment) (caller : Caller) (win : Window ℚ) (c : FleetCall r)
    (s : LimiterEvent × Choice) : Bool :=
  d.took caller .tenant c s && (ranAt s.1).any fun at' => win.Has at'

/-- The tokens that the caller's calls have taken of the tenant's and not of the session's. -/
def outstanding (d : Deployment) (caller : Caller) (p : FleetPool r) : ℤ :=
  p.count (d.took caller .tenant) - p.count (d.took caller .session)

/-- What Redis' bucket of a session holds for a caller, at a reading. -/
def sessionLevel (d : Deployment) (w : Fleet r) (c : Caller) (t : ℚ) : ℚ :=
  (c.bucket .session).levelAt d.limits (w.redis.held d.keyPrefix (c.bucket .session)) t

/-- What the limiter promises of a run: within a window, however wide, the calls of a session take no
more of the tenant's tokens than the session's bucket holds and is refilled with, and a call that is
denied at the session tier has taken none. -/
structure Isolated (d : Deployment) (p : FleetPool r) : Prop where
  bound : ∀ (caller : Caller) (start : ℚ) (width : ℚ≥0),
    (p.count (d.charged caller ⟨start, width⟩) : ℚ) ≤
      ((caller.bucket .session).config d.limits).capacity +
        ((caller.bucket .session).config d.limits).refillPerSec * width
  untaken : ∀ t ∈ p.tasks, ∀ reply ≠ 1,
    (bucketKey d.keyPrefix (t.caller.bucket .session), reply) ∈ replies t.trace →
      (bucketKey d.keyPrefix (t.caller.bucket .tenant), 1) ∉ replies t.trace

/-- Redis is healthy: it runs a script when it replies to it, and at no other time. -/
def Healthy (acts : List (PoolAction (FleetCall r) Choice Delivery)) : Prop := ∀ dl, .move dl ∉ acts

/-- The script that Redis runs in a step, and whether the key was gone. -/
def scriptRun (s : LimiterEvent × Choice) : Option (ScriptCall × Bool) :=
  match s.1.op, s.2.fate with
  | .evalsha _ _ call, .replies forgotten => some (call, forgotten)
  | _, _ => none

/-- When Redis runs the script for a call's tenant and grants it a token, the session's bucket holds one more
token than the session's calls have taken of the tenant's and not of the session's. When Redis runs the script
for the call's session, the bucket holds a token, without being rounded up. -/
def HoldsFor (d : Deployment) (p : FleetPool r) (c : Caller) (run : ScriptCall × Bool) : Prop :=
  (run.1.key = bucketKey d.keyPrefix (c.bucket .tenant) →
    1 ≤ p.world.redis.refreshed d.limits d.keyPrefix (c.bucket .tenant) run.1 run.2 →
      d.outstanding c p + 1 ≤ d.sessionLevel p.world c (run.1.nowMs / 1000)) ∧
  (run.1.key = bucketKey d.keyPrefix (c.bucket .session) →
    1 ≤ p.world.redis.refreshed d.limits d.keyPrefix (c.bucket .session) run.1 run.2 ∧
      p.world.redis.NotRoundedUp d.limits d.keyPrefix (c.bucket .session) run.1 run.2)

instance (d : Deployment) (p : FleetPool r) (c : Caller) (run : ScriptCall × Bool) :
    Decidable (d.HoldsFor p c run) := inferInstanceAs (Decidable ((_ → _ → _) ∧ (_ → _ ∧ _)))

/-- The session's bucket is good for the script that Redis runs in the step, if it runs one. -/
def SessionHolds (d : Deployment) (p : FleetPool r) (a : PoolAction (FleetCall r) Choice Delivery) : Prop :=
  ∀ t s, p.Serves (d.habitat r) a t s → ∀ run ∈ scriptRun s, d.HoldsFor p t.caller.toCaller run

instance (d : Deployment) (p : FleetPool r) (a : PoolAction (FleetCall r) Choice Delivery) :
    Decidable (d.SessionHolds p a) :=
  decidable_of_iff
    (∀ served ∈ p.servedIn (d.habitat r) a, ∀ run ∈ scriptRun served.2,
      d.HoldsFor p served.1.caller.toCaller run)
    ⟨fun h t s hserves => h (t, s) ((Pool.serves_iff (d.habitat r)).mp hserves),
      fun h served hserved => h served.1 served.2 ((Pool.serves_iff (d.habitat r)).mpr hserved)⟩

variable {d : Deployment} {clocks : Fin r → ℚ} {nowMs : ℤ}
  {acts : List (PoolAction (FleetCall r) Choice Delivery)}

theorem sessionKey_ne_tenantKey (d : Deployment) (c c' : Caller) :
    bucketKey d.keyPrefix (c.bucket .session) ≠ bucketKey d.keyPrefix (c'.bucket .tenant) := by
  rw [Ne, bucketKey_inj]
  exact fun h => by cases h

/-! ### What a call takes -/

/-- No call takes more tokens of the session's bucket than of the tenant's. -/
theorem count_session_le {tenantKey sessionKey : String} {tr tr' : List LimiterEvent}
    {out : Except Raised Unit} (h : Course tenantKey sessionKey (tr ++ tr') out) (hne : sessionKey ≠ tenantKey) :
    (replies tr).count (sessionKey, 1) ≤ (replies tr).count (tenantKey, 1) := by
  have hfront : replies tr <+: replies (tr ++ tr') := by
    rw [replies_append]
    exact List.prefix_append ..
  have hnone (hno : (sessionKey, 1) ∉ replies (tr ++ tr')) :
      (replies tr).count (sessionKey, 1) ≤ (replies tr).count (tenantKey, 1) := by
    rw [List.count_eq_zero.mpr fun hmem => hno (hfront.subset hmem)]
    exact Nat.zero_le _
  cases h with
  | unasked hreplies => exact hnone (by simp [hreplies])
  | refused hreplies => exact hnone (by simp [hreplies, hne])
  | unsettled hreplies => exact hnone (by simp [hreplies, hne])
  | asked hreplies =>
    rw [hreplies] at hfront
    cases hfirst : replies tr with
    | nil => exact le_rfl
    | cons first rest =>
      rw [hfirst] at hfront
      obtain ⟨rfl, hrest⟩ := List.cons_prefix_cons.mp hfront
      have hlength : rest.count (sessionKey, 1) ≤ 1 := List.count_le_length.trans hrest.length_le
      rw [List.count_cons_self, List.count_cons_of_ne (fun h => hne (Prod.mk.inj h).1.symm)]
      exact hlength.trans (Nat.le_add_left _ _)

/-- The tokens that a call has taken of a bucket are what Redis has replied to it. -/
theorem countP_took (caller : Caller) (tier : Tier) (t : CallTask r) (hcaller : t.caller.toCaller = caller) :
    t.steps.countP (d.took caller tier t.caller) =
      (replies t.trace).count (bucketKey d.keyPrefix (caller.bucket tier), 1) := by
  rw [replies, List.count_filterMap, Task.trace, List.countP_map]
  refine List.countP_congr fun s _ => ?_
  simp [took, hcaller]

/-- **The session's bucket is owed no token**: its calls take one of the tenant's before. -/
theorem outstanding_nonneg (d : Deployment) (clocks : Fin r → ℚ) (nowMs : ℤ)
    (acts : List (PoolAction (FleetCall r) Choice Delivery)) (caller : Caller) :
    0 ≤ d.outstanding caller (d.run (.new clocks nowMs) acts) := by
  have hle : (d.run (.new clocks nowMs) acts).count (d.took caller .session) ≤
      (d.run (.new clocks nowMs) acts).count (d.took caller .tenant) := by
    refine Pool.count_le_count fun t ht => ?_
    by_cases hcaller : t.caller.toCaller = caller
    · have hcourse := Pool.all_exec d.call (d.habitat r)
        (fun c => acquire_course d.limits d.keyPrefix c.toCaller) (.new clocks nowMs) acts t ht
      obtain ⟨tr, out, hcourse⟩ := hcourse.exists_completion
      rw [countP_took caller .session t hcaller, countP_took caller .tenant t hcaller]
      subst hcaller
      exact count_session_le hcourse (d.sessionKey_ne_tenantKey _ _)
    · have hnone : t.steps.countP (d.took caller .session t.caller) = 0 := by
        simp [List.countP_eq_zero, took, hcaller]
      rw [hnone]
      exact Nat.zero_le _
  rw [outstanding]
  omega

/-- What grants nothing takes nothing. -/
theorem took_eq_false {caller : Caller} {tier : Tier} {c : FleetCall r} {s : LimiterEvent × Choice}
    (h : ∀ key, ¬ Granted key s.1) : d.took caller tier c s = false := by
  rw [took, Bool.and_eq_false_iff, decide_eq_false_iff_not, decide_eq_false_iff_not]
  right
  intro hreply
  have hmem : (bucketKey d.keyPrefix (caller.bucket tier), 1) ∈ replies [s.1] := by simp [replies, hreply]
  obtain ⟨ev, hev, hreplied⟩ := mem_replies.mp hmem
  obtain rfl := List.mem_singleton.mp hev
  exact h _ (.inl hreplied)

/-! ### What the session's bucket owes -/

/-- The session's bucket, less the tokens that it owes to the calls that have taken one of the tenant's. -/
def virtual (d : Deployment) (caller : Caller) (p : FleetPool r) : Clocked ℚ :=
  ⟨d.sessionLevel p.world caller (p.world.redis.lastMs / 1000) - d.outstanding caller p,
    p.world.redis.lastMs / 1000⟩

/-- The tokens that the calls of a caller have taken of the tenant's, and the session's bucket less what it
owes, keep within what the session's bucket may grant in the window. -/
def Paid (d : Deployment) (caller : Caller) (win : Window ℚ) (p : FleetPool r) : Prop :=
  Clocked.Within ((caller.bucket .session).cap d.limits) ((caller.bucket .session).rate d.limits) win
    (p.count (d.charged caller win) : ℚ) (d.virtual caller p)

/-- What the session's bucket holds at a later reading, less what it owes, is no more than it would hold if it
had been drawn on for that before. -/
theorem sessionLevel_sub_le {p : FleetPool r} {caller : Caller} {t : ℚ}
    (hredis : RedisSound d.limits d.keyPrefix p.world.redis) (hlast : (p.world.redis.lastMs : ℚ) / 1000 ≤ t)
    (howed : 0 ≤ d.outstanding caller p) :
    d.sessionLevel p.world caller t - d.outstanding caller p ≤
      Clocked.levelAt ((caller.bucket .session).cap d.limits) ((caller.bucket .session).rate d.limits)
        (d.virtual caller p) t := by
  have howed' : (0 : ℚ) ≤ d.outstanding caller p := by exact_mod_cast howed
  have hclip : d.sessionLevel p.world caller t ≤ (caller.bucket .session).cap d.limits := Clocked.levelAt_le
  have hgrows : d.sessionLevel p.world caller t ≤ d.sessionLevel p.world caller (p.world.redis.lastMs / 1000) +
      (t - p.world.redis.lastMs / 1000) * (caller.bucket .session).rate d.limits := by
    rw [sessionLevel, sessionLevel, BucketId.levelAt, BucketId.levelAt]
    cases hheld : p.world.redis.held d.keyPrefix (caller.bucket .session) with
    | none =>
      have hrefill : 0 ≤ (t - p.world.redis.lastMs / 1000) * (caller.bucket .session).rate d.limits :=
        mul_nonneg (sub_nonneg.mpr hlast) BucketId.rate_nonneg
      rw [Option.getD_none, Option.getD_none, Clocked.levelAt_full BucketId.rate_nonneg,
        Clocked.levelAt_full BucketId.rate_nonneg]
      exact le_add_of_nonneg_right hrefill
    | some held => exact Clocked.levelAt_add_le BucketId.rate_nonneg (hredis.held hheld).2 hlast
  have hvirtual : (d.virtual caller p).last ≤ t := hlast
  rw [Clocked.levelAt_of_le hvirtual]
  refine le_min (by linarith) ?_
  rw [virtual]
  dsimp only
  linarith

/-- A step that takes nothing and leaves Redis' buckets alone changes nothing. -/
theorem paid_of_count {p p' : FleetPool r} {caller : Caller} {win : Window ℚ} {c : FleetCall r}
    {s : LimiterEvent × Choice} (hpaid : d.Paid caller win p)
    (hadds : ∀ kind, p'.count kind = p.count kind + if kind c s then 1 else 0)
    (hnone : ∀ tier, d.took caller tier c s = false)
    (hheld : p'.world.redis.held d.keyPrefix = p.world.redis.held d.keyPrefix)
    (hlast : p'.world.redis.lastMs = p.world.redis.lastMs) : d.Paid caller win p' := by
  have htook (tier : Tier) : p'.count (d.took caller tier) = p.count (d.took caller tier) := by
    rw [hadds, hnone]
    rfl
  have hcharged : p'.count (d.charged caller win) = p.count (d.charged caller win) := by
    rw [hadds, charged, hnone]
    rfl
  rw [Paid, virtual, sessionLevel, outstanding, hcharged, htook, htook, hheld, hlast]
  exact hpaid

/-- What a run of the script for a call's bucket takes. -/
theorem took_reply {store : RedisStore} {caller : Caller} {c : FleetCall r} {again : Bool} {sha : String}
    {call : ScriptCall} {forgotten : Bool} {choice : Choice} {tier : Tier}
    (hcall : IsScriptCall d.limits d.keyPrefix (c.bucket tier) call) (tier' : Tier) :
    d.took caller tier' c
        (⟨.evalsha again sha call, .ok (store.run d.limits.rounding call forgotten).1⟩, choice) = true ↔
      c.toCaller = caller ∧ tier = tier' ∧
        1 ≤ store.refreshed d.limits d.keyPrefix (c.bucket tier) call forgotten := by
  have hkey : call.key = bucketKey d.keyPrefix (c.bucket tier') ↔ tier = tier' := by
    rw [hcall.key, bucketKey_inj]
    refine ⟨fun h => ?_, fun h => h ▸ rfl⟩
    cases tier <;> cases tier' <;> first | rfl | cases h
  rw [took, Bool.and_eq_true, decide_eq_true_eq]
  refine and_congr_right fun hcaller => ?_
  subst hcaller
  simp only [replyOf, decide_eq_true_eq, Option.some.injEq, Prod.mk.injEq, hkey, run_granted hcall]

/-- What a run of the script for a call's bucket charges to the window. -/
theorem charged_reply {store : RedisStore} {caller : Caller} {win : Window ℚ} {c : FleetCall r} {again : Bool}
    {sha : String} {call : ScriptCall} {forgotten : Bool} {choice : Choice} {tier : Tier}
    (hcall : IsScriptCall d.limits d.keyPrefix (c.bucket tier) call) :
    d.charged caller win c
        (⟨.evalsha again sha call, .ok (store.run d.limits.rounding call forgotten).1⟩, choice) = true ↔
      (c.toCaller = caller ∧ tier = .tenant ∧
        1 ≤ store.refreshed d.limits d.keyPrefix (c.bucket tier) call forgotten) ∧
      win.Has (call.nowMs / 1000) := by
  rw [charged, Bool.and_eq_true, took_reply hcall, ranAt, Option.any_some, decide_eq_true_eq]

/-- A run of the script for another bucket leaves the session's as it was. -/
theorem sessionLevel_run_of_ne {w w' : Fleet r} {caller : Caller} {b : BucketId} {call : ScriptCall}
    {forgotten : Bool} (hcall : IsScriptCall d.limits d.keyPrefix b call) (hother : caller.bucket .session ≠ b)
    (hheld : w'.redis.held d.keyPrefix = (w.redis.run d.limits.rounding call forgotten).2.held d.keyPrefix)
    (t : ℚ) : d.sessionLevel w' caller t = d.sessionLevel w caller t := by
  rw [sessionLevel, sessionLevel, hheld, held_run hcall, if_neg hother]

/-- A run of the script that draws on the session's bucket leaves it what it has refreshed, less a token. -/
theorem sessionLevel_run_of_granted {w w' : Fleet r} {caller : Caller} {call : ScriptCall} {forgotten : Bool}
    (hcall : IsScriptCall d.limits d.keyPrefix (caller.bucket .session) call)
    (hgranted : 1 ≤ w.redis.refreshed d.limits d.keyPrefix (caller.bucket .session) call forgotten)
    (hheld : w'.redis.held d.keyPrefix = (w.redis.run d.limits.rounding call forgotten).2.held d.keyPrefix) :
    d.sessionLevel w' caller (call.nowMs / 1000) =
      w.redis.refreshed d.limits d.keyPrefix (caller.bucket .session) call forgotten - 1 := by
  rw [sessionLevel, hheld, held_run hcall, if_pos rfl, if_pos hgranted]
  refine Clocked.levelAt_of_ge ((sub_le_self _ zero_le_one).trans ?_) le_rfl
  exact refreshedTokens_le

/-- **A run of the script** keeps what is charged within what the session's bucket may grant, if the bucket is
good for what it owes. -/
theorem paid_of_run {p p' : FleetPool r} {caller : Caller} {win : Window ℚ} {c : FleetCall r}
    {again : Bool} {sha : String} {call : ScriptCall} {forgotten : Bool} {choice : Choice} {tier : Tier}
    (hpaid : d.Paid caller win p) (hredis : RedisSound d.limits d.keyPrefix p.world.redis)
    (howed : 0 ≤ d.outstanding caller p) (hwidth : 0 ≤ win.width)
    (hcall : IsScriptCall d.limits d.keyPrefix (c.bucket tier) call) (hlast : p.world.redis.lastMs ≤ call.nowMs)
    (hadds : ∀ kind, p'.count kind = p.count kind + if kind c
      (⟨.evalsha again sha call, .ok (p.world.redis.run d.limits.rounding call forgotten).1⟩, choice) then 1 else 0)
    (hheld : p'.world.redis.held d.keyPrefix =
      (p.world.redis.run d.limits.rounding call forgotten).2.held d.keyPrefix)
    (hlast' : p'.world.redis.lastMs = call.nowMs)
    (htenant : tier = .tenant → c.toCaller = caller →
      1 ≤ p.world.redis.refreshed d.limits d.keyPrefix (caller.bucket .tenant) call forgotten →
        d.outstanding caller p + 1 ≤ d.sessionLevel p.world caller (call.nowMs / 1000))
    (hsession : tier = .session → c.toCaller = caller →
      1 ≤ p.world.redis.refreshed d.limits d.keyPrefix (caller.bucket .session) call forgotten ∧
        p.world.redis.NotRoundedUp d.limits d.keyPrefix (caller.bucket .session) call forgotten) :
    d.Paid caller win p' := by
  have hreading : (p.world.redis.lastMs : ℚ) / 1000 ≤ call.nowMs / 1000 :=
    div_le_div_of_nonneg_right (by exact_mod_cast hlast) (by norm_num)
  have howes := sessionLevel_sub_le hredis hreading howed
  have hcharged : (p'.count (d.charged caller win) : ℚ) = p.count (d.charged caller win) +
      if win.Has (call.nowMs / 1000) then (if c.toCaller = caller ∧ tier = .tenant ∧
        1 ≤ p.world.redis.refreshed d.limits d.keyPrefix (c.bucket tier) call forgotten then 1 else 0) else 0 := by
    rw [hadds]
    push_cast
    simp only [charged_reply hcall]
    by_cases hhas : win.Has (call.nowMs / 1000) <;> simp only [hhas, and_true, and_false, if_true, if_false]
  rw [Paid, hcharged, virtual, outstanding, hadds, hadds, hlast']
  simp only [took_reply hcall]
  by_cases hcaller : c.toCaller = caller
  swap
  · -- the call of another caller
    have hother : caller.bucket .session ≠ c.bucket tier := by
      cases tier with
      | tenant => exact (Caller.bucket_tenant_ne_session _ _).symm
      | session => exact fun h => hcaller (Caller.bucket_session_inj h).symm
    rw [sessionLevel_run_of_ne hcall hother hheld]
    simp only [hcaller, false_and, if_false, Nat.add_zero]
    exact hpaid.take BucketId.cap_nonneg BucketId.rate_nonneg hwidth hreading (by simpa [outstanding] using howes)
      (.inl rfl)
  subst hcaller
  cases tier with
  | tenant =>
    rw [sessionLevel_run_of_ne hcall (Caller.bucket_tenant_ne_session _ _).symm hheld]
    by_cases hgranted : 1 ≤ p.world.redis.refreshed d.limits d.keyPrefix (c.bucket .tenant) call forgotten
    · have hgood := htenant rfl rfl hgranted
      simp only [hgranted, and_self, if_true, reduceCtorEq, false_and, and_false, if_false, Nat.add_zero]
      refine hpaid.take BucketId.cap_nonneg BucketId.rate_nonneg hwidth hreading ?_ (.inr ?_)
      · rw [outstanding] at howes
        push_cast at howes ⊢
        linarith
      · rw [outstanding] at hgood
        push_cast at hgood ⊢
        linarith
    · simp only [hgranted, and_false, if_false, Nat.add_zero]
      exact hpaid.take BucketId.cap_nonneg BucketId.rate_nonneg hwidth hreading
        (by simpa [outstanding] using howes) (.inl rfl)
  | session =>
    obtain ⟨hgranted, hup⟩ := hsession rfl rfl
    have hle := refreshed_le hredis hlast hup
    rw [sessionLevel_run_of_granted hcall hgranted hheld]
    simp only [hgranted, and_self, if_true, reduceCtorEq, false_and, and_false, if_false, Nat.add_zero]
    refine hpaid.take BucketId.cap_nonneg BucketId.rate_nonneg hwidth hreading ?_ (.inl rfl)
    rw [outstanding] at howes
    rw [sessionLevel] at howes
    push_cast at howes ⊢
    linarith

/-- **A step** keeps what is charged within what the session's bucket may grant, if the bucket is good for what
it owes. -/
theorem paid_step (d : Deployment) (clocks : Fin r → ℚ) (nowMs : ℤ)
    {acts : List (PoolAction (FleetCall r) Choice Delivery)} {a : PoolAction (FleetCall r) Choice Delivery}
    {caller : Caller} {win : Window ℚ} (hpaid : d.Paid caller win (d.run (.new clocks nowMs) acts))
    (hhealthy : ∀ dl, a ≠ .move dl) (hholds : d.SessionHolds (d.run (.new clocks nowMs) acts) a)
    (hwidth : 0 ≤ win.width) :
    d.Paid caller win (Pool.step d.call (d.habitat r) (d.run (.new clocks nowMs) acts) a) := by
  have hsound := fleetSound_run d clocks nowMs acts
  have howed := outstanding_nonneg d clocks nowMs acts caller
  have hevery := Pool.every_exec d.call (d.habitat r)
    (fun c => acquire_every d.limits d.keyPrefix c.toCaller) (.new clocks nowMs) acts
  set p := d.run (.new clocks nowMs) acts
  rcases p.count_cases d.call (d.habitat r) a with ⟨hsame, hworld | ⟨dl, ha, -⟩⟩ |
    ⟨t, s, ht, hserves, hserve, hadds⟩
  · rw [Paid, virtual, outstanding, hsame, hsame, hsame, hworld]
    exact hpaid
  · exact absurd ha (hhealthy dl)
  have hnow := hholds t s hserves
  obtain ⟨-, k, -, -, -, hrest, -⟩ := hserves
  have hperf : Performs d.limits d.keyPrefix t.caller.toCaller s.1 := by
    have hnext := hevery t ht
    rw [hrest] at hnext
    exact (hnext s.1.ans).1
  obtain ⟨⟨op, ans⟩, choice⟩ := s
  generalize hworld : (p.step d.call (d.habitat r) a).world = w' at hserve
  cases served_of_serve hserve with
  | quiet hquiet hsent hgrant =>
    exact paid_of_count hpaid hadds (fun tier => took_eq_false hgrant) (by rw [hworld]; rfl)
      (by rw [hworld]; rfl)
  | @replied again sha call forgotten rep _ hfate hquiet hlast =>
    obtain ⟨tier, hcall⟩ := hperf
    have hgood := hnow (call, forgotten) (by rw [scriptRun, hfate, Option.mem_some])
    refine paid_of_run hpaid hsound.redis howed hwidth hcall hlast hadds (by rw [hworld]; rfl)
      (by rw [hworld]; rfl) ?_ ?_
    · rintro rfl rfl
      exact hgood.1 hcall.key
    · rintro rfl rfl
      exact hgood.2 hcall.key
  | drawn hbetween hfallback =>
    exact paid_of_count hpaid hadds (fun tier => by simp [took, replyOf]) (by rw [hworld]; rfl)
      (by rw [hworld]; rfl)

/-- Redis has not denied the caller a token of the session's. -/
def Undenied (d : Deployment) (c : FleetCall r) (s : LimiterEvent × Choice) : Prop :=
  ∀ reply, Replied (bucketKey d.keyPrefix (c.bucket .session)) reply s.1 → reply = 1

/-- **A step leaves no call denied at the session tier**, if the session's bucket holds a token. -/
theorem SessionHolds.undenied {p : FleetPool r} {a : PoolAction (FleetCall r) Choice Delivery}
    (h : d.SessionHolds p a)
    (hevery : ∀ t ∈ p.tasks, t.rest.Every (Performs d.limits d.keyPrefix t.caller.toCaller)) :
    ∀ t s, p.Serves (d.habitat r) a t s → d.Undenied t.caller s := by
  rintro t s hserves reply ⟨again, sha, call, hev, hkey⟩
  have hnow := h t s hserves
  obtain ⟨i, k, w, -, htask, hrest, hserve⟩ := hserves
  have hnext := hevery t (List.mem_of_getElem? htask)
  obtain ⟨⟨op, ans⟩, choice⟩ := s
  obtain ⟨hop, hans⟩ := Event.mk.inj hev
  subst hop
  obtain rfl := eq_of_heq hans
  rw [hrest] at hnext
  obtain ⟨tier, hcall⟩ : ∃ tier, IsScriptCall d.limits d.keyPrefix (t.caller.bucket tier) call :=
    (hnext (.ok reply)).1
  obtain ⟨forgotten, hfate, rfl⟩ := reply_of_serve hserve
  have htier : t.caller.bucket tier = t.caller.bucket .session := by
    have hkeys : bucketKey d.keyPrefix (t.caller.bucket tier) =
        bucketKey d.keyPrefix (t.caller.bucket .session) := hcall.key.symm.trans hkey
    exact bucketKey_inj.mp hkeys
  rw [run_granted hcall, htier]
  have hgood := hnow (call, forgotten) (by rw [scriptRun, hfate, Option.mem_some])
  exact (hgood.2 hkey).1

/-- **The Redis limiter isolates sessions** in the runs in which the session's bucket is good for a call before
the tenant's bucket grants it a token. -/
theorem isolated_of_sessionHolds (d : Deployment) (clocks : Fin r → ℚ) (nowMs : ℤ)
    (acts : List (PoolAction (FleetCall r) Choice Delivery)) (hhealthy : Healthy acts)
    (hholds : Runs.EachStep (Pool.step d.call (d.habitat r)) d.SessionHolds (.new (.new clocks nowMs)) acts) :
    d.Isolated (d.run (.new clocks nowMs) acts) := by
  constructor
  · intro caller start width
    have hpaid (pre : List (PoolAction (FleetCall r) Choice Delivery)) :
        ∀ post, acts = pre ++ post → d.Paid caller ⟨start, width⟩ (d.run (.new clocks nowMs) pre) := by
      induction pre using List.reverseRecOn with
      | nil =>
        rintro - -
        have hcap : (d.virtual caller (d.run (.new clocks nowMs) [])).level ≤
            (caller.bucket .session).cap d.limits := by
          have howed : d.outstanding caller (d.run (.new clocks nowMs) []) = 0 := rfl
          rw [virtual, howed, Int.cast_zero, sub_zero]
          exact Clocked.levelAt_le
        exact Clocked.within_zero BucketId.cap_nonneg BucketId.rate_nonneg width.2 hcap
      | append_singleton pre a ih =>
        intro post hacts
        rw [List.append_assoc, List.singleton_append] at hacts
        have hnext : d.run (.new clocks nowMs) (pre ++ [a]) =
            Pool.step d.call (d.habitat r) (d.run (.new clocks nowMs) pre) a := Runs.exec_append_singleton ..
        rw [hnext]
        refine paid_step d clocks nowMs (ih _ hacts) (fun dl ha => ?_) (hholds pre a post hacts) width.2
        exact hhealthy dl (by simp [hacts, ha])
    exact (hpaid acts [] (List.append_nil acts).symm).granted_le
  · have hundenied : ∀ t ∈ (d.run (.new clocks nowMs) acts).tasks, ∀ s ∈ t.steps, d.Undenied t.caller s := by
      refine (Pool.forall_steps_iff d.call (d.habitat r) _ acts).mpr fun pre a post hacts => ?_
      exact (hholds pre a post hacts).undenied (Pool.every_exec d.call (d.habitat r)
        (fun c => acquire_every d.limits d.keyPrefix c.toCaller) (.new clocks nowMs) pre)
    intro t ht reply hne hsession
    obtain ⟨ev, hev, hreplied⟩ := mem_replies.mp hsession
    obtain ⟨s, hs, rfl⟩ := List.mem_map.mp hev
    exact absurd (hundenied t ht s hs reply hreplied) hne

end Deployment

/-! ## The contract -/

/-- **Sessions are isolated**, by either limiter, in the runs in which the session's bucket is good for every
call that takes a token of the tenant's. -/
theorem twoTierIsolation_of_sessionHolds (d : Deployment) :
    (∀ (clock : ℚ) (calls : List TimedCall),
      Runs.EachStep (LocalRun.step d.limits) (LocalRun.SessionHolds d.limits) (.new clock) calls →
        LocalRun.Isolated d.limits clock calls) ∧
    ∀ (r : ℕ) (clocks : Fin r → ℚ) (nowMs : ℤ) (acts : List (PoolAction (FleetCall r) Choice Delivery)),
      Deployment.Healthy acts →
      Runs.EachStep (Pool.step d.call (d.habitat r)) d.SessionHolds (.new (.new clocks nowMs)) acts →
        d.Isolated (d.run (.new clocks nowMs) acts) :=
  ⟨LocalRun.isolated_of_sessionHolds d.limits,
    fun _ clocks nowMs acts => Deployment.isolated_of_sessionHolds d clocks nowMs acts⟩

/-- Sessions have a bucket of some tokens, which refills one per second. -/
def perSession (fl : Rounding) (capacity : ℕ) (hpos : 0 < capacity) (hle : capacity ≤ 100000) : Limits :=
  { default := { session := { BucketConfig.sessionDefault with
      capacity := capacity, capacity_pos := hpos, capacity_le := hle } }, rounding := fl }

/-- A call of a session of the tenant's, all of whose readings of the clock are the same. -/
def callAt (session : String) (now : ℚ) : TimedCall := ⟨⟨acme, session⟩, now, now, now, now⟩

/-- Two calls of a session take a token of the tenant's each before either draws on the session's bucket, which
they do a second apart, and a call of another session's comes between them. -/
def sideBySide : List (PoolAction (FleetCall 1) Choice Delivery) :=
  [callOfAcme "s", callOfAcme "sibling", callOfAcme "s"] ++ served 0 0 (drawsOnRedis true 0) ++
    served 2 0 (drawsOnRedis false 0) ++ served 1 0 (drawsOnRedis false 0 ++ [.replica] ++ drawsOnRedis false 0) ++
    served 0 0 ([.replica] ++ drawsOnRedis false 0) ++ served 2 1 ([.replica] ++ drawsOnRedis false 1000)

/-- In double precision, sessions whose buckets hold two tokens are isolated in a run that draws on them twice
at once, by either limiter. -/
theorem twoTierIsolation_sideBySide :
    let limits : Limits := perSession .binary64 2 (by decide) (by decide)
    let d : Deployment := ⟨limits, "wazuhmcp:rl", {}⟩
    LocalRun.Isolated limits 0 [callAt "s" 0, callAt "sibling" 0, callAt "s" 0, callAt "s" 1] ∧
      d.Isolated (d.run (.new (fun _ => 0) 0) sideBySide) :=
  ⟨(twoTierIsolation_of_sessionHolds ⟨perSession .binary64 2 (by decide) (by decide), "wazuhmcp:rl", {}⟩).1 0
      [callAt "s" 0, callAt "sibling" 0, callAt "s" 0, callAt "s" 1] (by decide +kernel),
    (twoTierIsolation_of_sessionHolds ⟨perSession .binary64 2 (by decide) (by decide), "wazuhmcp:rl", {}⟩).2 1
      (fun _ => 0) 0 sideBySide (by intro dl; simp [sideBySide, served, callOfAcme]) (by decide +kernel)⟩

/-- In double precision, a session whose bucket holds one token makes three calls at once. Two are denied at
the session tier, and the tenant is three tokens short. In Redis two calls take a token of the tenant's at
once, and the session's bucket, on which they draw a second apart, denies neither. -/
theorem not_isolated_of_denied :
    (¬ ∀ limits clock calls, limits.rounding = .binary64 → LocalRun.Isolated limits clock calls) ∧
      ¬ ∀ (r : ℕ) (d : Deployment) (clocks : Fin r → ℚ) (nowMs : ℤ)
        (acts : List (PoolAction (FleetCall r) Choice Delivery)), d.limits.rounding = .binary64 →
        Deployment.Healthy acts → d.Isolated (d.run (.new clocks nowMs) acts) := by
  let limits : Limits := perSession .binary64 1 (by decide) (by decide)
  constructor
  · intro h
    have hthree : ((LocalRun.run limits 0 [callAt "s" 0, callAt "s" 0, callAt "s" 0]).log.filter
        (LocalRun.charged ⟨acme, "s"⟩ ⟨0, 0⟩)).length = 3 := by decide +kernel
    have hbound := (h limits 0 [callAt "s" 0, callAt "s" 0, callAt "s" 0] rfl).bound ⟨acme, "s"⟩ 0 0
    rw [NNRat.coe_zero, hthree] at hbound
    have hthree_le : ((3 : ℕ) : ℚ) ≤ (1 : ℕ) + 1 * 0 := hbound
    norm_num at hthree_le
  · intro h
    let d : Deployment := ⟨limits, "wazuhmcp:rl", {}⟩
    have htwo : (d.run (.new (fun _ => 0) 0) sideBySide).count (d.charged ⟨acme, "s"⟩ ⟨0, 0⟩) = 2 := by
      decide +kernel
    have hhealthy : Deployment.Healthy sideBySide := by
      intro dl
      simp [sideBySide, served, callOfAcme]
    have hbound := (h 1 d (fun _ => 0) 0 sideBySide rfl hhealthy).bound ⟨acme, "s"⟩ 0 0
    rw [NNRat.coe_zero, htwo] at hbound
    have htwo_le : ((2 : ℕ) : ℚ) ≤ (1 : ℕ) + 1 * 0 := hbound
    norm_num at htwo_le

end WazuhMcp.RateLimit
