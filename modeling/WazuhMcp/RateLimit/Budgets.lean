import WazuhMcp.RateLimit.Granted

/-!
# What the buckets of a fleet pay

The fallback of a replica and Redis each hold a bucket for a tenant or a session. Whatever is asked of
them, a bucket that is not rounded up pays for what it grants within a window from a budget
(`acquire_budget`, `run_budget`).
-/

namespace WazuhMcp.RateLimit

open Interact
open Bucket (Clocked Window)

/-! ## Times to live in double precision -/

/-- Either tier's bucket refills within the time to live. -/
theorem capacity_le_of_ttlFor_binary64 {cfg : RateLimitConfig} {ttl : ℕ}
    (h : ttlFor .binary64 cfg = .ok ttl) (tier : Tier) :
    ((cfg.bucket tier).capacity : ℚ) ≤ ttl * (cfg.bucket tier).refillPerSec := by
  let window (tier : Tier) : ℚ := (cfg.bucket tier).capacity / (cfg.bucket tier).refillPerSec
  have hpos : 0 < (cfg.bucket tier).refillPerSec := (cfg.bucket tier).refillPerSec_pos
  have htwice : refillTwice .binary64 cfg = _ := double_maxWindow (window .tenant) (window .session)
  have httl : max ⌈2 * max (Binary64.nearest (window .tenant))
      (Binary64.nearest (window .session))⌉₊ 60 = ttl := by
    split_ifs at htwice
    · rw [ttlFor_of_some htwice] at h
      exact Except.ok.inj h
    · rw [ttlFor_of_none htwice] at h
      cases h
  have hlow : (2 : ℚ) ^ (-1074 : ℤ) ≤ window tier := by
    have hone : (1 : ℚ) ≤ (cfg.bucket tier).capacity := by
      exact_mod_cast (cfg.bucket tier).capacity_pos
    have hthousandth : (1 : ℚ) / 1000 ≤ window tier := by
      rw [div_le_div_iff₀ (by norm_num) hpos]
      linarith [(cfg.bucket tier).refillPerSec_le]
    refine le_trans ?_ hthousandth
    apply (zpow_le_zpow_right₀ (by norm_num) (by norm_num : (-1074 : ℤ) ≤ -10)).trans
    norm_num
  have hhalf := Binary64.le_two_mul_nearest hlow
  have hmax := le_max_tiers (fun tier => Binary64.nearest (window tier)) tier
  rw [← httl]
  apply capacity_le_of_window_le
  change window tier ≤ 2 * max (Binary64.nearest (window .tenant)) (Binary64.nearest (window .session))
  linarith

/-! ## The buckets -/

namespace BucketId

variable {limits : Limits} {b : BucketId}

/-- What a bucket holds at most. -/
def cap (limits : Limits) (b : BucketId) : ℚ := (b.config limits).capacity

/-- What a bucket is credited with in a second. -/
def rate (limits : Limits) (b : BucketId) : ℚ := (b.config limits).refillPerSec

theorem cap_nonneg : 0 ≤ b.cap limits := Nat.cast_nonneg _

theorem rate_nonneg : 0 ≤ b.rate limits := (b.config limits).refillPerSec_pos.le

/-- What a bucket holds at a reading, from what is known of its draws. -/
def levelAt (limits : Limits) (b : BucketId) (held : Option (Clocked ℚ)) (t : ℚ) : ℚ :=
  Clocked.levelAt (b.cap limits) (b.rate limits) (held.getD (.full (b.cap limits) t)) t

/-- What a bucket may grant within the window when no draw is known of. -/
def allowance (limits : Limits) (b : BucketId) (w : Window ℚ) : ℚ :=
  b.cap limits + b.rate limits * w.width

/-- What a bucket may still grant within the window, from what is known of its draws. -/
def budget (limits : Limits) (b : BucketId) (w : Window ℚ) : Option (Clocked ℚ) → ℚ
  | none => b.allowance limits w
  | some held => Clocked.budget (b.cap limits) (b.rate limits) w held

/-- A bucket that is made full if it is not there pays from its budget for what is granted of its level. -/
theorem budget_take (limits : Limits) (b : BucketId) {w : Window ℚ} (held : Option (Clocked ℚ))
    {made t left amount : ℚ} (hwidth : 0 ≤ w.width)
    (hlevel : ∀ h, held = some h → 0 ≤ h.level) (hlast : ∀ h, held = some h → h.last ≤ t)
    (hmade : made ≤ t) (hleft : left + amount ≤
      Clocked.levelAt (b.cap limits) (b.rate limits) (held.getD (.full (b.cap limits) made)) t) :
    (if w.Has t then amount else 0) + b.budget limits w (some ⟨left, t⟩) ≤ b.budget limits w held := by
  cases held with
  | none =>
    apply (Clocked.budget_le_of_take cap_nonneg rate_nonneg hwidth cap_nonneg hmade hleft).trans
    exact Clocked.budget_le cap_nonneg rate_nonneg hwidth le_rfl
  | some h =>
    exact Clocked.budget_le_of_take cap_nonneg rate_nonneg hwidth (hlevel h rfl) (hlast h rfl) hleft

theorem budget_nonneg {w : Window ℚ} {held : Option (Clocked ℚ)} (hwidth : 0 ≤ w.width)
    (hlevel : ∀ h, held = some h → 0 ≤ h.level) : 0 ≤ b.budget limits w held := by
  cases held with
  | none => exact add_nonneg cap_nonneg (mul_nonneg rate_nonneg hwidth)
  | some h => exact Clocked.budget_nonneg cap_nonneg rate_nonneg hwidth (hlevel h rfl)

end BucketId

/-! ## The fallbacks -/

/-- What a limiter holds of a bucket. -/
def InProcessRateLimiter.held (l : InProcessRateLimiter) : BucketId → Option TokenBucket
  | .tenant t => l.tenantBuckets.get t.text
  | .session t s => l.sessionBuckets.get (t.text, s)

/-- The reading at which a call makes the bucket of a tier, if it has to. -/
def Readings.made (r : Readings) : Tier → ℚ
  | .tenant => r.mkTenant
  | .session => r.mkSession

/-- The reading at which a call draws on the bucket of a tier. -/
def Readings.drawn (r : Readings) : Tier → ℚ
  | .tenant => r.tenant
  | .session => r.session

/-- The readings of a call are taken between two others, and in order. -/
def Readings.Between (r : Readings) (before after : ℚ) : Prop :=
  before ≤ r.mkTenant ∧ r.mkTenant ≤ r.tenant ∧ r.tenant ≤ r.mkSession ∧ r.mkSession ≤ r.session ∧
    r.session ≤ after

instance (r : Readings) (before after : ℚ) : Decidable (r.Between before after) :=
  inferInstanceAs (Decidable (_ ∧ _))

theorem Readings.Between.tier {r : Readings} {before after : ℚ} (h : r.Between before after)
    (tier : Tier) : before ≤ r.made tier ∧ r.made tier ≤ r.drawn tier ∧ r.drawn tier ≤ after := by
  obtain ⟨hbefore, hmade, hnext, hmade', hafter⟩ := h
  cases tier with
  | tenant => exact ⟨hbefore, hmade, hnext.trans (hmade'.trans hafter)⟩
  | session => exact ⟨hbefore.trans (hmade.trans hnext), hmade', hafter⟩

section Fallback

variable {limits : Limits} {l : InProcessRateLimiter} {c : Caller} {rd : Readings}
  {b : BucketId} {before after : ℚ}

/-- **What a call leaves of a bucket**: the bucket as it was, or what is left by a draw, without which
the call does not return. -/
theorem held_acquire (limits : Limits) (l : InProcessRateLimiter) (c : Caller) (rd : Readings)
    (b : BucketId) :
    let acquired := l.acquire limits c.tenantId.text c.sessionId rd
    (acquired.2.held b = l.held b ∧ (c.bucket b.tier = b → acquired.1 ≠ .ok ())) ∨
      let drawn := ((l.held b).getD (mkBucket (b.config limits) (rd.made b.tier))).tryAcquire
        limits.rounding (rd.drawn b.tier) 1
      acquired.2.held b = some drawn.2 ∧ (acquired.1 = .ok () → drawn.1) := by
  have hok : (l.acquire limits c.tenantId.text c.sessionId rd).1 = .ok () ↔
      (l.drawTenant limits c.tenantId.text rd).1 ∧
        (l.drawSession limits c.tenantId.text c.sessionId rd).1 :=
    InProcessRateLimiter.acquire_ok_iff
  cases b with
  | tenant t =>
    dsimp only [InProcessRateLimiter.held]
    rw [InProcessRateLimiter.acquire_tenantBuckets]
    by_cases ht : c.tenantId = t
    · subst ht
      exact .inr ⟨Dict.get_set_self .., fun h => (hok.mp h).1⟩
    · refine .inl ⟨Dict.get_set_of_ne _ (fun h => ht ?_) _, fun h => absurd ?_ ht⟩
      · exact (TenantId.text_injective h).symm
      · simpa [Caller.bucket, BucketId.tier] using h
  | session t s =>
    dsimp only [InProcessRateLimiter.held]
    rw [InProcessRateLimiter.acquire_sessionBuckets]
    by_cases hts : c.tenantId = t ∧ c.sessionId = s
    · obtain ⟨rfl, rfl⟩ := hts
      cases hgranted : (l.drawTenant limits c.tenantId.text rd).1 with
      | false => exact .inl ⟨rfl, fun _ h => by simpa [hgranted] using hok.mp h⟩
      | true => exact .inr ⟨Dict.get_set_self .., fun h => (hok.mp h).2⟩
    · have hne : (t.text, s) ≠ (c.tenantId.text, c.sessionId) := fun h =>
        hts ⟨(TenantId.text_injective (Prod.mk.inj h).1).symm, (Prod.mk.inj h).2.symm⟩
      refine .inl ⟨?_, fun h => absurd ?_ hts⟩
      · split
        · rfl
        · exact Dict.get_set_of_ne _ hne _
      · simpa [Caller.bucket, BucketId.tier] using h

/-- The buckets of a fallback are configured as they should be, and were last drawn on by the time. -/
def FallbackSound (limits : Limits) (clock : ℚ) (l : InProcessRateLimiter) : Prop :=
  ∀ b bucket, l.held b = some bucket → (bucket.capacity : ℚ) = b.cap limits ∧
    bucket.refill = b.rate limits ∧ bucket.last ≤ clock

theorem fallbackSound_new (clock : ℚ) : FallbackSound limits clock .new := by
  intro b bucket h
  cases b <;> cases h

theorem FallbackSound.mono (h : FallbackSound limits before l) (hle : before ≤ after) :
    FallbackSound limits after l := by
  intro b bucket hb
  obtain ⟨hcap, hrate, hlast⟩ := h b bucket hb
  exact ⟨hcap, hrate, hlast.trans hle⟩

/-- The bucket that a call draws on, as it finds it or makes it. -/
theorem FallbackSound.drawn (h : FallbackSound limits before l) (b : BucketId) (made : ℚ) :
    let bucket := (l.held b).getD (mkBucket (b.config limits) made)
    (bucket.capacity : ℚ) = b.cap limits ∧ bucket.refill = b.rate limits ∧
      bucket.clocked = ((l.held b).map TokenBucket.clocked).getD (.full (b.cap limits) made) := by
  cases hb : l.held b with
  | none => exact ⟨rfl, rfl, rfl⟩
  | some bucket => exact ⟨(h b bucket hb).1, (h b bucket hb).2.1, rfl⟩

/-- The bucket that a call draws on holds what is known of it. -/
theorem FallbackSound.levelAt (h : FallbackSound limits before l) (b : BucketId) (made t : ℚ) :
    let bucket := (l.held b).getD (mkBucket (b.config limits) made)
    bucket.levelAt t = b.levelAt limits ((l.held b).map TokenBucket.clocked) t := by
  obtain ⟨hcap, hrate, hclocked⟩ := h.drawn b made
  dsimp only
  rw [TokenBucket.levelAt, hcap, hrate, hclocked, BucketId.levelAt]
  cases l.held b with
  | none =>
    simp only [Option.map_none, Option.getD_none]
    rw [Clocked.levelAt_full BucketId.rate_nonneg, Clocked.levelAt_full BucketId.rate_nonneg]
  | some bucket => rfl

/-- A call leaves the fallback's buckets sound. -/
theorem FallbackSound.acquire (h : FallbackSound limits before l) (hrd : rd.Between before after) :
    FallbackSound limits after (l.acquire limits c.tenantId.text c.sessionId rd).2 := by
  intro b bucket hb
  obtain ⟨hbefore, hmade, hafter⟩ := hrd.tier b.tier
  rcases held_acquire limits l c rd b with ⟨hkeep, -⟩ | ⟨hdrawn, -⟩
  · exact h.mono (hbefore.trans (hmade.trans hafter)) b bucket (hkeep ▸ hb)
  · obtain ⟨hcap, hrate, -⟩ := h.drawn b (rd.made b.tier)
    obtain rfl := Option.some.inj (hdrawn.symm.trans hb)
    rw [TokenBucket.tryAcquire_capacity, TokenBucket.tryAcquire_refill, TokenBucket.tryAcquire_last]
    exact ⟨hcap, hrate, hafter⟩

/-- **A call of the fallback takes what it is granted from the budget** of each bucket that it does not round
up. -/
theorem acquire_budget (h : FallbackSound limits before l) (hrd : rd.Between before after) {w : Window ℚ}
    (hwidth : 0 ≤ w.width)
    (hup : ((l.held b).getD (mkBucket (b.config limits) (rd.made b.tier))).NotRoundedUp limits.rounding
      (rd.drawn b.tier)) :
    let acquired := l.acquire limits c.tenantId.text c.sessionId rd
    (if c.bucket b.tier = b ∧ acquired.1 = .ok () ∧ w.Has (rd.drawn b.tier) then 1 else 0) +
        b.budget limits w ((acquired.2.held b).map TokenBucket.clocked) ≤
      b.budget limits w ((l.held b).map TokenBucket.clocked) := by
  dsimp only
  obtain ⟨hbefore, hmade, -⟩ := hrd.tier b.tier
  rcases held_acquire limits l c rd b with ⟨hkeep, hrefused⟩ | ⟨hdrawn, hgranted⟩
  · rw [hkeep, if_neg fun hc => hrefused hc.1 hc.2.1, zero_add]
  · obtain ⟨hcap, hrate, hclocked⟩ := h.drawn b (rd.made b.tier)
    set bucket := (l.held b).getD (mkBucket (b.config limits) (rd.made b.tier))
    set drawn := bucket.tryAcquire limits.rounding (rd.drawn b.tier) 1
    have hleft : drawn.2.tokens + (if drawn.1 then 1 else 0) ≤
        Clocked.levelAt (b.cap limits) (b.rate limits)
          (((l.held b).map TokenBucket.clocked).getD (.full (b.cap limits) (rd.made b.tier)))
          (rd.drawn b.tier) := by
      have htokens : drawn.2.tokens = _ := bucket.tryAcquire_tokens (rd.drawn b.tier) 1
      rw [Nat.cast_one] at htokens
      rw [htokens, sub_add_cancel, ← hclocked, ← hcap, ← hrate]
      exact hup
    have hbudget := BucketId.budget_take limits b ((l.held b).map TokenBucket.clocked) hwidth
      (fun held hheld => ?_) (fun held hheld => ?_) hmade hleft
    · rw [hdrawn, Option.map_some]
      have hclocked : drawn.2.clocked = ⟨drawn.2.tokens, rd.drawn b.tier⟩ := by
        rw [TokenBucket.clocked, TokenBucket.tryAcquire_last]
      rw [hclocked]
      refine le_trans (add_le_add_left ?_ _) hbudget
      split_ifs with hc hhas hd hd
      · exact le_rfl
      · exact absurd (hgranted hc.2.1) hd
      · exact absurd hc.2.2 hhas
      · exact zero_le_one
      · exact le_rfl
      · exact le_rfl
    · obtain ⟨bucket, -, rfl⟩ := Option.map_eq_some_iff.mp hheld
      exact bucket.tokens_nonneg
    · obtain ⟨bucket, hbucket, rfl⟩ := Option.map_eq_some_iff.mp hheld
      exact (h b bucket hbucket).2.2.trans (hbefore.trans hmade)

end Fallback

/-! ## Redis -/

section Redis

variable {limits : Limits} {keyPrefix : String} {s : RedisStore} {b b' : BucketId} {call : ScriptCall}
  {forgotten : Bool}

/-- What Redis holds of a bucket. -/
def RedisStore.held (keyPrefix : String) (s : RedisStore) (b : BucketId) : Option (Clocked ℚ) :=
  (s.hashes.get (bucketKey keyPrefix b)).map BucketHash.clocked

/-- What is stored of a bucket is within its bounds, from no later than the last script, and lives at
least as long as the bucket takes to refill; and Redis is asked to run scripts of buckets only. -/
structure RedisSound (limits : Limits) (keyPrefix : String) (s : RedisStore) : Prop where
  hashes : ∀ b h, s.hashes.get (bucketKey keyPrefix b) = some h →
    0 ≤ h.tokens ∧ h.lastRefillMs ≤ s.lastMs ∧ b.cap limits ≤ h.ttlSec * b.rate limits
  sent : ∀ call ∈ s.sent, ∃ b, IsScriptCall limits keyPrefix b call

theorem IsScriptCall.cap_le (h : IsScriptCall limits keyPrefix b call) :
    b.cap limits ≤ call.ttl * b.rate limits :=
  capacity_le_of_ttlFor_binary64 h.ttl b.tier

/-- What a run of the script finds of the bucket that it is for. -/
def RedisStore.found (keyPrefix : String) (s : RedisStore) (b : BucketId) (call : ScriptCall)
    (forgotten : Bool) : Option BucketHash :=
  foundHash (s.hashes.get (bucketKey keyPrefix b)) call.nowMs forgotten

/-- What a run of the script refills the bucket to. -/
def RedisStore.refreshed (limits : Limits) (keyPrefix : String) (s : RedisStore) (b : BucketId)
    (call : ScriptCall) (forgotten : Bool) : ℚ :=
  refreshedTokens limits.rounding (s.found keyPrefix b call forgotten) (b.config limits).capacity
    (b.config limits).refillPerSec call.nowMs

/-- A run of the script rounds nothing up. -/
def RedisStore.NotRoundedUp (limits : Limits) (keyPrefix : String) (s : RedisStore) (b : BucketId)
    (call : ScriptCall) (forgotten : Bool) : Prop :=
  RateLimit.NotRoundedUp limits.rounding (s.found keyPrefix b call forgotten) (b.config limits).capacity
    (b.config limits).refillPerSec call.nowMs

instance (limits : Limits) (keyPrefix : String) (s : RedisStore) (b : BucketId) (call : ScriptCall)
    (forgotten : Bool) : Decidable (s.NotRoundedUp limits keyPrefix b call forgotten) :=
  inferInstanceAs (Decidable (RateLimit.NotRoundedUp ..))

theorem RedisStore.notRoundedUp_of_exact (hexact : limits.rounding = .exact) :
    s.NotRoundedUp limits keyPrefix b call forgotten := by
  rw [RedisStore.NotRoundedUp, hexact]
  exact notRoundedUp_exact

theorem whole_capacity (fl : Rounding) (cfg : BucketConfig) : fl.Whole cfg.capacity :=
  fl.whole (cfg.capacity_le.trans (by norm_num))

/-- **A run of the script** grants a token if there is one, and stores what is left with its reading. -/
theorem run_eq (hcall : IsScriptCall limits keyPrefix b call) (s : RedisStore) (forgotten : Bool) :
    let level := s.refreshed limits keyPrefix b call forgotten
    s.run limits.rounding call forgotten = (if 1 ≤ level then 1 else 0, { s with
      hashes := s.hashes.set (bucketKey keyPrefix b)
        ⟨if 1 ≤ level then level - 1 else level, call.nowMs, call.ttl⟩
      lastMs := call.nowMs }) := by
  intro level
  have hone : ((1 : ℕ) : ℚ) = 1 := Nat.cast_one
  rw [RedisStore.run, hcall.n, hcall.key, hcall.capacity, hcall.refill]
  rcases tokenBucketLua_cases (whole_capacity limits.rounding (b.config limits))
    (foundHash (s.hashes.get (bucketKey keyPrefix b)) call.nowMs forgotten) (b.config limits).refillPerSec
    call.nowMs 1 call.ttl with ⟨hlt, hrun⟩ | ⟨hle, hrun⟩
  · rw [hone] at hlt
    have hnot : ¬ 1 ≤ level := not_le.mpr hlt
    rw [hrun, if_neg hnot, if_neg hnot]
    rfl
  · rw [hone] at hle
    have hlevel : 1 ≤ level := hle
    rw [hrun, if_pos hlevel, if_pos hlevel, hone]
    rfl

theorem run_granted (hcall : IsScriptCall limits keyPrefix b call) (s : RedisStore) (forgotten : Bool) :
    (s.run limits.rounding call forgotten).1 = 1 ↔ 1 ≤ s.refreshed limits keyPrefix b call forgotten := by
  rw [run_eq hcall]
  dsimp only
  split <;> simp_all

/-- What Redis holds of a bucket is sound. -/
theorem RedisSound.held (hs : RedisSound limits keyPrefix s) {held : Clocked ℚ}
    (hheld : s.held keyPrefix b = some held) : 0 ≤ held.level ∧ held.last ≤ s.lastMs / 1000 := by
  obtain ⟨h, hh, rfl⟩ := Option.map_eq_some_iff.mp hheld
  obtain ⟨htokens, hle, -⟩ := hs.hashes b h hh
  exact ⟨htokens, div_le_div_of_nonneg_right (by exact_mod_cast hle) (by norm_num)⟩

/-- **A run of the script that rounds nothing up** refills the bucket, forgotten or not, to no more than it
holds. -/
theorem refreshed_le (hs : RedisSound limits keyPrefix s)
    (hlast : s.lastMs ≤ call.nowMs) (hup : s.NotRoundedUp limits keyPrefix b call forgotten) :
    s.refreshed limits keyPrefix b call forgotten ≤
      b.levelAt limits (s.held keyPrefix b) (call.nowMs / 1000) := by
  apply hup.trans
  rw [refreshedTokens_eq_levelAt, RedisStore.found, RedisStore.held]
  cases hget : s.hashes.get (bucketKey keyPrefix b) with
  | none => exact le_rfl
  | some h =>
    obtain ⟨htokens, hle, hcap⟩ := hs.hashes b h hget
    exact (levelAt_foundHash BucketId.rate_nonneg htokens fun _ => ⟨hle.trans hlast, hcap⟩).le

theorem refreshed_nonneg (hs : RedisSound limits keyPrefix s) :
    0 ≤ s.refreshed limits keyPrefix b call forgotten := by
  refine refreshedTokens_nonneg BucketId.rate_nonneg fun h hfound => ?_
  exact (hs.hashes b h (Option.filter_eq_some_iff.mp hfound).1).1

/-- What a run of the script leaves Redis to hold. -/
theorem held_run (hcall : IsScriptCall limits keyPrefix b call) (b' : BucketId) :
    let level := s.refreshed limits keyPrefix b call forgotten
    (s.run limits.rounding call forgotten).2.held keyPrefix b' =
      if b' = b then some ⟨if 1 ≤ level then level - 1 else level, call.nowMs / 1000⟩
      else s.held keyPrefix b' := by
  intro level
  rw [run_eq hcall, RedisStore.held, Dict.get_set]
  simp only [bucketKey_inj]
  split <;> rfl

/-- Redis stays sound. -/
theorem RedisSound.run (hs : RedisSound limits keyPrefix s)
    (hcall : IsScriptCall limits keyPrefix b call) (hlast : s.lastMs ≤ call.nowMs) :
    RedisSound limits keyPrefix (s.run limits.rounding call forgotten).2 := by
  rw [run_eq hcall]
  refine ⟨fun b' h hget => ?_, hs.sent⟩
  rw [Dict.get_set] at hget
  split at hget
  · rename_i heq
    obtain rfl : b' = b := bucketKey_inj.mp heq
    obtain rfl := Option.some.inj hget
    refine ⟨?_, le_rfl, hcall.cap_le⟩
    dsimp only
    split
    · rename_i hone
      exact sub_nonneg.mpr hone
    · exact refreshed_nonneg hs
  · obtain ⟨htokens, hle, hcap⟩ := hs.hashes b' h hget
    exact ⟨htokens, hle.trans hlast, hcap⟩

/-- **A run of the script that rounds nothing up takes what it grants from the budget** of its bucket, and
leaves the others alone. -/
theorem run_budget (hs : RedisSound limits keyPrefix s)
    (hcall : IsScriptCall limits keyPrefix b call) (hlast : s.lastMs ≤ call.nowMs)
    (hup : s.NotRoundedUp limits keyPrefix b call forgotten) {w : Window ℚ}
    (hwidth : 0 ≤ w.width) (b' : BucketId) :
    (if call.key = bucketKey keyPrefix b' ∧ (s.run limits.rounding call forgotten).1 = 1 ∧
        w.Has (call.nowMs / 1000) then 1 else 0) +
        b'.budget limits w ((s.run limits.rounding call forgotten).2.held keyPrefix b') ≤
      b'.budget limits w (s.held keyPrefix b') := by
  simp only [held_run hcall, run_granted hcall, hcall.key, bucketKey_inj]
  by_cases heq : b = b'
  · subst heq
    have hlast' : (s.lastMs : ℚ) / 1000 ≤ call.nowMs / 1000 :=
      div_le_div_of_nonneg_right (by exact_mod_cast hlast) (by norm_num)
    have hle := refreshed_le hs hlast hup
    have hnonneg (h : Clocked ℚ) (hh : s.held keyPrefix b = some h) : 0 ≤ h.level := (hs.held hh).1
    have hbefore (h : Clocked ℚ) (hh : s.held keyPrefix b = some h) : h.last ≤ call.nowMs / 1000 :=
      (hs.held hh).2.trans hlast'
    by_cases hone : 1 ≤ s.refreshed limits keyPrefix b call forgotten
    · have hgranted := BucketId.budget_take limits b (s.held keyPrefix b) hwidth hnonneg hbefore le_rfl
        ((sub_add_cancel _ (1 : ℚ)).le.trans hle)
      simpa [hone] using hgranted
    · have hnone := BucketId.budget_take limits b (s.held keyPrefix b) hwidth hnonneg hbefore le_rfl
        ((add_zero _).le.trans hle)
      simpa [hone] using hnone
  · rw [if_neg fun h => heq h.1, zero_add, if_neg (Ne.symm heq)]

end Redis

end WazuhMcp.RateLimit
