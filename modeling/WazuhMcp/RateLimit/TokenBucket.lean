import Mathlib.Algebra.Order.Field.Rat
import Mathlib.Tactic.NormNum
import WazuhMcp.Base.Errors
import WazuhMcp.Foundations.Binary64
import WazuhMcp.Foundations.ClockedBucket

/-!
# Token buckets and their configuration

`TokenBucket` keeps the tokens of one tenant or one session in memory, on a clock that is read at
each call. A bucket carries the bounds of its level, so no call can find it outside them. How its
arithmetic rounds is a parameter: in exact arithmetic every call on it is a draw from a bucket on a
clock (`tryAcquire_eq_draw`).
-/

namespace WazuhMcp.RateLimit

/-! ## Configuration -/

/-- `BucketConfig` -/
structure BucketConfig where
  capacity : ℕ
  refillPerSec : ℚ
  capacity_pos : 0 < capacity := by decide
  capacity_le : capacity ≤ 100000 := by decide
  refillPerSec_pos : 0 < refillPerSec := by norm_num
  refillPerSec_le : refillPerSec ≤ 1000 := by norm_num

/-- The bucket of a tenant that has none of its own. -/
def BucketConfig.tenantDefault : BucketConfig where
  capacity := 250
  refillPerSec := 417 / 100

/-- The bucket of a session where the tenant sets none. -/
def BucketConfig.sessionDefault : BucketConfig where
  capacity := 60
  refillPerSec := 1

/-- `RateLimitConfig` -/
structure RateLimitConfig where
  tenant : BucketConfig := .tenantDefault
  session : BucketConfig := .sessionDefault

/-- The two tiers of a limiter. -/
inductive Tier where
  | tenant
  | session
  deriving DecidableEq

/-- The bucket of a tier. -/
def RateLimitConfig.bucket (cfg : RateLimitConfig) : Tier → BucketConfig
  | .tenant => cfg.tenant
  | .session => cfg.session

/-- The error a tier raises when its bucket is empty. -/
def Tier.rateLimited : Tier → WazuhError
  | .tenant => ⟨.rateLimited, "tenant rate limit exceeded", 429, some "rate_limit:tenant"⟩
  | .session => ⟨.rateLimited, "session rate limit exceeded", 429, some "rate_limit:session"⟩

theorem Tier.rateLimited_code (tier : Tier) : tier.rateLimited.code = .rateLimited := by
  cases tier <;> rfl

/-! ## Token buckets -/

/-- `TokenBucket` -/
structure TokenBucket where
  capacity : ℕ
  refill : ℚ
  tokens : ℚ
  last : ℚ
  refill_pos : 0 < refill
  tokens_nonneg : 0 ≤ tokens
  tokens_le : tokens ≤ capacity

namespace TokenBucket

/-- `TokenBucket(capacity=capacity, refill_per_sec=refill_per_sec)`, created at a reading of the
clock. -/
def new (capacity : ℕ) (refillPerSec : ℚ) (hrefill : 0 < refillPerSec) (now : ℚ) : TokenBucket where
  capacity := capacity
  refill := refillPerSec
  tokens := capacity
  last := now
  refill_pos := hrefill
  tokens_nonneg := Nat.cast_nonneg _
  tokens_le := le_rfl

/-- `_refresh()`, at a reading of the clock. -/
def refresh (fl : Rounding) (b : TokenBucket) (now : ℚ) : TokenBucket :=
  let elapsed := fl (now - b.last)
  if h : 0 < elapsed then
    { b with
      tokens := min b.capacity (fl (b.tokens + fl (elapsed * b.refill)))
      last := now
      tokens_nonneg := le_min (Nat.cast_nonneg _)
        (fl.nonneg (add_nonneg b.tokens_nonneg (fl.nonneg (mul_nonneg h.le b.refill_pos.le))))
      tokens_le := min_le_left _ _ }
  else
    { b with last := now }

/-- What `try_acquire(n)` does once the bucket is refreshed. No difference is rounded (`fl_consume`). -/
def consume (b : TokenBucket) (n : ℕ) : Bool × TokenBucket :=
  if h : (n : ℚ) ≤ b.tokens then
    (true, { b with
      tokens := b.tokens - n
      tokens_nonneg := sub_nonneg.mpr h
      tokens_le := (sub_le_self _ (Nat.cast_nonneg _)).trans b.tokens_le })
  else
    (false, b)

/-- `try_acquire(n)`, at a reading of the clock. -/
def tryAcquire (fl : Rounding) (b : TokenBucket) (now : ℚ) (n : ℕ) : Bool × TokenBucket :=
  (b.refresh fl now).consume n

/-- The bucket as a bucket on a clock. -/
def clocked (b : TokenBucket) : Bucket.Clocked ℚ := ⟨b.tokens, b.last⟩

@[simp] theorem clocked_new (capacity : ℕ) (refill : ℚ) (hrefill : 0 < refill) (now : ℚ) :
    (new capacity refill hrefill now).clocked = .full (capacity : ℚ) now := rfl

/-- What the bucket holds at a reading. -/
def levelAt (b : TokenBucket) (now : ℚ) : ℚ :=
  Bucket.Clocked.levelAt (b.capacity : ℚ) b.refill b.clocked now

variable {fl : Rounding}

theorem refresh_tokens_eq (fl : Rounding) (b : TokenBucket) (now : ℚ) : (b.refresh fl now).tokens =
    if 0 < fl (now - b.last) then min (b.capacity : ℚ) (fl (b.tokens + fl (fl (now - b.last) * b.refill)))
    else b.tokens := by
  rw [refresh]
  split <;> rfl

theorem refresh_tokens (b : TokenBucket) (now : ℚ) : (b.refresh .exact now).tokens = b.levelAt now := by
  rw [refresh_tokens_eq, levelAt]
  show (if 0 < now - b.last then min (b.capacity : ℚ) (b.tokens + (now - b.last) * b.refill) else b.tokens) = _
  split
  · rename_i h
    rw [Bucket.Clocked.levelAt_of_le (sub_pos.mp h).le]
    rfl
  · rename_i h
    have hlast : now ≤ b.clocked.last := sub_nonpos.mp (not_lt.mp h)
    exact (Bucket.Clocked.levelAt_of_ge b.tokens_le hlast).symm

@[simp] theorem refresh_last (b : TokenBucket) (now : ℚ) : (b.refresh fl now).last = now := by
  rw [refresh]
  split <;> rfl

@[simp] theorem refresh_capacity (b : TokenBucket) (now : ℚ) :
    (b.refresh fl now).capacity = b.capacity := by
  rw [refresh]
  split <;> rfl

@[simp] theorem refresh_refill (b : TokenBucket) (now : ℚ) : (b.refresh fl now).refill = b.refill := by
  rw [refresh]
  split <;> rfl

@[simp] theorem consume_capacity (b : TokenBucket) (n : ℕ) : (b.consume n).2.capacity = b.capacity := by
  unfold consume
  split <;> rfl

@[simp] theorem consume_refill (b : TokenBucket) (n : ℕ) : (b.consume n).2.refill = b.refill := by
  unfold consume
  split <;> rfl

/-- A call is granted what the refreshed bucket holds. -/
theorem tryAcquire_granted (b : TokenBucket) (now : ℚ) (n : ℕ) :
    (b.tryAcquire fl now n).1 ↔ (n : ℚ) ≤ (b.refresh fl now).tokens := by
  rw [tryAcquire, consume]
  split <;> simp_all

/-- What a call leaves: the refreshed bucket, less what it was granted. -/
theorem tryAcquire_tokens (b : TokenBucket) (now : ℚ) (n : ℕ) :
    (b.tryAcquire fl now n).2.tokens =
      (b.refresh fl now).tokens - if (b.tryAcquire fl now n).1 then (n : ℚ) else 0 := by
  rw [tryAcquire, consume]
  split <;> simp

@[simp] theorem consume_last (b : TokenBucket) (n : ℕ) : (b.consume n).2.last = b.last := by
  unfold consume
  split <;> rfl

@[simp] theorem tryAcquire_last (b : TokenBucket) (now : ℚ) (n : ℕ) :
    (b.tryAcquire fl now n).2.last = now := by
  rw [tryAcquire, consume_last, refresh_last]

@[simp] theorem tryAcquire_capacity (b : TokenBucket) (now : ℚ) (n : ℕ) :
    (b.tryAcquire fl now n).2.capacity = b.capacity := by
  rw [tryAcquire, consume_capacity, refresh_capacity]

@[simp] theorem tryAcquire_refill (b : TokenBucket) (now : ℚ) (n : ℕ) :
    (b.tryAcquire fl now n).2.refill = b.refill := by
  rw [tryAcquire, consume_refill, refresh_refill]

/-- **In exact arithmetic a call on the bucket is a draw.** -/
theorem tryAcquire_eq_draw (b : TokenBucket) (now : ℚ) (n : ℕ) :
    ((b.tryAcquire .exact now n).1, (b.tryAcquire .exact now n).2.clocked) =
      Bucket.Clocked.draw (b.capacity : ℚ) b.refill b.clocked now n := by
  rw [tryAcquire, consume]
  split
  · rename_i h
    rw [refresh_tokens] at h
    rw [Bucket.Clocked.draw_of_le h]
    simp [clocked, refresh_tokens, levelAt]
  · rename_i h
    rw [refresh_tokens, not_le] at h
    rw [Bucket.Clocked.draw_of_lt h]
    simp [clocked, refresh_tokens, levelAt]

/-! ### Rounded buckets -/

/-- The bucket is not refilled to more than it would be in exact arithmetic. -/
def NotRoundedUp (fl : Rounding) (b : TokenBucket) (now : ℚ) : Prop :=
  (b.refresh fl now).tokens ≤ b.levelAt now

instance (fl : Rounding) (b : TokenBucket) (now : ℚ) : Decidable (b.NotRoundedUp fl now) :=
  inferInstanceAs (Decidable (_ ≤ _))

theorem notRoundedUp_exact (b : TokenBucket) (now : ℚ) : b.NotRoundedUp .exact now :=
  (b.refresh_tokens now).le

/-- The tokens have been rounded. -/
def Rounded (fl : Rounding) (b : TokenBucket) : Prop := fl b.tokens = b.tokens

theorem Rounded.refresh {b : TokenBucket} (h : b.Rounded fl) (hcapacity : fl.Whole b.capacity) (now : ℚ) :
    (b.refresh fl now).Rounded fl := by
  rw [TokenBucket.refresh]
  split
  · exact fl.min_fixed hcapacity _
  · exact h

/-- **The tokens that a call takes leave a difference that is not rounded.** -/
theorem fl_consume {b : TokenBucket} (h : b.Rounded fl) (hcapacity : fl.Whole b.capacity) {n : ℕ}
    (hn : (n : ℚ) ≤ b.tokens) : fl (b.tokens - n) = b.tokens - n :=
  fl.sub_natCast h hn b.tokens_le hcapacity

/-- The tokens have been rounded whatever calls are made on the bucket. -/
theorem Rounded.tryAcquire {b : TokenBucket} (h : b.Rounded fl) (hcapacity : fl.Whole b.capacity)
    (now : ℚ) (n : ℕ) : (b.tryAcquire fl now n).2.Rounded fl := by
  have hrefresh : (b.refresh fl now).Rounded fl := h.refresh hcapacity now
  rw [TokenBucket.tryAcquire, consume]
  split
  · rename_i hn
    exact fl_consume hrefresh (by rwa [refresh_capacity]) hn
  · exact hrefresh

/-- The tokens of a bucket have been rounded, whatever calls have been made on it. -/
theorem rounded_calls {capacity : ℕ} (hcapacity : fl.Whole capacity) {refill : ℚ} (hrefill : 0 < refill)
    (start : ℚ) (calls : List (ℚ × ℕ)) :
    (calls.foldl (fun b call => (b.tryAcquire fl call.1 call.2).2) (new capacity refill hrefill start)).Rounded
      fl := by
  have hrun (b : TokenBucket) (h : b.Rounded fl) (hwhole : fl.Whole b.capacity) :
      (calls.foldl (fun b call => (b.tryAcquire fl call.1 call.2).2) b).Rounded fl := by
    induction calls generalizing b with
    | nil => exact h
    | cons call calls ih => exact ih _ (h.tryAcquire hwhole call.1 call.2) (by rwa [tryAcquire_capacity])
  exact hrun _ (fl.natCast hcapacity) hcapacity

end TokenBucket

/-- `_mk_bucket(cfg)` -/
def mkBucket (cfg : BucketConfig) (now : ℚ) : TokenBucket :=
  .new cfg.capacity cfg.refillPerSec cfg.refillPerSec_pos now

end WazuhMcp.RateLimit
