import WazuhMcp.RateLimit.TokenBucket

/-!
# Runs of one token bucket

The calls of a run are made one after another on a bucket, in exact arithmetic, at readings of its clock
that never go back. `_last` is then the reading of the call before (`after_last_le`), so the time a call credits is
the time that has passed, and `grantedIn_le_budget` sums the draws of the run: what the calls within a
window are granted is taken from the budget the bucket has for it.
-/

namespace WazuhMcp.RateLimit

/-- A call `try_acquire(n)`, at a reading of the clock. -/
structure Acquire where
  now : ℚ
  n : ℕ

/-- The clock starts at a reading and never goes back over the calls. -/
def ClockFrom (start : ℚ) (calls : List Acquire) : Prop :=
  (start :: calls.map Acquire.now).Pairwise (· ≤ ·)

instance (start : ℚ) (calls : List Acquire) : Decidable (ClockFrom start calls) :=
  inferInstanceAs (Decidable (List.Pairwise _ _))

namespace TokenBucket

/-- The bucket after the calls. -/
def after (b : TokenBucket) : List Acquire → TokenBucket
  | [] => b
  | call :: calls => (b.tryAcquire .exact call.now call.n).2.after calls

/-- The tokens that the calls within the window are granted. -/
def grantedIn (w : Bucket.Window ℚ) (b : TokenBucket) : List Acquire → ℚ
  | [] => 0
  | call :: calls =>
    (if (b.tryAcquire .exact call.now call.n).1 ∧ w.Has call.now then (call.n : ℚ) else 0) +
      (b.tryAcquire .exact call.now call.n).2.grantedIn w calls

@[simp] theorem after_nil (b : TokenBucket) : b.after [] = b := rfl

@[simp] theorem after_cons (b : TokenBucket) (call : Acquire) (calls : List Acquire) :
    b.after (call :: calls) = (b.tryAcquire .exact call.now call.n).2.after calls := rfl

@[simp] theorem after_capacity (b : TokenBucket) (calls : List Acquire) :
    (b.after calls).capacity = b.capacity := by
  induction calls generalizing b with
  | nil => rfl
  | cons call calls ih =>
    rw [after_cons, ih]
    apply tryAcquire_capacity

@[simp] theorem after_refill (b : TokenBucket) (calls : List Acquire) :
    (b.after calls).refill = b.refill := by
  induction calls generalizing b with
  | nil => rfl
  | cons call calls ih =>
    rw [after_cons, ih]
    apply tryAcquire_refill

/-- No call of a run comes before the reading the bucket last took. -/
theorem after_last_le {b : TokenBucket} {before rest : List Acquire} {call : Acquire}
    (h : ClockFrom b.last (before ++ call :: rest)) : (b.after before).last ≤ call.now := by
  induction before generalizing b with
  | nil => exact List.rel_of_pairwise_cons h (List.mem_cons_self ..)
  | cons first before ih =>
    apply ih
    rw [tryAcquire_last]
    exact (List.pairwise_cons.mp h).2

/-- **A run takes what it is granted within the window** from the budget of its bucket. -/
theorem grantedIn_le_budget (w : Bucket.Window ℚ) (hwidth : 0 ≤ w.width) {b : TokenBucket}
    {calls : List Acquire} (h : ClockFrom b.last calls) :
    b.grantedIn w calls ≤ Bucket.Clocked.budget (b.capacity : ℚ) b.refill w b.clocked := by
  have hcap (b : TokenBucket) : (0 : ℚ) ≤ b.capacity := Nat.cast_nonneg _
  induction calls generalizing b with
  | nil => exact Bucket.Clocked.budget_nonneg (hcap b) b.refill_pos.le hwidth b.tokens_nonneg
  | cons call calls ih =>
    have hlast : b.clocked.last ≤ call.now := List.rel_of_pairwise_cons h (List.mem_cons_self ..)
    have hdraw := @Bucket.Clocked.draw_budget ℚ _ _ b.capacity b.refill b.clocked call.now call.n w _
      (hcap b) b.refill_pos.le hwidth b.tokens_nonneg hlast
    rw [← tryAcquire_eq_draw] at hdraw
    have hrest := ih (b := (b.tryAcquire .exact call.now call.n).2) (by
      rw [tryAcquire_last]
      exact (List.pairwise_cons.mp h).2)
    rw [tryAcquire_capacity, tryAcquire_refill] at hrest
    rw [grantedIn]
    linarith

/-- What a bucket holds once the clock has moved on from its last reading. -/
theorem levelAt_of_le {b : TokenBucket} {now : ℚ} (h : b.last ≤ now) :
    b.levelAt now = min (b.capacity : ℚ) (b.tokens + b.refill * (now - b.last)) := by
  rw [levelAt, Bucket.Clocked.levelAt_of_le h, mul_comm]
  rfl

/-- A call that is granted takes what it asks for from the refilled bucket. -/
theorem tryAcquire_taken {b : TokenBucket} {now : ℚ} {n : ℕ} (h : (b.tryAcquire .exact now n).1 = true) :
    (b.tryAcquire .exact now n).2.tokens = b.levelAt now - n := by
  rw [tryAcquire_tokens, refresh_tokens, if_pos h]

/-- A call that is denied leaves what the refill made of the bucket. -/
theorem tryAcquire_denied {b : TokenBucket} {now : ℚ} {n : ℕ} (h : (b.tryAcquire .exact now n).1 = false) :
    (b.tryAcquire .exact now n).2.tokens = b.levelAt now := by
  rw [tryAcquire_tokens, refresh_tokens, h, if_neg Bool.false_ne_true, sub_zero]

end TokenBucket

/-- **A bucket never grants more than its rate.** Over every run on a bucket whose clock never goes
back: the tokens lie between nothing and the capacity; what the calls within a window are granted is
at most the capacity and what the window refills; a call is granted exactly when the refilled bucket
holds what it asks for; and a call that is denied leaves the refilled bucket as it is. -/
theorem tokenBucket_bound (capacity : ℕ) (refillPerSec start : ℚ) (hrefill : 0 < refillPerSec)
    (calls : List Acquire) (hclock : ClockFrom start calls) :
    (0 ≤ ((TokenBucket.new capacity refillPerSec hrefill start).after calls).tokens ∧
      ((TokenBucket.new capacity refillPerSec hrefill start).after calls).tokens ≤ capacity) ∧
    (∀ w : Bucket.Window ℚ, 0 ≤ w.width →
      (TokenBucket.new capacity refillPerSec hrefill start).grantedIn w calls ≤
        capacity + refillPerSec * w.width) ∧
    ∀ (before rest : List Acquire) (call : Acquire) (b : TokenBucket) (level : ℚ),
      calls = before ++ call :: rest →
      b = (TokenBucket.new capacity refillPerSec hrefill start).after before →
      level = min (capacity : ℚ) (b.tokens + refillPerSec * (call.now - b.last)) →
      ((b.tryAcquire .exact call.now call.n).1 = true ↔ (call.n : ℚ) ≤ level) ∧
      ((b.tryAcquire .exact call.now call.n).1 = true →
        (b.tryAcquire .exact call.now call.n).2.tokens = level - call.n) ∧
      ((b.tryAcquire .exact call.now call.n).1 = false →
        (b.tryAcquire .exact call.now call.n).2.tokens = level) := by
  refine ⟨⟨TokenBucket.tokens_nonneg _, ?_⟩, ?_, ?_⟩
  · refine (TokenBucket.tokens_le _).trans_eq ?_
    rw [TokenBucket.after_capacity]
    rfl
  · intro w hwidth
    refine (TokenBucket.grantedIn_le_budget w hwidth hclock).trans ?_
    exact Bucket.Clocked.budget_le (Nat.cast_nonneg _) hrefill.le hwidth le_rfl
  · rintro before rest call b level rfl hb hlevel
    have hlast : b.last ≤ call.now := hb ▸ TokenBucket.after_last_le hclock
    have hlevelAt : b.levelAt call.now = level := by
      have hcap : b.capacity = capacity := by rw [hb, TokenBucket.after_capacity]; rfl
      have hrate : b.refill = refillPerSec := by rw [hb, TokenBucket.after_refill]; rfl
      rw [TokenBucket.levelAt_of_le hlast, hcap, hrate, hlevel]
    refine ⟨?_, ?_, ?_⟩
    · rw [TokenBucket.tryAcquire_granted, TokenBucket.refresh_tokens, hlevelAt]
    · intro hgranted
      rw [← hlevelAt]
      exact TokenBucket.tryAcquire_taken hgranted
    · intro hdenied
      rw [← hlevelAt]
      exact TokenBucket.tryAcquire_denied hdenied

/-- Two calls on a bucket of two tokens, half a second apart. -/
theorem tokenBucket_bound_run :
    ClockFrom 0 [⟨0, 2⟩, ⟨1 / 2, 1⟩] ∧
    (TokenBucket.new 2 1 one_pos 0).grantedIn ⟨0, 1⟩ [⟨0, 2⟩, ⟨1 / 2, 1⟩] ≤ (2 : ℕ) + 1 * 1 ∧
    ((TokenBucket.new 2 1 one_pos 0).tryAcquire .exact 0 2).1 = true := by
  have hclock : ClockFrom 0 [⟨0, 2⟩, ⟨1 / 2, 1⟩] := by decide +kernel
  have hbound := tokenBucket_bound 2 1 0 one_pos _ hclock
  refine ⟨hclock, hbound.2.1 ⟨0, 1⟩ zero_le_one, ?_⟩
  exact (hbound.2.2 [] _ _ _ _ rfl rfl rfl).1.mpr (by decide +kernel)

end WazuhMcp.RateLimit
