import Mathlib.Data.Rat.Floor
import WazuhMcp.RateLimit.LuaBucket
import WazuhMcp.RateLimit.TokenBucket

/-!
# The Redis bucket refines the in-process bucket

`token_bucket.lua` and `TokenBucket` are two programs for one bucket on a clock. A run of the script
is a draw from it (`tokenBucketLua_eq_draw`), as a call of `try_acquire` is, so the two decide alike on
any sequence of requests, whichever way the timestamps go. All this is in exact arithmetic.

Redis may forget a key once the time to live of its last write has passed, and the next run of the
script then starts full. `_ttl_for` leaves either tier's bucket more than the time it takes to refill,
so a bucket that is forgotten was full (`lua_refines_tokenBucket`).
-/

namespace WazuhMcp.RateLimit

open Bucket (Clocked)

/-! ## Times to live -/

/-- The arithmetic that `_ttl_for` computes with: the quotient of two numbers and the double of one,
each `none` where it is infinite. -/
structure FloatArith where
  div : ℚ → ℚ → Option ℚ
  double : ℚ → Option ℚ

/-- Exact arithmetic. -/
def FloatArith.exact : FloatArith where
  div a b := some (a / b)
  double a := some (2 * a)

/-- `max(windows)`, where one that is infinite is the greatest. -/
def maxWindow : Option ℚ → Option ℚ → Option ℚ
  | some a, some b => some (max a b)
  | _, _ => none

/-- `_ttl_for(cfg)`, which raises when there is no integer to round up to. -/
def ttlFor (fl : FloatArith) (cfg : RateLimitConfig) : Except Exn ℕ :=
  let window (b : BucketConfig) := fl.div b.capacity b.refillPerSec
  match (maxWindow (window cfg.tenant) (window cfg.session)).bind fl.double with
  | some w => .ok (max ⌈w⌉₊ 60)
  | none => .error (.exception "OverflowError")

section TtlFor

variable {fl : FloatArith} {cfg : RateLimitConfig}

/-- Twice the longer of the times that the tiers' buckets take to refill. -/
def refillTwice (fl : FloatArith) (cfg : RateLimitConfig) : Option ℚ :=
  (maxWindow (fl.div cfg.tenant.capacity cfg.tenant.refillPerSec)
    (fl.div cfg.session.capacity cfg.session.refillPerSec)).bind fl.double

theorem ttlFor_of_some {w : ℚ} (h : refillTwice fl cfg = some w) :
    ttlFor fl cfg = .ok (max ⌈w⌉₊ 60) := by
  rw [refillTwice] at h
  simp only [ttlFor, h]

theorem ttlFor_of_none (h : refillTwice fl cfg = none) :
    ttlFor fl cfg = .error (.exception "OverflowError") := by
  rw [refillTwice] at h
  simp only [ttlFor, h]

end TtlFor

theorem le_max_tiers (f : Tier → ℚ) (tier : Tier) : f tier ≤ max (f .tenant) (f .session) := by
  cases tier with
  | tenant => exact le_max_left _ _
  | session => exact le_max_right _ _

/-- A bucket refills within a time to live of no less than its window. -/
theorem capacity_le_of_window_le {b : BucketConfig} {w : ℚ}
    (hwindow : (b.capacity : ℚ) / b.refillPerSec ≤ w) :
    (b.capacity : ℚ) ≤ (max ⌈w⌉₊ 60 : ℕ) * b.refillPerSec := by
  rw [← div_le_iff₀ b.refillPerSec_pos]
  calc (b.capacity : ℚ) / b.refillPerSec ≤ w := hwindow
    _ ≤ ⌈w⌉₊ := Nat.le_ceil w
    _ ≤ (max ⌈w⌉₊ 60 : ℕ) := by exact_mod_cast le_max_left _ _

/-- Either tier's bucket refills within the time to live. -/
theorem capacity_le_of_ttlFor {cfg : RateLimitConfig} {ttl : ℕ} (h : ttlFor .exact cfg = .ok ttl)
    (tier : Tier) : ((cfg.bucket tier).capacity : ℚ) ≤ ttl * (cfg.bucket tier).refillPerSec := by
  let window (tier : Tier) : ℚ := (cfg.bucket tier).capacity / (cfg.bucket tier).refillPerSec
  have httl : max ⌈2 * max (window .tenant) (window .session)⌉₊ 60 = ttl := Except.ok.inj h
  have hwindow : 0 ≤ window tier :=
    div_nonneg (Nat.cast_nonneg _) (cfg.bucket tier).refillPerSec_pos.le
  have hmax := le_max_tiers window tier
  rw [← httl]
  apply capacity_le_of_window_le
  change window tier ≤ 2 * max (window .tenant) (window .session)
  linarith

/-! ## The script as a draw -/

/-- The bucket that a run of the script at a reading finds under its key. -/
def openBucket (capacity : ℕ) (nowMs : ℤ) : Option BucketHash → Clocked ℚ
  | none => .full (capacity : ℚ) (nowMs / 1000)
  | some h => ⟨h.tokens, h.lastRefillMs / 1000⟩

theorem refreshedTokens_eq_levelAt (hash : Option BucketHash) (capacity : ℕ) (refill : ℚ)
    (nowMs : ℤ) :
    refreshedTokens .exact hash capacity refill nowMs =
      Clocked.levelAt (capacity : ℚ) refill (openBucket capacity nowMs hash) (nowMs / 1000) := by
  have hstep (last : ℤ) : ((max 0 (nowMs - last) : ℤ) : ℚ) / 1000 =
      max 0 ((nowMs : ℚ) / 1000 - last / 1000) := by
    push_cast
    rw [← max_div_div_right (by norm_num), zero_div, sub_div]
  cases hash with
  | none => simp [refreshedTokens_none, openBucket, Clocked.levelAt, Clocked.full, Bucket.refilled]
  | some h =>
    rw [refreshedTokens_some, hstep]
    rfl

/-- **A run of the script is a draw.** -/
theorem tokenBucketLua_eq_draw (hash : Option BucketHash) (capacity : ℕ) (refill : ℚ) (nowMs : ℤ)
    (n ttl : ℕ) :
    let draw := Clocked.draw (capacity : ℚ) refill (openBucket capacity nowMs hash) (nowMs / 1000) n
    tokenBucketLua .exact hash capacity refill nowMs n ttl =
      (if draw.1 then 1 else 0, ⟨draw.2.level, nowMs, ttl⟩) := by
  have hlevel := refreshedTokens_eq_levelAt hash capacity refill nowMs
  simp only [tokenBucketLua, hlevel]
  rcases lt_or_ge (Clocked.levelAt (capacity : ℚ) refill (openBucket capacity nowMs hash)
    (nowMs / 1000)) n with hlt | hle
  · rw [Clocked.draw_of_lt hlt, if_pos hlt]
    rfl
  · rw [Clocked.draw_of_le hle, if_neg (not_lt.mpr hle)]
    rfl

/-! ## Deciding requests -/

/-- A request for tokens, at a timestamp. -/
structure Request where
  nowMs : ℤ
  n : ℕ

/-- What a run of the script finds under its key: Redis may have forgotten it once the time to live
that the last write set has passed. -/
def foundHash (hash : Option BucketHash) (nowMs : ℤ) (forgotten : Bool) : Option BucketHash :=
  hash.filter fun h => !(forgotten && h.lastRefillMs + 1000 * h.ttlSec ≤ nowMs)

/-- The bucket that a hash stores. -/
def BucketHash.clocked (h : BucketHash) : Clocked ℚ := ⟨h.tokens, h.lastRefillMs / 1000⟩

/-- A key that may be forgotten was full. -/
theorem levelAt_foundHash {capacity : ℕ} {refill : ℚ} {h : BucketHash} {nowMs : ℤ} {forgotten : Bool}
    (hrefill : 0 ≤ refill) (htokens : 0 ≤ h.tokens)
    (hforgotten : forgotten = true →
      h.lastRefillMs ≤ nowMs ∧ (capacity : ℚ) ≤ h.ttlSec * refill) :
    Clocked.levelAt (capacity : ℚ) refill
      (openBucket capacity nowMs (foundHash (some h) nowMs forgotten)) (nowMs / 1000) =
        Clocked.levelAt (capacity : ℚ) refill h.clocked (nowMs / 1000) := by
  rw [foundHash, Option.filter_some]
  by_cases hdue : forgotten = true ∧ h.lastRefillMs + 1000 * h.ttlSec ≤ nowMs
  · obtain ⟨hforgot, hdue⟩ := hdue
    obtain ⟨hle, hcap⟩ := hforgotten hforgot
    have hrest : (h.ttlSec : ℚ) ≤ nowMs / 1000 - h.clocked.last := by
      have : (h.lastRefillMs : ℚ) + 1000 * h.ttlSec ≤ nowMs := by exact_mod_cast hdue
      rw [BucketHash.clocked]
      linarith
    have hlast : h.clocked.last ≤ nowMs / 1000 := by
      have : (h.lastRefillMs : ℚ) ≤ nowMs := by exact_mod_cast hle
      rw [BucketHash.clocked]
      linarith
    rw [Clocked.levelAt_eq_cap htokens hlast (hcap.trans (mul_le_mul_of_nonneg_right hrest hrefill)),
      if_neg (by simp [hforgot, hdue]), openBucket, Clocked.levelAt_full hrefill]
  · have hkeep : (!(forgotten && h.lastRefillMs + 1000 * h.ttlSec ≤ nowMs)) = true := by
      simpa [imp_iff_not_or] using hdue
    rw [if_pos hkeep, openBucket]
    rfl

/-- Which requests the script grants in exact arithmetic, each with whether the key is forgotten before it if
it may be. -/
def luaDecisions (capacity : ℕ) (refill : ℚ) (ttl : ℕ) (hash : Option BucketHash) :
    List (Request × Bool) → List Bool
  | [] => []
  | (request, forgotten) :: rest =>
    let found := foundHash hash request.nowMs forgotten
    let (reply, hash') := tokenBucketLua .exact found capacity refill request.nowMs request.n ttl
    (reply == 1) :: luaDecisions capacity refill ttl (some hash') rest

namespace TokenBucket

/-- Which requests a bucket grants in exact arithmetic. -/
def decisions (b : TokenBucket) : List Request → List Bool
  | [] => []
  | request :: rest =>
    let (granted, b') := b.tryAcquire .exact (request.nowMs / 1000) request.n
    granted :: b'.decisions rest

/-- Which requests are granted by a bucket that is created at the first of them. -/
def decisionsFromFirst (capacity : ℕ) (refill : ℚ) (hrefill : 0 < refill) (requests : List Request) :
    List Bool :=
  match requests with
  | [] => []
  | request :: _ => (new capacity refill hrefill (request.nowMs / 1000)).decisions requests

end TokenBucket

/-- The hash holds what the bucket holds, and lives for `ttl` from its last write. -/
structure Simulates (ttl : ℕ) (h : BucketHash) (b : TokenBucket) : Prop where
  tokens : h.tokens = b.tokens
  last : (h.lastRefillMs : ℚ) / 1000 = b.last
  ttlSec : h.ttlSec = ttl

variable {ttl : ℕ} {b : TokenBucket} {h : BucketHash} {nowMs : ℤ}

/-- A run of the script and a call on the bucket that find the same decide alike and leave the
same. -/
theorem simulates_step {found : Option BucketHash}
    (hlevel : Clocked.levelAt (b.capacity : ℚ) b.refill (openBucket b.capacity nowMs found)
      (nowMs / 1000) = b.levelAt (nowMs / 1000)) (n ttl : ℕ) :
    let out := tokenBucketLua .exact found b.capacity b.refill nowMs n ttl
    (out.1 == 1) = (b.tryAcquire .exact (nowMs / 1000) n).1 ∧
      Simulates ttl out.2 (b.tryAcquire .exact (nowMs / 1000) n).2 := by
  have hdraw : Clocked.draw (b.capacity : ℚ) b.refill (openBucket b.capacity nowMs found)
      (nowMs / 1000) n = ((b.tryAcquire .exact (nowMs / 1000) n).1,
        (b.tryAcquire .exact (nowMs / 1000) n).2.clocked) := by
    rw [b.tryAcquire_eq_draw]
    exact Clocked.draw_congr hlevel
  have hlast : (b.tryAcquire .exact (nowMs / 1000) n).2.last = (nowMs : ℚ) / 1000 := by
    have := congrArg (fun out => out.2.last) (b.tryAcquire_eq_draw (nowMs / 1000) n)
    exact this
  simp only [tokenBucketLua_eq_draw, hdraw]
  refine ⟨?_, rfl, hlast.symm, rfl⟩
  cases (b.tryAcquire .exact (nowMs / 1000) n).1 <;> rfl

theorem Simulates.levelAt_eq (hsim : Simulates ttl h b) {forgotten : Bool}
    (hforgotten : forgotten = true →
      h.lastRefillMs ≤ nowMs ∧ (b.capacity : ℚ) ≤ ttl * b.refill) :
    Clocked.levelAt (b.capacity : ℚ) b.refill
      (openBucket b.capacity nowMs (foundHash (some h) nowMs forgotten)) (nowMs / 1000) =
        b.levelAt (nowMs / 1000) := by
  have hclocked : h.clocked = b.clocked := by
    rw [BucketHash.clocked, hsim.tokens, hsim.last]
    rfl
  rw [TokenBucket.levelAt, ← hclocked]
  refine levelAt_foundHash b.refill_pos.le (hsim.tokens ▸ b.tokens_nonneg) fun hforgot => ?_
  rw [hsim.ttlSec]
  exact hforgotten hforgot

/-- A key and a bucket that are found to hold the same decide alike from then on. -/
theorem luaDecisions_eq_decisions {hash : Option BucketHash} {requests : List (Request × Bool)}
    (hfirst : ∀ r ∈ requests.head?,
      Clocked.levelAt (b.capacity : ℚ) b.refill
        (openBucket b.capacity r.1.nowMs (foundHash hash r.1.nowMs r.2)) (r.1.nowMs / 1000) =
          b.levelAt (r.1.nowMs / 1000))
    (hforgotten : (∀ r ∈ requests, r.2 = false) ∨
      (requests.map fun r => r.1.nowMs).Pairwise (· ≤ ·) ∧ (b.capacity : ℚ) ≤ ttl * b.refill) :
    luaDecisions b.capacity b.refill ttl hash requests = b.decisions (requests.map Prod.fst) := by
  induction requests generalizing hash b with
  | nil => rfl
  | cons r rest ih =>
    obtain ⟨hreply, hsim⟩ := simulates_step (hfirst r rfl) r.1.n ttl
    have hlast : (tokenBucketLua .exact (foundHash hash r.1.nowMs r.2) b.capacity b.refill r.1.nowMs r.1.n
        ttl).2.lastRefillMs = r.1.nowMs := by
      rw [tokenBucketLua_eq_draw]
    have hrest := @ih _ (some _) (fun r' hr' => hsim.levelAt_eq fun hforgot => ?_) ?_
    · rw [TokenBucket.tryAcquire_capacity, TokenBucket.tryAcquire_refill] at hrest
      simp only [luaDecisions, List.map_cons, TokenBucket.decisions]
      rw [hreply, hrest]
    · have hmem : r' ∈ rest := List.mem_of_head? hr'
      rcases hforgotten with hnone | ⟨hsorted, hcap⟩
      · exact absurd (hnone r' (List.mem_cons_of_mem _ hmem)) (by rw [hforgot]; decide)
      · rw [hlast, TokenBucket.tryAcquire_capacity, TokenBucket.tryAcquire_refill]
        exact ⟨List.rel_of_pairwise_cons hsorted (List.mem_map_of_mem hmem), hcap⟩
    · rw [TokenBucket.tryAcquire_capacity, TokenBucket.tryAcquire_refill]
      exact hforgotten.imp (fun hnone r' hr' => hnone r' (List.mem_cons_of_mem _ hr'))
        fun hordered => ⟨hordered.1.of_cons, hordered.2⟩

/-- A key and a bucket that the first request creates decide alike. -/
theorem luaDecisions_eq_decisionsFromFirst {capacity : ℕ} {refill : ℚ} (hrefill : 0 < refill)
    {ttl : ℕ} {requests : List (Request × Bool)}
    (hforgotten : (∀ r ∈ requests, r.2 = false) ∨
      (requests.map fun r => r.1.nowMs).Pairwise (· ≤ ·) ∧ (capacity : ℚ) ≤ ttl * refill) :
    luaDecisions capacity refill ttl none requests =
      TokenBucket.decisionsFromFirst capacity refill hrefill (requests.map Prod.fst) := by
  cases requests with
  | nil => rfl
  | cons r rest =>
    refine luaDecisions_eq_decisions
      (b := .new capacity refill hrefill (r.1.nowMs / 1000)) (fun r' hr' => ?_) hforgotten
    obtain rfl : r = r' := by simpa using hr'
    rfl

/-- **The script decides as the in-process bucket does**: on requests with any timestamps while its
key lives, and on requests in order even when the key is forgotten at the end of its time to live, for
either tier of any configuration. -/
theorem lua_refines_tokenBucket :
    (∀ (capacity : ℕ) (refill : ℚ) (hrefill : 0 < refill) (ttl : ℕ) (requests : List Request),
      luaDecisions capacity refill ttl none (requests.map fun r => (r, false)) =
        TokenBucket.decisionsFromFirst capacity refill hrefill requests) ∧
    ∀ (cfg : RateLimitConfig) (tier : Tier) (ttl : ℕ), ttlFor .exact cfg = .ok ttl →
      ∀ requests : List (Request × Bool), (requests.map fun r => r.1.nowMs).Pairwise (· ≤ ·) →
        luaDecisions (cfg.bucket tier).capacity (cfg.bucket tier).refillPerSec ttl none requests =
          TokenBucket.decisionsFromFirst (cfg.bucket tier).capacity (cfg.bucket tier).refillPerSec
            (cfg.bucket tier).refillPerSec_pos (requests.map Prod.fst) := by
  refine ⟨fun capacity refill hrefill ttl requests => ?_, fun cfg tier ttl httl requests hsorted => ?_⟩
  · rw [luaDecisions_eq_decisionsFromFirst hrefill (.inl (by simp)), List.map_map]
    exact congrArg _ (List.map_id requests)
  · exact luaDecisions_eq_decisionsFromFirst _ (.inr ⟨hsorted, capacity_le_of_ttlFor httl tier⟩)

/-- A session's key that is forgotten two minutes after its only write. -/
theorem lua_refines_tokenBucket_forgotten :
    let requests : List (Request × Bool) := [(⟨0, 60⟩, false), (⟨120000, 60⟩, true)]
    luaDecisions 60 1 120 none requests =
      TokenBucket.decisionsFromFirst 60 1 one_pos (requests.map Prod.fst) :=
  lua_refines_tokenBucket.2 {} .session 120 (by decide +kernel) _ (by decide)

end WazuhMcp.RateLimit
