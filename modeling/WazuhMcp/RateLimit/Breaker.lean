import Mathlib.Algebra.Order.Field.Rat
import WazuhMcp.Foundations.Runs

/-!
# The circuit breaker

`_RedisCircuitBreaker` counts failures while CLOSED, refuses calls while OPEN, and lets a few probes
through once it is HALF_OPEN. Its methods run under a lock and never wait while they hold it, so each
is one step; the guarded call itself runs outside, so that any number of calls may be outstanding, and
end in any order, whatever has become of the breaker since they were let in.

A run is a list of such steps: a call, the end of an outstanding call by success or by failure (a
timeout is one), and its end by cancellation, which the breaker does not hear of. Besides the breaker,
the state of a run keeps which calls are outstanding, and in which HALF_OPEN window each was let in.

`breaker_invariant` is what holds in every state of every run.
-/

namespace WazuhMcp.RateLimit

/-! ## The breaker -/

/-- `BreakerState` -/
inductive BreakerState where
  | closed
  | halfOpen
  | opened
  deriving DecidableEq

/-- The constructor arguments of `_RedisCircuitBreaker`, which it checks. -/
structure BreakerConfig where
  errorThreshold : ℕ := 3
  openDurationSec : ℚ := 5
  halfOpenMaxCalls : ℕ := 1
  callTimeoutMs : ℕ := 50
  errorThreshold_pos : 1 ≤ errorThreshold := by decide
  openDurationSec_pos : 0 < openDurationSec := by decide
  halfOpenMaxCalls_pos : 1 ≤ halfOpenMaxCalls := by decide
  callTimeoutMs_pos : 0 < callTimeoutMs := by decide

/-- `_call_timeout`, in seconds. -/
def BreakerConfig.callTimeout (cfg : BreakerConfig) : ℚ := cfg.callTimeoutMs / 1000

/-- `_RedisCircuitBreaker` -/
structure Breaker where
  state : BreakerState
  consecutiveFailures : ℕ
  openedAt : Option ℚ
  halfOpenInFlight : ℕ
  lastTransition : Option (BreakerState × BreakerState)
  deriving DecidableEq

namespace Breaker

/-- A new breaker. -/
def new : Breaker := ⟨.closed, 0, none, 0, none⟩

/-- `_transition(new_state)`, at a reading of the clock. -/
def transition (b : Breaker) (newState : BreakerState) (now : ℚ) : Breaker :=
  if newState = b.state then b
  else
    let b := { b with lastTransition := some (b.state, newState), state := newState }
    match newState with
    | .opened => { b with openedAt := some now, halfOpenInFlight := 0 }
    | .closed => { b with consecutiveFailures := 0, openedAt := none, halfOpenInFlight := 0 }
    | .halfOpen => { b with halfOpenInFlight := 0 }

variable (cfg : BreakerConfig)

/-- `_maybe_promote_to_half_open()` -/
def maybePromoteToHalfOpen (b : Breaker) (now : ℚ) : Breaker :=
  if b.state ≠ .opened then b
  else match b.openedAt with
    | none => b
    | some openedAt =>
      if cfg.openDurationSec ≤ now - openedAt then b.transition .halfOpen now else b

/-- `call(fn)`, up to where `fn` is started: the message of the `CircuitBreakerOpenError`, if it is
not. -/
def enter (b : Breaker) (now : ℚ) : Except String Unit × Breaker :=
  let b := b.maybePromoteToHalfOpen cfg now
  match b.state with
  | .opened => (.error "breaker is OPEN", b)
  | .halfOpen =>
    if cfg.halfOpenMaxCalls ≤ b.halfOpenInFlight then
      (.error "HALF_OPEN probe budget exhausted", b)
    else
      (.ok (), { b with halfOpenInFlight := b.halfOpenInFlight + 1 })
  | .closed => (.ok (), b)

/-- `_record_success()` -/
def recordSuccess (b : Breaker) (now : ℚ) : Breaker :=
  match b.state with
  | .halfOpen => b.transition .closed now
  | .closed => { b with consecutiveFailures := 0 }
  | .opened => b

/-- `_record_failure()` -/
def recordFailure (b : Breaker) (now : ℚ) : Breaker :=
  match b.state with
  | .halfOpen => b.transition .opened now
  | .closed =>
    let b := { b with consecutiveFailures := b.consecutiveFailures + 1 }
    if cfg.errorThreshold ≤ b.consecutiveFailures then b.transition .opened now else b
  -- a call let in before the breaker opened fails: the cooling period starts again
  | .opened => { b with openedAt := some now }

variable {cfg} {b : Breaker} {now : ℚ}

/-- **What a call does to the breaker**, by the state it finds. -/
theorem enter_cases (cfg : BreakerConfig) (b : Breaker) (now : ℚ) :
    (b.state = .closed ∧ b.enter cfg now = (.ok (), b)) ∨
    (b.state = .halfOpen ∧ b.halfOpenInFlight < cfg.halfOpenMaxCalls ∧
      b.enter cfg now = (.ok (), { b with halfOpenInFlight := b.halfOpenInFlight + 1 })) ∨
    (b.state = .halfOpen ∧ cfg.halfOpenMaxCalls ≤ b.halfOpenInFlight ∧
      b.enter cfg now = (.error "HALF_OPEN probe budget exhausted", b)) ∨
    (b.state = .opened ∧ (∃ t, b.openedAt = some t ∧ cfg.openDurationSec ≤ now - t) ∧
      b.enter cfg now = (.ok (), { b with
        state := .halfOpen
        halfOpenInFlight := 1
        lastTransition := some (.opened, .halfOpen) })) ∨
    (b.state = .opened ∧ (∀ t, b.openedAt = some t → now - t < cfg.openDurationSec) ∧
      b.enter cfg now = (.error "breaker is OPEN", b)) := by
  cases hstate : b.state with
  | closed =>
    have hkeep : b.maybePromoteToHalfOpen cfg now = b := by simp [maybePromoteToHalfOpen, hstate]
    exact .inl ⟨rfl, by simp [enter, hkeep, hstate]⟩
  | halfOpen =>
    have hkeep : b.maybePromoteToHalfOpen cfg now = b := by simp [maybePromoteToHalfOpen, hstate]
    rcases Nat.lt_or_ge b.halfOpenInFlight cfg.halfOpenMaxCalls with hlt | hge
    · exact .inr (.inl ⟨rfl, hlt, by simp [enter, hkeep, hstate, hlt]⟩)
    · exact .inr (.inr (.inl ⟨rfl, hge, by simp [enter, hkeep, hstate, hge]⟩))
  | opened =>
    refine .inr (.inr (.inr ?_))
    by_cases hdue : ∃ t, b.openedAt = some t ∧ cfg.openDurationSec ≤ now - t
    · obtain ⟨t, ht, hle⟩ := hdue
      have hpos : ¬ cfg.halfOpenMaxCalls = 0 := Nat.one_le_iff_ne_zero.mp cfg.halfOpenMaxCalls_pos
      refine .inl ⟨rfl, ⟨t, ht, hle⟩, ?_⟩
      simp [enter, maybePromoteToHalfOpen, transition, hstate, ht, hle, hpos]
    · have hkeep : b.maybePromoteToHalfOpen cfg now = b := by
        simp only [maybePromoteToHalfOpen, hstate, ne_eq, not_true_eq_false, if_false]
        split
        · rfl
        · rename_i t ht
          exact if_neg fun hle => hdue ⟨t, ht, hle⟩
      refine .inr ⟨rfl, fun t ht => not_le.mp fun hle => hdue ⟨t, ht, hle⟩, ?_⟩
      simp [enter, hkeep, hstate]

/-- **What a success does to the breaker**, by the state it finds. -/
theorem recordSuccess_cases (b : Breaker) (now : ℚ) :
    (b.state = .closed ∧ b.recordSuccess now = { b with consecutiveFailures := 0 }) ∨
    (b.state = .halfOpen ∧ b.recordSuccess now =
      ⟨.closed, 0, none, 0, some (.halfOpen, .closed)⟩) ∨
    (b.state = .opened ∧ b.recordSuccess now = b) := by
  cases hstate : b.state with
  | closed => exact .inl ⟨rfl, by simp [recordSuccess, hstate]⟩
  | halfOpen => exact .inr (.inl ⟨rfl, by simp [recordSuccess, transition, hstate]⟩)
  | opened => exact .inr (.inr ⟨rfl, by simp [recordSuccess, hstate]⟩)

/-- **What a failure does to the breaker**, by the state it finds: it stays CLOSED below the threshold,
and is OPEN since the failure otherwise. -/
theorem recordFailure_cases (cfg : BreakerConfig) (b : Breaker) (now : ℚ) :
    (b.state = .closed ∧ b.consecutiveFailures + 1 < cfg.errorThreshold ∧
      b.recordFailure cfg now = { b with consecutiveFailures := b.consecutiveFailures + 1 }) ∨
    ((b.recordFailure cfg now).state = .opened ∧ (b.recordFailure cfg now).openedAt = some now) := by
  cases hstate : b.state with
  | closed =>
    rcases Nat.lt_or_ge (b.consecutiveFailures + 1) cfg.errorThreshold with hlt | hge
    · exact .inl ⟨rfl, hlt, by simp [recordFailure, hstate, hlt]⟩
    · exact .inr (by simp [recordFailure, transition, hstate, hge])
  | halfOpen => exact .inr (by simp [recordFailure, transition, hstate])
  | opened => exact .inr (by simp [recordFailure, hstate])

end Breaker

/-! ## Runs -/

/-- A call that was let in: its number, the HALF_OPEN window it was let in by, if it is a probe, and
when. -/
structure GuardedCall where
  id : ℕ
  window : Option ℕ
  startedAt : ℚ
  deriving DecidableEq

/-- A breaker and its calls: how many HALF_OPEN windows have begun, how many calls, which were let in
and which of these are outstanding, when the breaker last opened or heard of a failure while open, and
the latest reading of the clock. -/
structure Guarded where
  breaker : Breaker
  windows : ℕ
  calls : ℕ
  started : List GuardedCall
  outstanding : List GuardedCall
  lastSignal : Option ℚ
  clock : Option ℚ
  deriving DecidableEq

/-- A step of a breaker or of one of its calls, with the reading of the clock. -/
inductive BreakerAction where
  | call (now : ℚ)
  | succeed (id : ℕ) (now : ℚ)
  | fail (id : ℕ) (now : ℚ)
  /-- the caller is cancelled while it waits -/
  | cancel (id : ℕ)
  deriving DecidableEq

namespace Guarded

/-- A new breaker, with no calls. -/
def new : Guarded := ⟨.new, 0, 0, [], [], none, none⟩

/-- The outstanding call of a number. -/
def find (g : Guarded) (id : ℕ) : Option GuardedCall := g.outstanding.find? fun c => c.id = id

/-- The call is no longer outstanding. -/
def finish (g : Guarded) (id : ℕ) : Guarded :=
  { g with outstanding := g.outstanding.filter fun c => c.id ≠ id }

/-- A call is refused. -/
def refuse (g : Guarded) (now : ℚ) : Guarded := { g with calls := g.calls + 1, clock := some now }

/-- A call is let in, and its `fn` is started. -/
def letIn (g : Guarded) (window : Option ℕ) (now : ℚ) : Guarded :=
  let c : GuardedCall := ⟨g.calls, window, now⟩
  { g with
    calls := g.calls + 1
    started := g.started ++ [c]
    outstanding := g.outstanding ++ [c]
    clock := some now }

variable (cfg : BreakerConfig)

/-- `call(fn)`, up to where `fn` is started. -/
def call (g : Guarded) (now : ℚ) : Guarded :=
  let (out, b) := g.breaker.enter cfg now
  let windows := if g.breaker.state ≠ .halfOpen ∧ b.state = .halfOpen then g.windows + 1 else g.windows
  let g := { g with breaker := b, windows := windows }
  match out with
  | .error _ => g.refuse now
  | .ok _ => g.letIn (if b.state = .halfOpen then some windows else none) now

/-- `fn` returns. -/
def succeed (g : Guarded) (id : ℕ) (now : ℚ) : Guarded :=
  { g.finish id with breaker := g.breaker.recordSuccess now, clock := some now }

/-- `fn` raises or times out. -/
def fail (g : Guarded) (id : ℕ) (now : ℚ) : Guarded :=
  let b := g.breaker.recordFailure cfg now
  let signal := if b.state = .opened then some now else g.lastSignal
  { g.finish id with breaker := b, lastSignal := signal, clock := some now }

/-- One step; only an outstanding call can end. -/
def step (g : Guarded) : BreakerAction → Guarded
  | .call now => g.call cfg now
  | .succeed id now => if (g.find id).isSome then g.succeed id now else g
  | .fail id now => if (g.find id).isSome then g.fail cfg id now else g
  | .cancel id => g.finish id

variable {cfg} {g : Guarded} {now : ℚ}

/-- **What a call comes to**, by the state in which it finds the breaker. -/
theorem call_cases (cfg : BreakerConfig) (g : Guarded) (now : ℚ) :
    (g.breaker.state = .closed ∧ g.call cfg now = g.letIn none now) ∨
    (g.breaker.state = .halfOpen ∧ g.breaker.halfOpenInFlight < cfg.halfOpenMaxCalls ∧
      g.call cfg now = letIn { g with breaker := { g.breaker with
        halfOpenInFlight := g.breaker.halfOpenInFlight + 1 } } (some g.windows) now) ∨
    (g.breaker.state = .opened ∧
      (∃ t, g.breaker.openedAt = some t ∧ cfg.openDurationSec ≤ now - t) ∧
      g.call cfg now = letIn { g with
        windows := g.windows + 1
        breaker := { g.breaker with
          state := .halfOpen
          halfOpenInFlight := 1
          lastTransition := some (.opened, .halfOpen) } } (some (g.windows + 1)) now) ∨
    ((g.breaker.state = .halfOpen ∧ cfg.halfOpenMaxCalls ≤ g.breaker.halfOpenInFlight ∨
        g.breaker.state = .opened ∧
          ∀ t, g.breaker.openedAt = some t → now - t < cfg.openDurationSec) ∧
      g.call cfg now = g.refuse now) := by
  rcases g.breaker.enter_cases cfg now with ⟨hstate, hcall⟩ | ⟨hstate, hlt, hcall⟩ |
    ⟨hstate, hge, hcall⟩ | ⟨hstate, hdue, hcall⟩ | ⟨hstate, hearly, hcall⟩
  · exact .inl ⟨hstate, by simp [call, hcall, hstate]⟩
  · exact .inr (.inl ⟨hstate, hlt, by simp [call, hcall, hstate]⟩)
  · exact .inr (.inr (.inr ⟨.inl ⟨hstate, hge⟩, by simp [call, hcall, hstate]⟩))
  · exact .inr (.inr (.inl ⟨hstate, hdue, by simp [call, hcall, hstate]⟩))
  · exact .inr (.inr (.inr ⟨.inr ⟨hstate, hearly⟩, by simp [call, hcall, hstate]⟩))

/-! ## What holds in every state -/

/-- The probes that were let in by a HALF_OPEN window. -/
def probes (g : Guarded) (w : ℕ) : ℕ := g.started.countP fun c => c.window = some w

/-- The invariant of the breaker's runs. -/
structure Inv (cfg : BreakerConfig) (g : Guarded) : Prop where
  closed : g.breaker.state = .closed →
    g.breaker.consecutiveFailures < cfg.errorThreshold ∧ g.breaker.openedAt = none
  opened : g.breaker.state = .opened → ∃ t, g.breaker.openedAt = some t ∧ g.lastSignal = some t
  probes_le : ∀ w, g.probes w ≤ cfg.halfOpenMaxCalls
  probes_eq : g.breaker.state = .halfOpen → g.probes g.windows = g.breaker.halfOpenInFlight
  probes_later : ∀ w, g.windows < w → g.probes w = 0

theorem Inv.new : Inv cfg .new where
  closed _ := ⟨cfg.errorThreshold_pos, rfl⟩
  opened h := by cases h
  probes_le _ := Nat.zero_le _
  probes_eq h := by cases h
  probes_later _ _ := rfl

@[simp] theorem probes_refuse (w : ℕ) : (g.refuse now).probes w = g.probes w := rfl

@[simp] theorem probes_letIn_none (w : ℕ) : (g.letIn none now).probes w = g.probes w := by
  simp [probes, letIn]

theorem probes_letIn_some (v w : ℕ) :
    (g.letIn (some v) now).probes w = g.probes w + if v = w then 1 else 0 := by
  simp [probes, letIn, List.countP_append, List.countP_singleton]

/-- A probe is let in by the current window, which has room for it. -/
theorem Inv.letIn_probe (hstate : g.breaker.state = .halfOpen)
    (hle : ∀ w, g.probes w ≤ cfg.halfOpenMaxCalls) (hlater : ∀ w, g.windows < w → g.probes w = 0)
    (hroom : g.probes g.windows < cfg.halfOpenMaxCalls)
    (hcount : g.breaker.halfOpenInFlight = g.probes g.windows + 1) :
    Inv cfg (g.letIn (some g.windows) now) where
  closed hclosed := absurd (hstate.symm.trans hclosed) (by decide)
  opened hopened := absurd (hstate.symm.trans hopened) (by decide)
  probes_le w := by
    rw [probes_letIn_some]
    split
    · rename_i heq
      exact heq ▸ hroom
    · exact hle w
  probes_eq _ := by
    have hwindows : (g.letIn (some g.windows) now).windows = g.windows := rfl
    rw [hwindows, probes_letIn_some, if_pos rfl]
    exact hcount.symm
  probes_later w hw := by
    have hlt : g.windows < w := hw
    rw [probes_letIn_some, if_neg (Nat.ne_of_lt hlt), hlater w hlt]

theorem Inv.call (h : Inv cfg g) : Inv cfg (g.call cfg now) := by
  rcases call_cases cfg g now with ⟨hstate, hcall⟩ | ⟨hstate, hlt, hcall⟩ |
    ⟨hstate, -, hcall⟩ | ⟨-, hcall⟩ <;> rw [hcall]
  · have hprobes (w : ℕ) : (g.letIn none now).probes w = g.probes w := probes_letIn_none w
    refine ⟨h.closed, h.opened, fun w => ?_, fun hhalf => ?_, fun w hw => ?_⟩
    · exact hprobes w ▸ h.probes_le w
    · cases hstate.symm.trans hhalf
    · exact hprobes w ▸ h.probes_later w hw
  · have hcount := h.probes_eq hstate
    exact Inv.letIn_probe (g := { g with breaker := { g.breaker with
      halfOpenInFlight := g.breaker.halfOpenInFlight + 1 } }) hstate h.probes_le h.probes_later
      (hcount.trans_lt hlt) (congrArg (· + 1) hcount.symm)
  · have hnone : g.probes (g.windows + 1) = 0 := h.probes_later _ (Nat.lt_succ_self _)
    refine Inv.letIn_probe (g := { g with
      windows := g.windows + 1
      breaker := { g.breaker with
        state := .halfOpen
        halfOpenInFlight := 1
        lastTransition := some (.opened, .halfOpen) } }) rfl h.probes_le ?_ ?_ ?_
    · exact fun w hw => h.probes_later w (Nat.lt_of_succ_lt hw)
    · exact hnone.trans_lt cfg.halfOpenMaxCalls_pos
    · exact congrArg (· + 1) hnone.symm
  · exact ⟨h.closed, h.opened, h.probes_le, h.probes_eq, h.probes_later⟩

theorem Inv.finish (h : Inv cfg g) (id : ℕ) : Inv cfg (g.finish id) :=
  ⟨h.closed, h.opened, h.probes_le, h.probes_eq, h.probes_later⟩

theorem Inv.succeed (h : Inv cfg g) (id : ℕ) : Inv cfg (g.succeed id now) := by
  rcases g.breaker.recordSuccess_cases now with ⟨hstate, hrec⟩ | ⟨-, hrec⟩ | ⟨hstate, hrec⟩ <;>
    rw [Guarded.succeed, hrec]
  · refine ⟨fun _ => ⟨cfg.errorThreshold_pos, (h.closed hstate).2⟩, fun hopened => ?_, h.probes_le,
      fun hhalf => ?_, h.probes_later⟩
    · cases hstate.symm.trans hopened
    · cases hstate.symm.trans hhalf
  · exact ⟨fun _ => ⟨cfg.errorThreshold_pos, rfl⟩, fun hopened => (by cases hopened), h.probes_le,
      fun hhalf => (by cases hhalf), h.probes_later⟩
  · exact ⟨h.closed, h.opened, h.probes_le, h.probes_eq, h.probes_later⟩

theorem Inv.fail (h : Inv cfg g) (id : ℕ) : Inv cfg (g.fail cfg id now) := by
  rcases g.breaker.recordFailure_cases cfg now with ⟨hstate, hlt, hrec⟩ | ⟨hopened, hat⟩
  · rw [Guarded.fail, hrec]
    refine ⟨fun _ => ⟨hlt, (h.closed hstate).2⟩, fun hopened => ?_, h.probes_le, fun hhalf => ?_,
      h.probes_later⟩
    · cases hstate.symm.trans hopened
    · cases hstate.symm.trans hhalf
  · have hstate : (g.fail cfg id now).breaker.state = .opened := hopened
    refine ⟨fun hclosed => ?_, fun _ => ⟨now, hat, ?_⟩, h.probes_le, fun hhalf => ?_, h.probes_later⟩
    · cases hstate.symm.trans hclosed
    · unfold Guarded.fail
      exact if_pos hopened
    · cases hstate.symm.trans hhalf

/-- Every step keeps the invariant. -/
theorem Inv.step (h : Inv cfg g) (a : BreakerAction) : Inv cfg (g.step cfg a) := by
  cases a with
  | call now => exact h.call
  | succeed id now =>
    rw [Guarded.step]
    split
    · exact h.succeed id
    · exact h
  | fail id now =>
    rw [Guarded.step]
    split
    · exact h.fail id
    · exact h
  | cancel id => exact h.finish id

theorem Inv.exec (cfg : BreakerConfig) (acts : List BreakerAction) :
    Inv cfg (Runs.exec (Guarded.step cfg) Guarded.new acts) :=
  Runs.exec_invariant Inv.new (fun _ a h => h.step a) acts

/-- A call that is let in finds the breaker OPEN no longer than `open_duration_sec` allows. -/
def Cooled (cfg : BreakerConfig) (g : Guarded) : BreakerAction → Prop
  | .call now => g.breaker.state = .opened → (g.call cfg now).started ≠ g.started →
      ∀ t, g.breaker.openedAt = some t → cfg.openDurationSec ≤ now - t
  | _ => True

theorem cooled (cfg : BreakerConfig) (g : Guarded) (a : BreakerAction) : Cooled cfg g a := by
  cases a with
  | call now =>
    intro hopened hstarted t ht
    rcases call_cases cfg g now with ⟨hstate, -⟩ | ⟨hstate, -⟩ | ⟨-, ⟨t', ht', hle⟩, -⟩ | ⟨-, hcall⟩
    · cases hopened.symm.trans hstate
    · cases hopened.symm.trans hstate
    · obtain rfl : t = t' := Option.some.inj (ht.symm.trans ht')
      exact hle
    · exact absurd (congrArg started hcall) hstarted
  | _ => trivial

end Guarded

open Guarded

/-- **What holds in every state of every run**: the failure count of a CLOSED breaker is below the
threshold, and it has no opening time; an OPEN one knows its latest signal; no window lets in more
probes than it may; and no call is let in before the cooling period is over. -/
theorem breaker_invariant (cfg : BreakerConfig) (acts : List BreakerAction) :
    let g := Runs.exec (step cfg) new acts
    (g.breaker.state = .closed →
      g.breaker.consecutiveFailures < cfg.errorThreshold ∧ g.breaker.openedAt = none) ∧
    (g.breaker.state = .opened → ∃ t, g.breaker.openedAt = some t ∧ g.lastSignal = some t) ∧
    (∀ w, g.probes w ≤ cfg.halfOpenMaxCalls) ∧
    Runs.EachStep (step cfg) (Cooled cfg) new acts := by
  have h := Inv.exec cfg acts
  exact ⟨h.closed, h.opened, h.probes_le, fun pre a _ _ => cooled cfg _ a⟩

end WazuhMcp.RateLimit
