import Mathlib.Tactic.Linarith
import WazuhMcp.RateLimit.Breaker

/-!
# How the circuit breaker recovers

A HALF_OPEN breaker waits for the probes it has let in: only the end of a call takes it to CLOSED or
back to OPEN. Two things can go wrong.

A probe whose caller is cancelled never reports, and its slot is not given back. When the last
outstanding probe of a window is cancelled and no slot is left, the breaker refuses every call for good
(`slotsAccounted_iff`).

A call reports to the breaker as it finds it. One that was let in before the breaker opened and ends in
a later HALF_OPEN window decides that window in place of a probe. That takes a call that lasts as long
as the cooling period, so it happens to no configuration whose timeout is shorter than the cooling
period, and to every other (`recoverySound_iff`).
-/

namespace WazuhMcp.RateLimit

open Guarded

variable {cfg : BreakerConfig} {g : Guarded}

/-! ## Slots -/

/-- A HALF_OPEN breaker has a probe of its window outstanding, or lets a further call in. -/
def SlotAccounted (cfg : BreakerConfig) (g : Guarded) : Prop :=
  g.breaker.state = .halfOpen →
    (∃ c ∈ g.outstanding, c.window = some g.windows) ∨ ∀ now, (g.breaker.enter cfg now).1 = .ok ()

/-- With no call outstanding, calls are let in from some time on. -/
def Recovers (cfg : BreakerConfig) (g : Guarded) : Prop :=
  g.outstanding = [] → ∃ t, ∀ now, t ≤ now → (g.breaker.enter cfg now).1 = .ok ()

/-- The steps after which the current window, if it has no slot left, has a probe outstanding. -/
def KeepsSlot (cfg : BreakerConfig) (g : Guarded) : BreakerAction → Prop
  | .cancel id => g.breaker.state = .halfOpen → cfg.halfOpenMaxCalls ≤ g.breaker.halfOpenInFlight →
      ∃ c ∈ g.outstanding, c.window = some g.windows ∧ c.id ≠ id
  | _ => True

theorem enter_ok_of_closed (h : g.breaker.state = .closed) (now : ℚ) :
    (g.breaker.enter cfg now).1 = .ok () := by
  rcases g.breaker.enter_cases cfg now with ⟨-, hcall⟩ | ⟨hstate, -⟩ | ⟨hstate, -⟩ | ⟨hstate, -⟩ |
    ⟨hstate, -⟩
  · rw [hcall]
  all_goals cases h.symm.trans hstate

theorem enter_ok_iff_of_halfOpen (h : g.breaker.state = .halfOpen) (now : ℚ) :
    (g.breaker.enter cfg now).1 = .ok () ↔ g.breaker.halfOpenInFlight < cfg.halfOpenMaxCalls := by
  rcases g.breaker.enter_cases cfg now with ⟨hstate, -⟩ | ⟨-, hlt, hcall⟩ | ⟨-, hge, hcall⟩ |
    ⟨hstate, -⟩ | ⟨hstate, -⟩
  · cases h.symm.trans hstate
  · exact iff_of_true (by rw [hcall]) hlt
  · exact iff_of_false (by rw [hcall]; simp) (Nat.not_lt.mpr hge)
  all_goals cases h.symm.trans hstate

theorem enter_ok_of_cooled {t now : ℚ} (h : g.breaker.state = .opened)
    (ht : g.breaker.openedAt = some t) (hcooled : cfg.openDurationSec ≤ now - t) :
    (g.breaker.enter cfg now).1 = .ok () := by
  rcases g.breaker.enter_cases cfg now with ⟨hstate, -⟩ | ⟨hstate, -⟩ | ⟨hstate, -⟩ | ⟨-, -, hcall⟩ |
    ⟨-, hearly, -⟩
  · cases h.symm.trans hstate
  · cases h.symm.trans hstate
  · cases h.symm.trans hstate
  · rw [hcall]
  · exact absurd hcooled (not_le.mpr (hearly t ht))

theorem slotAccounted_iff : SlotAccounted cfg g ↔ (g.breaker.state = .halfOpen →
    (∃ c ∈ g.outstanding, c.window = some g.windows) ∨
      g.breaker.halfOpenInFlight < cfg.halfOpenMaxCalls) := by
  refine forall_congr' fun hstate => or_congr_right ?_
  exact ⟨fun h => (enter_ok_iff_of_halfOpen hstate 0).mp (h 0),
    fun h now => (enter_ok_iff_of_halfOpen hstate now).mpr h⟩

/-- A breaker whose slots are accounted for recovers. -/
theorem recovers_of_slotAccounted (hinv : Inv cfg g) (h : SlotAccounted cfg g) : Recovers cfg g := by
  intro hnone
  cases hstate : g.breaker.state with
  | closed => exact ⟨0, fun now _ => enter_ok_of_closed hstate now⟩
  | halfOpen =>
    rcases h hstate with ⟨c, hc, -⟩ | hok
    · rw [hnone] at hc
      cases hc
    · exact ⟨0, fun now _ => hok now⟩
  | opened =>
    obtain ⟨t, ht, -⟩ := hinv.opened hstate
    exact ⟨t + cfg.openDurationSec, fun now hnow =>
      enter_ok_of_cooled hstate ht (le_sub_iff_add_le'.mpr hnow)⟩

/-- A breaker whose slots are accounted for stays so in exactly the steps that keep a slot. -/
theorem slotAccounted_step (h : SlotAccounted cfg g) (a : BreakerAction) :
    SlotAccounted cfg (g.step cfg a) ↔ KeepsSlot cfg g a := by
  have hleft {g' : Guarded} (hstate : g'.breaker.state ≠ .halfOpen) : SlotAccounted cfg g' :=
    fun hhalf => absurd hhalf hstate
  cases a with
  | call now =>
    refine iff_of_true ?_ trivial
    have hprobe {g' : Guarded} (w : ℕ) (hw : g'.windows = w) :
        SlotAccounted cfg (g'.letIn (some w) now) := fun _ => by
      refine .inl ⟨⟨g'.calls, some w, now⟩, by simp [letIn], ?_⟩
      exact congrArg some hw.symm
    rw [Guarded.step]
    rcases call_cases cfg g now with ⟨hstate, hcall⟩ | ⟨-, -, hcall⟩ | ⟨-, -, hcall⟩ | ⟨-, hcall⟩ <;>
      rw [hcall]
    · exact hleft fun hhalf => absurd (hstate.symm.trans hhalf) (by decide)
    · exact hprobe _ rfl
    · exact hprobe _ rfl
    · exact h
  | succeed id now =>
    refine iff_of_true ?_ trivial
    rw [Guarded.step]
    split
    · refine hleft fun hhalf => ?_
      have hhalf : (g.breaker.recordSuccess now).state = .halfOpen := hhalf
      rcases g.breaker.recordSuccess_cases now with ⟨hstate, hrec⟩ | ⟨-, hrec⟩ | ⟨hstate, hrec⟩ <;>
        rw [hrec] at hhalf
      · cases hstate.symm.trans hhalf
      · cases hhalf
      · cases hstate.symm.trans hhalf
    · exact h
  | fail id now =>
    refine iff_of_true ?_ trivial
    rw [Guarded.step]
    split
    · refine hleft fun hhalf => ?_
      have hhalf : (g.breaker.recordFailure cfg now).state = .halfOpen := hhalf
      rcases g.breaker.recordFailure_cases cfg now with ⟨hstate, -, hrec⟩ | ⟨hopened, -⟩
      · rw [hrec] at hhalf
        cases hstate.symm.trans hhalf
      · cases hopened.symm.trans hhalf
    · exact h
  | cancel id =>
    have hmem : (∃ c ∈ (g.finish id).outstanding, c.window = some g.windows) ↔
        ∃ c ∈ g.outstanding, c.window = some g.windows ∧ c.id ≠ id := by
      simp only [finish, List.mem_filter, decide_eq_true_eq]
      exact exists_congr fun c => by tauto
    rw [slotAccounted_iff]
    refine forall_congr' fun _ => ?_
    apply (or_congr_left hmem).trans
    rw [← Nat.not_le, or_comm, ← imp_iff_not_or]
    rfl

/-- **The slots of a run are accounted for**, and the breaker recovers throughout it, exactly when no
cancellation takes the last outstanding probe of a window that has no slot left. -/
theorem slotsAccounted_iff (cfg : BreakerConfig) (acts : List BreakerAction) :
    Runs.Always (step cfg) (fun g => SlotAccounted cfg g ∧ Recovers cfg g) new acts ↔
      Runs.EachStep (step cfg) (KeepsSlot cfg) new acts := by
  have h₀ : SlotAccounted cfg new ∧ Recovers cfg new :=
    ⟨fun h => (by cases h), fun _ => ⟨0, fun now _ => enter_ok_of_closed rfl now⟩⟩
  refine Runs.always_iff_eachStep (Inv.exec cfg) h₀ fun g a hinv hlaw => ?_
  rw [← slotAccounted_step hlaw.1 a]
  exact ⟨fun h => h.1, fun h => ⟨h, recovers_of_slotAccounted (hinv.step a) h⟩⟩

/-- The caller of the only probe is cancelled. -/
theorem not_slotsAccounted_of_cancelled :
    ¬ ∀ (cfg : BreakerConfig) (acts : List BreakerAction),
      Runs.Always (step cfg) (fun g => SlotAccounted cfg g ∧ Recovers cfg g) new acts := by
  intro h
  let cfg : BreakerConfig := { errorThreshold := 1 }
  let acts : List BreakerAction := [.call 0, .fail 0 0, .call 5, .cancel 1]
  obtain ⟨-, hrecovers⟩ := h cfg acts acts [] rfl
  have hnone : (Runs.exec (step cfg) new acts).outstanding = [] := by decide +kernel
  obtain ⟨t, ht⟩ := hrecovers hnone
  have hstate : (Runs.exec (step cfg) new acts).breaker.state = .halfOpen := by decide +kernel
  have hroom := (enter_ok_iff_of_halfOpen hstate t).mp (ht t le_rfl)
  exact absurd hroom (by decide +kernel)

/-! ## Who decides a window -/

/-- The clock has shown the time, or a later one. -/
def Guarded.Reached (g : Guarded) (t : ℚ) : Prop := ∃ now, g.clock = some now ∧ t ≤ now

/-- The clock does not go back. -/
def Ordered (g : Guarded) : BreakerAction → Prop
  | .call now | .succeed _ now | .fail _ now => ∀ t, g.Reached t → t ≤ now
  | .cancel _ => True

/-- A call that ends has lasted as long as `long` says. -/
def Lasted (long : ℚ → Prop) (g : Guarded) : BreakerAction → Prop
  | .succeed id now | .fail id now => ∀ c, g.find id = some c → long (now - c.startedAt)
  | _ => True

theorem le_of_reached {t now : ℚ} (hclock : g.clock = some t) (hle : t ≤ now) (u : ℚ)
    (hu : g.Reached u) : u ≤ now := by
  obtain ⟨v, hv, huv⟩ := hu
  obtain rfl : t = v := Option.some.inj (hclock.symm.trans hv)
  exact huv.trans hle

/-- When the outstanding calls were let in: before the breaker opened, if it is OPEN, and by the window
or a cooling period ago, if it is HALF_OPEN. -/
structure Settled (cfg : BreakerConfig) (g : Guarded) : Prop where
  reached : ∀ c ∈ g.outstanding, g.Reached c.startedAt
  opened : g.breaker.state = .opened →
    ∀ c ∈ g.outstanding, ∀ t, g.breaker.openedAt = some t → c.startedAt ≤ t
  halfOpen : g.breaker.state = .halfOpen → ∀ c ∈ g.outstanding,
    c.window = some g.windows ∨ g.Reached (c.startedAt + cfg.openDurationSec)

theorem Settled.new : Settled cfg .new :=
  ⟨fun _ hc => (by cases hc), fun h => (by cases h), fun h => (by cases h)⟩

/-- A call is let in. The calls outstanding before are settled by what `hsettled` says of them. -/
theorem Settled.letIn {window : Option ℕ} {now : ℚ} (hreached : ∀ c ∈ g.outstanding, c.startedAt ≤ now)
    (hopened : g.breaker.state ≠ .opened)
    (hhalf : g.breaker.state = .halfOpen → window = some g.windows ∧ ∀ c ∈ g.outstanding,
      c.window = some g.windows ∨ c.startedAt + cfg.openDurationSec ≤ now) :
    Settled cfg (g.letIn window now) where
  reached c hc := by
    refine ⟨now, rfl, ?_⟩
    rcases List.mem_append.mp hc with hc | hc
    · exact hreached c hc
    · exact (congrArg GuardedCall.startedAt (List.mem_singleton.mp hc)).le
  opened h := absurd h hopened
  halfOpen h c hc := by
    obtain ⟨hwindow, hold⟩ := hhalf h
    rcases List.mem_append.mp hc with hc | hc
    · exact (hold c hc).imp_right fun hle => ⟨now, rfl, hle⟩
    · exact .inl ((congrArg GuardedCall.window (List.mem_singleton.mp hc)).trans hwindow)

theorem Settled.call {now : ℚ} (h : Settled cfg g) (hordered : Ordered g (.call now)) :
    Settled cfg (g.call cfg now) := by
  have hreached (c : GuardedCall) (hc : c ∈ g.outstanding) : c.startedAt ≤ now :=
    hordered _ (h.reached c hc)
  rcases call_cases cfg g now with ⟨hstate, hcall⟩ | ⟨hstate, -, hcall⟩ |
    ⟨hstate, ⟨t, ht, hcooled⟩, hcall⟩ | ⟨-, hcall⟩ <;> rw [hcall]
  · refine Settled.letIn hreached (fun hopened => ?_) fun hhalf => ?_
    · cases hstate.symm.trans hopened
    · cases hstate.symm.trans hhalf
  · refine Settled.letIn hreached (fun hopened => ?_) fun _ => ⟨rfl, fun c hc => ?_⟩
    · cases hstate.symm.trans hopened
    · exact (h.halfOpen hstate c hc).imp_right (hordered _)
  · -- the calls still outstanding were let in before the breaker opened
    refine Settled.letIn hreached (fun hopened => (by cases hopened)) fun _ => ⟨rfl, fun c hc => ?_⟩
    have hbefore : c.startedAt ≤ t := h.opened hstate c hc t ht
    exact .inr (by linarith)
  · refine ⟨fun c hc => ⟨now, rfl, hreached c hc⟩, h.opened, fun hhalf c hc => ?_⟩
    exact (h.halfOpen hhalf c hc).imp_right fun hlong => ⟨now, rfl, hordered _ hlong⟩

theorem mem_of_mem_finish {c : GuardedCall} {id : ℕ} (hc : c ∈ (g.finish id).outstanding) :
    c ∈ g.outstanding :=
  (List.mem_filter.mp hc).1

theorem Settled.succeed {id : ℕ} {now : ℚ} (h : Settled cfg g)
    (hordered : Ordered g (.succeed id now)) : Settled cfg (g.succeed id now) := by
  have hreached (c : GuardedCall) (hc : c ∈ (g.finish id).outstanding) : c.startedAt ≤ now :=
    hordered _ (h.reached c (mem_of_mem_finish hc))
  have hhalf : (g.succeed id now).breaker.state ≠ .halfOpen := fun hhalf => by
    have hhalf : (g.breaker.recordSuccess now).state = .halfOpen := hhalf
    rcases g.breaker.recordSuccess_cases now with ⟨hstate, hrec⟩ | ⟨-, hrec⟩ | ⟨hstate, hrec⟩ <;>
      rw [hrec] at hhalf
    · cases hstate.symm.trans hhalf
    · cases hhalf
    · cases hstate.symm.trans hhalf
  refine ⟨fun c hc => ⟨now, rfl, hreached c hc⟩, fun hopened c hc t ht => ?_,
    fun h' => absurd h' hhalf⟩
  have hopened : (g.breaker.recordSuccess now).state = .opened := hopened
  have ht : (g.breaker.recordSuccess now).openedAt = some t := ht
  rcases g.breaker.recordSuccess_cases now with ⟨hstate, hrec⟩ | ⟨-, hrec⟩ | ⟨hstate, hrec⟩ <;>
    rw [hrec] at hopened ht
  · cases hstate.symm.trans hopened
  · cases hopened
  · exact h.opened hstate c (mem_of_mem_finish hc) t ht

theorem Settled.fail {id : ℕ} {now : ℚ} (h : Settled cfg g) (hordered : Ordered g (.fail id now)) :
    Settled cfg (g.fail cfg id now) := by
  have hreached (c : GuardedCall) (hc : c ∈ (g.finish id).outstanding) : c.startedAt ≤ now :=
    hordered _ (h.reached c (mem_of_mem_finish hc))
  rcases g.breaker.recordFailure_cases cfg now with ⟨hstate, -, hrec⟩ | ⟨hopened, hat⟩
  · have hclosed : (g.fail cfg id now).breaker.state = .closed := by
      rw [Guarded.fail, hrec]
      exact hstate
    refine ⟨fun c hc => ⟨now, rfl, hreached c hc⟩, fun h' => ?_, fun h' => ?_⟩
    all_goals cases hclosed.symm.trans h'
  · refine ⟨fun c hc => ⟨now, rfl, hreached c hc⟩, fun _ c hc t ht => ?_, fun h' => ?_⟩
    · obtain rfl : now = t := Option.some.inj (hat.symm.trans ht)
      exact hreached c hc
    · cases hopened.symm.trans h'

/-- A step at a clock that does not go back keeps the calls settled. -/
theorem Settled.step (h : Settled cfg g) {a : BreakerAction} (hordered : Ordered g a) :
    Settled cfg (g.step cfg a) := by
  cases a with
  | call now => exact h.call hordered
  | succeed id now =>
    rw [Guarded.step]
    split
    · exact h.succeed hordered
    · exact h
  | fail id now =>
    rw [Guarded.step]
    split
    · exact h.fail hordered
    · exact h
  | cancel id =>
    exact ⟨fun c hc => h.reached c (mem_of_mem_finish hc),
      fun hstate c hc => h.opened hstate c (mem_of_mem_finish hc),
      fun hstate c hc => h.halfOpen hstate c (mem_of_mem_finish hc)⟩

/-- The first call is outstanding, and `n` calls after it have failed, all at time 0. -/
structure Failing (cfg : BreakerConfig) (n : ℕ) (g : Guarded) : Prop where
  calls : g.calls = n + 1
  outstanding : g.outstanding = [⟨0, none, 0⟩]
  clock : g.clock = some 0
  closed : n < cfg.errorThreshold → g.breaker.state = .closed ∧ g.breaker.consecutiveFailures = n
  opened : n = cfg.errorThreshold → g.breaker.state = .opened ∧ g.breaker.openedAt = some 0

/-- The steps that a breaker's clock and timeout allow. -/
def Timed (cfg : BreakerConfig) (g : Guarded) (a : BreakerAction) : Prop :=
  Ordered g a ∧ Lasted (· ≤ cfg.callTimeout) g a

theorem Failing.new : Failing cfg 0 (step cfg new (.call 0)) where
  calls := rfl
  outstanding := rfl
  clock := rfl
  closed _ := ⟨rfl, rfl⟩
  opened h := absurd cfg.errorThreshold_pos (by omega)

theorem callTimeout_nonneg : 0 ≤ cfg.callTimeout :=
  div_nonneg (Nat.cast_nonneg _) (by norm_num)

/-- One more call fails. -/
theorem Failing.next {n : ℕ} (h : Failing cfg n g) (hlt : n < cfg.errorThreshold) :
    Runs.EachStep (step cfg) (Timed cfg) g [.call 0, .fail (n + 1) 0] ∧
      Failing cfg (n + 1) (Runs.exec (step cfg) g [.call 0, .fail (n + 1) 0]) := by
  obtain ⟨hstate, hfailures⟩ := h.closed hlt
  have hcall : g.call cfg 0 = g.letIn none 0 := by
    simp [Guarded.call, Breaker.enter, Breaker.maybePromoteToHalfOpen, hstate]
  have hfind : (g.letIn none 0).find (n + 1) = some ⟨n + 1, none, 0⟩ := by
    simp [find, Guarded.letIn, h.outstanding, h.calls]
  constructor
  · refine Runs.eachStep_cons ⟨le_of_reached h.clock le_rfl, trivial⟩
      (Runs.eachStep_cons ?_ Runs.eachStep_nil)
    rw [Guarded.step, hcall]
    refine ⟨le_of_reached rfl le_rfl, fun c hc => ?_⟩
    obtain rfl := Option.some.inj (hfind.symm.trans hc)
    simpa using callTimeout_nonneg
  · have hexec : Runs.exec (step cfg) g [.call 0, .fail (n + 1) 0] =
        (g.letIn none 0).fail cfg (n + 1) 0 := by
      simp [Runs.exec, Guarded.step, hcall, hfind]
    have hbreaker : (g.letIn none 0).breaker = g.breaker := rfl
    rw [hexec]
    refine ⟨?_, ?_, rfl, fun hbelow => ?_, fun hreached => ?_⟩
    · exact congrArg (· + 1) h.calls
    · simp [Guarded.fail, finish, Guarded.letIn, h.outstanding, h.calls]
    · have hle : ¬ cfg.errorThreshold ≤ n + 1 := Nat.not_le.mpr hbelow
      simp [Guarded.fail, hbreaker, Breaker.recordFailure, hstate, hfailures, hle]
    · simp [Guarded.fail, hbreaker, Breaker.recordFailure, Breaker.transition, hstate, hfailures,
        hreached]

end WazuhMcp.RateLimit
