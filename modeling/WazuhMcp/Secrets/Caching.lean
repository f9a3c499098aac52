import Mathlib.Algebra.Order.Field.Rat
import Mathlib.Tactic.Linarith
import WazuhMcp.Base.Errors
import WazuhMcp.Foundations.Dict
import WazuhMcp.Foundations.Runs

/-!
# The caching secret store

`CachingSecretStore.get` reads the cache, and on a miss joins the flight of its key: the first caller
owns the flight and runs `inner.get`, every other one awaits the future that the owner completes. The
lock of the store is never held across an `await`, so taking it never waits, and each stretch of `get`
between two awaits is one step.

A run is a list of such steps, in any order, of any number of calls on any keys: a call of `get` up to
its first await, the end of the `inner.get` of an owner, the resumption of a waiter whose future is
done, a cancellation, and a call of `invalidate`. What the inner store holds, and when that changes, is
what the steps that end an `inner.get` come with. Besides the fields of the store, the state of a run
keeps every flight and every call so far.

`coherent_exec` is what holds in every state of every run.
-/

namespace WazuhMcp

/-- `asyncio.InvalidStateError` -/
def Exn.invalidState : Exn := .exception "InvalidStateError"

namespace Secrets

/-- `SecretValue` -/
structure SecretValue where
  value : String
  deriving DecidableEq

/-- `cache_key`: tenant and key. -/
abbrev SecretKey := String × String

/-- What a call of `get` comes to. -/
abbrev Outcome := Except Exn SecretValue

/-- An entry of `_cache`, with the flight that stored it. -/
structure CacheEntry where
  expiresAt : ℚ
  value : SecretValue
  flight : ℕ

/-- The `asyncio.Future` that the callers of a flight share. -/
inductive Future where
  | pending
  | done (out : Outcome)
  | cancelled

/-- An `inner.get`. It is `cancelled` if it raised `CancelledError` in a task that was cancelled. -/
inductive Fetch where
  | outstanding
  | ended (out : Outcome)
  | cancelled

/-- A flight: the `inner.get` that `owner` runs, and the future. Once the value is stored, `completed`
has the number of that step and the reading of the clock. -/
structure Flight where
  key : SecretKey
  owner : ℕ
  fetch : Fetch := .outstanding
  future : Future := .pending
  completed : Option (ℕ × ℚ) := none

/-- Where a call of `get` is: at one of its awaits, or ended, with a cached value or with what came of
the flight it joined. -/
inductive GetPoint where
  /-- `await self._inner.get(tenant_id, key)` -/
  | owner (f : ℕ)
  /-- `await fut` -/
  | waiter (f : ℕ)
  | hit (f : ℕ) (value : SecretValue)
  | ended (f : ℕ) (out : Outcome)

/-- The flight that the call has joined, or that stored the value it found. -/
def GetPoint.flight : GetPoint → ℕ
  | .owner f | .waiter f | .hit f _ | .ended f _ => f

/-- What the call has ended with. -/
def GetPoint.outcome : GetPoint → Option Outcome
  | .hit _ value => some (.ok value)
  | .ended _ out => some out
  | _ => none

/-- The call has joined flight `f`, as its owner or as a waiter. -/
def GetPoint.Joined (f : ℕ) : GetPoint → Prop
  | .owner g | .waiter g | .ended g _ => g = f
  | .hit _ _ => False

/-- A call of `get`: the number of its first step, the readings of the clock it took, and how many
flights had been started when `invalidate` last returned for its key. -/
structure GetCall where
  key : SecretKey
  started : ℕ
  readings : List ℚ
  floor : ℕ
  cancelled : Bool
  point : GetPoint

/-- A run of a `CachingSecretStore`: its fields `_cache` and `_inflight`, every flight and every call,
the number of flights at the last `invalidate` of each key, and the number of steps. -/
structure StoreRun where
  cache : Dict SecretKey CacheEntry := []
  inflight : Dict SecretKey ℕ := []
  flights : List Flight := []
  calls : List GetCall := []
  invalidated : Dict SecretKey ℕ := []
  steps : ℕ := 0

/-- A step of a run. -/
inductive StoreAction where
  /-- a call of `get` up to its first await, with the readings of the clock before the lock and under
  it -/
  | get (key : SecretKey) (now recheck : ℚ)
  /-- the `inner.get` of call `i` ends, and the call runs on to its own end; the reading is that of the
  entry's expiry -/
  | innerEnded (i : ℕ) (out : Outcome) (now : ℚ)
  /-- call `i` runs on from `await fut` -/
  | resume (i : ℕ)
  /-- the task of call `i` is cancelled at its await -/
  | cancel (i : ℕ)
  | invalidate (key : SecretKey)

namespace StoreRun

/-- The entry of the key, if there is one that has not expired. -/
def live (s : StoreRun) (key : SecretKey) (now : ℚ) : Option CacheEntry :=
  (s.cache.get key).filter fun entry => now < entry.expiresAt

/-- A new flight, owned by the next call. -/
def openFlight (s : StoreRun) (key : SecretKey) : StoreRun :=
  { s with
    inflight := s.inflight.set key s.flights.length
    flights := s.flights ++ [{ key, owner := s.calls.length }] }

/-- The flight in `_inflight`, or a new one. -/
def join (s : StoreRun) (key : SecretKey) : StoreRun × GetPoint :=
  match s.inflight.get key with
  | some f => (s, .waiter f)
  | none => (s.openFlight key, .owner s.flights.length)

/-- `get(tenant_id, key)`, up to its first await. -/
def get (s : StoreRun) (key : SecretKey) (now recheck : ℚ) : StoreRun × GetPoint :=
  match s.live key now with
  | some entry => (s, .hit entry.flight entry.value)
  | none =>
    match s.live key recheck with
    | some entry => (s, .hit entry.flight entry.value)
    | none => s.join key

/-- The call that is at `await self._inner.get(…)`, with its flight. -/
def owning (s : StoreRun) (i : ℕ) : Option (GetCall × ℕ × Flight) :=
  s.calls[i]?.bind fun c =>
    match c.point with
    | .owner f => s.flights[f]?.map fun flight => (c, f, flight)
    | _ => none

/-- The call that is at `await fut`, with its flight. -/
def waiting (s : StoreRun) (i : ℕ) : Option (GetCall × ℕ × Flight) :=
  s.calls[i]?.bind fun c =>
    match c.point with
    | .waiter f => s.flights[f]?.map fun flight => (c, f, flight)
    | _ => none

end StoreRun

/-- How an `inner.get` has ended in the task of the call. -/
def GetCall.fetchOf (c : GetCall) (out : Outcome) : Fetch :=
  if c.cancelled = true ∧ out = .error Exn.cancelled then .cancelled else .ended out

/-- `fut.set_result(value)` and `fut.set_exception(exc)`: the future after it, and what the call goes on
with. A future that is done or cancelled raises `InvalidStateError`. -/
def Future.complete (out : Outcome) : Future → Future × Outcome
  | .pending => (.done out, out)
  | future => (future, .error Exn.invalidState)

/-- The flight once its `inner.get` has ended, at the step and with the reading of the clock. -/
def Flight.land (flight : Flight) (c : GetCall) (out : Outcome) (step : ℕ) (now : ℚ) : Flight :=
  { flight with
    fetch := c.fetchOf out
    future := (flight.future.complete out).1
    completed := match out with
      | .ok _ => some (step, now)
      | .error _ => none }

/-- `await fut`, once the future is done; a task that has been cancelled raises `CancelledError`. -/
def Future.awaited (cancelled : Bool) : Future → Option Outcome
  | .pending => none
  | .done out => some (if cancelled then .error Exn.cancelled else out)
  | .cancelled => some (.error Exn.cancelled)

/-- `fut.cancel()`, which a done future ignores. -/
def Future.cancel : Future → Future
  | .pending => .cancelled
  | future => future

namespace StoreRun

variable (ttl : ℚ)

/-- The owner's call from the end of `inner.get` to its own end: a value is stored, the flight is taken
out of `_inflight` and its future completed. -/
def complete (s : StoreRun) (i : ℕ) (c : GetCall) (f : ℕ) (flight : Flight) (out : Outcome) (now : ℚ) :
    StoreRun :=
  { s with
    cache := match out with
      | .ok value => s.cache.set c.key ⟨now + ttl, value, f⟩
      | .error _ => s.cache
    inflight := s.inflight.pop c.key
    flights := s.flights.set f (flight.land c out s.steps now)
    calls := s.calls.set i { c with point := .ended f (flight.future.complete out).2 } }

/-- How many flights had been started when `invalidate` last returned for the key. -/
def floor (s : StoreRun) (key : SecretKey) : ℕ := (s.invalidated.get key).getD 0

/-- A new call, at the point it has come to. -/
def addCall (s : StoreRun) (key : SecretKey) (now recheck : ℚ) (point : GetPoint) : StoreRun :=
  { s with calls := s.calls ++ [{
      key, started := s.steps, readings := [now, recheck], floor := s.floor key,
      cancelled := false, point }] }

/-- Call `i` is now `c`. -/
def setCall (s : StoreRun) (i : ℕ) (c : GetCall) : StoreRun := { s with calls := s.calls.set i c }

/-- What a step does, but for counting it. -/
def act (s : StoreRun) : StoreAction → StoreRun
  | .get key now recheck =>
    let (s', point) := s.get key now recheck
    s'.addCall key now recheck point
  | .innerEnded i out now =>
    match s.owning i with
    | some (c, f, flight) => s.complete ttl i c f flight out now
    | none => s
  | .resume i =>
    match s.waiting i with
    | some (c, f, flight) =>
      match flight.future.awaited c.cancelled with
      | some out => s.setCall i { c with point := .ended f out }
      | none => s
    | none => s
  | .cancel i =>
    match s.owning i, s.waiting i with
    | some (c, _, _), _ => s.setCall i { c with cancelled := true }
    -- what the task awaits is the future itself
    | none, some (c, f, flight) =>
      let s := s.setCall i { c with cancelled := true }
      { s with flights := s.flights.set f { flight with future := flight.future.cancel } }
    | none, none => s
  | .invalidate key => { s with
      cache := s.cache.pop key
      invalidated := s.invalidated.set key s.flights.length }

/-- One step of a run. -/
def step (s : StoreRun) (a : StoreAction) : StoreRun := { s.act ttl a with steps := s.steps + 1 }

/-! ## What a step does -/

variable {ttl} {s : StoreRun} {i f : ℕ} {c : GetCall} {flight : Flight}

theorem owning_eq_some : s.owning i = some (c, f, flight) ↔
    s.calls[i]? = some c ∧ c.point = .owner f ∧ s.flights[f]? = some flight := by
  unfold owning
  constructor
  · intro h
    obtain ⟨c', hcall, h⟩ := Option.bind_eq_some_iff.mp h
    cases hpoint : c'.point with
    | owner g =>
      rw [hpoint] at h
      obtain ⟨fl, hfl, heq⟩ := Option.map_eq_some_iff.mp h
      cases heq
      exact ⟨hcall, hpoint, hfl⟩
    | waiter g => simp [hpoint] at h
    | hit g v => simp [hpoint] at h
    | ended g out => simp [hpoint] at h
  · rintro ⟨hcall, hpoint, hfl⟩
    simp [hcall, hpoint, hfl]

theorem waiting_eq_some : s.waiting i = some (c, f, flight) ↔
    s.calls[i]? = some c ∧ c.point = .waiter f ∧ s.flights[f]? = some flight := by
  unfold waiting
  constructor
  · intro h
    obtain ⟨c', hcall, h⟩ := Option.bind_eq_some_iff.mp h
    cases hpoint : c'.point with
    | waiter g =>
      rw [hpoint] at h
      obtain ⟨fl, hfl, heq⟩ := Option.map_eq_some_iff.mp h
      cases heq
      exact ⟨hcall, hpoint, hfl⟩
    | owner g => simp [hpoint] at h
    | hit g v => simp [hpoint] at h
    | ended g out => simp [hpoint] at h
  · rintro ⟨hcall, hpoint, hfl⟩
    simp [hcall, hpoint, hfl]

theorem live_cases (s : StoreRun) (key : SecretKey) (now : ℚ) :
    (∃ entry, s.live key now = some entry ∧ s.cache.get key = some entry ∧ now < entry.expiresAt) ∨
    s.live key now = none := by
  cases hlive : s.live key now with
  | none => exact .inr rfl
  | some entry =>
    obtain ⟨hentry, hnow⟩ := Option.filter_eq_some_iff.mp hlive
    exact .inl ⟨entry, rfl, hentry, by simpa using hnow⟩

/-- Everything that a step may do. -/
inductive Effect (ttl : ℚ) (s : StoreRun) : StoreAction → StoreRun → Prop
  | hit {key now recheck r} {entry : CacheEntry} (hentry : s.cache.get key = some entry)
      (hr : r ∈ [now, recheck]) (hlive : r < entry.expiresAt) :
      Effect ttl s (.get key now recheck) (s.addCall key now recheck (.hit entry.flight entry.value))
  | joined {key now recheck} {f : ℕ} (hin : s.inflight.get key = some f) :
      Effect ttl s (.get key now recheck) (s.addCall key now recheck (.waiter f))
  | opened {key now recheck} (hnone : s.inflight.get key = none) :
      Effect ttl s (.get key now recheck)
        ((s.openFlight key).addCall key now recheck (.owner s.flights.length))
  | completed {i f : ℕ} {out now} {c : GetCall} {flight : Flight}
      (hcall : s.calls[i]? = some c) (hpoint : c.point = .owner f) (hflight : s.flights[f]? = some flight) :
      Effect ttl s (.innerEnded i out now) (s.complete ttl i c f flight out now)
  | resumed {i f : ℕ} {out} {c : GetCall} {flight : Flight}
      (hcall : s.calls[i]? = some c) (hpoint : c.point = .waiter f) (hflight : s.flights[f]? = some flight)
      (hout : flight.future.awaited c.cancelled = some out) :
      Effect ttl s (.resume i) (s.setCall i { c with point := .ended f out })
  | ownerCancelled {i f : ℕ} {c : GetCall} {flight : Flight}
      (hcall : s.calls[i]? = some c) (hpoint : c.point = .owner f) (hflight : s.flights[f]? = some flight) :
      Effect ttl s (.cancel i) (s.setCall i { c with cancelled := true })
  | waiterCancelled {i f : ℕ} {c : GetCall} {flight : Flight}
      (hcall : s.calls[i]? = some c) (hpoint : c.point = .waiter f) (hflight : s.flights[f]? = some flight) :
      Effect ttl s (.cancel i) { s.setCall i { c with cancelled := true } with
        flights := s.flights.set f { flight with future := flight.future.cancel } }
  | invalidated {key} : Effect ttl s (.invalidate key) { s with
      cache := s.cache.pop key
      invalidated := s.invalidated.set key s.flights.length }
  | idle {a} : Effect ttl s a s

theorem get_effect (s : StoreRun) (key : SecretKey) (now recheck : ℚ) :
    Effect ttl s (.get key now recheck)
      ((s.get key now recheck).1.addCall key now recheck (s.get key now recheck).2) := by
  unfold get
  rcases live_cases s key now with ⟨entry, hget, hentry, hlive⟩ | hnow
  · rw [hget]
    exact .hit hentry (by simp) hlive
  rcases live_cases s key recheck with ⟨entry, hget, hentry, hlive⟩ | hre
  · rw [hnow, hget]
    exact .hit hentry (by simp) hlive
  rw [hnow, hre]
  unfold join
  cases hin : s.inflight.get key with
  | some f => exact .joined hin
  | none => exact .opened hin

/-- **What a step does** is one of these. -/
theorem act_effect (ttl : ℚ) (s : StoreRun) (a : StoreAction) : Effect ttl s a (s.act ttl a) := by
  cases a with
  | get key now recheck => exact get_effect s key now recheck
  | innerEnded i out now =>
    cases howning : s.owning i with
    | none => simpa only [act, howning] using .idle
    | some found =>
      obtain ⟨hcall, hpoint, hflight⟩ := owning_eq_some.mp howning
      simpa only [act, howning] using .completed hcall hpoint hflight
  | resume i =>
    cases hwaiting : s.waiting i with
    | none => simpa only [act, hwaiting] using .idle
    | some found =>
      obtain ⟨hcall, hpoint, hflight⟩ := waiting_eq_some.mp hwaiting
      cases hout : found.2.2.future.awaited found.1.cancelled with
      | none => simpa only [act, hwaiting, hout] using .idle
      | some out => simpa only [act, hwaiting, hout] using .resumed hcall hpoint hflight hout
  | cancel i =>
    cases howning : s.owning i with
    | some found =>
      obtain ⟨hcall, hpoint, hflight⟩ := owning_eq_some.mp howning
      simpa only [act, howning] using .ownerCancelled hcall hpoint hflight
    | none =>
      cases hwaiting : s.waiting i with
      | some found =>
        obtain ⟨hcall, hpoint, hflight⟩ := waiting_eq_some.mp hwaiting
        simpa only [act, howning, hwaiting] using .waiterCancelled hcall hpoint hflight
      | none => simpa only [act, howning, hwaiting] using .idle
  | invalidate key => exact .invalidated

theorem forall_addCall {P : GetCall → Prop} {key : SecretKey} {now recheck : ℚ} {point : GetPoint}
    (h : ∀ d ∈ s.calls, P d) (hnew : P ⟨key, s.steps, [now, recheck], s.floor key, false, point⟩) :
    ∀ d ∈ (s.addCall key now recheck point).calls, P d := by
  intro d hd
  rcases List.mem_append.mp hd with hold | hd
  · exact h d hold
  · obtain rfl := List.mem_singleton.mp hd
    exact hnew

theorem forall_setCall {P : GetCall → Prop} {c' : GetCall} (h : ∀ d ∈ s.calls, P d) (hnew : P c') :
    ∀ d ∈ (s.setCall i c').calls, P d := by
  intro d hd
  rcases List.mem_or_eq_of_mem_set hd with hold | rfl
  · exact h d hold
  · exact hnew

end StoreRun

/-! ## The invariant of every run -/

/-- What came of an `inner.get`. -/
def Fetch.outcome : Fetch → Option Outcome
  | .outstanding => none
  | .ended out => some out
  | .cancelled => some (.error Exn.cancelled)

/-- The future is pending no longer than the `inner.get` runs, and is only ever done with what came of
it; a value has been stored. -/
structure Flight.Coherent (flight : Flight) : Prop where
  pending : flight.future = .pending → flight.fetch = .outstanding
  done : ∀ out, flight.future = .done out → flight.fetch.outcome = some out
  completed : ∀ value, flight.fetch = .ended (.ok value) → ∃ n t, flight.completed = some (n, t)
  outstanding : flight.fetch = .outstanding → flight.completed = none

/-- What a call knows of the flight of its point. -/
def GetCall.Coherent (ttl : ℚ) (i : ℕ) (c : GetCall) (flight : Flight) : Prop :=
  match c.point with
  | .owner _ => flight.fetch = .outstanding ∧ flight.owner = i
  | .waiter _ => ∀ n t, flight.completed = some (n, t) → c.started < n
  | .hit _ value => flight.fetch = .ended (.ok value) ∧
      ∃ n t, flight.completed = some (n, t) ∧ ∃ r ∈ c.readings, r - t < ttl
  | .ended _ (.ok value) => flight.fetch = .ended (.ok value) ∧
      ∃ n t, flight.completed = some (n, t) ∧ c.started < n
  | .ended _ (.error x) =>
      x = Exn.invalidState ∨ x = Exn.cancelled ∨ flight.fetch = .ended (.error x)

/-- The flights in `_inflight` are the outstanding ones, each with its owner at `inner.get`; the entries
of the cache are of flights that ended with their value. -/
structure StoreRun.Coherent (ttl : ℚ) (s : StoreRun) : Prop where
  inflight : ∀ key f, s.inflight.get key = some f →
    ∃ flight : Flight, s.flights[f]? = some flight ∧ flight.key = key ∧ flight.fetch = .outstanding
  owned : ∀ (f : ℕ) (flight : Flight), s.flights[f]? = some flight → flight.fetch = .outstanding →
    s.inflight.get flight.key = some f ∧ ∃ c, s.calls[flight.owner]? = some c ∧ c.point = .owner f
  flights : ∀ (f : ℕ) (flight : Flight), s.flights[f]? = some flight → flight.Coherent
  cache : ∀ key entry, s.cache.get key = some entry →
    ∃ flight : Flight, s.flights[entry.flight]? = some flight ∧ flight.key = key ∧
      flight.fetch = .ended (.ok entry.value) ∧
      ∃ n t, flight.completed = some (n, t) ∧ entry.expiresAt = t + ttl
  calls : ∀ (i : ℕ) (c : GetCall), s.calls[i]? = some c → c.started < s.steps ∧
    ∃ flight : Flight, s.flights[c.point.flight]? = some flight ∧ flight.key = c.key ∧
      c.Coherent ttl i flight

theorem GetCall.outcome_fetchOf (c : GetCall) (out : Outcome) : (c.fetchOf out).outcome = some out := by
  unfold GetCall.fetchOf
  split
  · rename_i h
    rw [h.2]
    rfl
  · rfl

theorem Future.complete_cases (future : Future) (out : Outcome) :
    (future = .pending ∧ future.complete out = (.done out, out)) ∨
    (future ≠ .pending ∧ future.complete out = (future, .error Exn.invalidState)) := by
  cases future with
  | pending => exact .inl ⟨rfl, rfl⟩
  | done out' => exact .inr ⟨nofun, rfl⟩
  | cancelled => exact .inr ⟨nofun, rfl⟩

section Land

theorem Flight.outcome_land (flight : Flight) (c : GetCall) (out : Outcome) (step : ℕ) (now : ℚ) :
    (flight.land c out step now).fetch.outcome = some out := c.outcome_fetchOf out

variable {flight : Flight} {c : GetCall} {out : Outcome} {step : ℕ} {now : ℚ}

theorem Flight.fetch_land_ne : (flight.land c out step now).fetch ≠ .outstanding := by
  intro h
  have hout := flight.outcome_land c out step now
  rw [h] at hout
  cases hout

theorem Flight.completed_land {value : SecretValue} :
    (flight.land c (.ok value) step now).completed = some (step, now) := rfl

theorem Flight.Coherent.land (h : flight.Coherent) (hfetch : flight.fetch = .outstanding) :
    (flight.land c out step now).Coherent where
  pending hpending := by
    unfold Flight.land at hpending
    rcases flight.future.complete_cases out with ⟨-, heq⟩ | ⟨hne, heq⟩
    · simp [heq] at hpending
    · simp [heq, hne] at hpending
  done out' hdone := by
    rw [Flight.outcome_land]
    rcases flight.future.complete_cases out with ⟨-, heq⟩ | ⟨-, heq⟩
    · simp only [Flight.land, heq, Future.done.injEq] at hdone
      rw [hdone]
    · -- a future that is done before the end has been done with its outcome
      have hout := h.done out' (by simpa [Flight.land, heq] using hdone)
      rw [hfetch] at hout
      cases hout
  completed value hvalue := by
    have hout := flight.outcome_land c out step now
    rw [hvalue] at hout
    cases hout
    exact ⟨step, now, Flight.completed_land⟩
  outstanding houtstanding := absurd houtstanding Flight.fetch_land_ne

theorem Flight.Coherent.cancel (h : flight.Coherent) :
    ({ flight with future := flight.future.cancel } : Flight).Coherent := by
  cases hfuture : flight.future with
  | pending => exact ⟨nofun, nofun, h.completed, h.outstanding⟩
  | done out =>
    have hdone := h.done out hfuture
    exact ⟨nofun, fun out' heq => by cases heq; exact hdone, h.completed, h.outstanding⟩
  | cancelled => exact ⟨nofun, nofun, h.completed, h.outstanding⟩

/-- A call that has joined the flight, but does not own it, knows as much once it has landed. -/
theorem GetCall.Coherent.land {ttl : ℚ} {j : ℕ} {d : GetCall} (h : d.Coherent ttl j flight)
    (hfetch : flight.fetch = .outstanding) (howner : flight.owner ≠ j) (hstarted : d.started < step) :
    d.Coherent ttl j (flight.land c out step now) := by
  unfold GetCall.Coherent at h ⊢
  cases hpoint : d.point with
  | owner g =>
    rw [hpoint] at h
    exact absurd h.2 howner
  | waiter g =>
    intro n t hcompleted
    cases out with
    | ok value =>
      cases hcompleted
      exact hstarted
    | error x => cases hcompleted
  | hit g value =>
    rw [hpoint, hfetch] at h
    cases h.1
  | ended g result =>
    rw [hpoint, hfetch] at h
    cases result with
    | ok value => cases h.1
    | error x =>
      rcases h with hx | hx | hx
      · exact .inl hx
      · exact .inr (.inl hx)
      · cases hx

end Land

namespace StoreRun

variable {ttl : ℚ} {s : StoreRun} {i f : ℕ} {c : GetCall} {flight : Flight}

theorem coherent_empty : ({} : StoreRun).Coherent ttl := by
  constructor <;> simp

namespace Coherent

theorem tick (h : s.Coherent ttl) : ({ s with steps := s.steps + 1 } : StoreRun).Coherent ttl where
  inflight := h.inflight
  owned := h.owned
  flights := h.flights
  cache := h.cache
  calls j d hd := by
    obtain ⟨hlt, hrest⟩ := h.calls j d hd
    exact ⟨Nat.lt_succ_of_lt hlt, hrest⟩

/-- A call may be replaced by one that knows as much of its flight, if an owner stays one. -/
theorem setCall (h : s.Coherent ttl) {c' : GetCall} (hcall : s.calls[i]? = some c)
    (howner : ∀ f, c.point = .owner f → c'.point = .owner f) (hstarted : c'.started = c.started)
    (hflight : s.flights[c'.point.flight]? = some flight) (hkey : flight.key = c'.key)
    (hcoherent : c'.Coherent ttl i flight) : (s.setCall i c').Coherent ttl where
  inflight := h.inflight
  owned g fl hfl hfetch := by
    obtain ⟨hin, d, hd, hpoint⟩ := h.owned g fl hfl hfetch
    refine ⟨hin, ?_⟩
    by_cases hi : fl.owner = i
    · subst hi
      obtain rfl : c = d := Option.some.inj (hcall.symm.trans hd)
      exact ⟨c', by simp [StoreRun.setCall, (List.getElem?_eq_some_iff.mp hcall).1], howner g hpoint⟩
    · exact ⟨d, by simpa [StoreRun.setCall, List.getElem?_set_ne (Ne.symm hi)] using hd, hpoint⟩
  flights := h.flights
  cache := h.cache
  calls j d hd := by
    have hold := h.calls
    unfold StoreRun.setCall at *
    grind

/-- A call that knows of its flight may be added. -/
theorem addCall (h : s.Coherent ttl) {key : SecretKey} {now recheck : ℚ} {point : GetPoint}
    (hflight : s.flights[point.flight]? = some flight) (hkey : flight.key = key)
    (hcoherent : GetCall.Coherent ttl s.calls.length ⟨key, s.steps, [now, recheck],
      s.floor key, false, point⟩ flight) :
    ({ s.addCall key now recheck point with steps := s.steps + 1 } : StoreRun).Coherent ttl where
  inflight := h.inflight
  owned g fl hfl hfetch := by
    obtain ⟨hin, d, hd, hpoint⟩ := h.owned g fl hfl hfetch
    exact ⟨hin, d, (List.getElem?_append_left (List.getElem?_eq_some_iff.mp hd).1).trans hd, hpoint⟩
  flights := h.flights
  cache := h.cache
  calls j d hd := by
    have hold := h.calls
    unfold StoreRun.addCall at *
    grind

/-- A flight may be started for a key that has none in flight. -/
theorem opened (h : s.Coherent ttl) {key : SecretKey} (hnone : s.inflight.get key = none)
    (now recheck : ℚ) :
    ({ (s.openFlight key).addCall key now recheck (.owner s.flights.length) with
      steps := s.steps + 1 } : StoreRun).Coherent ttl := by
  have hkeep : ∀ (g : ℕ) (fl : Flight), s.flights[g]? = some fl →
      (s.openFlight key).flights[g]? = some fl := fun g fl hfl =>
    (List.getElem?_append_left (List.getElem?_eq_some_iff.mp hfl).1).trans hfl
  have hnew : (s.openFlight key).flights[s.flights.length]? = some ⟨key, s.calls.length,
      .outstanding, .pending, none⟩ := by
    simp [StoreRun.openFlight]
  have hcases : ∀ (g : ℕ) (fl : Flight), (s.openFlight key).flights[g]? = some fl →
      s.flights[g]? = some fl ∨ (g = s.flights.length ∧ fl = ⟨key, s.calls.length, .outstanding,
        .pending, none⟩) := by
    intro g fl hfl
    unfold StoreRun.openFlight at hfl
    grind
  constructor
  case inflight =>
    intro k g hg
    by_cases hk : k = key
    · obtain rfl : s.flights.length = g := by
        simpa [StoreRun.addCall, StoreRun.openFlight, hk] using hg
      exact ⟨_, hnew, hk.symm, rfl⟩
    · obtain ⟨fl, hfl, hrest⟩ := h.inflight k g (by
        simpa [StoreRun.addCall, StoreRun.openFlight, Dict.get_set_of_ne _ hk] using hg)
      exact ⟨fl, hkeep g fl hfl, hrest⟩
  case owned =>
    intro g fl hfl hfetch
    rcases hcases g fl hfl with hold | ⟨rfl, rfl⟩
    · obtain ⟨hin, d, hd, hpoint⟩ := h.owned g fl hold hfetch
      have hk : fl.key ≠ key := fun hk => by simp [hk, hnone] at hin
      exact ⟨(Dict.get_set_of_ne _ hk _).trans hin, d,
        (List.getElem?_append_left (List.getElem?_eq_some_iff.mp hd).1).trans hd, hpoint⟩
    · exact ⟨Dict.get_set_self .., _, List.getElem?_concat_length, rfl⟩
  case flights =>
    intro g fl hfl
    rcases hcases g fl hfl with hold | ⟨rfl, rfl⟩
    · exact h.flights g fl hold
    · constructor <;> simp
  case cache =>
    intro k entry hentry
    obtain ⟨fl, hfl, hrest⟩ := h.cache k entry hentry
    exact ⟨fl, hkeep _ fl hfl, hrest⟩
  case calls =>
    intro j d hd
    rcases Nat.lt_or_ge j s.calls.length with hlt | hge
    · obtain ⟨hstart, fl, hfl, hrest⟩ := h.calls j d
        (by simpa [StoreRun.addCall, StoreRun.openFlight, List.getElem?_append_left hlt] using hd)
      exact ⟨Nat.lt_succ_of_lt hstart, fl, hkeep _ fl hfl, hrest⟩
    · have hd' : (s.calls ++ [⟨key, s.steps, [now, recheck], s.floor key, false,
          .owner s.flights.length⟩])[j]? = some d := hd
      have hlast : j = s.calls.length ∧ d = ⟨key, s.steps, [now, recheck], s.floor key, false,
          .owner s.flights.length⟩ := by
        grind
      obtain ⟨rfl, rfl⟩ := hlast
      exact ⟨Nat.lt_succ_self _, _, hnew, rfl, rfl, rfl⟩

theorem of_owner (h : s.Coherent ttl) (hcall : s.calls[i]? = some c) (hpoint : c.point = .owner f)
    (hflight : s.flights[f]? = some flight) :
    flight.fetch = .outstanding ∧ flight.key = c.key ∧ flight.owner = i := by
  obtain ⟨-, fl, hfl, hkey, hmatch⟩ := h.calls i c hcall
  rw [hpoint] at hfl
  obtain rfl : flight = fl := Option.some.inj (hflight.symm.trans hfl)
  unfold GetCall.Coherent at hmatch
  rw [hpoint] at hmatch
  exact ⟨hmatch.1, hkey, hmatch.2⟩

/-- An owner ends with its flight. -/
theorem complete (h : s.Coherent ttl) (hcall : s.calls[i]? = some c) (hpoint : c.point = .owner f)
    (hflight : s.flights[f]? = some flight) (out : Outcome) (now : ℚ) :
    ({ s.complete ttl i c f flight out now with steps := s.steps + 1 } : StoreRun).Coherent ttl := by
  obtain ⟨hstarted, -⟩ := h.calls i c hcall
  obtain ⟨hfetch, hkey, howner⟩ := h.of_owner hcall hpoint hflight
  have hnew : (s.flights.set f (flight.land c out s.steps now))[f]? =
      some (flight.land c out s.steps now) := by
    simp [(List.getElem?_eq_some_iff.mp hflight).1]
  have hkeep : ∀ (g : ℕ) (fl : Flight), g ≠ f → s.flights[g]? = some fl →
      (s.flights.set f (flight.land c out s.steps now))[g]? = some fl := by
    intro g fl hne hfl
    rw [List.getElem?_set_ne (Ne.symm hne)]
    exact hfl
  have hcases : ∀ (g : ℕ) (fl : Flight),
      (s.flights.set f (flight.land c out s.steps now))[g]? = some fl →
      (g = f ∧ fl = flight.land c out s.steps now) ∨ (g ≠ f ∧ s.flights[g]? = some fl) := by
    intro g fl hfl
    by_cases hg : g = f
    · subst hg
      exact .inl ⟨rfl, (Option.some.inj (hnew.symm.trans hfl)).symm⟩
    · rw [List.getElem?_set_ne (Ne.symm hg)] at hfl
      exact .inr ⟨hg, hfl⟩
  constructor
  case inflight =>
    intro k g hg
    have hk : k ≠ c.key := by
      rintro rfl
      simp [StoreRun.complete] at hg
    obtain ⟨fl, hflg, hkeyg, hfetchg⟩ := h.inflight k g ((Dict.get_pop_of_ne _ hk).symm.trans hg)
    have hne : g ≠ f := by
      intro hgf
      rw [hgf, hflight] at hflg
      obtain rfl : flight = fl := Option.some.inj hflg
      exact hk (hkeyg.symm.trans hkey)
    exact ⟨fl, hkeep g fl hne hflg, hkeyg, hfetchg⟩
  case owned =>
    intro g fl hfl hfetchg
    rcases hcases g fl hfl with ⟨rfl, rfl⟩ | ⟨hne, hold⟩
    · exact absurd hfetchg Flight.fetch_land_ne
    · obtain ⟨hin, d, hd, hpointd⟩ := h.owned g fl hold hfetchg
      obtain ⟨hinf, -⟩ := h.owned f flight hflight hfetch
      have hk : fl.key ≠ c.key := by
        intro hk
        rw [hk, ← hkey, hinf] at hin
        exact hne (Option.some.inj hin).symm
      have hi : fl.owner ≠ i := by
        rintro rfl
        obtain rfl : c = d := Option.some.inj (hcall.symm.trans hd)
        rw [hpoint] at hpointd
        cases hpointd
        exact hne rfl
      exact ⟨(Dict.get_pop_of_ne _ hk).trans hin, d,
        (List.getElem?_set_ne (Ne.symm hi)).trans hd, hpointd⟩
  case flights =>
    intro g fl hfl
    rcases hcases g fl hfl with ⟨rfl, rfl⟩ | ⟨-, hold⟩
    · exact (h.flights g flight hflight).land hfetch
    · exact h.flights g fl hold
  case cache =>
    intro k entry hentry
    have hcached : (k = c.key ∧ ∃ value, out = .ok value ∧ entry = ⟨now + ttl, value, f⟩) ∨
        s.cache.get k = some entry := by
      cases hout : out with
      | error x => exact .inr (by simpa [StoreRun.complete, hout] using hentry)
      | ok value =>
        by_cases hk : k = c.key
        · exact .inl ⟨hk, value, rfl, by simpa [StoreRun.complete, hout, hk, eq_comm] using hentry⟩
        · exact .inr (by simpa [StoreRun.complete, hout, Dict.get_set_of_ne _ hk] using hentry)
    rcases hcached with ⟨rfl, value, rfl, rfl⟩ | hold
    · refine ⟨_, hnew, hkey, ?_, s.steps, now, Flight.completed_land, rfl⟩
      simp [Flight.land, GetCall.fetchOf]
    · obtain ⟨fl, hfl, hkeyg, hfetchg, hrest⟩ := h.cache k entry hold
      have hne : entry.flight ≠ f := by
        intro hg
        rw [hg, hflight] at hfl
        rw [← Option.some.inj hfl, hfetch] at hfetchg
        cases hfetchg
      exact ⟨fl, hkeep _ fl hne hfl, hkeyg, hfetchg, hrest⟩
  case calls =>
    intro j d hd
    by_cases hj : j = i
    · subst hj
      obtain rfl : { c with point := .ended f (flight.future.complete out).2 } = d := by
        simpa [StoreRun.complete, (List.getElem?_eq_some_iff.mp hcall).1] using hd
      refine ⟨Nat.lt_succ_of_lt hstarted, _, hnew, hkey, ?_⟩
      unfold GetCall.Coherent
      rcases flight.future.complete_cases out with ⟨-, heq⟩ | ⟨-, heq⟩
      · rw [heq]
        cases out with
        | ok value =>
          exact ⟨by simp [Flight.land, GetCall.fetchOf], s.steps, now, rfl, hstarted⟩
        | error x =>
          by_cases hx : c.cancelled = true ∧ x = Exn.cancelled
          · exact .inr (.inl hx.2)
          · refine .inr (.inr ?_)
            simp [Flight.land, GetCall.fetchOf, hx]
      · rw [heq]
        exact .inl rfl
    · have hold : s.calls[j]? = some d := by
        simpa [StoreRun.complete, List.getElem?_set_ne (Ne.symm hj)] using hd
      obtain ⟨hstart, fl, hfl, hkeyd, hmatch⟩ := h.calls j d hold
      by_cases hg : d.point.flight = f
      · rw [hg, hflight] at hfl
        obtain rfl : flight = fl := Option.some.inj hfl
        refine ⟨Nat.lt_succ_of_lt hstart, flight.land c out s.steps now, ?_, hkeyd, ?_⟩
        · rw [hg]
          exact hnew
        · exact hmatch.land hfetch (by rw [howner]; exact Ne.symm hj) hstart
      · exact ⟨Nat.lt_succ_of_lt hstart, fl, hkeep _ fl hg hfl, hkeyd, hmatch⟩

/-- A call ends with what its future gives. -/
theorem resumed (h : s.Coherent ttl) (hcall : s.calls[i]? = some c) (hpoint : c.point = .waiter f)
    (hflight : s.flights[f]? = some flight) {out : Outcome}
    (hout : flight.future.awaited c.cancelled = some out) :
    (s.setCall i { c with point := .ended f out }).Coherent ttl := by
  obtain ⟨-, fl, hfl, hkey, hmatch⟩ := h.calls i c hcall
  rw [hpoint] at hfl
  obtain rfl : flight = fl := Option.some.inj (hflight.symm.trans hfl)
  have hjoined : ∀ n t, flight.completed = some (n, t) → c.started < n := by
    simpa [GetCall.Coherent, hpoint] using hmatch
  refine h.setCall hcall (by simp [hpoint]) rfl hflight hkey ?_
  unfold GetCall.Coherent
  cases hfuture : flight.future with
  | pending => simp [hfuture, Future.awaited] at hout
  | cancelled =>
    obtain rfl : .error Exn.cancelled = out := by simpa [hfuture, Future.awaited] using hout
    exact .inr (.inl rfl)
  | done out' =>
    have hfetch := (h.flights f flight hflight).done out' hfuture
    cases hcancelled : c.cancelled with
    | true =>
      obtain rfl : .error Exn.cancelled = out := by
        simpa [hfuture, hcancelled, Future.awaited] using hout
      exact .inr (.inl rfl)
    | false =>
      obtain rfl : out' = out := by simpa [hfuture, hcancelled, Future.awaited] using hout
      cases hland : flight.fetch with
      | outstanding => simp [hland, Fetch.outcome] at hfetch
      | cancelled =>
        obtain rfl : .error Exn.cancelled = out' := by simpa [hland, Fetch.outcome] using hfetch
        exact .inr (.inl rfl)
      | ended result =>
        obtain rfl : result = out' := by simpa [hland, Fetch.outcome] using hfetch
        cases result with
        | ok value =>
          obtain ⟨n, t, hcompleted⟩ := (h.flights f flight hflight).completed value hland
          exact ⟨rfl, n, t, hcompleted, hjoined n t hcompleted⟩
        | error x => exact .inr (.inr rfl)

theorem cancelCall (h : s.Coherent ttl) (hcall : s.calls[i]? = some c) :
    (s.setCall i { c with cancelled := true }).Coherent ttl := by
  obtain ⟨-, fl, hfl, hkey, hmatch⟩ := h.calls i c hcall
  exact h.setCall hcall (fun _ hpoint => hpoint) rfl hfl hkey hmatch

/-- Cancelling a future changes nothing that the calls and the cache know of its flight. -/
theorem cancelFuture (h : s.Coherent ttl) (hflight : s.flights[f]? = some flight) :
    ({ s with flights := s.flights.set f { flight with future := flight.future.cancel } } :
      StoreRun).Coherent ttl := by
  have hthere : ∀ (g : ℕ) (fl : Flight), s.flights[g]? = some fl → ∃ future,
      (s.flights.set f { flight with future := flight.future.cancel })[g]? =
        some { fl with future := future } := by
    intro g fl hfl
    by_cases hg : f = g
    · subst hg
      obtain rfl : flight = fl := Option.some.inj (hflight.symm.trans hfl)
      exact ⟨flight.future.cancel, by simp [(List.getElem?_eq_some_iff.mp hflight).1]⟩
    · exact ⟨fl.future, (List.getElem?_set_ne hg).trans hfl⟩
  have hback : ∀ (g : ℕ) (fl : Flight),
      (s.flights.set f { flight with future := flight.future.cancel })[g]? = some fl →
      (g = f ∧ fl = { flight with future := flight.future.cancel }) ∨ s.flights[g]? = some fl := by
    intro g fl hfl
    grind
  constructor
  case inflight =>
    intro k g hg
    obtain ⟨fl, hfl, hrest⟩ := h.inflight k g hg
    obtain ⟨future, hthere⟩ := hthere g fl hfl
    exact ⟨_, hthere, hrest⟩
  case owned =>
    intro g fl hfl hfetch
    rcases hback g fl hfl with ⟨rfl, rfl⟩ | hold
    · exact h.owned g flight hflight hfetch
    · exact h.owned g fl hold hfetch
  case flights =>
    intro g fl hfl
    rcases hback g fl hfl with ⟨rfl, rfl⟩ | hold
    · exact (h.flights g flight hflight).cancel
    · exact h.flights g fl hold
  case cache =>
    intro k entry hentry
    obtain ⟨fl, hfl, hrest⟩ := h.cache k entry hentry
    obtain ⟨future, hthere⟩ := hthere _ fl hfl
    exact ⟨_, hthere, hrest⟩
  case calls =>
    intro j d hd
    obtain ⟨hstarted, fl, hfl, hrest⟩ := h.calls j d hd
    obtain ⟨future, hthere⟩ := hthere _ fl hfl
    exact ⟨hstarted, _, hthere, hrest⟩

/-- **Every step keeps the invariant.** -/
theorem step (h : s.Coherent ttl) (a : StoreAction) : (s.step ttl a).Coherent ttl := by
  unfold StoreRun.step
  have heffect := act_effect ttl s a
  generalize s.act ttl a = s' at heffect
  cases heffect with
  | hit hentry hr hlive =>
    obtain ⟨fl, hfl, hkey, hfetch, n, t, hcompleted, hexpires⟩ := h.cache _ _ hentry
    refine h.addCall hfl hkey ⟨hfetch, n, t, hcompleted, _, hr, ?_⟩
    rw [hexpires] at hlive
    linarith
  | joined hin =>
    obtain ⟨fl, hfl, hkey, hfetch⟩ := h.inflight _ _ hin
    refine h.addCall hfl hkey ?_
    intro n t hcompleted
    rw [(h.flights _ fl hfl).outstanding hfetch] at hcompleted
    cases hcompleted
  | opened hnone => exact h.opened hnone _ _
  | completed hcall hpoint hflight => exact h.complete hcall hpoint hflight _ _
  | resumed hcall hpoint hflight hout => exact (h.resumed hcall hpoint hflight hout).tick
  | ownerCancelled hcall hpoint hflight => exact (h.cancelCall hcall).tick
  | waiterCancelled hcall hpoint hflight => exact ((h.cancelCall hcall).cancelFuture hflight).tick
  | invalidated =>
    refine Coherent.tick ⟨h.inflight, h.owned, h.flights, ?_, h.calls⟩
    intro k entry hentry
    refine h.cache k entry ?_
    rw [Dict.get_pop] at hentry
    split at hentry
    · cases hentry
    · exact hentry
  | idle => exact h.tick

end Coherent

/-- **In every state of every run** the flights, the calls and the cache agree. -/
theorem coherent_exec (ttl : ℚ) (acts : List StoreAction) :
    (Runs.exec (step ttl) {} acts).Coherent ttl :=
  Runs.exec_invariant coherent_empty (fun _ a h => h.step a) acts

end StoreRun

end Secrets

end WazuhMcp
