import WazuhMcp.Secrets.Caching

/-!
# Cancellation in the caching secret store

The callers of a flight share its future, and a task that is cancelled while it awaits a future cancels
the future. So a waiter that is cancelled fails every other waiter with `CancelledError`, and its owner
with `InvalidStateError` once `inner.get` has ended; an owner whose `inner.get` raises `CancelledError`
because its task was cancelled hands the same error to its waiters.

`isolated_of_harmless`: in runs with no such cancellation every call that is not cancelled ends with
what came of an `inner.get` for its key. An entry of `_inflight` has a running owner in every run.
-/

namespace WazuhMcp.Secrets

open StoreRun

/-- The calls of a run do not suffer from the cancellation of others. -/
structure Isolated (s : StoreRun) : Prop where
  /-- A call that is not cancelled itself ends with what came of an `inner.get` for its key. -/
  own : ∀ c ∈ s.calls, c.cancelled = false → ∀ out, c.point.outcome = some out →
    ∃ flight ∈ s.flights, flight.key = c.key ∧ flight.fetch.outcome = some out
  /-- If that is `CancelledError` or `InvalidStateError`, then an `inner.get` for its key raised it, and
  not because its task was cancelled. -/
  unaffected : ∀ c ∈ s.calls, c.cancelled = false → ∀ x, c.point.outcome = some (.error x) →
    x = Exn.cancelled ∨ x = Exn.invalidState →
    ∃ flight ∈ s.flights, flight.key = c.key ∧ flight.fetch = .ended (.error x)
  /-- The owner of a flight in `_inflight` has not ended. -/
  owned : ∀ key f, s.inflight.get key = some f → ∃ c ∈ s.calls, c.point = .owner f ∧ c.key = key

/-- No cancellation reaches another call: a waiter is cancelled only once its future is done, and an
`inner.get` that ends with the `CancelledError` of its cancelled task finds no call waiting on its
flight. -/
def Harmless (s : StoreRun) : StoreAction → Prop
  | .cancel i => ∀ c f flight, s.waiting i = some (c, f, flight) → flight.future ≠ .pending
  | .innerEnded i out _ => ∀ c f flight, s.owning i = some (c, f, flight) → c.cancelled = true →
      out = .error Exn.cancelled → ∀ d ∈ s.calls, d.point ≠ .waiter f
  | _ => True

/-- What holds in runs of harmless steps: no future is cancelled, no call waits on a flight that was
cancelled, and a call that is not cancelled has ended as its flight has. -/
structure Calm (s : StoreRun) : Prop where
  futures : ∀ flight ∈ s.flights, flight.future ≠ .cancelled
  waiters : ∀ c ∈ s.calls, ∀ f, c.point = .waiter f → ∀ flight : Flight, s.flights[f]? = some flight →
    flight.fetch ≠ .cancelled
  ended : ∀ c ∈ s.calls, c.cancelled = false → ∀ f out, c.point = .ended f out →
    ∀ flight : Flight, s.flights[f]? = some flight → flight.fetch = .ended out

variable {ttl : ℚ} {s : StoreRun}

theorem Future.cancel_of_ne {future : Future} (h : future ≠ .pending) : future.cancel = future := by
  cases future with
  | pending => exact absurd rfl h
  | done out => rfl
  | cancelled => rfl

namespace Calm

theorem empty : Calm {} := by
  constructor <;> simp

theorem tick (h : Calm s) : Calm { s with steps := s.steps + 1 } := ⟨h.futures, h.waiters, h.ended⟩

/-- A call that has just come to its first await, or has found a live entry, may be added. -/
theorem addCall (h : Calm s) {key : SecretKey} {now recheck : ℚ} {point : GetPoint}
    (hwaiter : ∀ f, point = .waiter f → ∀ flight : Flight, s.flights[f]? = some flight →
      flight.fetch ≠ .cancelled)
    (hended : ∀ f out, point ≠ .ended f out) : Calm (s.addCall key now recheck point) where
  futures := h.futures
  waiters := forall_addCall h.waiters hwaiter
  ended := forall_addCall h.ended fun _ f out hpoint => absurd hpoint (hended f out)

/-- A call may be replaced if it ends as its flight has, or is cancelled where it is. -/
theorem setCall (h : Calm s) {i : ℕ} {c' : GetCall}
    (hwaiter : ∀ f, c'.point = .waiter f → ∀ flight : Flight, s.flights[f]? = some flight →
      flight.fetch ≠ .cancelled)
    (hended : c'.cancelled = false → ∀ f out, c'.point = .ended f out → ∀ flight : Flight,
      s.flights[f]? = some flight → flight.fetch = .ended out) : Calm (s.setCall i c') where
  futures := h.futures
  waiters := forall_setCall h.waiters hwaiter
  ended := forall_setCall h.ended hended

theorem openFlight (h : Calm s) (hcoherent : s.Coherent ttl) (key : SecretKey) :
    Calm (s.openFlight key) where
  futures flight hflight := by
    rcases List.mem_append.mp hflight with hold | hnew
    · exact h.futures flight hold
    · obtain rfl := List.mem_singleton.mp hnew
      exact nofun
  waiters c hc f hpoint flight hflight := by
    have hold := h.waiters c hc f hpoint
    unfold StoreRun.openFlight at hflight
    grind
  ended c hc hcancelled f out hpoint flight hflight := by
    obtain ⟨i, hi⟩ := List.getElem?_of_mem hc
    obtain ⟨-, fl, hfl, -⟩ := hcoherent.calls i c hi
    rw [hpoint] at hfl
    refine h.ended c hc hcancelled f out hpoint flight ?_
    rw [← hflight]
    exact (List.getElem?_append_left (List.getElem?_eq_some_iff.mp hfl).1).symm

theorem completed (h : Calm s) (hcoherent : s.Coherent ttl) {i f : ℕ} {c : GetCall} {flight : Flight}
    (hcall : s.calls[i]? = some c) (hpoint : c.point = .owner f)
    (hflight : s.flights[f]? = some flight) {out : Outcome} {now : ℚ}
    (hharmless : c.cancelled = true → out = .error Exn.cancelled → ∀ d ∈ s.calls, d.point ≠ .waiter f) :
    Calm (s.complete ttl i c f flight out now) := by
  obtain ⟨hfetch, -⟩ := hcoherent.of_owner hcall hpoint hflight
  have hpending : flight.future = .pending := by
    cases hfuture : flight.future with
    | pending => rfl
    | cancelled => exact absurd hfuture (h.futures flight (List.mem_of_getElem? hflight))
    | done out' =>
      have hout := (hcoherent.flights f flight hflight).done out' hfuture
      rw [hfetch] at hout
      cases hout
  have hfuture : (flight.land c out s.steps now).future = .done out := by
    simp [Flight.land, hpending, Future.complete]
  have hresult : (flight.future.complete out).2 = out := by simp [hpending, Future.complete]
  have hlookup : ∀ (g : ℕ) (fl : Flight),
      (s.flights.set f (flight.land c out s.steps now))[g]? = some fl →
      (g = f ∧ fl = flight.land c out s.steps now) ∨ (g ≠ f ∧ s.flights[g]? = some fl) := by
    intro g fl hfl
    grind
  constructor
  case futures =>
    intro fl hfl
    rcases List.mem_or_eq_of_mem_set hfl with hold | rfl
    · exact h.futures fl hold
    · simp [hfuture]
  case waiters =>
    intro d hd g hwaiter fl hfl
    rcases List.mem_or_eq_of_mem_set hd with hold | rfl
    · rcases hlookup g fl hfl with ⟨rfl, rfl⟩ | ⟨-, hfl⟩
      · intro hcancelled
        obtain ⟨hc, hout⟩ : c.cancelled = true ∧ out = .error Exn.cancelled := by
          simpa [Flight.land, GetCall.fetchOf] using hcancelled
        exact hharmless hc hout d hold hwaiter
      · exact h.waiters d hold g hwaiter fl hfl
    · cases hwaiter
  case ended =>
    intro d hd hcancelled g result hended fl hfl
    rcases List.mem_or_eq_of_mem_set hd with hold | rfl
    · rcases hlookup g fl hfl with ⟨rfl, rfl⟩ | ⟨-, hfl⟩
      · have hno := h.ended d hold hcancelled g result hended flight hflight
        rw [hfetch] at hno
        cases hno
      · exact h.ended d hold hcancelled g result hended fl hfl
    · cases hended
      obtain rfl : fl = flight.land c out s.steps now := by
        rcases hlookup f fl hfl with ⟨-, heq⟩ | ⟨hne, -⟩
        · exact heq
        · exact absurd rfl hne
      rw [hresult]
      simp only at hcancelled
      simp [Flight.land, GetCall.fetchOf, hcancelled]

/-- A waiter whose future is done ends as its flight has. -/
theorem awaited (h : Calm s) (hcoherent : s.Coherent ttl) {f : ℕ} {c : GetCall} {flight : Flight}
    (hcall : c ∈ s.calls) (hpoint : c.point = .waiter f) (hflight : s.flights[f]? = some flight)
    {out : Outcome} (hout : flight.future.awaited c.cancelled = some out)
    (hcancelled : c.cancelled = false) : flight.fetch = .ended out := by
  cases hfuture : flight.future with
  | pending => simp [hfuture, Future.awaited] at hout
  | cancelled => exact absurd hfuture (h.futures flight (List.mem_of_getElem? hflight))
  | done out' =>
    obtain rfl : out' = out := by simpa [hfuture, hcancelled, Future.awaited] using hout
    have hdone := (hcoherent.flights f flight hflight).done out' hfuture
    cases hfetch : flight.fetch with
    | outstanding => simp [hfetch, Fetch.outcome] at hdone
    | cancelled => exact absurd hfetch (h.waiters c hcall f hpoint flight hflight)
    | ended result =>
      obtain rfl : result = out' := by simpa [hfetch, Fetch.outcome] using hdone
      rfl

/-- **Every harmless step keeps it.** -/
theorem step (h : Calm s) (hcoherent : s.Coherent ttl) {a : StoreAction} (hharmless : Harmless s a) :
    Calm (s.step ttl a) := by
  unfold StoreRun.step
  have heffect := act_effect ttl s a
  generalize s.act ttl a = s' at heffect
  cases heffect with
  | hit hentry hr hlive => exact tick (h.addCall nofun nofun)
  | joined hin =>
    obtain ⟨fl, hfl, -, hfetch⟩ := hcoherent.inflight _ _ hin
    refine tick (h.addCall ?_ nofun)
    intro f hf flight hflight
    cases hf
    obtain rfl : fl = flight := Option.some.inj (hfl.symm.trans hflight)
    rw [hfetch]
    exact nofun
  | opened hnone => exact tick ((h.openFlight hcoherent _).addCall nofun nofun)
  | completed hcall hpoint hflight =>
    exact tick (h.completed hcoherent hcall hpoint hflight
      (hharmless _ _ _ (owning_eq_some.mpr ⟨hcall, hpoint, hflight⟩)))
  | resumed hcall hpoint hflight hout =>
    refine tick (h.setCall nofun ?_)
    intro hcancelled f out hended fl hfl
    cases hended
    obtain rfl := Option.some.inj (hflight.symm.trans hfl)
    exact h.awaited hcoherent (List.mem_of_getElem? hcall) hpoint hflight hout hcancelled
  | ownerCancelled hcall hpoint hflight =>
    refine tick (h.setCall ?_ nofun)
    intro g hwaiter
    rw [show _ = _ from hpoint] at hwaiter
    cases hwaiter
  | waiterCancelled hcall hpoint hflight =>
    rename_i i f c flight
    have hdone := hharmless c f flight (waiting_eq_some.mpr ⟨hcall, hpoint, hflight⟩)
    have hkeep : s.flights.set f { flight with future := flight.future.cancel } = s.flights := by
      rw [Future.cancel_of_ne hdone]
      obtain ⟨hlt, rfl⟩ := List.getElem?_eq_some_iff.mp hflight
      exact List.set_getElem_self hlt
    simp only [hkeep]
    exact tick (h.setCall (h.waiters c (List.mem_of_getElem? hcall)) nofun)
  | invalidated => exact tick ⟨h.futures, h.waiters, h.ended⟩
  | idle => exact h.tick

end Calm

/-- A call that is not cancelled ends with what came of an `inner.get` for its key. -/
theorem Calm.fetch_of_outcome (h : Calm s) (hcoherent : s.Coherent ttl) {c : GetCall} (hc : c ∈ s.calls)
    (hcancelled : c.cancelled = false) {out : Outcome} (hout : c.point.outcome = some out) :
    ∃ flight, s.flights[c.point.flight]? = some flight ∧ flight.key = c.key ∧
      flight.fetch = .ended out := by
  obtain ⟨i, hi⟩ := List.getElem?_of_mem hc
  obtain ⟨-, flight, hflight, hkey, hmatch⟩ := hcoherent.calls i c hi
  refine ⟨flight, hflight, hkey, ?_⟩
  cases hpoint : c.point with
  | owner f => simp [hpoint, GetPoint.outcome] at hout
  | waiter f => simp [hpoint, GetPoint.outcome] at hout
  | hit f value =>
    obtain rfl : .ok value = out := by simpa [hpoint, GetPoint.outcome] using hout
    unfold GetCall.Coherent at hmatch
    rw [hpoint] at hmatch
    exact hmatch.1
  | ended f result =>
    obtain rfl : result = out := by simpa [hpoint, GetPoint.outcome] using hout
    rw [hpoint] at hflight
    exact h.ended c hc hcancelled f result hpoint flight hflight

theorem StoreRun.Coherent.owner_of_inflight (h : s.Coherent ttl) {key : SecretKey} {f : ℕ}
    (hin : s.inflight.get key = some f) : ∃ c ∈ s.calls, c.point = .owner f ∧ c.key = key := by
  obtain ⟨flight, hflight, hkey, hfetch⟩ := h.inflight key f hin
  obtain ⟨-, c, hc, hpoint⟩ := h.owned f flight hflight hfetch
  obtain ⟨-, fl, hfl, hkeyc, -⟩ := h.calls _ c hc
  rw [hpoint] at hfl
  obtain rfl : flight = fl := Option.some.inj (hflight.symm.trans hfl)
  exact ⟨c, List.mem_of_getElem? hc, hpoint, hkeyc.symm.trans hkey⟩

theorem Calm.isolated (h : Calm s) (hcoherent : s.Coherent ttl) : Isolated s where
  own c hc hcancelled out hout := by
    obtain ⟨flight, hflight, hkey, hfetch⟩ := h.fetch_of_outcome hcoherent hc hcancelled hout
    exact ⟨flight, List.mem_of_getElem? hflight, hkey, by rw [hfetch]; rfl⟩
  unaffected c hc hcancelled x hout _ := by
    obtain ⟨flight, hflight, hkey, hfetch⟩ := h.fetch_of_outcome hcoherent hc hcancelled hout
    exact ⟨flight, List.mem_of_getElem? hflight, hkey, hfetch⟩
  owned _ _ := hcoherent.owner_of_inflight

/-- Runs of harmless steps stay calm. -/
theorem calm_of_harmless {acts : List StoreAction}
    (h : Runs.EachStep (step ttl) Harmless {} acts) :
    Runs.Always (step ttl) (fun s => s.Coherent ttl ∧ Calm s) {} acts :=
  Runs.always_of_eachStep ⟨coherent_empty, Calm.empty⟩
    (fun _ a hs hharmless => ⟨hs.1.step a, hs.2.step hs.1 hharmless⟩) h

/-- **Where no cancellation reaches another call**, the calls are isolated in every state of the run. -/
theorem isolated_of_harmless (ttl : ℚ) (acts : List StoreAction)
    (h : Runs.EachStep (step ttl) Harmless {} acts) : Runs.Always (step ttl) Isolated {} acts :=
  (calm_of_harmless h).mono fun _ hs => hs.2.isolated hs.1

/-- A caller that is cancelled at `inner.get`, with no other on its flight, and one after it. -/
theorem isolated_of_harmless_alone :
    Runs.Always (step 300) Isolated {} [.get ("acme", "pw") 0 0, .cancel 0,
      .innerEnded 0 (.error Exn.cancelled) 1, .get ("acme", "pw") 2 2] := by
  apply isolated_of_harmless
  refine Runs.eachStep_cons trivial (Runs.eachStep_cons ?_ (Runs.eachStep_cons ?_ ?_))
  · intro c f flight h
    cases h
  · intro c f flight h _ _ d hd
    cases h
    obtain rfl := List.mem_singleton.mp hd
    exact nofun
  exact Runs.eachStep_cons trivial Runs.eachStep_nil

/-- The owner of a flight is cancelled, and the call that waits on it fails with `CancelledError`. -/
theorem not_isolated :
    ¬ ∀ (ttl : ℚ) (acts : List StoreAction), Runs.Always (step ttl) Isolated {} acts := by
  intro h
  have hlaw := h 300 [.get ("acme", "pw") 0 0, .get ("acme", "pw") 0 0, .cancel 0,
    .innerEnded 0 (.error Exn.cancelled) 1, .resume 1] _ [] (List.append_nil _).symm
  obtain ⟨flight, hflight, -, hfetch⟩ := hlaw.unaffected
    ⟨("acme", "pw"), 1, [0, 0], 0, false, .ended 0 (.error Exn.cancelled)⟩
    (List.mem_of_getElem? (i := 1) rfl) rfl Exn.cancelled rfl (.inl rfl)
  obtain rfl := List.mem_singleton.mp hflight
  cases hfetch

end WazuhMcp.Secrets
