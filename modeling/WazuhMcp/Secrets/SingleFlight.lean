import WazuhMcp.Secrets.CallerIsolation

/-!
# Single flight and staleness of the caching secret store

In runs in which no caller is cancelled, one `inner.get` at most is outstanding for a key, the end of an
`inner.get` is reported to exactly the calls that joined its flight, one that fails leaves the cache as it
was, and a value comes from an `inner.get` for its key that ended during the call, or less than the time to
live before one of the readings of the clock that the call took (`singleFlight_of_uncancelled`).
-/

namespace WazuhMcp.Secrets

open StoreRun

/-- What callers may rely on while none of them is cancelled. -/
structure SingleFlight (ttl : ℚ) (s : StoreRun) : Prop where
  /-- One `inner.get` at most is outstanding for a key. -/
  unique : ∀ (f g : ℕ) (flight flight' : Flight), s.flights[f]? = some flight →
    s.flights[g]? = some flight' → flight.fetch = .outstanding → flight'.fetch = .outstanding →
    flight.key = flight'.key → f = g
  /-- A call that joined a flight that failed has ended with its exception, or does so when it runs
  on. -/
  reported : ∀ (f : ℕ) (flight : Flight) (x : Exn), s.flights[f]? = some flight →
    flight.fetch = .ended (.error x) → ∀ (i : ℕ) (c : GetCall), s.calls[i]? = some c →
    c.point.Joined f → c.point = .ended f (.error x) ∨
      (s.step ttl (.resume i)).calls[i]? = some { c with point := .ended f (.error x) }
  /-- A call that ended with an exception joined a flight for its key that failed with it. -/
  joined : ∀ c ∈ s.calls, ∀ x, c.point.outcome = some (.error x) →
    ∃ f, c.point.Joined f ∧ ∃ flight : Flight, s.flights[f]? = some flight ∧ flight.key = c.key ∧
      flight.fetch = .ended (.error x)
  /-- A value is that of an `inner.get` for the key that ended after the call began, or less than the
  time to live before a reading of the clock by the call. -/
  fresh : ∀ c ∈ s.calls, ∀ value, c.point.outcome = some (.ok value) →
    ∃ flight ∈ s.flights, flight.key = c.key ∧ flight.fetch = .ended (.ok value) ∧
      ∃ n t, flight.completed = some (n, t) ∧ (c.started < n ∨ ∃ r ∈ c.readings, r - t < ttl)

/-- A step reports what it comes to. -/
structure Reports (ttl : ℚ) (s : StoreRun) (a : StoreAction) : Prop where
  /-- A call has found a value, or has joined the flight for its key. -/
  begun : ∀ key now recheck, a = .get key now recheck → ∃ c, (s.step ttl a).calls = s.calls ++ [c] ∧
    c.key = key ∧ ((∃ value, c.point.outcome = some (.ok value)) ∨
      ∃ f, c.point.Joined f ∧ (s.step ttl a).inflight.get key = some f)
  /-- When an `inner.get` ends, so has the call that ran it, with the same outcome, which is recorded with
  the flight; the next call for the key starts another one, and those that wait end with the outcome when
  they run on. -/
  ended : ∀ i out now c f, a = .innerEnded i out now → s.calls[i]? = some c → c.point = .owner f →
    (s.step ttl a).calls[i]? = some { c with point := .ended f out } ∧
    (∃ flight : Flight, (s.step ttl a).flights[f]? = some flight ∧ flight.key = c.key ∧
      flight.fetch = .ended out) ∧
    (s.step ttl a).inflight.get c.key = none ∧
    ∀ (j : ℕ) (d : GetCall), (s.step ttl a).calls[j]? = some d → d.point = .waiter f →
      ((s.step ttl a).step ttl (.resume j)).calls[j]? = some { d with point := .ended f out }

/-- An `inner.get` that fails leaves the cache as it is. -/
def FailureUncached (ttl : ℚ) (s : StoreRun) (a : StoreAction) : Prop :=
  ∀ i x now, a = .innerEnded i (.error x) now → (s.step ttl a).cache = s.cache

variable {ttl : ℚ} {s : StoreRun}

/-- No call is cancelled. -/
def Uncancelled (s : StoreRun) : Prop := ∀ c ∈ s.calls, c.cancelled = false

theorem Uncancelled.step (h : Uncancelled s) {a : StoreAction} (ha : ∀ i, a ≠ .cancel i) :
    Uncancelled (s.step ttl a) := by
  unfold StoreRun.step
  have heffect := act_effect ttl s a
  generalize s.act ttl a = s' at heffect
  cases heffect with
  | hit | joined => exact forall_addCall h rfl
  | opened => exact forall_addCall (s := s.openFlight _) h rfl
  | completed hcall | resumed hcall =>
    have hcancelled := h _ (List.mem_of_getElem? hcall)
    exact forall_setCall h hcancelled
  | ownerCancelled | waiterCancelled => exact absurd rfl (ha _)
  | invalidated | idle => exact h

theorem Uncancelled.harmless (h : Uncancelled s) {a : StoreAction} (ha : ∀ i, a ≠ .cancel i) :
    Harmless s a := by
  cases a with
  | cancel i => exact absurd rfl (ha i)
  | innerEnded i out now =>
    intro c f flight howning hcancelled
    have huncancelled := h c (List.mem_of_getElem? (owning_eq_some.mp howning).1)
    rw [hcancelled] at huncancelled
    cases huncancelled
  | get key now recheck => trivial
  | resume i => trivial
  | invalidate key => trivial

theorem failureUncached (s : StoreRun) (a : StoreAction) : FailureUncached ttl s a := by
  rintro i x now rfl
  have heffect := act_effect ttl s (.innerEnded i (.error x) now)
  unfold StoreRun.step
  generalize s.act ttl (.innerEnded i (.error x) now) = s' at heffect
  cases heffect with
  | completed => rfl
  | idle => rfl

/-- What a call of `get` comes to first: it has found a value, or has joined the flight for its key. -/
theorem get_begins (s : StoreRun) (key : SecretKey) (now recheck : ℚ) :
    (s.get key now recheck).1.calls = s.calls ∧
      ((∃ value, (s.get key now recheck).2.outcome = some (.ok value)) ∨
        ∃ f, (s.get key now recheck).2.Joined f ∧ (s.get key now recheck).1.inflight.get key = some f) := by
  unfold StoreRun.get
  cases s.live key now with
  | some entry => exact ⟨rfl, .inl ⟨entry.value, rfl⟩⟩
  | none =>
    cases s.live key recheck with
    | some entry => exact ⟨rfl, .inl ⟨entry.value, rfl⟩⟩
    | none =>
      unfold StoreRun.join
      cases hin : s.inflight.get key with
      | some f => exact ⟨rfl, .inr ⟨f, rfl, hin⟩⟩
      | none => exact ⟨rfl, .inr ⟨s.flights.length, rfl, Dict.get_set_self ..⟩⟩

/-- What has come of an outstanding flight that nobody has cancelled. -/
theorem Calm.pending (hcalm : Calm s) (hcoherent : s.Coherent ttl) {f : ℕ} {flight : Flight}
    (hflight : s.flights[f]? = some flight) (hfetch : flight.fetch = .outstanding) :
    flight.future = .pending := by
  cases hfuture : flight.future with
  | pending => rfl
  | cancelled => exact absurd hfuture (hcalm.futures flight (List.mem_of_getElem? hflight))
  | done out =>
    have hdone := (hcoherent.flights f flight hflight).done out hfuture
    rw [hfetch] at hdone
    cases hdone

/-- What has come of a flight that has ended and that nobody has cancelled. -/
theorem Calm.done (hcalm : Calm s) (hcoherent : s.Coherent ttl) {f : ℕ} {flight : Flight} {out : Outcome}
    (hflight : s.flights[f]? = some flight) (hfetch : flight.fetch = .ended out) :
    flight.future = .done out := by
  cases hfuture : flight.future with
  | pending =>
    have hpending := (hcoherent.flights f flight hflight).pending hfuture
    rw [hfetch] at hpending
    cases hpending
  | cancelled => exact absurd hfuture (hcalm.futures flight (List.mem_of_getElem? hflight))
  | done out' =>
    have hdone := (hcoherent.flights f flight hflight).done out' hfuture
    obtain rfl : out = out' := by simpa [hfetch, Fetch.outcome] using hdone
    rfl

/-- A waiter whose future is done ends with its outcome when it runs on. -/
theorem resume_of_done {i f : ℕ} {c : GetCall} {flight : Flight} {out : Outcome}
    (hcall : s.calls[i]? = some c) (hpoint : c.point = .waiter f) (hflight : s.flights[f]? = some flight)
    (hfuture : flight.future = .done out) (hcancelled : c.cancelled = false) :
    (s.step ttl (.resume i)).calls[i]? = some { c with point := .ended f out } := by
  have hwaiting := waiting_eq_some.mpr ⟨hcall, hpoint, hflight⟩
  simp [StoreRun.step, act, hwaiting, hfuture, hcancelled, Future.awaited, StoreRun.setCall,
    (List.getElem?_eq_some_iff.mp hcall).1]

/-- **The end of an `inner.get` is reported.** -/
theorem reports (hcoherent : s.Coherent ttl) (hcalm : Calm s) (huncancelled : Uncancelled s)
    (a : StoreAction) : Reports ttl s a where
  begun := by
    rintro key now recheck rfl
    obtain ⟨hcalls, hpoint⟩ := get_begins s key now recheck
    exact ⟨_, congrArg (· ++ _) hcalls, rfl, hpoint⟩
  ended := by
    rintro i out now c f rfl hcall hpoint
    have hcancelled := huncancelled c (List.mem_of_getElem? hcall)
    obtain ⟨-, flight, hin, hkey, -⟩ := hcoherent.calls i c hcall
    have hflight : s.flights[f]? = some flight := by rwa [hpoint] at hin
    have hpending := hcalm.pending hcoherent hflight (hcoherent.of_owner hcall hpoint hflight).1
    have howning := owning_eq_some.mpr ⟨hcall, hpoint, hflight⟩
    have hlanded : flight.land c out s.steps now = { flight with
        fetch := .ended out, future := .done out, completed := (flight.land c out s.steps now).completed } := by
      simp [Flight.land, GetCall.fetchOf, hcancelled, hpending, Future.complete]
    have hact : s.act ttl (.innerEnded i out now) = s.complete ttl i c f flight out now := by
      rw [act, howning]
    have hnext : (s.step ttl (.innerEnded i out now)).flights[f]? = some (flight.land c out s.steps now) := by
      simp [StoreRun.step, hact, StoreRun.complete, (List.getElem?_eq_some_iff.mp hflight).1]
    refine ⟨?_, ⟨_, hnext, ?_, ?_⟩, ?_, fun j d hd hwaits => ?_⟩
    · simp [StoreRun.step, hact, StoreRun.complete, hpending, Future.complete,
        (List.getElem?_eq_some_iff.mp hcall).1]
    · rw [hlanded]
      exact hkey
    · rw [hlanded]
    · simp [StoreRun.step, hact, StoreRun.complete]
    · refine resume_of_done hd hwaits hnext (by rw [hlanded]) ?_
      have huncancelled' : Uncancelled (s.step ttl (.innerEnded i out now)) :=
        huncancelled.step fun _ h => by cases h
      exact huncancelled' d (List.mem_of_getElem? hd)

theorem singleFlight (hcoherent : s.Coherent ttl) (hcalm : Calm s) (huncancelled : Uncancelled s) :
    SingleFlight ttl s where
  unique f g flight flight' hflight hflight' hfetch hfetch' hkey := by
    have hin := (hcoherent.owned f flight hflight hfetch).1
    have hin' := (hcoherent.owned g flight' hflight' hfetch').1
    rw [hkey, hin'] at hin
    exact (Option.some.inj hin).symm
  reported f flight x hflight hfetch i c hcall hjoined := by
    have hc := List.mem_of_getElem? hcall
    have hcancelled := huncancelled c hc
    cases hpoint : c.point with
    | owner g =>
      obtain rfl : g = f := by simpa [hpoint, GetPoint.Joined] using hjoined
      have houtstanding := (hcoherent.of_owner hcall hpoint hflight).1
      rw [hfetch] at houtstanding
      cases houtstanding
    | waiter g =>
      obtain rfl : g = f := by simpa [hpoint, GetPoint.Joined] using hjoined
      have hfuture := hcalm.done hcoherent hflight hfetch
      exact .inr (resume_of_done hcall hpoint hflight hfuture hcancelled)
    | hit g value =>
      rw [hpoint] at hjoined
      cases hjoined
    | ended g out =>
      obtain rfl : g = f := by simpa [hpoint, GetPoint.Joined] using hjoined
      have hended := hcalm.ended c hc hcancelled g out hpoint flight hflight
      rw [hfetch] at hended
      cases hended
      exact .inl rfl
  joined c hc x hout := by
    obtain ⟨flight, hflight, hkey, hfetch⟩ :=
      hcalm.fetch_of_outcome hcoherent hc (huncancelled c hc) hout
    refine ⟨c.point.flight, ?_, flight, hflight, hkey, hfetch⟩
    cases hpoint : c.point with
    | owner f => rfl
    | waiter f => rfl
    | hit f value => simp [hpoint, GetPoint.outcome] at hout
    | ended f out => rfl
  fresh c hc value hout := by
    obtain ⟨flight, hflight, hkey, hfetch⟩ :=
      hcalm.fetch_of_outcome hcoherent hc (huncancelled c hc) hout
    refine ⟨flight, List.mem_of_getElem? hflight, hkey, hfetch, ?_⟩
    obtain ⟨i, hi⟩ := List.getElem?_of_mem hc
    obtain ⟨-, fl, hfl, -, hmatch⟩ := hcoherent.calls i c hi
    obtain rfl : flight = fl := Option.some.inj (hflight.symm.trans hfl)
    unfold GetCall.Coherent at hmatch
    cases hpoint : c.point with
    | owner f => simp [hpoint, GetPoint.outcome] at hout
    | waiter f => simp [hpoint, GetPoint.outcome] at hout
    | hit f cached =>
      rw [hpoint] at hmatch
      obtain ⟨-, n, t, hcompleted, hlive⟩ := hmatch
      exact ⟨n, t, hcompleted, .inr hlive⟩
    | ended f out =>
      obtain rfl : out = .ok value := by simpa [hpoint, GetPoint.outcome] using hout
      rw [hpoint] at hmatch
      obtain ⟨-, n, t, hcompleted, hstarted⟩ := hmatch
      exact ⟨n, t, hcompleted, .inl hstarted⟩

/-- **In runs without cancellation**, whatever the time to live and the readings of the clock. -/
theorem singleFlight_of_uncancelled (ttl : ℚ) (acts : List StoreAction)
    (h : ∀ i, StoreAction.cancel i ∉ acts) :
    Runs.Always (step ttl) (SingleFlight ttl) {} acts ∧
      Runs.EachStep (step ttl) (fun s a => FailureUncached ttl s a ∧ Reports ttl s a) {} acts := by
  have hacts : Runs.EachStep (step ttl) (fun _ a => ∀ i, a ≠ .cancel i) {} acts := by
    rintro pre a post rfl i rfl
    exact h i (by simp)
  have hall : Runs.Always (step ttl) (fun s => s.Coherent ttl ∧ Calm s ∧ Uncancelled s) {} acts := by
    refine Runs.always_of_eachStep ⟨coherent_empty, Calm.empty, nofun⟩ ?_ hacts
    rintro s a ⟨hcoherent, hcalm, huncancelled⟩ ha
    exact ⟨hcoherent.step a, hcalm.step hcoherent (huncancelled.harmless ha), huncancelled.step ha⟩
  constructor
  · exact hall.mono fun s hs => singleFlight hs.1 hs.2.1 hs.2.2
  · intro pre a post hpre
    obtain ⟨hcoherent, hcalm, huncancelled⟩ := hall pre (a :: post) hpre
    exact ⟨failureUncached _ a, reports hcoherent hcalm huncancelled a⟩

/-- Two calls share a flight that fails, and the next one starts another. -/
theorem singleFlight_of_shared_failure :
    Runs.Always (step 300) (SingleFlight 300) {} [.get ("acme", "pw") 0 0, .get ("acme", "pw") 0 0,
      .innerEnded 0 (.error Exn.keyError) 1, .resume 1, .get ("acme", "pw") 2 2] ∧
    Runs.EachStep (step 300) (fun s a => FailureUncached 300 s a ∧ Reports 300 s a) {}
      [.get ("acme", "pw") 0 0, .get ("acme", "pw") 0 0, .innerEnded 0 (.error Exn.keyError) 1, .resume 1,
        .get ("acme", "pw") 2 2] :=
  singleFlight_of_uncancelled 300 _ (by simp)

end WazuhMcp.Secrets
