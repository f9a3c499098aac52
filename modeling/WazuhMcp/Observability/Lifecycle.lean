import WazuhMcp.Foundations.Prog
import WazuhMcp.Observability.Emitter

/-!
# Starting and stopping the audit sinks

`MultiSinkAuditEmitter.start` starts the sinks one after another and, when one fails, stops those it had
started, latest first. `stop` stops them all. Both are programs that call the `start()` and the `stop()`
of the sinks, each of which returns or raises. The rollback suppresses an `Exception` that a `stop()`
raises and no other: a cancellation there ends it, leaves the earlier sinks running and takes the place
of the failure (`rollBack_run_error`).

* `startEach_run_ok`, `startEach_run_error`: how far the loop of `start` gets.
* `rollBack_run_ok`, `rollBack_run_error`: what the rollback stops.
* `stopEach_run`: `stop` calls every sink, and keeps what each of them raised.
-/

namespace WazuhMcp

open Interact

/-- A call on a sink. -/
inductive SinkCall where
  | start (sink : AuditSink)
  | stop (sink : AuditSink)
  deriving DecidableEq

/-- An exception object: the call that raised it, and what it is. -/
structure SinkFailure where
  call : SinkCall
  exn : Exn
  deriving DecidableEq

/-- What the emitter raises. -/
inductive LifecycleError where
  | failure (f : SinkFailure)
  /-- `BaseExceptionGroup(message, errors)` -/
  | group (message : String) (errors : List SinkFailure)
  deriving DecidableEq

/-- Programs over the sinks. -/
abbrev SinkProg (α : Type) := Prog SinkCall (fun _ => Except Exn Unit) LifecycleError α

/-- `await s.start()` and `await s.stop()` -/
def awaitSink (call : SinkCall) : SinkProg Unit := do
  match ← Prog.perform call with
  | .ok () => pure ()
  | .error x => .raise (.failure ⟨call, x⟩)

/-- Whether `contextlib.suppress(Exception)` catches it. -/
def LifecycleError.isException : LifecycleError → Bool
  | .failure f => f.exn.isException
  | .group _ errors => errors.all fun f => f.exn.isException

/-- `with contextlib.suppress(Exception): ...` -/
def suppressException (p : SinkProg Unit) : SinkProg Unit := do
  match ← p.attempt with
  | .ok () => pure ()
  | .error x => if x.isException then pure () else .raise x

namespace MultiSinkAuditEmitter

/-- The loop in the `try` of `start`: the sinks it started, and how it ended. -/
def startEach (started : List AuditSink) :
    List AuditSink → SinkProg (List AuditSink × Except LifecycleError Unit)
  | [] => pure (started, .ok ())
  | s :: sinks => do
    match ← (awaitSink (.start s)).attempt with
    | .ok () => startEach (started ++ [s]) sinks
    | .error x => pure (started, .error x)

/-- The loop in the `except BaseException` of `start`. -/
def rollBack : List AuditSink → SinkProg Unit
  | [] => pure ()
  | s :: sinks => do
    suppressException (awaitSink (.stop s))
    rollBack sinks

/-- `start()` -/
def start (e : MultiSinkAuditEmitter) : SinkProg Unit := do
  match ← startEach [] e.allSinks with
  | (_, .ok ()) => pure ()
  | (started, .error x) => do
    rollBack started.reverse
    .raise x

/-- The loop of `stop`, with the exceptions it collects. -/
def stopEach (errors : List SinkFailure) : List AuditSink → SinkProg (List SinkFailure)
  | [] => pure errors
  | s :: sinks => do
    match ← Prog.perform (.stop s) with
    | .ok () => stopEach errors sinks
    | .error x => stopEach (errors ++ [⟨.stop s, x⟩]) sinks

/-- `stop()` -/
def stop (e : MultiSinkAuditEmitter) : SinkProg Unit := do
  let errors ← stopEach [] e.allSinks
  if errors = [] then pure () else .raise (.group "sink stop failures" errors)

end MultiSinkAuditEmitter

/-! ## What a run calls -/

/-- The calls of a run, with what came of them. -/
abbrev SinkTrace := List (Event SinkCall fun _ => Except Exn Unit)

/-- The sinks whose `start()` returned, in order. -/
def startedSinks (tr : SinkTrace) : List AuditSink := tr.filterMap fun ev =>
  match ev.op, ev.ans with
  | .start s, .ok () => some s
  | _, _ => none

/-- The sinks whose `stop()` was called, in order. -/
def stoppedSinks (tr : SinkTrace) : List AuditSink := tr.filterMap fun ev =>
  match ev.op with
  | .stop s => some s
  | .start _ => none

/-- What the `start()` calls of a run raised. -/
def startFailures (tr : SinkTrace) : List SinkFailure := tr.filterMap fun ev =>
  match ev.op, ev.ans with
  | .start s, .error x => some ⟨.start s, x⟩
  | _, _ => none

/-- **A failed start undoes itself**: the sinks that had started are stopped, latest first, no other
sink is, and what is raised is what the failing `start()` raised. -/
def RolledBack (tr : SinkTrace) (raised : LifecycleError) : Prop :=
  stoppedSinks tr = (startedSinks tr).reverse ∧
    ∃ failure, startFailures tr = [failure] ∧ raised = .failure failure

section Run

variable {answers : SinkCall → Except Exn Unit}

/-- A call, with the answer to it. -/
def answered (answers : SinkCall → Except Exn Unit) (call : SinkCall) :
    Event SinkCall fun _ => Except Exn Unit := ⟨call, answers call⟩

theorem awaitSink_run_ok {call : SinkCall} (h : answers call = .ok ()) :
    (awaitSink call).run answers = ([answered answers call], .ok ()) := by
  simp [awaitSink, Prog.run_bind, answered, h]

theorem awaitSink_run_error {call : SinkCall} {x : Exn} (h : answers call = .error x) :
    (awaitSink call).run answers = ([answered answers call], .error (.failure ⟨call, x⟩)) := by
  simp [awaitSink, Prog.run_bind, answered, h]

/-- The `stop()` of the sink returns, or raises an `Exception`. -/
def StopsOrdinarily (answers : SinkCall → Except Exn Unit) (s : AuditSink) : Prop :=
  ∀ x, answers (.stop s) = .error x → x.isException = true

theorem suppressException_run_ok {s : AuditSink} (h : StopsOrdinarily answers s) :
    (suppressException (awaitSink (.stop s))).run answers = ([answered answers (.stop s)], .ok ()) := by
  rw [suppressException, Prog.run_bind, Prog.run_attempt]
  cases hstop : answers (.stop s) with
  | ok => simp [awaitSink_run_ok hstop]
  | error x => simp [awaitSink_run_error hstop, LifecycleError.isException, h x hstop]

theorem suppressException_run_error {s : AuditSink} {x : Exn} (h : answers (.stop s) = .error x)
    (hx : x.isException = false) :
    (suppressException (awaitSink (.stop s))).run answers =
      ([answered answers (.stop s)], .error (.failure ⟨.stop s, x⟩)) := by
  rw [suppressException, Prog.run_bind, Prog.run_attempt]
  simp [awaitSink_run_error h, LifecycleError.isException, hx]

namespace MultiSinkAuditEmitter

/-- A rollback that no `stop()` ends stops every sink. -/
theorem rollBack_run_ok {sinks : List AuditSink} (h : ∀ s ∈ sinks, StopsOrdinarily answers s) :
    (rollBack sinks).run answers = (sinks.map fun s => answered answers (.stop s), .ok ()) := by
  induction sinks with
  | nil => rfl
  | cons s sinks ih =>
    obtain ⟨hs, hsinks⟩ := List.forall_mem_cons.mp h
    rw [rollBack, Prog.run_bind, suppressException_run_ok hs]
    simp [ih hsinks]

/-- Any other exception of a `stop()` ends the rollback, which then raises one of these. -/
theorem rollBack_run_error {sinks : List AuditSink} (h : ∃ s ∈ sinks, ¬ StopsOrdinarily answers s) :
    ∃ tr s x, (rollBack sinks).run answers = (tr, .error (.failure ⟨.stop s, x⟩)) := by
  induction sinks with
  | nil =>
    obtain ⟨s, hs, -⟩ := h
    cases hs
  | cons s sinks ih =>
    rw [rollBack, Prog.run_bind]
    by_cases hs : StopsOrdinarily answers s
    · rw [suppressException_run_ok hs]
      obtain ⟨s', hs', hbase⟩ := h
      have hrest : s' ∈ sinks := (List.mem_cons.mp hs').resolve_left fun heq => hbase (heq ▸ hs)
      obtain ⟨tr, s'', x, hrun⟩ := ih ⟨s', hrest, hbase⟩
      rw [hrun]
      exact ⟨_, s'', x, rfl⟩
    · unfold StopsOrdinarily at hs
      push Not at hs
      obtain ⟨x, hstop, hx⟩ := hs
      rw [suppressException_run_error hstop (Bool.eq_false_of_not_eq_true hx)]
      exact ⟨_, s, x, rfl⟩

/-- The loop of `start` over sinks that all start. -/
theorem startEach_run_ok {sinks : List AuditSink} (h : ∀ s ∈ sinks, answers (.start s) = .ok ())
    (started : List AuditSink) : (startEach started sinks).run answers =
      (sinks.map fun s => answered answers (.start s), .ok (started ++ sinks, .ok ())) := by
  induction sinks generalizing started with
  | nil => simp [startEach]
  | cons s sinks ih =>
    obtain ⟨hs, hsinks⟩ := List.forall_mem_cons.mp h
    rw [startEach, Prog.run_bind, Prog.run_attempt, awaitSink_run_ok hs]
    simp [ih hsinks]

/-- The loop of `start` ends at the first sink that fails. -/
theorem startEach_run_error {before rest : List AuditSink} {failed : AuditSink} {x : Exn}
    (hbefore : ∀ s ∈ before, answers (.start s) = .ok ()) (hfailed : answers (.start failed) = .error x)
    (started : List AuditSink) : (startEach started (before ++ failed :: rest)).run answers =
      ((before ++ [failed]).map fun s => answered answers (.start s),
        .ok (started ++ before, .error (.failure ⟨.start failed, x⟩))) := by
  induction before generalizing started with
  | nil =>
    rw [List.nil_append, startEach, Prog.run_bind, Prog.run_attempt, awaitSink_run_error hfailed]
    simp
  | cons s before ih =>
    obtain ⟨hs, hbefore⟩ := List.forall_mem_cons.mp hbefore
    rw [List.cons_append, startEach, Prog.run_bind, Prog.run_attempt, awaitSink_run_ok hs]
    simp [ih hbefore]

/-- What the `stop()` calls on the sinks raise. -/
def stopFailures (answers : SinkCall → Except Exn Unit) (sinks : List AuditSink) : List SinkFailure :=
  sinks.filterMap fun s =>
    match answers (.stop s) with
    | .ok () => none
    | .error x => some ⟨.stop s, x⟩

/-- The loop of `stop` goes on whatever a sink raises. -/
theorem stopEach_run (sinks : List AuditSink) (errors : List SinkFailure) :
    (stopEach errors sinks).run answers =
      (sinks.map fun s => answered answers (.stop s), .ok (errors ++ stopFailures answers sinks)) := by
  induction sinks generalizing errors with
  | nil => simp [stopEach, stopFailures]
  | cons s sinks ih =>
    rw [stopEach, Prog.run_bind, Prog.run_perform]
    cases hstop : answers (.stop s) <;> simp [hstop, ih, stopFailures, answered]

/-! ## The calls of a run -/

theorem startedSinks_append (tr tr' : SinkTrace) :
    startedSinks (tr ++ tr') = startedSinks tr ++ startedSinks tr' := List.filterMap_append ..

theorem stoppedSinks_append (tr tr' : SinkTrace) :
    stoppedSinks (tr ++ tr') = stoppedSinks tr ++ stoppedSinks tr' := List.filterMap_append ..

theorem startFailures_append (tr tr' : SinkTrace) :
    startFailures (tr ++ tr') = startFailures tr ++ startFailures tr' := List.filterMap_append ..

@[simp] theorem stoppedSinks_stops (sinks : List AuditSink) :
    stoppedSinks (sinks.map fun s => answered answers (.stop s)) = sinks := by
  rw [stoppedSinks, List.filterMap_map]
  exact List.filterMap_some

@[simp] theorem startedSinks_stops (sinks : List AuditSink) :
    startedSinks (sinks.map fun s => answered answers (.stop s)) = [] := by
  simp [startedSinks, answered]

@[simp] theorem startFailures_stops (sinks : List AuditSink) :
    startFailures (sinks.map fun s => answered answers (.stop s)) = [] := by
  simp [startFailures, answered]

@[simp] theorem stoppedSinks_starts (sinks : List AuditSink) :
    stoppedSinks (sinks.map fun s => answered answers (.start s)) = [] := by
  simp [stoppedSinks, answered]

theorem startedSinks_starts {sinks : List AuditSink} (h : ∀ s ∈ sinks, answers (.start s) = .ok ()) :
    startedSinks (sinks.map fun s => answered answers (.start s)) = sinks := by
  induction sinks with
  | nil => rfl
  | cons s sinks ih =>
    obtain ⟨hs, hsinks⟩ := List.forall_mem_cons.mp h
    rw [List.map_cons, ← List.singleton_append, startedSinks_append, ih hsinks]
    simp [startedSinks, answered, hs]

theorem startFailures_starts {sinks : List AuditSink} (h : ∀ s ∈ sinks, answers (.start s) = .ok ()) :
    startFailures (sinks.map fun s => answered answers (.start s)) = [] := by
  rw [startFailures, List.filterMap_eq_nil_iff]
  intro ev hev
  obtain ⟨s, hs, rfl⟩ := List.mem_map.mp hev
  simp [answered, h s hs]

/-- Either all sinks start, or there is a first that fails. -/
theorem all_start_or_first_fails (answers : SinkCall → Except Exn Unit) (sinks : List AuditSink) :
    (∀ s ∈ sinks, answers (.start s) = .ok ()) ∨
    ∃ before failed rest x, sinks = before ++ failed :: rest ∧
      (∀ s ∈ before, answers (.start s) = .ok ()) ∧ answers (.start failed) = .error x := by
  induction sinks with
  | nil => exact .inl fun s hs => absurd hs List.not_mem_nil
  | cons s sinks ih =>
    cases hs : answers (.start s) with
    | error x => exact .inr ⟨[], s, sinks, x, rfl, fun s hs => absurd hs List.not_mem_nil, hs⟩
    | ok =>
      rcases ih with hall | ⟨before, failed, rest, x, rfl, hbefore, hfailed⟩
      · exact .inl (List.forall_mem_cons.mpr ⟨hs, hall⟩)
      · exact .inr ⟨s :: before, failed, rest, x, rfl, List.forall_mem_cons.mpr ⟨hs, hbefore⟩, hfailed⟩

/-- A start that no sink fails raises nothing. -/
theorem start_run_ok {e : MultiSinkAuditEmitter} (h : ∀ s ∈ e.allSinks, answers (.start s) = .ok ()) :
    (e.start.run answers).2 = .ok () := by
  rw [start, Prog.run_bind, startEach_run_ok h]
  rfl

/-- **A start that fails** undoes itself exactly when no `stop()` ends its rollback. -/
theorem start_run_error {e : MultiSinkAuditEmitter} {before rest : List AuditSink} {failed : AuditSink}
    {x : Exn} (hsinks : e.allSinks = before ++ failed :: rest)
    (hbefore : ∀ s ∈ before, answers (.start s) = .ok ())
    (hfailed : answers (.start failed) = .error x) :
    (∀ raised, (e.start.run answers).2 = .error raised → RolledBack (e.start.run answers).1 raised) ↔
      ∀ s ∈ before, StopsOrdinarily answers s := by
  have hrun : e.start.run answers =
      (((before ++ [failed]).map fun s => answered answers (.start s)) ++
          ((rollBack before.reverse >>= fun _ =>
            (Prog.raise (.failure ⟨.start failed, x⟩) : SinkProg Unit)).run answers).1,
        ((rollBack before.reverse >>= fun _ =>
          (Prog.raise (.failure ⟨.start failed, x⟩) : SinkProg Unit)).run answers).2) := by
    rw [start, Prog.run_bind, hsinks, startEach_run_error hbefore hfailed]
    rfl
  have hstarts : startedSinks ((before ++ [failed]).map fun s => answered answers (.start s)) =
      before := by
    rw [List.map_append, startedSinks_append, startedSinks_starts hbefore]
    simp [startedSinks, answered, hfailed]
  have hfailures : startFailures ((before ++ [failed]).map fun s => answered answers (.start s)) =
      [⟨.start failed, x⟩] := by
    rw [List.map_append, startFailures_append, startFailures_starts hbefore]
    simp [startFailures, answered, hfailed]
  rw [hrun, Prog.run_bind]
  constructor
  · intro hrolled s hs
    by_contra hbase
    obtain ⟨tr, s', y, hrun⟩ := rollBack_run_error ⟨s, List.mem_reverse.mpr hs, hbase⟩
    rw [hrun] at hrolled
    -- what the rollback raises is of a `stop()`, and what the failing `start()` raised is not
    obtain ⟨-, failure, hfailure, hraised⟩ := hrolled _ rfl
    have hmem : (⟨.start failed, x⟩ : SinkFailure) ∈ [failure] := by
      rw [← hfailure, startFailures_append, hfailures]
      exact List.mem_append_left _ (List.mem_singleton_self _)
    rw [← List.mem_singleton.mp hmem] at hraised
    cases hraised
  · intro hstops raised hraised
    have hall : ∀ s ∈ before.reverse, StopsOrdinarily answers s :=
      fun s hs => hstops s (List.mem_reverse.mp hs)
    rw [rollBack_run_ok hall] at hraised ⊢
    obtain rfl := Except.error.inj hraised
    refine ⟨?_, ⟨.start failed, x⟩, ?_, rfl⟩
    · simp only [Prog.run_raise, List.append_nil]
      rw [stoppedSinks_append, startedSinks_append, hstarts, stoppedSinks_starts, stoppedSinks_stops,
        startedSinks_stops, List.nil_append, List.append_nil]
    · simp only [Prog.run_raise, List.append_nil]
      rw [startFailures_append, hfailures, startFailures_stops, List.append_nil]

/-- A stop calls every sink, and raises exactly when one of them does. -/
theorem stop_run (e : MultiSinkAuditEmitter) :
    (e.stop.run answers).1 = (e.allSinks.map fun s => answered answers (.stop s)) ∧
    ((∃ raised, (e.stop.run answers).2 = .error raised) ↔
      ∃ s ∈ e.allSinks, ∃ x, answers (.stop s) = .error x) := by
  have hfailures : stopFailures answers e.allSinks = [] ↔
      ¬ ∃ s ∈ e.allSinks, ∃ x, answers (.stop s) = .error x := by
    rw [stopFailures, List.filterMap_eq_nil_iff]
    push Not
    refine forall₂_congr fun s _ => ?_
    cases answers (.stop s) <;> simp
  rw [stop, Prog.run_bind, stopEach_run]
  by_cases hnil : stopFailures answers e.allSinks = []
  · simp [hnil, hfailures.mp hnil]
  · have hfailed := not_not.mp (mt hfailures.mpr hnil)
    simp [hnil, hfailed]

end MultiSinkAuditEmitter

end Run

/-- **When the sinks start and stop as one.** A start that fails stops, latest first, exactly the sinks
that had started and raises what the failing one raised, and a stop calls every sink once and raises
exactly when one of them does: so for every emitter whose sinks, if one of them fails to start, stop
with no exception but an `Exception` where they had started before it. The sinks of a server are distinct;
one that is listed twice is called once for each listing. -/
theorem lifecycle_atomic_iff (e : MultiSinkAuditEmitter) (answers : SinkCall → Except Exn Unit) :
    ((∀ raised, (e.start.run answers).2 = .error raised → RolledBack (e.start.run answers).1 raised) ∧
      stoppedSinks (e.stop.run answers).1 = e.allSinks ∧
      ((∃ raised, (e.stop.run answers).2 = .error raised) ↔
        ∃ s ∈ e.allSinks, ∃ x, answers (.stop s) = .error x)) ↔
    ∀ before failed rest x, e.allSinks = before ++ failed :: rest →
      (∀ s ∈ before, answers (.start s) = .ok ()) → answers (.start failed) = .error x →
      ∀ s ∈ before, ∀ y, answers (.stop s) = .error y → y.isException = true := by
  have hstop : stoppedSinks (e.stop.run answers).1 = e.allSinks ∧
      ((∃ raised, (e.stop.run answers).2 = .error raised) ↔
        ∃ s ∈ e.allSinks, ∃ x, answers (.stop s) = .error x) := by
    refine ⟨?_, (MultiSinkAuditEmitter.stop_run e).2⟩
    rw [(MultiSinkAuditEmitter.stop_run e).1, MultiSinkAuditEmitter.stoppedSinks_stops]
  rw [and_iff_left hstop]
  constructor
  · intro hrolled before failed rest x hsinks hbefore hfailed
    exact (MultiSinkAuditEmitter.start_run_error hsinks hbefore hfailed).mp hrolled
  · intro hstops
    rcases MultiSinkAuditEmitter.all_start_or_first_fails answers e.allSinks with
      hall | ⟨before, failed, rest, x, hsinks, hbefore, hfailed⟩
    · intro raised hraised
      rw [MultiSinkAuditEmitter.start_run_ok hall] at hraised
      cases hraised
    · exact (MultiSinkAuditEmitter.start_run_error hsinks hbefore hfailed).mpr
        (hstops before failed rest x hsinks hbefore hfailed)

/-- Two tenants, the second of which fails to start while the first is cancelled as it stops: the
global sink is left running. -/
theorem not_lifecycle_atomic :
    ¬ ∀ (e : MultiSinkAuditEmitter) (answers : SinkCall → Except Exn Unit) (raised : LifecycleError),
      (e.start.run answers).2 = .error raised → RolledBack (e.start.run answers).1 raised := by
  intro h
  have hrolled := h ⟨[⟨none, 0, .stderr⟩], [("acme", [⟨some "acme", 0, .stdout⟩]),
      ("beta", [⟨some "beta", 0, .stdout⟩])]⟩
    (fun call =>
      if call = .start ⟨some "beta", 0, .stdout⟩ then .error (.exception "RuntimeError")
      else if call = .stop ⟨some "acme", 0, .stdout⟩ then .error .cancelled
      else .ok ())
    (.failure ⟨.stop ⟨some "acme", 0, .stdout⟩, .cancelled⟩) (by decide)
  exact absurd hrolled.1 (by decide)

end WazuhMcp
