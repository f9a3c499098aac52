import WazuhMcp.Base.Errors
import WazuhMcp.Foundations.TaskQueue
import WazuhMcp.Observability.Sinks.Conservation

/-!
# The queue of a sink, in small steps

`QueuedSink` once more, in smaller steps: a call of `submit` tries the queue up to four times, the loop
in `start` submits what was buffered, one event after the other, and the drain task may take an event
out between any two of these steps. `_record_drop` may raise, and what is no `Exception` gets past
`_safe_record_drop`. `stop` is left out.

* `buffer_cases`, `tryPut_cases`, `evictOldest_cases`, `get_cases`: all that the steps can do.
* `enqueue_alone`: a call of `submit` that runs alone does what `enqueue` does in one step.
-/

namespace WazuhMcp.Sinks

/-! ## The state -/

/-- The reason that `_record_drop` is given. -/
inductive DropReason where
  | overflow
  | deliveryFailed
deriving DecidableEq, Repr

/-- Where a call of `submit` is: at one of its three `put_nowait`, or at its `get_nowait`. -/
inductive SubmitPhase where
  | firstPut
  | secondPut
  | evict
  | lastPut
deriving DecidableEq, Repr

/-- Where the drain task is. -/
inductive DrainPhase where
  | unstarted
  /-- awaiting `queue.get()` -/
  | waiting
  /-- awaiting `_deliver(event)`, with so many attempts behind it -/
  | delivering (e : Entry) (attempt : ℕ)
  /-- awaiting the end of the backoff -/
  | backingOff (e : Entry) (attempt : ℕ)
  | ended
deriving DecidableEq, Repr

/-- The event that the drain task has taken and is not done with. -/
def DrainPhase.hand : DrainPhase → List Entry
  | .delivering e _ | .backingOff e _ => [e]
  | _ => []

/-- The state of a sink, with the call of `submit` and the loop in `start` that are under way; and, of
its history, the events that were submitted, taken out of the queue, acknowledged with `task_done`,
delivered and given to `_record_drop`, and what `submit` has raised. -/
structure QueuedSink (m : ℕ) where
  preStart : List Entry := []
  queue : Option (TaskQueue Entry m) := none
  flushing : Option (List Entry) := none
  call : Option (Entry × SubmitPhase) := none
  drain : DrainPhase := .unstarted
  submitted : ℕ := 0
  taken : List Entry := []
  acked : List Entry := []
  delivered : List Entry := []
  drops : List (Entry × DropReason) := []
  raised : List Exn := []

namespace QueuedSink

variable {m : ℕ} (st : QueuedSink m)

/-- What `_safe_record_drop` lets out when `_record_drop` has ended with `recorded`. -/
def escaped (recorded : Option Exn) : Option Exn := recorded.filter fun x => !x.isException

/-- `_record_drop(event, reason)` is called. -/
def recordDrop (e : Entry) (reason : DropReason) : QueuedSink m :=
  { st with drops := st.drops ++ [(e, reason)] }

/-- The call of `submit` ends with an exception, and `start` with it if it was called there. -/
def raise (x : Exn) : QueuedSink m :=
  { st with call := none, flushing := none, raised := st.raised ++ [x] }

/-! ## Submitting -/

/-- `submit(event)` is called. The code that is under way does not yield. -/
def submit : QueuedSink m :=
  match st.call, st.flushing with
  | none, none => { st with submitted := st.submitted + 1, call := some (st.submitted, .firstPut) }
  | _, _ => st

/-- `submit` before `start`. -/
def buffer (e : Entry) (recorded : Option Exn) : QueuedSink m :=
  if m ≤ st.preStart.length then
    match st.preStart with
    | [] => st.raise (.exception "IndexError")
    | oldest :: rest =>
      let st := { st with preStart := rest }.recordDrop oldest .overflow
      match escaped recorded with
      | some x => st.raise x
      | none => { st with preStart := rest ++ [e], call := none }
  else { st with preStart := st.preStart ++ [e], call := none }

/-- `put_nowait(event)`, and what follows when the queue is full. -/
def tryPut (q : TaskQueue Entry m) (e : Entry) (full : QueuedSink m) : QueuedSink m :=
  match q.putNowait e with
  | some q => { st with queue := some q, call := none }
  | none => full

/-- `get_nowait()`, the drop of the event it returns, and `task_done()`. -/
def evictOldest (q : TaskQueue Entry m) (e : Entry) (recorded : Option Exn) : QueuedSink m :=
  match q.getNowait with
  | none => { st with call := some (e, .lastPut) }
  | some (oldest, q) =>
    let st := { st with queue := some q, taken := st.taken ++ [oldest] }.recordDrop oldest .overflow
    match escaped recorded, q.taskDone with
    | some x, _ => st.raise x
    | none, none => st.raise .valueError
    | none, some q =>
      { st with queue := some q, acked := st.acked ++ [oldest], call := some (e, .lastPut) }

/-- The new event is dropped, for the queue is full again. -/
def dropNew (e : Entry) (recorded : Option Exn) : QueuedSink m :=
  let st := st.recordDrop e .overflow
  match escaped recorded with
  | some x => st.raise x
  | none => { st with call := none }

/-- The next step of the call of `submit`. -/
def proceed (recorded : Option Exn) : QueuedSink m :=
  match st.call, st.queue with
  | none, _ => st
  | some (e, _), none => st.buffer e recorded
  | some (e, .firstPut), some q => st.tryPut q e { st with call := some (e, .secondPut) }
  | some (e, .secondPut), some q => st.tryPut q e { st with call := some (e, .evict) }
  | some (e, .evict), some q => st.evictOldest q e recorded
  | some (e, .lastPut), some q => st.tryPut q e (st.dropNew e recorded)

/-! ## Starting -/

/-- `start()`, which is called once, up to its loop. -/
def start : QueuedSink m :=
  match st.queue, st.call with
  | none, none => { st with queue := some .empty, flushing := some st.preStart, preStart := [] }
  | _, _ => st

/-- The head of the loop in `start`, and the creation of the drain task behind it. -/
def flush : QueuedSink m :=
  match st.flushing, st.call with
  | some (e :: rest), none => { st with flushing := some rest, call := some (e, .firstPut) }
  | some [], none => { st with flushing := none, drain := .waiting }
  | _, _ => st

/-! ## Draining -/

/-- `task_done()` for the event in hand, and where the drain task goes on. -/
def acknowledge (q : TaskQueue Entry m) (e : Entry) (next : DrainPhase) : QueuedSink m :=
  match q.taskDone with
  | none => { st with drain := .ended }
  | some q => { st with queue := some q, acked := st.acked ++ [e], drain := next }

/-- `queue.get()` returns. -/
def get (maxAttempts : ℕ) : QueuedSink m :=
  match st.drain, st.queue with
  | .waiting, some q =>
    match q.getNowait with
    | none => st
    | some (e, q) =>
      let st := { st with queue := some q, taken := st.taken ++ [e], drain := .delivering e 0 }
      if maxAttempts = 0 then st.acknowledge q e .waiting else st
  | _, _ => st

/-- `_deliver(event)` returns or raises, and so does `_record_drop` if it is called then. -/
def attempt (maxAttempts : ℕ) (ans recorded : Option Exn) : QueuedSink m :=
  match st.drain, st.queue with
  | .delivering e k, some q =>
    match ans with
    | none => { st with delivered := st.delivered ++ [e] }.acknowledge q e .waiting
    | some x =>
      if x.isException then
        if maxAttempts ≤ k + 1 then
          (st.recordDrop e .deliveryFailed).acknowledge q e
            (if (escaped recorded).isSome then .ended else .waiting)
        else { st with drain := .backingOff e (k + 1) }
      else st.acknowledge q e .ended
  | _, _ => st

/-- The backoff has passed. -/
def backoffElapsed : QueuedSink m :=
  match st.drain with
  | .backingOff e k => { st with drain := .delivering e k }
  | _ => st

end QueuedSink

/-- The steps of a sink and its surroundings. -/
inductive QueueAction where
  | submit
  | proceed (recorded : Option Exn)
  | start
  | flush
  | get
  | attempt (ans recorded : Option Exn)
  | backoffElapsed

/-- One step; a step that is not enabled changes nothing. -/
def QueuedSink.step {m : ℕ} (maxAttempts : ℕ) (st : QueuedSink m) : QueueAction → QueuedSink m
  | .submit => st.submit
  | .proceed recorded => st.proceed recorded
  | .start => st.start
  | .flush => st.flush
  | .get => st.get maxAttempts
  | .attempt ans recorded => st.attempt maxAttempts ans recorded
  | .backoffElapsed => st.backoffElapsed

/-- `_record_drop`, if `submit` calls it, raises nothing but an `Exception`. -/
def QueueAction.RecorderCaught : QueueAction → Prop
  | .proceed recorded => QueuedSink.escaped recorded = none
  | _ => True

instance : DecidablePred QueueAction.RecorderCaught
  | .proceed recorded => inferInstanceAs (Decidable (QueuedSink.escaped recorded = none))
  | .submit | .start | .flush | .get | .attempt _ _ | .backoffElapsed => isTrue trivial

namespace QueuedSink

variable {m : ℕ}

/-! ## What the steps can do -/

section

variable {st : QueuedSink m} {q : TaskQueue Entry m} {e : Entry} {recorded : Option Exn}

/-- Before `start` the event is put behind the others, and the oldest is evicted if it must be. What the
recorder lets out keeps the new event from being put. -/
theorem buffer_cases (hm : 0 < m) :
    st.buffer e recorded = { st with preStart := st.preStart ++ [e], call := none } ∧
        st.preStart.length < m ∨
      ∃ oldest rest, st.preStart = oldest :: rest ∧
        (escaped recorded = none ∧ st.buffer e recorded = { st with
            preStart := rest ++ [e], call := none, drops := st.drops ++ [(oldest, .overflow)] } ∨
          ∃ x, escaped recorded = some x ∧ st.buffer e recorded = { st with
            preStart := rest, call := none, flushing := none,
            drops := st.drops ++ [(oldest, .overflow)], raised := st.raised ++ [x] }) := by
  unfold buffer
  split
  · right
    cases hpre : st.preStart with
    | nil =>
      rename_i hfull
      rw [hpre, List.length_nil] at hfull
      omega
    | cons oldest rest =>
      refine ⟨oldest, rest, rfl, ?_⟩
      cases hescaped : escaped recorded with
      | none => exact .inl ⟨rfl, rfl⟩
      | some x => exact .inr ⟨x, rfl, rfl⟩
  · exact .inl ⟨rfl, by omega⟩

theorem tryPut_cases (full : QueuedSink m) :
    (∃ q', q'.items = q.items ++ [e] ∧ q'.unfinished = q.unfinished + 1 ∧
        st.tryPut q e full = { st with queue := some q', call := none }) ∨
      q.items.length = m ∧ st.tryPut q e full = full := by
  unfold tryPut
  cases hput : q.putNowait e with
  | none => exact .inr ⟨TaskQueue.putNowait_eq_none hput, rfl⟩
  | some q' =>
    obtain ⟨hitems, hunfinished⟩ := TaskQueue.putNowait_eq_some hput
    exact .inl ⟨q', hitems, hunfinished, rfl⟩

/-- The oldest event leaves the queue, which has a task to be done for each event in it. -/
theorem evictOldest_cases (htasks : q.items.length ≤ q.unfinished) :
    q.items = [] ∧ st.evictOldest q e recorded = { st with call := some (e, .lastPut) } ∨
      ∃ oldest q', q.items = oldest :: q'.items ∧
        (escaped recorded = none ∧ q'.unfinished + 1 = q.unfinished ∧
            st.evictOldest q e recorded = { st with
              queue := some q', taken := st.taken ++ [oldest], acked := st.acked ++ [oldest],
              drops := st.drops ++ [(oldest, .overflow)], call := some (e, .lastPut) } ∨
          ∃ x, escaped recorded = some x ∧ q'.unfinished = q.unfinished ∧
            st.evictOldest q e recorded = { st with
              queue := some q', taken := st.taken ++ [oldest], flushing := none,
              drops := st.drops ++ [(oldest, .overflow)], call := none, raised := st.raised ++ [x] }) := by
  unfold evictOldest
  cases hget : q.getNowait with
  | none => exact .inl ⟨TaskQueue.getNowait_eq_none hget, rfl⟩
  | some taken =>
    obtain ⟨oldest, q'⟩ := taken
    obtain ⟨hq, hunfinished⟩ := TaskQueue.getNowait_eq_some hget
    cases hescaped : escaped recorded with
    | some x => exact .inr ⟨oldest, q', hq, .inr ⟨x, rfl, hunfinished, rfl⟩⟩
    | none =>
      cases hdone : q'.taskDone with
      | none =>
        have hzero := TaskQueue.taskDone_eq_none hdone
        rw [hq, List.length_cons] at htasks
        omega
      | some q'' =>
        obtain ⟨hitems, hleft⟩ := TaskQueue.taskDone_eq_some hdone
        refine .inr ⟨oldest, q'', by rw [hitems, hq], .inl ⟨rfl, by omega, ?_⟩⟩
        simp only [hdone]
        rfl

/-- With the event in hand there is a task to be done. -/
theorem acknowledge_eq (htasks : 0 < q.unfinished) (next : DrainPhase) :
    ∃ q', q'.items = q.items ∧ q'.unfinished + 1 = q.unfinished ∧
      st.acknowledge q e next
        = { st with queue := some q', acked := st.acked ++ [e], drain := next } := by
  unfold acknowledge
  cases hdone : q.taskDone with
  | none =>
    have hzero := TaskQueue.taskDone_eq_none hdone
    omega
  | some q' =>
    obtain ⟨hitems, hleft⟩ := TaskQueue.taskDone_eq_some hdone
    exact ⟨q', hitems, hleft, rfl⟩

/-- The drain task takes an event out of the queue. -/
def take (st : QueuedSink m) (q : TaskQueue Entry m) (e : Entry) : QueuedSink m :=
  { st with queue := some q, taken := st.taken ++ [e], drain := .delivering e 0 }

theorem get_cases (maxAttempts : ℕ) : st.get maxAttempts = st ∨
    ∃ q e q', st.drain = .waiting ∧ st.queue = some q ∧ q.items = e :: q'.items ∧
      q'.unfinished = q.unfinished ∧
      st.get maxAttempts = if maxAttempts = 0 then (st.take q' e).acknowledge q' e .waiting
        else st.take q' e := by
  unfold get
  split
  · rename_i q hdrain hqueue
    cases hget : q.getNowait with
    | none => exact .inl rfl
    | some taken =>
      obtain ⟨e, q'⟩ := taken
      obtain ⟨hq, hunfinished⟩ := TaskQueue.getNowait_eq_some hget
      exact .inr ⟨q, e, q', hdrain, hqueue, hq, hunfinished, rfl⟩
  · exact .inl rfl

end

variable {st : QueuedSink m}

/-! ## The steps taken together -/

/-- The queue, its unfinished tasks and the dropped events are those of the model without small steps. -/
structure Abstracts (st : QueuedSink m) (base : SinkState) : Prop where
  queue : base.queue = st.queue.map (·.items)
  unfinished : ∀ q, st.queue = some q → base.unfinished = q.unfinished
  drops : base.drops = st.drops.map (·.1)

theorem proceed_idle (hcall : st.call = none) (recorded : Option Exn) : st.proceed recorded = st := by
  unfold proceed
  rw [hcall]

/-- A call that finds the queue full twice makes room in it. -/
theorem submit_full {q : TaskQueue Entry m} (hm : 0 < m) (hqueue : st.queue = some q)
    (hfull : q.items.length = m) (htasks : q.items.length ≤ q.unfinished) {e : Entry}
    (hcall : st.call = some (e, .firstPut)) {recorded : Option Exn} (hcaught : escaped recorded = none) :
    ∃ oldest rest q', q.items = oldest :: rest ∧ q'.items = rest ++ [e] ∧
      q'.unfinished = q.unfinished - 1 + 1 ∧
      (proceed · recorded)^[4] st = { st with
        queue := some q', taken := st.taken ++ [oldest], acked := st.acked ++ [oldest],
        drops := st.drops ++ [(oldest, .overflow)], call := none } := by
  have hput (st' full : QueuedSink m) : st'.tryPut q e full = full := by
    rcases @tryPut_cases _ st' q e full with ⟨q', hitems, -⟩ | ⟨-, hput⟩
    · have hbounded := q'.bounded
      rw [hitems, List.length_append, List.length_singleton] at hbounded
      omega
    · exact hput
  have hfirst : st.proceed recorded = { st with call := some (e, .secondPut) } := by
    unfold proceed
    rw [hcall, hqueue]
    exact hput _ _
  have hsecond : proceed { st with call := some (e, .secondPut) } recorded
      = { st with call := some (e, .evict) } := by
    unfold proceed
    rw [hqueue]
    exact hput _ _
  rcases @evictOldest_cases _ { st with call := some (e, .evict) } q e recorded htasks with
    ⟨hempty, -⟩ | ⟨oldest, q', hq, ⟨-, hleft, hevict⟩ | ⟨x, hx, -⟩⟩
  · rw [hempty, List.length_nil] at hfull
    omega
  swap
  · cases hcaught.symm.trans hx
  have hthird : proceed { st with call := some (e, .evict) } recorded = { st with
      queue := some q', taken := st.taken ++ [oldest], acked := st.acked ++ [oldest],
      drops := st.drops ++ [(oldest, .overflow)], call := some (e, .lastPut) } := by
    unfold proceed
    rw [hqueue]
    rw [hqueue] at hevict
    exact hevict
  rw [hq, List.length_cons] at hfull
  rcases @tryPut_cases _ { st with
      queue := some q', taken := st.taken ++ [oldest], acked := st.acked ++ [oldest],
      drops := st.drops ++ [(oldest, .overflow)], call := some (e, .lastPut) } q' e
      (dropNew { st with
        queue := some q', taken := st.taken ++ [oldest], acked := st.acked ++ [oldest],
        drops := st.drops ++ [(oldest, .overflow)], call := some (e, .lastPut) } e recorded) with
    ⟨q'', hitems, hunfinished, hlast⟩ | ⟨hlength, -⟩
  · refine ⟨oldest, q'.items, q'', hq, hitems, by omega, ?_⟩
    show proceed (proceed (proceed (st.proceed recorded) recorded) recorded) recorded = _
    rw [hfirst, hsecond, hthird]
    exact hlast
  · omega

/-- **A call of `submit` that runs alone does what `enqueue` does**: its steps put the event into the
queue, and evict the oldest one if they must. -/
theorem enqueue_alone (args : SinkArgs) {st : QueuedSink args.maxsize} {base : SinkState}
    (h : Abstracts st base) {q : TaskQueue Entry args.maxsize} (hqueue : st.queue = some q)
    (htasks : q.items.length ≤ q.unfinished) {e : Entry} (hcall : st.call = some (e, .firstPut))
    {recorded : Option Exn} (hcaught : escaped recorded = none) :
    Abstracts ((proceed · recorded)^[4] st) (base.enqueue (queuedSink args) e) := by
  obtain ⟨hbase, hunfinished, hdrops⟩ := h
  have hbase' : base.queue = some q.items := by rw [hbase, hqueue]; rfl
  have hm := args.maxsize_pos
  rcases Nat.lt_or_ge q.items.length args.maxsize with hroom | hfull
  · rcases @tryPut_cases _ st q e { st with call := some (e, .secondPut) } with
      ⟨q', hitems, hleft, hput⟩ | ⟨hlength, -⟩
    · have hfirst : st.proceed recorded = { st with queue := some q', call := none } := by
        unfold proceed
        rw [hcall, hqueue]
        rw [hqueue] at hput
        exact hput
      have hafter : (proceed · recorded)^[4] st = { st with queue := some q', call := none } := by
        show proceed (proceed (proceed (st.proceed recorded) recorded) recorded) recorded = _
        rw [hfirst, proceed_idle rfl, proceed_idle rfl, proceed_idle rfl]
      rw [hafter, enqueue_of_room hbase' (by exact hroom)]
      refine ⟨by simp [hitems], ?_, hdrops⟩
      rintro q'' hq''
      obtain rfl := Option.some.inj hq''
      show base.unfinished + 1 = _
      rw [hunfinished q hqueue, hleft]
    · omega
  · have hbounded := q.bounded
    obtain ⟨oldest, rest, q', hq, hitems, hleft, hafter⟩ :=
      submit_full hm hqueue (by omega) htasks hcall hcaught
    rw [hq] at hbase' hfull hbounded
    rw [List.length_cons] at hfull hbounded
    rw [hafter, enqueue_of_full hbase' (by show rest.length + 1 = args.maxsize; omega)]
    refine ⟨by simp [hitems], ?_, by simp [hdrops]⟩
    rintro q'' hq''
    obtain rfl := Option.some.inj hq''
    show base.unfinished - 1 + 1 = _
    rw [hunfinished q hqueue, hleft]

end QueuedSink

end WazuhMcp.Sinks
