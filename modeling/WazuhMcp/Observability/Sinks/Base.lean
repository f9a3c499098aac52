import WazuhMcp.Foundations.Ledger
import WazuhMcp.Foundations.Runs

/-!
# Queued audit sinks

A sink buffers the events it is given, first in a list and from `start` on in a bounded queue, and
a drain task takes them out and sends them upstream, with bounded retries. `stop` sets an event,
waits for the queue to be joined, at most for a while, and then cancels the drain task.

`QueuedSink`, `HttpSink` and `WazuhIndexerSink` share `submit`, `start` and `stop`. Their drain loops
are three pieces of code of one shape: collect up to `batch` events, send them, and on failure retry
after a backoff. They differ in what one attempt is and in two points of order, which `Sink` makes
parameters: whether an event is acknowledged to the queue when it is taken out or when it is done
with, and what becomes of the events in hand when the backoff is cut short by `stop`.

An event is its number in the order of submission.
-/

namespace WazuhMcp.Sinks

/-- An audit event, by its number in the order of submission. -/
abbrev Entry := ℕ

/-- The constructor arguments that a drain loop goes by. -/
structure SinkArgs where
  maxsize : ℕ := 10000
  maxAttempts : ℕ := 5
  batch : ℕ := 50
  maxsize_pos : 0 < maxsize := by decide
  maxAttempts_pos : 0 < maxAttempts := by decide
  batch_pos : 0 < batch := by decide

/-- A sink: its constructor arguments and its drain loop's own ways. `Ans` is what one attempt to
send may come to; an attempt the loop takes for a success has been accepted whole. -/
structure Sink (Ans : Type) extends SinkArgs where
  /-- `task_done()` right after `get()`, rather than after the attempts -/
  ackOnGet : Bool
  /-- `_safe_record_drop` when the backoff is cut short, rather than nothing -/
  dropOnInterrupt : Bool
  succeeded : Ans → Bool
  accepted : Ans → Entry → Bool
  accepted_of_succeeded : ∀ ans e, succeeded ans = true → accepted ans e = true

/-! ## The three sinks -/

/-- What `_deliver(event)` may come to: it delivers, or raises without delivering. -/
inductive DeliverAns where
  | delivered
  | raised
  deriving DecidableEq

/-- `QueuedSink`: one event at a time. -/
def queuedSink (args : SinkArgs) : Sink DeliverAns where
  toSinkArgs := { args with batch := 1, batch_pos := Nat.one_pos }
  ackOnGet := false
  dropOnInterrupt := false
  succeeded ans := ans = .delivered
  accepted ans _ := ans = .delivered
  accepted_of_succeeded _ _ h := h

/-- What posting a batch may come to: a response with its status, or an exception. Upstream may have
accepted events that it did not acknowledge with a 2xx response. -/
inductive HttpAns where
  | response (status : ℕ) (accepted : Entry → Bool)
  | raised (accepted : Entry → Bool)

/-- `200 <= resp.status_code < 300` -/
def HttpAns.succeeded : HttpAns → Bool
  | .response status _ => 200 ≤ status && status < 300
  | .raised _ => false

/-- The events of the batch that upstream has accepted: all of them behind a 2xx response. -/
def HttpAns.accepted : HttpAns → Entry → Bool
  | .response status accepted, e => (200 ≤ status && status < 300) || accepted e
  | .raised accepted, e => accepted e

/-- `HttpSink` -/
def httpSink (args : SinkArgs) : Sink HttpAns where
  toSinkArgs := args
  ackOnGet := true
  dropOnInterrupt := true
  succeeded := HttpAns.succeeded
  accepted := HttpAns.accepted
  accepted_of_succeeded ans e h := by
    cases ans with
    | response status accepted =>
      have h' : (200 ≤ status && status < 300) = true := h
      simp [HttpAns.accepted, h']
    | raised accepted => cases h

/-- What writing a batch to the indexer may come to: installing the template or acquiring the client
raises, `_bulk` responds, with errors or without, or it raises. -/
inductive IndexerAns where
  | unavailable
  | bulk (errors : Bool) (accepted : Entry → Bool)
  | raised (accepted : Entry → Bool)

/-- `not resp.get("errors")` -/
def IndexerAns.succeeded : IndexerAns → Bool
  | .bulk errors _ => !errors
  | _ => false

/-- The events of the batch that the indexer has written: all of them when it reports no errors. -/
def IndexerAns.accepted : IndexerAns → Entry → Bool
  | .unavailable, _ => false
  | .bulk errors accepted, e => !errors || accepted e
  | .raised accepted, e => accepted e

/-- `WazuhIndexerSink` -/
def wazuhIndexerSink (args : SinkArgs) : Sink IndexerAns where
  toSinkArgs := args
  ackOnGet := true
  dropOnInterrupt := true
  succeeded := IndexerAns.succeeded
  accepted := IndexerAns.accepted
  accepted_of_succeeded ans e h := by
    cases ans with
    | unavailable => cases h
    | bulk errors accepted =>
      have h' : (!errors) = true := h
      simp [IndexerAns.accepted, h']
    | raised accepted => cases h

/-- The sinks that drain a queue. -/
inductive SinkKind where
  | queued
  | http
  | wazuhIndexer
  deriving DecidableEq

/-- What an attempt of the sink may come to. -/
@[reducible] def SinkKind.Ans : SinkKind → Type
  | .queued => DeliverAns
  | .http => HttpAns
  | .wazuhIndexer => IndexerAns

/-- The sink of a kind, with its constructor arguments. -/
def SinkKind.sink : (kind : SinkKind) → SinkArgs → Sink kind.Ans
  | .queued => queuedSink
  | .http => httpSink
  | .wazuhIndexer => wazuhIndexerSink

/-! ## State -/

/-- Where the drain task is. -/
inductive Drain where
  /-- `start` has not been called -/
  | unstarted
  /-- awaiting `queue.get()`, with a batch begun -/
  | collecting (buf : List Entry)
  /-- awaiting an attempt to send -/
  | sending (events : List Entry) (attempt : ℕ)
  /-- awaiting `stop`, for the time of the backoff -/
  | backoff (events : List Entry) (attempt : ℕ)
  /-- the task has returned, raised or been cancelled -/
  | ended
  deriving DecidableEq

/-- The events that the drain task has taken out of the queue and is not done with. -/
def Drain.hand : Drain → List Entry
  | .collecting buf => buf
  | .sending events _ => events
  | .backoff events _ => events
  | _ => []

/-- Where `stop` is. -/
inductive StopPhase where
  | notCalled
  | joining
  | cancelling
  | returned
  deriving DecidableEq

/-- The state of a sink: its buffer, its queue and the queue's count of unfinished tasks, its stop
event, its drain task and `stop`; and, of its surroundings, how many events have been submitted, how
many before `stop` was called, what upstream has accepted, and what `_record_drop` has reported. -/
structure SinkState where
  preStart : List Entry
  queue : Option (List Entry)
  unfinished : ℕ
  stopSet : Bool
  drain : Drain
  stopPhase : StopPhase
  submitted : ℕ
  beforeStop : Option ℕ
  delivered : List Entry
  drops : List Entry
  deriving DecidableEq

/-- A new sink. -/
def SinkState.init : SinkState where
  preStart := []
  queue := none
  unfinished := 0
  stopSet := false
  drain := .unstarted
  stopPhase := .notCalled
  submitted := 0
  beforeStop := none
  delivered := []
  drops := []

namespace SinkState

variable {Ans : Type} (s : Sink Ans)

/-! ## Submitting -/

/-- `queue.put_nowait(event)`, if the queue is not full. -/
def putNowait (q : List Entry) (e : Entry) : Option (List Entry) :=
  if q.length < s.maxsize then some (q ++ [e]) else none

/-- The part of `submit` that follows when the queue is there: put the event, and else evict the
oldest and put it then. Nothing runs between the two first tries. -/
def enqueue (st : SinkState) (e : Entry) : SinkState :=
  let q := st.queue.getD []
  match putNowait s q e with
  | some q' => { st with queue := some q', unfinished := st.unfinished + 1 }
  | none =>
    let st := { st with
      drops := st.drops ++ q.head?.toList
      unfinished := st.unfinished - q.head?.toList.length }
    match putNowait s q.tail e with
    | some q' => { st with queue := some q', unfinished := st.unfinished + 1 }
    | none => { st with queue := some q.tail, drops := st.drops ++ [e] }

/-- `submit(event)` -/
def submit (st : SinkState) : SinkState :=
  let e := st.submitted
  let st := { st with submitted := st.submitted + 1 }
  match st.queue with
  | some _ => st.enqueue s e
  | none =>
    if s.maxsize ≤ st.preStart.length then
      { st with
        drops := st.drops ++ st.preStart.head?.toList
        preStart := st.preStart.tail ++ [e] }
    else
      { st with preStart := st.preStart ++ [e] }

/-- `start()`: the queue and the stop event are created, the buffer is submitted, and the drain task
begins. The emitter starts a sink once. -/
def start (st : SinkState) : SinkState :=
  match st.queue with
  | some _ => st
  | none =>
    let opened := { st with queue := some [], unfinished := 0, stopSet := false, preStart := [] }
    { st.preStart.foldl (enqueue s) opened with drain := .collecting [] }

/-! ## Draining -/

/-- The test at the head of the drain loop, with nothing in hand. -/
def nextRound (st : SinkState) : SinkState :=
  if st.stopSet && (st.queue.getD []).isEmpty then { st with drain := .ended }
  else { st with drain := .collecting [] }

/-- The acknowledgement of events that the drain task is done with. -/
def acknowledge (st : SinkState) (events : List Entry) : SinkState :=
  if s.ackOnGet then st else { st with unfinished := st.unfinished - events.length }

/-- `queue.get()` returns an event, which joins the batch; a full batch is sent. -/
def get (st : SinkState) : SinkState :=
  match st.drain, st.queue with
  | .collecting buf, some (e :: q) =>
    let buf := buf ++ [e]
    { st with
      queue := some q
      unfinished := if s.ackOnGet then st.unfinished - 1 else st.unfinished
      drain := if buf.length < s.batch then .collecting buf else .sending buf 0 }
  | _, _ => st

/-- The wait for the next event times out: what there is of a batch is sent. -/
def flush (st : SinkState) : SinkState :=
  match st.drain with
  | .collecting [] => st.nextRound
  | .collecting buf => { st with drain := .sending buf 0 }
  | _ => st

/-- `_record_drop(event, "delivery_failed")` for all events in hand. -/
def dropAll (st : SinkState) (events : List Entry) : SinkState :=
  { st with drops := st.drops ++ events }

/-- Upstream accepts some of the events that are being sent. -/
def accept (st : SinkState) (ans : Ans) (events : List Entry) : SinkState :=
  { st with delivered := st.delivered ++ events.filter (s.accepted ans) }

/-- An attempt to send comes to an end. -/
def attempt (st : SinkState) (ans : Ans) : SinkState :=
  match st.drain with
  | .sending events k =>
    let st := st.accept s ans events
    if s.succeeded ans then (st.acknowledge s events).nextRound
    else if s.maxAttempts ≤ k + 1 then ((st.dropAll events).acknowledge s events).nextRound
    else { st with drain := .backoff events (k + 1) }
  | _ => st

/-- The backoff has passed. -/
def backoffElapsed (st : SinkState) : SinkState :=
  match st.drain with
  | .backoff events k => { st with drain := .sending events k }
  | _ => st

/-- The stop event cuts the backoff short. -/
def backoffStopped (st : SinkState) : SinkState :=
  match st.drain, st.stopSet with
  | .backoff events _, true =>
    let st := if s.dropOnInterrupt then st.dropAll events else st
    (st.acknowledge s events).nextRound
  | _, _ => st

/-- The drain task ends where it stands: it is cancelled, or an attempt raises what its loop does not
catch. An attempt under way may have been accepted upstream without the task learning of it. -/
def abort (st : SinkState) (ans : Ans) : SinkState :=
  if s.succeeded ans then st
  else
    let st' := match st.drain with
      | .sending events _ => st.accept s ans events
      | _ => st
    { st'.acknowledge s st.drain.hand with drain := .ended }

/-! ## Stopping -/

/-- `stop()`, up to where it awaits `queue.join()`. Before `start` it returns at once. -/
def stopCall (st : SinkState) : SinkState :=
  match st.stopPhase, st.queue with
  | .notCalled, none =>
    { st with beforeStop := some st.submitted, stopPhase := .returned }
  | .notCalled, some _ =>
    { st with beforeStop := some st.submitted, stopPhase := .joining, stopSet := true }
  | _, _ => st

/-- `queue.join()` returns: every event put has been acknowledged. -/
def joinDone (st : SinkState) : SinkState :=
  match st.stopPhase with
  | .joining => if st.unfinished = 0 then { st with stopPhase := .cancelling } else st
  | _ => st

/-- The wait for `queue.join()` times out. -/
def joinTimeout (st : SinkState) : SinkState :=
  match st.stopPhase with
  | .joining => { st with stopPhase := .cancelling }
  | _ => st

/-- `stop` cancels the drain task, awaits it and returns. -/
def cancel (st : SinkState) (ans : Ans) : SinkState :=
  match st.stopPhase with
  | .cancelling =>
    if s.succeeded ans then st else { st.abort s ans with stopPhase := .returned }
  | _ => st

end SinkState

/-- The steps of a sink and its surroundings. -/
inductive SinkAction (Ans : Type) where
  | submit
  | start
  | get
  | flush
  | attempt (ans : Ans)
  /-- an attempt raises what the drain loop does not catch -/
  | abort (ans : Ans)
  | backoffElapsed
  | backoffStopped
  | stopCall
  | joinDone
  | joinTimeout
  | cancel (ans : Ans)

/-- One step; a step that is not enabled changes nothing. -/
def step {Ans : Type} (s : Sink Ans) (st : SinkState) : SinkAction Ans → SinkState
  | .submit => st.submit s
  | .start => st.start s
  | .get => st.get s
  | .flush => st.flush
  | .attempt ans => st.attempt s ans
  | .abort ans =>
    match st.drain with
    | .sending _ _ => st.abort s ans
    | _ => st
  | .backoffElapsed => st.backoffElapsed
  | .backoffStopped => st.backoffStopped s
  | .stopCall => st.stopCall
  | .joinDone => st.joinDone
  | .joinTimeout => st.joinTimeout
  | .cancel ans => st.cancel s ans

end WazuhMcp.Sinks
