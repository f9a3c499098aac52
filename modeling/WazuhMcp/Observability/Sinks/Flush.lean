import WazuhMcp.Observability.Sinks.Conservation

/-!
# What `stop` flushes

`HttpSink` and `WazuhIndexerSink` acknowledge an event to the queue when they move it into the batch
they are collecting. So `queue.join()` returns, and `stop` cancels the drain task, while there are
events in that batch, or in a request, and these are lost without a report.

With an upstream that accepts every request promptly, every event submitted before `stop` was called is
delivered when it returns exactly when the cancellation finds none of them in hand, apart from those
that have reached upstream, and the queue, or the buffer before `start`, has evicted none of them
(`flushed_iff`).
-/

namespace WazuhMcp.Sinks

open Ledger SinkState

variable {Ans : Type} {s : Sink Ans} {st : SinkState}

/-- Every event submitted before `stop` was called has been delivered. -/
def SinkState.Flushed (st : SinkState) : Prop := ∀ e, st.ledger.Owed e → e ∈ st.delivered

/-- What an upstream that accepts every request promptly leaves to happen, to a sink that is started
before it is stopped: no attempt fails, so there is no backoff, and the wait for `queue.join()` does not
time out. -/
def Prompt (s : Sink Ans) (st : SinkState) : SinkAction Ans → Prop
  | .attempt ans => s.succeeded ans = true
  | .stopCall => st.queue ≠ none
  | .abort _ | .backoffElapsed | .backoffStopped | .joinTimeout => False
  | _ => True

/-- The steps that lose no event submitted before `stop` was called: no such event is evicted from the
queue, or from the buffer before `start`, and none is in hand when the drain task is cancelled, unless
it has reached upstream. -/
def Flushes (s : Sink Ans) (st : SinkState) : SinkAction Ans → Prop
  | .submit =>
    let buffered := st.queue.getD st.preStart
    s.maxsize ≤ buffered.length → ∀ e ∈ buffered.head?, ¬ st.ledger.Owed e
  | .cancel ans =>
    st.stopPhase = .cancelling → s.succeeded ans = false →
      ∀ e ∈ st.drain.hand, st.ledger.Owed e → Reached s st ans e
  | _ => True

/-! ## What the steps come to -/

theorem enqueue_of_lt {q : List Entry} (hq : st.queue = some q) (h : q.length < s.maxsize) (e : Entry) :
    st.enqueue s e = { st with queue := some (q ++ [e]), unfinished := st.unfinished + 1 } := by
  rw [enqueue, hq, Option.getD_some, putNowait_of_lt h]

theorem enqueue_of_le {q : List Entry} (hq : st.queue = some q) (h : s.maxsize ≤ q.length)
    (hbound : q.length ≤ s.maxsize) (e : Entry) :
    st.enqueue s e = { st with
      queue := some (q.tail ++ [e])
      drops := st.drops ++ q.head?.toList
      unfinished := st.unfinished - 1 + 1 } := by
  have hpos := s.maxsize_pos
  obtain ⟨w, ws, rfl⟩ : ∃ w ws, q = w :: ws := List.exists_cons_of_length_pos (by omega)
  have hroom : ws.length < s.maxsize := by
    rw [List.length_cons] at hbound
    omega
  rw [enqueue, hq, Option.getD_some, putNowait_of_le h]
  simp only [List.tail_cons, List.head?_cons, Option.toList_some]
  rw [putNowait_of_lt hroom]
  rfl

/-- Events for which there is room join the queue. -/
theorem foldl_enqueue_of_le (es : List Entry) : ∀ {st : SinkState} {q : List Entry},
    st.queue = some q → q.length + es.length ≤ s.maxsize →
      es.foldl (enqueue s) st =
        { st with queue := some (q ++ es), unfinished := st.unfinished + es.length } := by
  induction es with
  | nil =>
    intro st q hq _
    rw [List.foldl_nil, List.append_nil, List.length_nil, Nat.add_zero, ← hq]
  | cons e es ih =>
    intro st q hq hroom
    rw [List.length_cons] at hroom
    have hlt : q.length < s.maxsize := by omega
    rw [List.foldl_cons, enqueue_of_lt hq hlt, ih rfl (by simp; omega)]
    simp only [List.append_assoc, List.singleton_append, List.length_cons]
    congr 1
    omega

/-- A new event joins the buffer or the queue, and evicts the oldest if it must. -/
theorem ledger_submit (hbounded : Bounded s st) :
    (st.submit s).ledger =
      if st.ledger.waiting.length < s.maxsize then st.ledger.enter else st.ledger.evict.enter := by
  cases hq : st.queue with
  | some q =>
    rw [submit_of_some hq]
    have hwaiting : st.ledger.waiting = q := by rw [ledger, hq, Option.getD_some]
    have hq' : { st with submitted := st.submitted + 1 }.queue = some q := hq
    rw [hwaiting]
    split
    · rename_i hlt
      rw [enqueue_of_lt hq' hlt]
      simp [ledger, Ledger.enter, hq]
    · rename_i hle
      rw [enqueue_of_le hq' (Nat.le_of_not_lt hle) (hbounded q hq)]
      simp [ledger, Ledger.enter, Ledger.evict, hq]
  | none =>
    rw [submit_of_none hq]
    have hwaiting : st.ledger.waiting = st.preStart := by rw [ledger, hq, Option.getD_none]
    rw [hwaiting]
    by_cases hle : s.maxsize ≤ st.preStart.length
    · rw [if_pos hle, if_neg (Nat.not_lt.mpr hle)]
      simp [ledger, Ledger.enter, Ledger.evict, hq]
    · rw [if_neg hle, if_pos (Nat.lt_of_not_le hle)]
      simp [ledger, Ledger.enter, hq]

/-- What the cancellation leaves delivered: what was, and what has reached upstream of the events in
hand. -/
theorem mem_delivered_abort {ans : Ans} (hfailed : s.succeeded ans = false) {e : Entry} :
    e ∈ (st.abort s ans).delivered ↔
      e ∈ st.delivered ∨ e ∈ st.drain.hand ∧ Reached s st ans e := by
  have hack (st' : SinkState) (events : List Entry) :
      (st'.acknowledge s events).delivered = st'.delivered := by
    unfold acknowledge
    split <;> rfl
  rw [SinkState.abort, hfailed, if_neg Bool.false_ne_true]
  simp only [hack]
  split
  · rename_i events k hdrain
    rw [hdrain, SinkState.accept, List.mem_append, List.mem_filter, Drain.hand, Reached]
    constructor
    · rintro (hdel | ⟨he, hacc⟩)
      · exact .inl hdel
      · exact .inr ⟨he, .inr ⟨⟨events, k, hdrain⟩, hacc⟩⟩
    · rintro (hdel | ⟨he, hdel | ⟨-, hacc⟩⟩)
      · exact .inl hdel
      · exact .inl hdel
      · exact .inr ⟨he, hacc⟩
  · rename_i hsending
    constructor
    · exact .inl
    · rintro (hdel | ⟨-, hdel | ⟨⟨events, k, hdrain⟩, -⟩⟩)
      · exact hdel
      · exact hdel
      · exact absurd hdrain (hsending events k)

/-- A new event in the queue. -/
theorem submit_of_queued {q : List Entry} (hq : st.queue = some q) (hbound : q.length ≤ s.maxsize) :
    st.submit s = { st with
      submitted := st.submitted + 1
      queue := some ((if q.length < s.maxsize then q else q.tail) ++ [st.submitted])
      drops := st.drops ++ (if q.length < s.maxsize then [] else q.head?.toList)
      unfinished := (if q.length < s.maxsize then st.unfinished else st.unfinished - 1) + 1 } := by
  have hq' : { st with submitted := st.submitted + 1 }.queue = some q := hq
  rw [submit_of_some hq]
  split
  · rename_i hlt
    rw [enqueue_of_lt hq' hlt, List.append_nil]
  · rename_i hle
    rw [enqueue_of_le hq' (Nat.le_of_not_lt hle) hbound]

/-- `start` loses nothing of the buffer. -/
theorem start_of_none (hq : st.queue = none) (hroom : st.preStart.length ≤ s.maxsize) :
    st.start s = { st with
      queue := some st.preStart
      unfinished := st.preStart.length
      stopSet := false
      preStart := []
      drain := .collecting [] } := by
  unfold SinkState.start
  simp only [hq]
  rw [foldl_enqueue_of_le st.preStart rfl (by simpa using hroom)]
  simp

/-! ## The invariant -/

/-- The invariant of a run with a prompt upstream, whatever it loses. -/
structure Flushing (s : Sink Ans) (st : SinkState) : Prop where
  inv : st.stopPhase ≠ .returned → Inv s st
  bounded : Bounded s st
  room : st.preStart.length ≤ s.maxsize
  backlog : ∀ q, st.queue = some q → st.unfinished = q.length
  closed : st.stopPhase ≠ .notCalled → ∃ n, st.beforeStop = some n ∧ n ≤ st.submitted
  started : st.stopPhase ≠ .notCalled → st.queue ≠ none
  joined : st.stopPhase = .cancelling ∨ st.stopPhase = .returned →
    ∀ e ∈ st.ledger.waiting, ¬ st.ledger.Owed e
  ended : st.stopPhase = .returned → st.drain = .ended

/-- Before `stop` is called. -/
theorem Flushing.of_notCalled (hphase : st.stopPhase = .notCalled) (hinv : Inv s st)
    (hroom : st.preStart.length ≤ s.maxsize)
    (hbacklog : ∀ q, st.queue = some q → st.unfinished = q.length) :
    Flushing s st where
  inv _ := hinv
  bounded := hinv.bounded
  room := hroom
  backlog := hbacklog
  closed hcalled := absurd hphase hcalled
  started hcalled := absurd hphase hcalled
  joined hjoined := by simp [hphase] at hjoined
  ended hret := by simp [hphase] at hret

theorem Flushing.init : Flushing s .init :=
  .of_notCalled rfl .init (Nat.zero_le _) fun q hq => by cases hq

/-- A step that leaves the queue as it is, and `stop` too unless it returns. -/
theorem Flushing.of_frame {st' st'' : SinkState} (h : Flushing s st) (hframe : Frame st st')
    (hsubmitted : st'.submitted = st.submitted) (hunfinished : st'.unfinished = st.unfinished)
    (hphase : st'' = st' ∨ st.stopPhase = .cancelling ∧ st'' = { st' with stopPhase := .returned })
    (hinv : st''.stopPhase ≠ .returned → Inv s st'')
    (hover : st''.stopPhase = .returned → st''.drain = .ended) : Flushing s st'' := by
  have hqueue : st''.queue = st.queue ∧ st''.preStart = st.preStart ∧ st''.beforeStop = st.beforeStop ∧
      st''.submitted = st.submitted ∧ st''.unfinished = st.unfinished := by
    rcases hphase with rfl | ⟨-, rfl⟩ <;>
      exact ⟨hframe.queue, hframe.preStart, hframe.beforeStop, hsubmitted, hunfinished⟩
  obtain ⟨hqueue, hpreStart, hbeforeStop, hsubmitted', hunfinished'⟩ := hqueue
  have hcalled : st''.stopPhase ≠ .notCalled → st.stopPhase ≠ .notCalled := by
    rcases hphase with rfl | ⟨hcancelling, rfl⟩
    · rw [hframe.stopPhase]
      exact id
    · rw [hcancelling]
      exact fun _ => by decide
  have hjoined : st''.stopPhase = .cancelling ∨ st''.stopPhase = .returned →
      st.stopPhase = .cancelling ∨ st.stopPhase = .returned := by
    rcases hphase with rfl | ⟨hcancelling, rfl⟩
    · rw [hframe.stopPhase]
      exact id
    · exact fun _ => .inl hcancelling
  have hwaiting : st''.ledger.waiting = st.ledger.waiting := by
    simp only [ledger, hqueue, hpreStart]
  have howed (e : ℕ) : st''.ledger.Owed e ↔ st.ledger.Owed e := by
    simp only [Ledger.Owed, ledger, hbeforeStop, hsubmitted']
  exact {
    inv := hinv
    bounded := fun q hq => h.bounded q (hqueue ▸ hq)
    room := hpreStart ▸ h.room
    backlog := fun q hq => hunfinished' ▸ h.backlog q (hqueue ▸ hq)
    closed := fun hc => hbeforeStop ▸ hsubmitted' ▸ h.closed (hcalled hc)
    started := fun hc => hqueue ▸ h.started (hcalled hc)
    joined := fun hj e he => (howed e).not.mpr (h.joined (hjoined hj) e (hwaiting ▸ he))
    ended := hover }

/-- What was submitted after `stop` was called is not owed. -/
theorem Flushing.owed_submitted (h : Flushing s st) (hcalled : st.stopPhase ≠ .notCalled) :
    ∀ e, st.submitted ≤ e → ¬ st.ledger.Owed e := by
  obtain ⟨n, hn, hle⟩ := h.closed hcalled
  intro e he howed
  rw [Ledger.Owed, ledger, hn, Option.getD_some] at howed
  omega

/-- What is owed once `stop` has been called does not change. -/
theorem Flushing.owed_submit {q : List Entry} (h : Flushing s st) (hq : st.queue = some q)
    (hcalled : st.stopPhase ≠ .notCalled) (e : Entry) :
    (st.submit s).ledger.Owed e ↔ st.ledger.Owed e := by
  obtain ⟨n, hn, -⟩ := h.closed hcalled
  rw [submit_of_queued hq (h.bounded q hq)]
  simp only [Ledger.Owed, ledger, hn, Option.getD_some]

theorem Flushing.submit_of_started {q : List Entry} (h : Flushing s st) (hq : st.queue = some q) :
    Flushing s (st.submit s) := by
  have hpos := s.maxsize_pos
  have hbound := h.bounded q hq
  have hsubmit := submit_of_queued hq hbound
  have hphase : (st.submit s).stopPhase = st.stopPhase := by rw [hsubmit]
  refine ⟨fun hret => (h.inv (hphase ▸ hret)).submit, ?_, ?_, ?_, ?_, ?_, ?_, ?_⟩
  · rintro q' hq'
    rw [hsubmit] at hq'
    obtain rfl := Option.some.inj hq'
    split <;> simp <;> omega
  · rw [hsubmit]
    exact h.room
  · intro q' hq'
    rw [hsubmit] at hq' ⊢
    obtain rfl := Option.some.inj hq'
    have hbacklog := h.backlog q hq
    simp only [List.length_append, List.length_singleton]
    split <;> simp <;> omega
  · intro hcalled
    rw [hsubmit] at hcalled ⊢
    obtain ⟨n, hn, hle⟩ := h.closed hcalled
    exact ⟨n, hn, Nat.le_succ_of_le hle⟩
  · intro _
    rw [hsubmit]
    exact Option.some_ne_none _
  · intro hjoined e he
    rw [hphase] at hjoined
    have hcalled : st.stopPhase ≠ .notCalled := by
      rintro hnot
      rcases hjoined with hj | hj <;> cases hnot.symm.trans hj
    rw [h.owed_submit hq hcalled]
    rw [hsubmit] at he
    rcases List.mem_append.mp he with he | he
    · apply h.joined hjoined e
      have hwaiting : st.ledger.waiting = q := by rw [ledger, hq, Option.getD_some]
      rw [hwaiting]
      split at he
      · exact he
      · exact List.mem_of_mem_tail he
    · exact h.owed_submitted hcalled e (Nat.le_of_eq (List.mem_singleton.mp he).symm)
  · rw [hsubmit]
    exact h.ended

/-- `stop` joins the queue that `start` has made. -/
theorem Flushing.notCalled (h : Flushing s st) (hq : st.queue = none) : st.stopPhase = .notCalled := by
  by_contra hcalled
  exact h.started hcalled hq

theorem Flushing.submit (h : Flushing s st) : Flushing s (st.submit s) := by
  cases hq : st.queue with
  | some q => exact h.submit_of_started hq
  | none =>
    have hphase := h.notCalled hq
    refine .of_notCalled ?_ (h.inv (by rw [hphase]; decide)).submit ?_ fun q hq' => ?_
    · rw [submit_of_none hq]
      split <;> exact hphase
    · have hpos := s.maxsize_pos
      have hroom := h.room
      rw [submit_of_none hq]
      split <;> simp <;> omega
    · rw [submit_of_none hq] at hq'
      split at hq' <;> cases hq.symm.trans hq'

theorem Flushing.start (h : Flushing s st) : Flushing s (st.start s) := by
  cases hq : st.queue with
  | some q =>
    unfold SinkState.start
    simpa only [hq] using h
  | none =>
    have hphase := h.notCalled hq
    refine .of_notCalled ?_ (h.inv (by rw [hphase]; decide)).start ?_ fun q hq' => ?_
    · rw [start_of_none hq h.room]
      exact hphase
    · rw [start_of_none hq h.room]
      exact Nat.zero_le _
    · rw [start_of_none hq h.room] at hq' ⊢
      obtain rfl := Option.some.inj hq'
      rfl

theorem Flushing.get (hack : s.ackOnGet = true) (h : Flushing s st) : Flushing s (st.get s) := by
  unfold SinkState.get
  split
  case h_2 => exact h
  case h_1 buf e q hdrain hq =>
    have hget : st.get s = { st with
        queue := some q
        unfinished := st.unfinished - 1
        drain := if (buf ++ [e]).length < s.batch then .collecting (buf ++ [e])
          else .sending (buf ++ [e]) 0 } := by
      unfold SinkState.get
      simp only [hdrain, hq, hack, if_true]
    have hnot : st.stopPhase ≠ .returned := fun hret => by
      rw [h.ended hret] at hdrain
      cases hdrain
    simp only [hack, if_true]
    refine ⟨fun _ => hget ▸ (h.inv hnot).get, fun q' hq' => ?_, h.room, fun q' hq' => ?_, h.closed,
      fun _ => Option.some_ne_none _, fun hjoined e' he' => ?_, fun hret => absurd hret hnot⟩
    · obtain rfl := Option.some.inj hq'
      exact Nat.le_of_succ_le (h.bounded _ hq)
    · obtain rfl := Option.some.inj hq'
      have := h.backlog _ hq
      rw [List.length_cons] at this
      simp only
      omega
    · apply h.joined hjoined e'
      rw [ledger, hq]
      exact List.mem_cons_of_mem _ he'

/-! ## `stop` -/

theorem Flushing.stopCall (h : Flushing s st) (hstarted : st.queue ≠ none) : Flushing s st.stopCall := by
  have hinv := fun hret => (h.inv hret).stopCall fun _ hnone => absurd hnone hstarted
  rw [SinkState.stopCall] at hinv ⊢
  split
  · rename_i hq
    exact absurd hq hstarted
  · rename_i hphase hq
    rw [hphase] at hinv
    simp only [hq] at hinv
    refine ⟨fun _ => ?_, h.bounded, h.room, h.backlog, fun _ => ⟨_, rfl, Nat.le_refl _⟩, fun _ => hstarted,
      fun hjoined => by simp at hjoined, fun hret => by cases hret⟩
    rw [hq]
    exact hinv (by decide)
  · exact h

/-- When every event put into the queue has been acknowledged, the queue is empty. -/
theorem Flushing.joinDone (h : Flushing s st) : Flushing s st.joinDone := by
  by_cases hdone : st.stopPhase = .joining ∧ st.unfinished = 0
  · obtain ⟨hphase, hfinished⟩ := hdone
    have hjoin : st.joinDone = { st with stopPhase := .cancelling } := by
      rw [SinkState.joinDone, hphase]
      exact if_pos hfinished
    have hcalled : st.stopPhase ≠ .notCalled := by
      rw [hphase]
      decide
    have hinv := (h.inv (by rw [hphase]; decide)).joinDone
    rw [hjoin] at hinv ⊢
    obtain ⟨q, hq⟩ := Option.ne_none_iff_exists'.mp (h.started hcalled)
    have hempty : q = [] := List.length_eq_zero_iff.mp ((h.backlog q hq).symm.trans hfinished)
    refine ⟨fun _ => hinv, h.bounded, h.room, h.backlog, fun _ => h.closed hcalled,
      fun _ => h.started hcalled, fun _ e he => ?_, fun hret => by cases hret⟩
    have he : e ∈ st.queue.getD st.preStart := he
    rw [hq, hempty] at he
    cases he
  · have hjoin : st.joinDone = st := by
      unfold SinkState.joinDone
      split
      · rename_i hphase
        exact if_neg fun hfinished => hdone ⟨hphase, hfinished⟩
      · rfl
    rwa [hjoin]

/-- `stop` cancels the drain task and returns. -/
theorem cancel_eq {ans : Ans} (hphase : st.stopPhase = .cancelling) (hfailed : s.succeeded ans = false) :
    st.cancel s ans = { st.abort s ans with stopPhase := .returned } := by
  rw [SinkState.cancel, hphase]
  simp [hfailed]

/-- A cancellation that does not come to pass. -/
theorem cancel_eq_self {ans : Ans} (h : ¬ (st.stopPhase = .cancelling ∧ s.succeeded ans = false)) :
    st.cancel s ans = st := by
  unfold SinkState.cancel
  split
  · rename_i hphase
    exact if_pos (by simpa using fun hfailed => h ⟨hphase, hfailed⟩)
  · rfl

theorem Flushing.cancel (hack : s.ackOnGet = true) (h : Flushing s st) (ans : Ans) :
    Flushing s (st.cancel s ans) := by
  by_cases hdue : st.stopPhase = .cancelling ∧ s.succeeded ans = false
  · obtain ⟨hphase, hfailed⟩ := hdue
    have hframe := Frame.abort (s := s) st ans
    have hsame : (st.abort s ans).submitted = st.submitted ∧
        (st.abort s ans).unfinished = st.unfinished ∧ (st.abort s ans).drain = .ended := by
      rw [SinkState.abort, hfailed, if_neg Bool.false_ne_true]
      simp only [acknowledge, hack, if_true]
      split <;> exact ⟨rfl, rfl, trivial⟩
    obtain ⟨hsubmitted, hunfinished, hended⟩ := hsame
    refine h.of_frame hframe hsubmitted hunfinished (.inr ⟨hphase, cancel_eq hphase hfailed⟩) ?_
      fun _ => ?_
    · rw [cancel_eq hphase hfailed]
      exact fun hret => absurd rfl hret
    · rw [cancel_eq hphase hfailed]
      exact hended
  · rwa [cancel_eq_self hdue]

/-! ## Steps -/

/-- Nothing is submitted, acknowledged or dropped. -/
structure Untouched (st st' : SinkState) : Prop where
  submitted : st'.submitted = st.submitted
  unfinished : st'.unfinished = st.unfinished
  drops : st'.drops = st.drops

theorem untouched_nextRound (st : SinkState) : Untouched st st.nextRound := by
  unfold nextRound
  split <;> exact ⟨rfl, rfl, rfl⟩

theorem untouched_flush (st : SinkState) : Untouched st st.flush := by
  unfold SinkState.flush
  split
  · exact untouched_nextRound st
  · exact ⟨rfl, rfl, rfl⟩
  · exact ⟨rfl, rfl, rfl⟩

theorem untouched_attempt (hack : s.ackOnGet = true) {ans : Ans} (hsucceeded : s.succeeded ans = true)
    (st : SinkState) : Untouched st (st.attempt s ans) := by
  unfold SinkState.attempt
  split
  · rename_i events k hdrain
    simp only [hsucceeded, acknowledge, hack, if_true]
    obtain ⟨hsubmitted, hunfinished, hdrops⟩ := untouched_nextRound (st.accept s ans events)
    exact ⟨hsubmitted, hunfinished, hdrops⟩
  · exact ⟨rfl, rfl, rfl⟩

/-- A drain task that has ended flushes nothing. -/
theorem flush_of_ended (hended : st.drain = .ended) : st.flush = st := by
  rw [SinkState.flush, hended]

/-- A drain task that has ended sends nothing. -/
theorem attempt_of_ended (hended : st.drain = .ended) (ans : Ans) : st.attempt s ans = st := by
  rw [SinkState.attempt, hended]

/-- A step with a prompt upstream keeps the invariant. -/
theorem Flushing.step (hack : s.ackOnGet = true) (h : Flushing s st) {act : SinkAction Ans}
    (hprompt : Prompt s st act) : Flushing s (step s st act) := by
  cases act with
  | submit => exact h.submit
  | start => exact h.start
  | get => exact h.get hack
  | flush =>
    have hframe := Frame.flush st
    have hkept := untouched_flush st
    refine h.of_frame hframe hkept.submitted hkept.unfinished (.inl rfl) (fun hret => ?_) fun hret => ?_
    · have hinv := h.inv (hframe.stopPhase ▸ hret)
      exact hinv.of_frame (ledger_flush ▸ .refl) hframe
    · have hended := h.ended (hframe.stopPhase ▸ hret)
      rwa [Sinks.step, flush_of_ended hended]
  | attempt ans =>
    have hframe := Frame.attempt (s := s) st ans
    have hkept := untouched_attempt hack hprompt st
    refine h.of_frame hframe hkept.submitted hkept.unfinished (.inl rfl) (fun hret => ?_) fun hret => ?_
    · have hinv := h.inv (hframe.stopPhase ▸ hret)
      have hlossless : Lossless s st (.attempt ans) := fun events k _ hfailed =>
        absurd (hfailed.symm.trans hprompt) (by decide)
      exact hinv.of_frame (moves_attempt hlossless) hframe
    · have hended := h.ended (hframe.stopPhase ▸ hret)
      rwa [Sinks.step, attempt_of_ended hended]
  | stopCall => exact h.stopCall hprompt
  | joinDone => exact h.joinDone
  | cancel ans => exact h.cancel hack ans
  | _ => exact hprompt.elim

/-! ## The law -/

/-- Nothing owed is lost: none of it has been dropped, and once `stop` has returned all of it has been
delivered. -/
def Kept (st : SinkState) : Prop :=
  (st.stopPhase = .returned → st.Flushed) ∧
    (st.stopPhase ≠ .returned → ∀ e ∈ st.drops, ¬ st.ledger.Owed e)

theorem kept_congr {st' : SinkState} (hphase : st'.stopPhase = .returned ↔ st.stopPhase = .returned)
    (howed : ∀ e, st'.ledger.Owed e ↔ st.ledger.Owed e) (hdrops : st'.drops = st.drops)
    (hdelivered : st.stopPhase = .returned → st'.delivered = st.delivered) : Kept st' ↔ Kept st := by
  have hflushed : st.stopPhase = .returned → (st'.Flushed ↔ st.Flushed) := fun hret => by
    simp only [Flushed, howed, hdelivered hret]
  simp only [Kept, Ne, hphase, howed, hdrops]
  exact and_congr_left fun _ => imp_congr_right hflushed

theorem kept_of_returned (hret : st.stopPhase = .returned) : Kept st ↔ st.Flushed := by
  simp [Kept, hret]

theorem kept_of_ne (hret : st.stopPhase ≠ .returned) :
    Kept st ↔ ∀ e ∈ st.ledger.dropped, ¬ st.ledger.Owed e := by
  simp [Kept, hret, ledger]

theorem submit_stopPhase (hbounded : Bounded s st) : (st.submit s).stopPhase = st.stopPhase := by
  cases hq : st.queue with
  | some q => rw [submit_of_queued hq (hbounded q hq)]
  | none =>
    rw [submit_of_none hq]
    split <;> rfl

/-- What is submitted once `stop` has returned is not owed. -/
theorem Flushing.flushed_submit (h : Flushing s st) (hret : st.stopPhase = .returned) :
    (st.submit s).Flushed ↔ st.Flushed := by
  have hcalled : st.stopPhase ≠ .notCalled := by
    rw [hret]
    decide
  obtain ⟨q, hq⟩ := Option.ne_none_iff_exists'.mp (h.started hcalled)
  have hdelivered : (st.submit s).delivered = st.delivered := by
    rw [submit_of_queued hq (h.bounded q hq)]
  simp only [Flushed, h.owed_submit hq hcalled, hdelivered]

/-- A submitted event costs nothing owed unless one is evicted. -/
theorem Flushing.kept_submit (h : Flushing s st) :
    Kept (st.submit s) ↔ Kept st ∧ Flushes s st .submit := by
  have hphase := submit_stopPhase h.bounded
  by_cases hret : st.stopPhase = .returned
  · have hflushes : Flushes s st .submit := fun _ e he =>
      h.joined (.inr hret) e (List.mem_of_mem_head? he)
    rw [kept_of_returned hret, kept_of_returned (hphase.trans hret), h.flushed_submit hret]
    exact (and_iff_left hflushes).symm
  · have hfresh := (h.inv hret).sound.fresh
    rw [kept_of_ne hret, kept_of_ne (hphase ▸ hret), ledger_submit h.bounded]
    split
    · rename_i hlt
      have hflushes : Flushes s st .submit := fun hle => absurd hlt (Nat.not_lt.mpr hle)
      refine Iff.trans ?_ (and_iff_left hflushes).symm
      refine forall_congr' fun e => forall_congr' fun he => not_congr (owed_enter (hfresh e ?_))
      exact List.mem_append_right _ he
    · rename_i hle
      have howed {e : Entry} (he : e ∈ st.ledger.waiting ++ st.ledger.held ++ st.ledger.dropped) :
          st.ledger.evict.enter.Owed e ↔ st.ledger.Owed e :=
        owed_enter (l := st.ledger.evict) (hfresh e he)
      constructor
      · intro hkept
        refine ⟨fun e he => ?_, fun _ e he => ?_⟩
        · rw [← howed (List.mem_append_right _ he)]
          exact hkept e (List.mem_append_left _ he)
        · have hwaiting : e ∈ st.ledger.waiting := List.mem_of_mem_head? he
          rw [← howed (List.mem_append_left _ (List.mem_append_left _ hwaiting))]
          exact hkept e (List.mem_append_right _ (Option.mem_toList.mpr he))
      · rintro ⟨hkept, hflushes⟩ e he
        rcases List.mem_append.mp he with he | he
        · rw [howed (List.mem_append_right _ he)]
          exact hkept e he
        · have he := Option.mem_toList.mp he
          have hwaiting : e ∈ st.ledger.waiting := List.mem_of_mem_head? he
          rw [howed (List.mem_append_left _ (List.mem_append_left _ hwaiting))]
          exact hflushes (Nat.le_of_not_lt hle) e he

/-- The cancellation of the drain task costs what is in hand. -/
theorem Flushing.kept_cancel (h : Flushing s st) {ans : Ans} :
    Kept (st.cancel s ans) ↔ Kept st ∧ Flushes s st (.cancel ans) := by
  by_cases hdue : st.stopPhase = .cancelling ∧ s.succeeded ans = false
  · obtain ⟨hphase, hfailed⟩ := hdue
    have hnot : st.stopPhase ≠ .returned := by
      rw [hphase]
      decide
    have hsound := (h.inv hnot).sound
    obtain ⟨n, hn, -⟩ := h.closed (by rw [hphase]; decide)
    have howed (e : Entry) : (st.cancel s ans).ledger.Owed e ↔ st.ledger.Owed e := by
      have hbeforeStop : (st.cancel s ans).beforeStop = some n := by
        rw [cancel_eq hphase hfailed]
        exact (Frame.abort st ans).beforeStop.trans hn
      simp only [Ledger.Owed, ledger, hbeforeStop, hn, Option.getD_some]
    have hdelivered (e : Entry) : e ∈ (st.cancel s ans).delivered ↔
        e ∈ st.delivered ∨ e ∈ st.drain.hand ∧ Reached s st ans e := by
      rw [cancel_eq hphase hfailed]
      exact mem_delivered_abort hfailed
    rw [kept_of_returned (by rw [cancel_eq hphase hfailed]), kept_of_ne hnot]
    simp only [Flushed, howed, hdelivered]
    constructor
    · intro hflushed
      refine ⟨fun e he howed => ?_, fun _ _ e he howed => ?_⟩
      · rcases hflushed e howed with hdel | ⟨hhand, -⟩
        · exact hsound.apart e he hdel
        · exact (List.nodup_append.mp hsound.once).2.2 e (List.mem_append_right _ hhand) e he rfl
      · exact (hflushed e howed).elim .inl And.right
    · rintro ⟨hkept, hflushes⟩ e howed
      rcases hsound.accounted e howed with hwaiting | hhand | hdropped | hdel
      · exact absurd howed (h.joined (.inl hphase) e hwaiting)
      · exact .inr ⟨hhand, hflushes hphase hfailed e hhand howed⟩
      · exact absurd howed (hkept e hdropped)
      · exact .inl hdel
  · rw [cancel_eq_self hdue]
    exact (and_iff_left fun hphase hfailed => absurd ⟨hphase, hfailed⟩ hdue).symm

/-- **A step with a prompt upstream loses nothing owed** exactly when it flushes. -/
theorem Flushing.kept_step (hack : s.ackOnGet = true) (h : Flushing s st) {act : SinkAction Ans}
    (hprompt : Prompt s st act) : Kept (Sinks.step s st act) ↔ Kept st ∧ Flushes s st act := by
  have hframed {st' : SinkState} (hframe : Frame st st') (hkept : Untouched st st')
      (hdelivered : st.stopPhase = .returned → st'.delivered = st.delivered) : Kept st' ↔ Kept st := by
    refine kept_congr (by rw [hframe.stopPhase]) (fun e => ?_) hkept.drops hdelivered
    simp only [Ledger.Owed, ledger, hframe.beforeStop, hkept.submitted]
  cases act with
  | submit => exact h.kept_submit
  | cancel ans => exact h.kept_cancel
  | start =>
    refine Iff.trans ?_ (and_iff_left trivial).symm
    cases hq : st.queue with
    | some q => simp only [Sinks.step, SinkState.start, hq]
    | none =>
      rw [Sinks.step, start_of_none hq h.room]
      exact kept_congr Iff.rfl (fun _ => Iff.rfl) rfl fun _ => rfl
  | get =>
    refine Iff.trans ?_ (and_iff_left trivial).symm
    rw [Sinks.step, SinkState.get]
    split
    · exact kept_congr Iff.rfl (fun _ => Iff.rfl) rfl fun _ => rfl
    · exact Iff.rfl
  | flush =>
    refine Iff.trans (hframed (.flush st) (untouched_flush st) fun hret => ?_) (and_iff_left trivial).symm
    rw [Sinks.step, flush_of_ended (h.ended hret)]
  | attempt ans =>
    refine Iff.trans (hframed (.attempt st ans) (untouched_attempt hack hprompt st) fun hret => ?_)
      (and_iff_left trivial).symm
    rw [Sinks.step, attempt_of_ended (h.ended hret)]
  | stopCall =>
    refine Iff.trans ?_ (and_iff_left trivial).symm
    rw [Sinks.step, SinkState.stopCall]
    split
    · rename_i hq
      exact absurd hq hprompt
    · rename_i hphase hq
      have hopen : st.beforeStop = none := (h.inv (by rw [hphase]; decide)).open_iff.mpr hphase
      refine kept_congr (by simp [hphase]) (fun e => ?_) rfl fun _ => rfl
      simp only [Ledger.Owed, ledger, hopen, Option.getD_some, Option.getD_none]
    · exact Iff.rfl
  | joinDone =>
    refine Iff.trans ?_ (and_iff_left trivial).symm
    rw [Sinks.step, SinkState.joinDone]
    split
    · rename_i hphase
      split
      · exact kept_congr (by simp [hphase]) (fun _ => Iff.rfl) rfl fun _ => rfl
      · exact Iff.rfl
    · exact Iff.rfl
  | _ => exact hprompt.elim

/-- **What `stop` flushes**: with a prompt upstream, of either sink that batches, the events submitted
before `stop` was called are delivered when it has returned exactly in the runs all of whose steps
flush. -/
theorem flushed_iff (kind : SinkKind) (hkind : kind = .http ∨ kind = .wazuhIndexer) (args : SinkArgs)
    (acts : List (SinkAction kind.Ans))
    (hprompt : Runs.EachStep (step (kind.sink args)) (Prompt (kind.sink args)) .init acts)
    (hreturned : (Runs.exec (step (kind.sink args)) .init acts).stopPhase = .returned) :
    (Runs.exec (step (kind.sink args)) .init acts).Flushed ↔
      Runs.EachStep (step (kind.sink args)) (Flushes (kind.sink args)) .init acts := by
  have hack : (kind.sink args).ackOnGet = true := by
    rcases hkind with rfl | rfl <;> rfl
  have hinit : Kept .init := (kept_of_ne (by decide)).mpr fun e he => by cases he
  have hkept : Kept (Runs.exec (step (kind.sink args)) .init acts) ↔
      Runs.EachStep (step (kind.sink args)) (Flushes (kind.sink args)) .init acts :=
    Runs.exec_iff_eachStep_within Flushing.init hinit (fun _ _ h => h.step hack)
      (fun _ _ h => h.kept_step hack) hprompt
  rw [← hkept]
  exact ⟨fun h => ⟨fun _ => h, fun hret => absurd hreturned hret⟩, fun h => h.1 hreturned⟩

/-- A batch of one that is sent before `stop` is called. -/
theorem flushed_iff_sent :
    let s := SinkKind.http.sink { batch := 1 }
    let acts : List (SinkAction HttpAns) := [.start, .submit, .get, .attempt (.response 200 fun _ => true),
      .stopCall, .joinDone, .cancel (.raised fun _ => false)]
    (Runs.exec (step s) .init acts).Flushed ↔ Runs.EachStep (step s) (Flushes s) .init acts := by
  refine flushed_iff .http (.inl rfl) { batch := 1 } _ ?_ rfl
  refine Runs.eachStep_cons trivial (Runs.eachStep_cons trivial (Runs.eachStep_cons trivial
    (Runs.eachStep_cons rfl (Runs.eachStep_cons ?_ (Runs.eachStep_cons trivial
    (Runs.eachStep_cons trivial Runs.eachStep_nil))))))
  exact Option.some_ne_none _

/-- The first event of a batch is in hand when `stop` is called: the queue is empty and joined, and the
drain task is cancelled before its batch is due. -/
theorem not_flushed_of_collecting :
    ¬ ∀ kind : SinkKind, kind = .http ∨ kind = .wazuhIndexer → ∀ (args : SinkArgs)
      (acts : List (SinkAction kind.Ans)),
      Runs.EachStep (step (kind.sink args)) (Prompt (kind.sink args)) .init acts →
        (Runs.exec (step (kind.sink args)) .init acts).stopPhase = .returned →
          (Runs.exec (step (kind.sink args)) .init acts).Flushed := by
  intro h
  have hflushed := h .http (.inl rfl) {}
    [.start, .submit, .get, .stopCall, .joinDone, .cancel (.raised fun _ => false)] ?_ rfl
  · have hdelivered := hflushed 0 (by decide)
    cases hdelivered
  · refine Runs.eachStep_cons trivial (Runs.eachStep_cons trivial (Runs.eachStep_cons trivial
      (Runs.eachStep_cons ?_ (Runs.eachStep_cons trivial (Runs.eachStep_cons trivial
      Runs.eachStep_nil)))))
    exact Option.some_ne_none _

end WazuhMcp.Sinks
