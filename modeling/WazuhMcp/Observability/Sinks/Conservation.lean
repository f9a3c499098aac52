import WazuhMcp.Observability.Sinks.Base

/-!
# Conservation of audit events

Once `stop` has returned, every event submitted before it was called should be either delivered
upstream or reported once through `_record_drop` (`Conserved`). Each step of a sink is a run of moves
of custody of its ledger (`moves_*`), as long as it is `Lossless`; what is not, loses an event
without a report or reports one that was delivered:

* `stop` before `start`, with events in the buffer;
* a backoff that is cut short, for `QueuedSink`, which reports nothing;
* the cancellation of the drain task, or its death, while events are queued or in hand;
* giving a batch up after an attempt that has delivered part of it.

`conserved_of_lossless`: in every run whose steps are lossless, the law holds.
-/

namespace WazuhMcp.Sinks

open Ledger

variable {Ans : Type} {s : Sink Ans} {st : SinkState}

namespace SinkState

/-- The custody of the events submitted to the sink. -/
def ledger (st : SinkState) : Ledger where
  submitted := st.submitted
  closed := st.beforeStop
  waiting := st.queue.getD st.preStart
  held := st.drain.hand
  dropped := st.drops
  delivered := st.delivered

/-- Once `stop` has returned, every event submitted before it was called is delivered or reported
once, and no event is both delivered and reported. -/
def Conserved (st : SinkState) : Prop :=
  st.stopPhase = .returned →
    (∀ e, st.ledger.Owed e → st.ledger.Settled e) ∧ ∀ e ∈ st.drops, e ∉ st.delivered

end SinkState

open SinkState

/-- Whether upstream has accepted the event, at the end of an attempt or when it is cut short. -/
def Reached (s : Sink Ans) (st : SinkState) (ans : Ans) (e : Entry) : Prop :=
  e ∈ st.delivered ∨ ((∃ events k, st.drain = .sending events k) ∧ s.accepted ans e = true)

/-- The steps that lose no event submitted before `stop` was called, and report none delivered. -/
def Lossless (s : Sink Ans) (st : SinkState) : SinkAction Ans → Prop
  | .stopCall => st.stopPhase = .notCalled → st.queue = none → st.preStart = []
  | .backoffStopped =>
    ∀ events k, st.drain = .backoff events k → st.stopSet = true →
      if s.dropOnInterrupt then ∀ e ∈ events, e ∉ st.delivered
      else ∀ e ∈ events, st.ledger.Owed e → e ∈ st.delivered
  | .attempt ans =>
    ∀ events k, st.drain = .sending events k → s.succeeded ans = false → s.maxAttempts ≤ k + 1 →
      ∀ e ∈ events, ¬ Reached s st ans e
  | .abort ans =>
    ∀ events k, st.drain = .sending events k → s.succeeded ans = false →
      ∀ e ∈ events, st.ledger.Owed e → Reached s st ans e
  | .cancel ans =>
    st.stopPhase = .cancelling → s.succeeded ans = false →
      (∀ e ∈ st.queue.getD st.preStart, ¬ st.ledger.Owed e) ∧
        ∀ e ∈ st.drain.hand, st.ledger.Owed e → Reached s st ans e
  | _ => True

/-! ## Steps as moves of custody -/

@[simp] theorem ledger_acknowledge (events : List Entry) :
    (st.acknowledge s events).ledger = st.ledger := by
  unfold acknowledge
  split <;> rfl

theorem ledger_ended (st : SinkState) :
    ledger { st with drain := .ended } = st.ledger.release := rfl

theorem ledger_withDrain (st : SinkState) {d : Drain} (h : d.hand = st.drain.hand) :
    ledger { st with drain := d } = st.ledger := by
  rw [ledger, ledger, h]

@[simp] theorem nextRound_ledger : st.nextRound.ledger = st.ledger.release := by
  unfold nextRound
  split <;> rfl

theorem ledger_accept (ans : Ans) :
    (st.accept s ans st.drain.hand).ledger = st.ledger.accept (s.accepted ans) := rfl

theorem ledger_dropAll_release :
    (st.dropAll st.drain.hand).ledger.release = st.ledger.discard := rfl

/-- The queue holds no more than it may. -/
def Bounded (s : Sink Ans) (st : SinkState) : Prop :=
  ∀ q, st.queue = some q → q.length ≤ s.maxsize

/-- The ledger, with some events yet to be put into the queue. -/
def SinkState.ledgerWith (st : SinkState) (rest : List Entry) : Ledger :=
  { st.ledger with waiting := st.queue.getD st.preStart ++ rest }

theorem putNowait_of_lt {q : List Entry} (h : q.length < s.maxsize) (e : Entry) :
    putNowait s q e = some (q ++ [e]) := if_pos h

theorem putNowait_of_le {q : List Entry} (h : s.maxsize ≤ q.length) (e : Entry) :
    putNowait s q e = none := if_neg (Nat.not_lt.mpr h)

theorem enqueue_of_room {q : List Entry} (hq : st.queue = some q) (hroom : q.length < s.maxsize)
    (e : Entry) : st.enqueue s e
      = { st with queue := some (q ++ [e]), unfinished := st.unfinished + 1 } := by
  rw [enqueue, hq, Option.getD_some, putNowait_of_lt hroom]

theorem enqueue_of_full {w : Entry} {ws : List Entry} (hq : st.queue = some (w :: ws))
    (hfull : ws.length + 1 = s.maxsize) (e : Entry) : st.enqueue s e
      = { st with
        queue := some (ws ++ [e]), unfinished := st.unfinished - 1 + 1, drops := st.drops ++ [w] } := by
  have hle : s.maxsize ≤ (w :: ws).length := by rw [List.length_cons]; omega
  rw [enqueue, hq, Option.getD_some, putNowait_of_le hle]
  simp only [List.tail_cons, List.head?_cons, Option.toList_some]
  rw [putNowait_of_lt (by omega)]
  rfl

/-- Putting an event into the queue evicts the oldest one if it must. -/
theorem enqueue_moves (hbounded : Bounded s st) {q : List Entry} (hq : st.queue = some q)
    (e : Entry) (rest : List Entry) :
    Moves (st.ledgerWith (e :: rest)) ((st.enqueue s e).ledgerWith rest) ∧
      Bounded s (st.enqueue s e) ∧ (∃ q', (st.enqueue s e).queue = some q') ∧
      (st.enqueue s e).stopPhase = st.stopPhase := by
  rcases Nat.lt_or_ge q.length s.maxsize with hlt | hfull
  · rw [enqueue_of_room hq hlt]
    refine ⟨?_, ?_, ⟨_, rfl⟩, rfl⟩
    · rw [show st.ledgerWith (e :: rest) = ledgerWith
        { st with queue := some (q ++ [e]), unfinished := st.unfinished + 1 } rest by
          simp [ledgerWith, ledger, hq]]
    · rintro q' hq'
      obtain rfl := Option.some.inj hq'
      simpa [Nat.succ_le_iff] using hlt
  · have hlen := hbounded q hq
    have hpos := s.maxsize_pos
    obtain ⟨w, ws, rfl⟩ : ∃ w ws, q = w :: ws := List.exists_cons_of_length_pos (by omega)
    rw [List.length_cons] at hlen hfull
    rw [enqueue_of_full hq (by omega)]
    refine ⟨.single ?_, ?_, ⟨_, rfl⟩, rfl⟩
    · have hmove := Move.evict (st.ledgerWith (e :: rest))
      simpa [Ledger.evict, ledgerWith, ledger, hq] using hmove
    · rintro q' hq'
      obtain rfl := Option.some.inj hq'
      rw [List.length_append, List.length_singleton]
      exact hlen

@[simp] theorem enqueue_drain {e : Entry} : (st.enqueue s e).drain = st.drain := by
  unfold enqueue
  simp only
  split
  · rfl
  · split <;> rfl

theorem ledgerWith_nil : st.ledgerWith [] = st.ledger := by
  simp [ledgerWith, ledger]

theorem foldl_enqueue_moves (es : List Entry) :
    ∀ {st : SinkState} {q : List Entry}, Bounded s st → st.queue = some q →
      Moves (st.ledgerWith es) (es.foldl (enqueue s) st).ledger ∧
        Bounded s (es.foldl (enqueue s) st) ∧
        (∃ q', (es.foldl (enqueue s) st).queue = some q') ∧
        (es.foldl (enqueue s) st).stopPhase = st.stopPhase ∧
        (es.foldl (enqueue s) st).drain = st.drain := by
  induction es with
  | nil =>
    intro st q hbounded hq
    rw [ledgerWith_nil]
    exact ⟨.refl, hbounded, ⟨q, hq⟩, rfl, rfl⟩
  | cons e es ih =>
    intro st q hbounded hq
    obtain ⟨hmoves, hbounded', ⟨q', hq'⟩, hphase⟩ := enqueue_moves hbounded hq e es
    obtain ⟨hmoves', hbounded'', hq'', hphase', hdrain⟩ := ih hbounded' hq'
    exact ⟨hmoves.trans hmoves', hbounded'', hq'', hphase'.trans hphase,
      hdrain.trans enqueue_drain⟩

/-! ## The invariant -/

/-- The invariant of a sink's runs. -/
structure Inv (s : Sink Ans) (st : SinkState) : Prop where
  sound : st.ledger.Sound
  bounded : Bounded s st
  open_iff : st.beforeStop = none ↔ st.stopPhase = .notCalled
  hand_eq : st.queue = none → st.drain.hand = []
  quiet : st.stopPhase = .returned → st.ledger.Quiet

theorem Inv.init : Inv s .init where
  sound := Sound.empty
  bounded := by rintro q ⟨⟩
  open_iff := by simp [SinkState.init]
  hand_eq _ := rfl
  quiet h := by cases h

/-- A step that moves custody, keeps the queue's bound and leaves `stop` where it is, keeps the
invariant. -/
theorem Inv.of_moves {st' : SinkState} (h : Inv s st) (hmoves : Moves st.ledger st'.ledger)
    (hbounded : Bounded s st') (hphase : st'.stopPhase = st.stopPhase)
    (hhand : st'.queue = none → st'.drain.hand = []) : Inv s st' := by
  obtain ⟨hsound, hclosed, hquiet⟩ := hmoves.sound h.sound
  have hclosed : st'.beforeStop = st.beforeStop := hclosed
  refine ⟨hsound, hbounded, ?_, hhand, fun hret => ?_⟩
  · rw [hclosed, hphase, h.open_iff]
  · rw [hphase] at hret
    refine hquiet (Option.ne_none_iff_isSome.mp fun hnone => ?_) (h.quiet hret)
    rw [h.open_iff.mp hnone] at hret
    cases hret

theorem Inv.conserved (h : Inv s st) : st.Conserved := fun hret =>
  ⟨fun _ howed => h.sound.settled (h.quiet hret) howed, h.sound.apart⟩

/-! ## Submitting and starting -/

theorem submit_of_some {q : List Entry} (hq : st.queue = some q) :
    st.submit s = enqueue s { st with submitted := st.submitted + 1 } st.submitted := by
  unfold SinkState.submit
  simp only [hq]

theorem submit_of_none (hq : st.queue = none) :
    st.submit s =
      if s.maxsize ≤ st.preStart.length then
        { st with
          submitted := st.submitted + 1
          drops := st.drops ++ st.preStart.head?.toList
          preStart := st.preStart.tail ++ [st.submitted] }
      else
        { st with submitted := st.submitted + 1, preStart := st.preStart ++ [st.submitted] } := by
  unfold SinkState.submit
  simp only [hq]

theorem Inv.submit (h : Inv s st) : Inv s (st.submit s) := by
  cases hq : st.queue with
  | some q =>
    rw [submit_of_some hq]
    have henter : Move st.ledger
        (ledgerWith { st with submitted := st.submitted + 1 } [st.submitted]) := by
      have hmove := Move.enter st.ledger
      simpa [Ledger.enter, ledgerWith, ledger, hq] using hmove
    obtain ⟨hmoves, hbounded, ⟨q', hq'⟩, hphase⟩ :=
      enqueue_moves (show Bounded s { st with submitted := st.submitted + 1 } from h.bounded) hq
        st.submitted []
    rw [ledgerWith_nil] at hmoves
    refine h.of_moves (.head henter hmoves) hbounded hphase fun hnone => ?_
    rw [hq'] at hnone
    cases hnone
  | none =>
    rw [submit_of_none hq]
    have hempty : ∀ q, st.queue = some q → q.length ≤ s.maxsize := by simp [hq]
    split
    · refine h.of_moves ?_ hempty rfl fun _ => h.hand_eq hq
      have hmoves : Moves st.ledger st.ledger.evict.enter := .tail (.single (.evict _)) (.enter _)
      simpa [Ledger.enter, Ledger.evict, ledger, hq] using hmoves
    · refine h.of_moves (.single ?_) hempty rfl fun _ => h.hand_eq hq
      have henter := Move.enter st.ledger
      simpa [Ledger.enter, ledger, hq] using henter

/-- The sink with a queue, before the buffer is submitted. -/
private def opened (st : SinkState) : SinkState :=
  { st with queue := some [], unfinished := 0, stopSet := false, preStart := [] }

theorem Inv.start (h : Inv s st) : Inv s (st.start s) := by
  cases hq : st.queue with
  | some q =>
    unfold SinkState.start
    simpa only [hq] using h
  | none =>
    have hstart : st.start s =
        { st.preStart.foldl (enqueue s) (opened st) with drain := .collecting [] } := by
      unfold SinkState.start
      simp only [hq, opened]
    have hledger : st.ledger = (opened st).ledgerWith st.preStart := by
      simp [ledgerWith, ledger, opened, hq]
    have hbounded₀ : Bounded s (opened st) := by
      rintro q ⟨⟩
      exact Nat.zero_le _
    obtain ⟨hmoves, hbounded, ⟨q, hq'⟩, hphase, hdrain⟩ :=
      foldl_enqueue_moves st.preStart hbounded₀ rfl
    have hhand : (st.preStart.foldl (enqueue s) (opened st)).drain.hand = [] := by
      rw [hdrain]
      exact h.hand_eq hq
    rw [hstart]
    refine h.of_moves ?_ hbounded hphase fun _ => rfl
    rw [hledger]
    convert hmoves using 1
    rw [ledger, ledger, hhand]
    rfl

/-! ## Draining -/

theorem moves_get (st : SinkState) : Moves st.ledger (st.get s).ledger := by
  unfold SinkState.get
  split
  · rename_i buf e q hdrain hq
    have hnext : ∀ b : List Entry, Drain.hand
        (if b.length < s.batch then .collecting b else .sending b 0) = b := by
      intro b
      split <;> rfl
    have htake : st.ledger.take = { st.ledger with waiting := q, held := buf ++ [e] } := by
      simp [Ledger.take, ledger, hq, hdrain, Drain.hand]
    apply Relation.ReflTransGen.single
    convert Move.take st.ledger using 1
    rw [htake, ledger]
    simp only [hnext, Option.getD_some]
    rfl
  · exact .refl

theorem get_queue_le (h : Bounded s st) : Bounded s (st.get s) := by
  unfold SinkState.get
  split
  · rename_i buf e q hdrain hq
    rintro q' hq'
    obtain rfl := Option.some.inj hq'
    exact Nat.le_of_succ_le (h _ hq)
  · exact h

theorem ledger_flush : st.flush.ledger = st.ledger := by
  unfold flush
  split
  · rename_i hdrain
    rw [nextRound_ledger, Ledger.release, ledger, hdrain]
    rfl
  · rename_i hdrain
    exact ledger_withDrain st (by rw [hdrain]; rfl)
  · rfl

/-- An attempt that ends the work on a batch has delivered it, or the batch is dropped. -/
theorem moves_attempt {ans : Ans} (hlossless : Lossless s st (.attempt ans)) :
    Moves st.ledger (st.attempt s ans).ledger := by
  unfold attempt
  split
  case h_2 => exact .refl
  case h_1 events k hdrain =>
    have hhand : st.drain.hand = events := by rw [hdrain, Drain.hand]
    have haccept : Move st.ledger (st.accept s ans events).ledger := by
      rw [← hhand, ledger_accept]
      exact .accept _ _
    have hreached : ∀ e ∈ events, e ∈ (st.accept s ans events).delivered → Reached s st ans e := by
      intro e _ hdel
      rcases List.mem_append.mp hdel with hdel | hdel
      · exact .inl hdel
      · exact .inr ⟨⟨_, _, hdrain⟩, (List.mem_filter.mp hdel).2⟩
    apply Relation.ReflTransGen.head haccept
    simp only
    split
    · rename_i hsucceeded
      rw [nextRound_ledger, ledger_acknowledge]
      refine .single (.release _ fun e he _ => List.mem_append_right _ ?_)
      have he : e ∈ st.drain.hand := he
      exact List.mem_filter.mpr ⟨hhand ▸ he, s.accepted_of_succeeded ans e hsucceeded⟩
    · rename_i hfailed
      have hfailed : s.succeeded ans = false := by simpa using hfailed
      split
      · rename_i hgiveup
        rw [nextRound_ledger, ledger_acknowledge, ← hhand]
        refine .single (.discard _ fun e he hdel => ?_)
        have he : e ∈ events := by
          have he : e ∈ st.drain.hand := he
          rwa [hhand] at he
        exact hlossless events k hdrain hfailed hgiveup e he
          (hreached e he (by rwa [hhand] at hdel))
      · rw [ledger_withDrain (st.accept s ans events)
          (show (Drain.backoff events (k + 1)).hand = st.drain.hand from hhand.symm)]

theorem ledger_backoffElapsed : st.backoffElapsed.ledger = st.ledger := by
  unfold backoffElapsed
  split
  · rename_i hdrain
    exact ledger_withDrain st (by rw [hdrain]; rfl)
  · rfl

theorem moves_backoffStopped (hlossless : Lossless s st .backoffStopped) :
    Moves st.ledger (st.backoffStopped s).ledger := by
  unfold backoffStopped
  split
  case h_2 => exact .refl
  case h_1 events k hdrain hstop =>
    have hhand : st.drain.hand = events := by rw [hdrain, Drain.hand]
    have hkept := hlossless events k hdrain hstop
    simp only
    rw [nextRound_ledger, ledger_acknowledge, ← hhand]
    split at hkept
    · rename_i hdrop
      rw [if_pos hdrop, ledger_dropAll_release]
      exact .single (.discard _ fun e he => hkept e (hhand ▸ he))
    · rename_i hdrop
      rw [if_neg hdrop]
      exact .single (.release _ fun e he => hkept e (hhand ▸ he))

/-- A drain task that ends where it stands lets go of what it holds. -/
theorem moves_abort {ans : Ans} (hfailed : s.succeeded ans = false)
    (hheld : ∀ e ∈ st.drain.hand, st.ledger.Owed e → Reached s st ans e) :
    Moves st.ledger (st.abort s ans).ledger := by
  rw [SinkState.abort, hfailed, if_neg Bool.false_ne_true]
  split
  · rename_i events k hdrain
    have hhand : st.drain.hand = events := by rw [hdrain, Drain.hand]
    simp only
    rw [ledger_ended ((st.accept s ans events).acknowledge s st.drain.hand), ledger_acknowledge,
      ← hhand, ledger_accept]
    refine .tail (.single (.accept _ _)) (.release _ fun e he howed => ?_)
    rcases hheld e he howed with hdel | ⟨_, hacc⟩
    · exact List.mem_append_left _ hdel
    · exact List.mem_append_right _ (List.mem_filter.mpr ⟨he, hacc⟩)
  · rename_i hsending
    simp only
    rw [ledger_ended (st.acknowledge s st.drain.hand), ledger_acknowledge]
    refine .single (.release _ fun e he howed => ?_)
    rcases hheld e he howed with hdel | ⟨⟨events, k, hdrain⟩, _⟩
    · exact hdel
    · exact absurd hdrain (hsending events k)

/-! ## What a step leaves alone

Only `submit`, `start` and `get` touch the queue, and only the steps of `stop` touch its phase. -/

/-- The step leaves the queue and the phase of `stop` as they are, and takes nothing in hand. -/
structure Frame (st st' : SinkState) : Prop where
  queue : st'.queue = st.queue
  preStart : st'.preStart = st.preStart
  stopPhase : st'.stopPhase = st.stopPhase
  beforeStop : st'.beforeStop = st.beforeStop
  hand : st.drain.hand = [] → st'.drain.hand = []

namespace Frame

variable {st' st'' : SinkState}

theorem refl (st : SinkState) : Frame st st := ⟨rfl, rfl, rfl, rfl, id⟩

theorem trans (h : Frame st st') (h' : Frame st' st'') : Frame st st'' :=
  ⟨h'.queue.trans h.queue, h'.preStart.trans h.preStart, h'.stopPhase.trans h.stopPhase,
    h'.beforeStop.trans h.beforeStop, h'.hand ∘ h.hand⟩

theorem nextRound (st : SinkState) : Frame st st.nextRound := by
  unfold SinkState.nextRound
  split <;> exact ⟨rfl, rfl, rfl, rfl, fun _ => rfl⟩

theorem acknowledge (st : SinkState) (events : List Entry) : Frame st (st.acknowledge s events) := by
  unfold SinkState.acknowledge
  split <;> exact ⟨rfl, rfl, rfl, rfl, id⟩

theorem dropAll (st : SinkState) (events : List Entry) : Frame st (st.dropAll events) :=
  ⟨rfl, rfl, rfl, rfl, id⟩

theorem accept (st : SinkState) (ans : Ans) (events : List Entry) :
    Frame st (st.accept s ans events) := ⟨rfl, rfl, rfl, rfl, id⟩

theorem flush (st : SinkState) : Frame st st.flush := by
  unfold SinkState.flush
  split
  · exact nextRound st
  · rename_i hdrain
    refine ⟨rfl, rfl, rfl, rfl, fun h => ?_⟩
    rwa [hdrain] at h
  · exact refl st

theorem attempt (st : SinkState) (ans : Ans) : Frame st (st.attempt s ans) := by
  unfold SinkState.attempt
  split
  · rename_i events k hdrain
    apply (accept (s := s) st ans events).trans
    simp only
    split
    · exact (acknowledge _ _).trans (nextRound _)
    · split
      · exact (dropAll _ _).trans ((acknowledge _ _).trans (nextRound _))
      · refine ⟨rfl, rfl, rfl, rfl, fun h => ?_⟩
        rwa [SinkState.accept, hdrain] at h
  · exact refl st

theorem backoffElapsed (st : SinkState) : Frame st st.backoffElapsed := by
  unfold SinkState.backoffElapsed
  split
  · rename_i hdrain
    refine ⟨rfl, rfl, rfl, rfl, fun h => ?_⟩
    rwa [hdrain] at h
  · exact refl st

theorem backoffStopped (st : SinkState) : Frame st (st.backoffStopped s) := by
  unfold SinkState.backoffStopped
  split
  · simp only
    split
    · exact (dropAll _ _).trans ((acknowledge _ _).trans (nextRound _))
    · exact (acknowledge _ _).trans (nextRound _)
  · exact refl st

theorem abort (st : SinkState) (ans : Ans) : Frame st (st.abort s ans) := by
  have hended : ∀ st' : SinkState, Frame st' { st' with drain := .ended } := fun _ =>
    ⟨rfl, rfl, rfl, rfl, fun _ => rfl⟩
  unfold SinkState.abort
  split
  · exact refl st
  · simp only
    split
    · exact ((accept _ _ _).trans (acknowledge _ _)).trans (hended _)
    · exact (acknowledge _ _).trans (hended _)

end Frame

theorem Inv.of_frame {st' : SinkState} (h : Inv s st) (hmoves : Moves st.ledger st'.ledger)
    (hframe : Frame st st') : Inv s st' := by
  refine h.of_moves hmoves (fun q hq => h.bounded q ?_) hframe.stopPhase fun hnone => ?_
  · rwa [hframe.queue] at hq
  · rw [hframe.queue] at hnone
    exact hframe.hand (h.hand_eq hnone)

theorem Inv.get (h : Inv s st) : Inv s (st.get s) := by
  refine h.of_moves (moves_get st) (get_queue_le h.bounded) ?_ ?_
  · unfold SinkState.get
    split <;> rfl
  · unfold SinkState.get
    split
    · rintro ⟨⟩
    · exact h.hand_eq

/-! ## Stopping -/

theorem Inv.stopCall (h : Inv s st) (hlossless : Lossless s st .stopCall) : Inv s st.stopCall := by
  have hclose : st.stopPhase = .notCalled → Sound
      { st.ledger with closed := some st.submitted } := by
    intro hphase
    have hsound := h.sound.close
    rwa [Ledger.close, show st.ledger.closed = none from h.open_iff.mpr hphase] at hsound
  unfold SinkState.stopCall
  split
  · rename_i hphase hq
    have hempty := hlossless hphase hq
    refine ⟨hclose hphase, h.bounded, by simp, h.hand_eq, fun _ e he => ?_⟩
    have hnone : st.queue.getD st.preStart ++ st.drain.hand = [] := by
      rw [hq, h.hand_eq hq, hempty]
      rfl
    have he : e ∈ st.queue.getD st.preStart ++ st.drain.hand := he
    rw [hnone] at he
    cases he
  · rename_i hphase hq
    exact ⟨hclose hphase, h.bounded, by simp, h.hand_eq, fun hret => by cases hret⟩
  · exact h

/-- The steps of `stop` after it has been called only advance its phase. -/
theorem Inv.withPhase (h : Inv s st) {phase : StopPhase} (hcalled : st.stopPhase ≠ .notCalled)
    (hphase : phase ≠ .notCalled) (hquiet : phase = .returned → st.ledger.Quiet) :
    Inv s { st with stopPhase := phase } where
  sound := h.sound
  bounded := h.bounded
  open_iff := iff_of_false (mt h.open_iff.mp hcalled) hphase
  hand_eq := h.hand_eq
  quiet := hquiet

theorem Inv.joinDone (h : Inv s st) : Inv s st.joinDone := by
  unfold SinkState.joinDone
  split
  · rename_i hphase
    split
    · exact h.withPhase (by rw [hphase]; decide) (by decide) fun hret => by cases hret
    · exact h
  · exact h

theorem Inv.joinTimeout (h : Inv s st) : Inv s st.joinTimeout := by
  unfold SinkState.joinTimeout
  split
  · rename_i hphase
    exact h.withPhase (by rw [hphase]; decide) (by decide) fun hret => by cases hret
  · exact h

theorem Inv.cancel {ans : Ans} (h : Inv s st) (hlossless : Lossless s st (.cancel ans)) :
    Inv s (st.cancel s ans) := by
  unfold SinkState.cancel
  split
  · rename_i hphase
    split
    · exact h
    · rename_i hfailed
      have hfailed : s.succeeded ans = false := by simpa using hfailed
      obtain ⟨hwaiting, hheld⟩ := hlossless hphase hfailed
      have hframe := Frame.abort (s := s) st ans
      have hinv := h.of_frame (moves_abort hfailed hheld) hframe
      refine hinv.withPhase (by rw [hframe.stopPhase, hphase]; decide) (by decide) fun _ e he => ?_
      have hended : (st.abort s ans).drain.hand = [] := by
        rw [SinkState.abort, hfailed]
        rfl
      have hmem : e ∈ st.queue.getD st.preStart := by
        have he : e ∈ (st.abort s ans).queue.getD (st.abort s ans).preStart ++
          (st.abort s ans).drain.hand := he
        rwa [hended, List.append_nil, hframe.queue, hframe.preStart] at he
      have hwaiting := hwaiting e hmem
      have hcalled : st.beforeStop ≠ none := fun hnone => by
        rw [h.open_iff.mp hnone] at hphase
        cases hphase
      obtain ⟨n, hn⟩ := Option.ne_none_iff_exists'.mp hcalled
      rw [Ledger.Owed, ledger, hn] at hwaiting
      rwa [Ledger.Owed, ledger, hframe.beforeStop, hn]
  · exact h

/-! ## Runs -/

/-- A lossless step keeps the invariant. -/
theorem Inv.step (h : Inv s st) {act : SinkAction Ans} (hlossless : Lossless s st act) :
    Inv s (step s st act) := by
  cases act with
  | submit => exact h.submit
  | start => exact h.start
  | get => exact h.get
  | flush => exact h.of_frame (ledger_flush ▸ .refl) (.flush st)
  | attempt ans => exact h.of_frame (moves_attempt hlossless) (.attempt st ans)
  | abort ans =>
    rw [Sinks.step]
    split
    · rename_i events k hdrain
      by_cases hfailed : s.succeeded ans = false
      · refine h.of_frame (moves_abort hfailed fun e he => ?_) (.abort st ans)
        rw [hdrain] at he
        exact hlossless events k hdrain hfailed e he
      · rw [SinkState.abort, if_pos (by simpa using hfailed)]
        exact h
    · exact h
  | backoffElapsed => exact h.of_frame (ledger_backoffElapsed ▸ .refl) (.backoffElapsed st)
  | backoffStopped => exact h.of_frame (moves_backoffStopped hlossless) (.backoffStopped st)
  | stopCall => exact h.stopCall hlossless
  | joinDone => exact h.joinDone
  | joinTimeout => exact h.joinTimeout
  | cancel ans => exact h.cancel hlossless

/-- **Audit events are conserved** in every run, of each of the three sinks, whose steps are all
lossless. -/
theorem conserved_of_lossless (kind : SinkKind) (args : SinkArgs)
    (acts : List (SinkAction kind.Ans))
    (hlossless : Runs.EachStep (step (kind.sink args)) (Lossless (kind.sink args)) .init acts) :
    (Runs.exec (step (kind.sink args)) .init acts).Conserved :=
  (Runs.exec_induction Inv.init (fun _ _ h hact => h.step hact) hlossless).conserved

/-- A full queue of one drops an event and delivers the next. -/
theorem conserved_of_lossless_overflow :
    let s := SinkKind.queued.sink { maxsize := 1 }
    let st := Runs.exec (step s) .init
      [.start, .submit, .submit, .get, .attempt .delivered, .stopCall, .joinDone, .cancel .raised]
    st.Conserved ∧ st.stopPhase = .returned ∧ st.delivered = [1] ∧ st.drops = [0] := by
  refine ⟨conserved_of_lossless .queued { maxsize := 1 } _ ?_, by decide, by decide, by decide⟩
  refine Runs.eachStep_cons trivial (Runs.eachStep_cons trivial (Runs.eachStep_cons trivial
    (Runs.eachStep_cons trivial (Runs.eachStep_cons ?_ (Runs.eachStep_cons ?_
    (Runs.eachStep_cons trivial (Runs.eachStep_cons ?_ Runs.eachStep_nil)))))))
  · rintro events k - ⟨⟩
  · intro _ hnone
    cases hnone
  · rintro - -
    exact ⟨fun _ he => absurd he List.not_mem_nil, fun _ he => absurd he List.not_mem_nil⟩

/-- An event whose backoff `stop` cuts short is lost by `QueuedSink` without a report. -/
theorem not_conserved_of_interrupted_backoff :
    ¬ (Runs.exec (step (SinkKind.queued.sink {})) .init
      [.start, .submit, .get, .attempt .raised, .stopCall, .backoffStopped, .joinDone,
        .cancel .raised]).Conserved := by
  intro h
  obtain ⟨hsettled, -⟩ := h rfl
  rcases hsettled 0 (by decide) with ⟨hdel, -⟩ | ⟨-, hdrop⟩
  · cases hdel
  · cases hdrop

end WazuhMcp.Sinks
