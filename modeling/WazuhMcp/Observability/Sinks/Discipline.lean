import WazuhMcp.Foundations.Runs
import WazuhMcp.Observability.Sinks.Queued

/-!
# The discipline of the queue

What holds of `QueuedSink` in every run of submissions, of `start` and of the drain task, however their
steps are interleaved and whatever `_deliver` and `_record_drop` do.

* `inv_step`, `stepLaw_step`: what every step keeps, and what it does to the buffer.
* `raised_step`: `submit` raises nothing that `_record_drop` does not raise past `except Exception`.
* `escapeLaw_proceed`: what it raises past that, `submit` raises, and does not acknowledge what it has evicted.
* `disciplined_after`: the buffer is bounded, the events leave it in order, an overflow evicts the oldest,
  and each event taken is acknowledged once.
-/

namespace WazuhMcp.Sinks

/-! ## The discipline -/

namespace QueuedSink

variable {m : ℕ}

/-- What the queue holds. -/
def items (st : QueuedSink m) : List Entry := (st.queue.map (·.items)).getD []

/-- The event of the call of `submit` that is under way. -/
def submitting (st : QueuedSink m) : List Entry := (st.call.map (·.1)).toList

/-- The loop in `start` has an event in its hands, on the way from the list to the queue. -/
def moving (st : QueuedSink m) : List Entry := if st.flushing.isSome then st.submitting else []

/-- The events that are buffered, the oldest first. -/
def buffered (st : QueuedSink m) : List Entry :=
  st.preStart ++ st.items ++ st.moving ++ st.flushing.getD []

/-- The events for which an overflow has been recorded. -/
def overflows (st : QueuedSink m) : List Entry :=
  (st.drops.filter (·.2 = .overflow)).map (·.1)

/-- What holds after every run: the buffer is bounded, what has been delivered is a subsequence of what
was submitted, and each event taken out of the queue has been acknowledged once, unless the drain task is
at it or `submit` has raised. -/
structure Disciplined (st : QueuedSink m) : Prop where
  bounded : st.buffered.length ≤ m
  ordered : st.delivered.Sublist (List.range st.submitted)
  once : st.taken.Nodup
  atMost : ∀ e, st.acked.count e + st.drain.hand.count e ≤ st.taken.count e
  acked : st.raised = [] → ∀ e, st.acked.count e + st.drain.hand.count e = st.taken.count e

/-- What a step does to the buffer. -/
inductive BufferStep (st st' : QueuedSink m) : Prop where
  /-- nothing is evicted: the event being submitted may have been added -/
  | kept (new : List Entry) (hnew : new.Sublist st.submitting)
    (hbuffered : st'.buffered = st.buffered ++ new) (hoverflows : st'.overflows = st.overflows)
  /-- the drain task takes the oldest -/
  | took (e : Entry) (hbuffered : st.buffered = e :: st'.buffered)
    (hdrain : st.drain = .waiting) (hoverflows : st'.overflows = st.overflows)
  /-- the oldest is evicted with a record of its own, which is not the event being submitted -/
  | evicted (oldest : Entry) (rest new : List Entry) (hnew : new.Sublist st.submitting)
    (hbuffered : st.buffered = oldest :: rest) (hbuffered' : st'.buffered = rest ++ new)
    (hoverflows : st'.overflows = st.overflows ++ [oldest]) (hother : oldest ∉ st.submitting)

/-- What holds of every step: what it does to the buffer, and that a call of `submit` does not end before
its event is in the buffer, unless it raises. -/
structure StepLaw (st st' : QueuedSink m) : Prop where
  buffer : BufferStep st st'
  arrives : ∀ e ∈ st.submitting, st'.call = none → e ∈ st'.buffered ∨ st'.raised ≠ st.raised

/-- What holds of a step in which `submit` has had an overflow recorded, and `_record_drop` has raised what gets
past `except Exception`: `submit` raises it too, and what it has taken from the queue is not acknowledged. -/
structure EscapeLaw (st st' : QueuedSink m) (x : Exn) : Prop where
  raised : st'.raised = st.raised ++ [x]
  ended : st'.call = none
  evicted : ∃ oldest, st'.overflows = st.overflows ++ [oldest] ∧
    st'.taken = st.taken ++ if st.queue.isSome then [oldest] else []
  unacknowledged : st'.acked = st.acked

/-! ## The invariant -/

/-- The events that are still to be taken, in their order. -/
def waiting (st : QueuedSink m) : List Entry :=
  st.preStart ++ st.items ++ st.submitting ++ st.flushing.getD []

/-- The invariant of the runs. `lost` are the events for which `task_done` was skipped, because `submit`
has raised before it. -/
structure QueueInv (st : QueuedSink m) : Prop where
  order : (st.taken ++ st.waiting).Sublist (List.range st.submitted)
  sent : (st.delivered ++ st.drain.hand).Sublist st.taken
  acked : ∃ lost : List Entry, (st.raised = [] → lost = []) ∧
    ∀ e, st.acked.count e + st.drain.hand.count e + lost.count e = st.taken.count e
  unfinished : ∀ q, st.queue = some q → q.items.length + st.drain.hand.length ≤ q.unfinished
  preBounded : st.preStart.length ≤ m
  unopened : st.queue = none → st.flushing = none ∧ st.drain = .unstarted
  opened : st.queue ≠ none → st.preStart = []
  undrained : st.flushing ≠ none → st.drain = .unstarted
  flushFirst : st.flushing ≠ none → ∀ e phase, st.call = some (e, phase) → phase = .firstPut
  flushBounded : ∀ rest, st.flushing = some rest →
    st.items.length + st.submitting.length + rest.length ≤ m
  room : ∀ e, st.call = some (e, .lastPut) → st.items.length < m

theorem queueInv_init : QueueInv ({} : QueuedSink m) where
  order := List.Sublist.refl _
  sent := List.Sublist.refl _
  acked := ⟨[], fun _ => rfl, fun _ => rfl⟩
  unfinished _ := nofun
  preBounded := Nat.zero_le _
  unopened _ := ⟨rfl, rfl⟩
  opened h := absurd rfl h
  undrained _ := rfl
  flushFirst _ _ _ := nofun
  flushBounded _ := nofun
  room _ := nofun

theorem items_of_none {st : QueuedSink m} (hqueue : st.queue = none) : st.items = [] := by
  rw [items, hqueue]
  rfl

theorem items_of_some {st : QueuedSink m} {q : TaskQueue Entry m} (hqueue : st.queue = some q) :
    st.items = q.items := by
  rw [items, hqueue]
  rfl

theorem submitting_of_none {st : QueuedSink m} (hcall : st.call = none) : st.submitting = [] := by
  rw [submitting, hcall]
  rfl

theorem submitting_of_some {st : QueuedSink m} {e : Entry} {phase : SubmitPhase}
    (hcall : st.call = some (e, phase)) : st.submitting = [e] := by
  rw [submitting, hcall]
  rfl

namespace QueueInv

variable {st : QueuedSink m} {q : TaskQueue Entry m} {e : Entry} {phase : SubmitPhase}

theorem nodup (h : QueueInv st) : (st.taken ++ st.waiting).Nodup := h.order.nodup List.nodup_range

/-- The event being submitted is not among those before it. -/
theorem not_mem_submitting (h : QueueInv st) (he : e ∈ st.preStart ++ st.items) :
    e ∉ st.submitting := by
  have hwaiting := (List.nodup_append.mp h.nodup).2.1
  have hfront := (List.nodup_append.mp hwaiting).1
  exact fun he' => (List.nodup_append.mp hfront).2.2 e he e he' rfl

theorem disciplined (h : QueueInv st) : Disciplined st where
  bounded := by
    unfold buffered moving
    cases hqueue : st.queue with
    | none =>
      simp [items_of_none hqueue, (h.unopened hqueue).1, h.preBounded]
    | some q =>
      rw [h.opened (by simp [hqueue])]
      cases hflushing : st.flushing with
      | none => simp [items_of_some hqueue, q.bounded]
      | some rest =>
        have hbounded := h.flushBounded rest hflushing
        simp only [List.nil_append, Option.isSome_some, if_true, Option.getD_some, List.length_append]
        exact hbounded
  ordered := by
    have hsent : st.delivered.Sublist st.taken := (List.sublist_append_left _ _).trans h.sent
    exact hsent.trans ((List.sublist_append_left _ _).trans h.order)
  once := h.nodup.of_append_left
  atMost e := by
    obtain ⟨lost, -, hcount⟩ := h.acked
    have := hcount e
    omega
  acked hquiet e := by
    obtain ⟨lost, hlost, hcount⟩ := h.acked
    have := hcount e
    rwa [hlost hquiet, List.count_nil, Nat.add_zero] at this

/-! ### Submitting -/

theorem submit (h : QueueInv st) : QueueInv st.submit := by
  unfold QueuedSink.submit
  split
  · rename_i hcall hflushing
    have hwaiting : st.waiting = st.preStart ++ st.items := by
      simp [waiting, submitting_of_none hcall, hflushing]
    refine { h with
      order := ?_, flushFirst := fun hsome => absurd hflushing hsome, flushBounded := ?_, room := nofun }
    · show (st.taken ++ (st.preStart ++ st.items ++ [st.submitted] ++ st.flushing.getD [])).Sublist _
      have horder := h.order
      rw [hwaiting] at horder
      rw [hflushing, Option.getD_none, List.append_nil, ← List.append_assoc, List.range_succ]
      exact List.Sublist.append horder (List.Sublist.refl _)
    · intro rest hrest
      cases hflushing.symm.trans hrest
  · exact h

theorem buffer (h : QueueInv st) (hm : 0 < m) (hcall : st.call = some (e, phase))
    (hqueue : st.queue = none) (recorded : Option Exn) : QueueInv (st.buffer e recorded) := by
  have hflushing := (h.unopened hqueue).1
  have horder := h.order
  have hbounded := h.preBounded
  rw [waiting, items_of_none hqueue, submitting_of_some hcall, hflushing] at horder
  simp only [List.append_nil, Option.getD_none] at horder
  have hflush : ∀ rest, st.flushing = some rest → st.items.length + 0 + rest.length ≤ m := by
    intro rest hrest
    cases hflushing.symm.trans hrest
  rcases @buffer_cases _ st e recorded hm with
    ⟨hbuffer, hfree⟩ | ⟨oldest, rest, hpre, ⟨-, hbuffer⟩ | ⟨x, -, hbuffer⟩⟩
  · rw [hbuffer]
    refine { h with
      order := ?_, preBounded := ?_, opened := fun hopen => absurd hqueue hopen,
      flushFirst := fun _ _ _ => nofun, flushBounded := hflush, room := nofun }
    · show (st.taken ++ (st.preStart ++ [e] ++ st.items ++ [] ++ st.flushing.getD [])).Sublist _
      rw [items_of_none hqueue, hflushing]
      simpa using horder
    · show (st.preStart ++ [e]).length ≤ m
      rw [List.length_append, List.length_singleton]
      omega
  · rw [hbuffer]
    rw [hpre] at horder hbounded
    refine { h with
      order := ?_, preBounded := ?_, opened := fun hopen => absurd hqueue hopen,
      flushFirst := fun _ _ _ => nofun, flushBounded := hflush, room := nofun }
    · show (st.taken ++ (rest ++ [e] ++ st.items ++ [] ++ st.flushing.getD [])).Sublist _
      rw [items_of_none hqueue, hflushing]
      simp only [List.append_nil, Option.getD_none]
      refine List.Sublist.trans ?_ horder
      exact List.Sublist.append (List.Sublist.refl _) (List.sublist_cons_self _ _)
    · show (rest ++ [e]).length ≤ m
      simpa using hbounded
  · rw [hbuffer]
    rw [hpre] at horder hbounded
    rw [List.length_cons] at hbounded
    refine { h with
      order := ?_, acked := ?_, preBounded := ?_, unopened := fun _ => ⟨rfl, (h.unopened hqueue).2⟩,
      opened := fun hopen => absurd hqueue hopen, undrained := fun hno => absurd rfl hno,
      flushFirst := fun _ _ _ => nofun, flushBounded := nofun, room := nofun }
    · show (st.taken ++ (rest ++ st.items ++ [] ++ [])).Sublist _
      rw [items_of_none hqueue]
      simp only [List.append_nil]
      refine List.Sublist.trans ?_ horder
      refine List.Sublist.append (List.Sublist.refl _) ?_
      exact (List.sublist_append_left _ _).trans (List.sublist_cons_self _ _)
    · obtain ⟨lost, -, hcount⟩ := h.acked
      exact ⟨lost, fun hquiet => absurd hquiet (by simp), hcount⟩
    · show rest.length ≤ m
      omega

/-- A call that goes on to another phase, which it does not in the loop of `start`. -/
theorem goOn (h : QueueInv st) (hcall : st.call = some (e, phase)) (hflushing : st.flushing = none)
    {phase' : SubmitPhase} (hroom : phase' = .lastPut → st.items.length < m) :
    QueueInv { st with call := some (e, phase') } := by
  refine { h with
    order := ?_, flushFirst := fun hsome => absurd hflushing hsome, flushBounded := ?_, room := ?_ }
  · have horder := h.order
    rw [waiting, submitting_of_some hcall] at horder
    exact horder
  · intro rest hrest
    cases hflushing.symm.trans hrest
  · intro e' he'
    exact hroom (Prod.mk.inj (Option.some.inj he')).2

/-- In the loop of `start` there is room for every event. -/
theorem not_flushing_of_full (h : QueueInv st) (hcall : st.call = some (e, phase))
    (hqueue : st.queue = some q) (hfull : q.items.length = m) : st.flushing = none := by
  cases hflushing : st.flushing with
  | none => rfl
  | some rest =>
    have hbounded := h.flushBounded rest hflushing
    rw [items_of_some hqueue, submitting_of_some hcall, List.length_singleton] at hbounded
    omega

theorem not_flushing_of_phase (h : QueueInv st) (hcall : st.call = some (e, phase))
    (hphase : phase ≠ .firstPut) : st.flushing = none :=
  of_not_not fun hsome => hphase (h.flushFirst hsome e phase hcall)

theorem tryPut (h : QueueInv st) (hcall : st.call = some (e, phase)) (hqueue : st.queue = some q)
    {full : QueuedSink m} (hfull : q.items.length = m → QueueInv full) :
    QueueInv (st.tryPut q e full) := by
  rcases @tryPut_cases _ st q e full with ⟨q', hitems, hunfinished, hput⟩ | ⟨hlength, hput⟩
  · have hpre : st.preStart = [] := h.opened (by simp [hqueue])
    rw [hput]
    refine { h with
      order := ?_, unfinished := ?_, unopened := nofun, opened := fun _ => hpre,
      flushFirst := fun _ _ _ => nofun, flushBounded := ?_, room := nofun }
    · have horder := h.order
      rw [waiting, items_of_some hqueue, submitting_of_some hcall] at horder
      show (st.taken ++ (st.preStart ++ q'.items ++ [] ++ st.flushing.getD [])).Sublist _
      rw [hitems]
      simpa using horder
    · rintro q'' hq''
      obtain rfl := Option.some.inj hq''
      have htasks := h.unfinished q hqueue
      rw [hunfinished, hitems, List.length_append, List.length_singleton]
      show _ + st.drain.hand.length ≤ _
      omega
    · intro rest hrest
      have hbounded := h.flushBounded rest hrest
      rw [items_of_some hqueue, submitting_of_some hcall] at hbounded
      show q'.items.length + 0 + rest.length ≤ m
      rw [hitems, List.length_append]
      exact hbounded
  · rw [hput]
    exact hfull hlength

theorem evictOldest (h : QueueInv st) (hm : 0 < m) (hcall : st.call = some (e, .evict))
    (hqueue : st.queue = some q) (recorded : Option Exn) : QueueInv (st.evictOldest q e recorded) := by
  have hitems := items_of_some hqueue
  have hpre : st.preStart = [] := h.opened (by simp [hqueue])
  have hflushing := h.not_flushing_of_phase hcall nofun
  have htasks := h.unfinished q hqueue
  have hbounded := q.bounded
  obtain ⟨lost, hlost, hcount⟩ := h.acked
  have horder := h.order
  rcases @evictOldest_cases _ st q e recorded (by omega) with
    ⟨hempty, hevict⟩ | ⟨oldest, q', hq, ⟨-, hleft, hevict⟩ | ⟨x, -, hleft, hevict⟩⟩
  · rw [hevict]
    exact h.goOn hcall hflushing fun _ => by rw [hitems, hempty]; exact hm
  · rw [hevict]
    rw [hq, List.length_cons] at htasks hbounded
    refine { h with
      order := ?_, sent := h.sent.trans (List.sublist_append_left _ _), acked := ?_, unfinished := ?_,
      unopened := nofun, opened := fun _ => hpre, flushFirst := fun hsome => absurd hflushing hsome,
      flushBounded := ?_, room := ?_ }
    · rw [waiting, hitems, hq, hpre, submitting_of_some hcall] at horder
      show (st.taken ++ [oldest] ++ (st.preStart ++ q'.items ++ [e] ++ st.flushing.getD [])).Sublist _
      rw [hpre]
      simpa using horder
    · refine ⟨lost, hlost, fun e' => ?_⟩
      have := hcount e'
      show (st.acked ++ [oldest]).count e' + st.drain.hand.count e' + _ = (st.taken ++ [oldest]).count e'
      rw [List.count_append, List.count_append]
      omega
    · rintro q'' hq''
      obtain rfl := Option.some.inj hq''
      show _ + st.drain.hand.length ≤ _
      omega
    · intro rest hrest
      cases hflushing.symm.trans hrest
    · intro e' _
      show q'.items.length < m
      omega
  · rw [hevict]
    rw [hq, List.length_cons] at htasks
    refine { h with
      order := ?_, sent := h.sent.trans (List.sublist_append_left _ _), acked := ?_, unfinished := ?_,
      unopened := nofun, opened := fun _ => hpre, undrained := fun hno => absurd rfl hno,
      flushFirst := fun _ _ _ => nofun, flushBounded := nofun, room := nofun }
    · rw [waiting, hitems, hq, hpre, hflushing, submitting_of_some hcall] at horder
      show (st.taken ++ [oldest] ++ (st.preStart ++ q'.items ++ [] ++ [])).Sublist _
      rw [hpre]
      refine List.Sublist.trans ?_ horder
      simp
    · refine ⟨lost ++ [oldest], fun hquiet => absurd hquiet (by simp), fun e' => ?_⟩
      have := hcount e'
      show st.acked.count e' + st.drain.hand.count e' + _ = (st.taken ++ [oldest]).count e'
      rw [List.count_append, List.count_append]
      omega
    · rintro q'' hq''
      obtain rfl := Option.some.inj hq''
      show _ + st.drain.hand.length ≤ _
      omega

theorem proceed (h : QueueInv st) (hm : 0 < m) (recorded : Option Exn) :
    QueueInv (st.proceed recorded) := by
  unfold QueuedSink.proceed
  split
  · exact h
  · rename_i hcall hqueue
    exact h.buffer hm hcall hqueue recorded
  · rename_i hcall hqueue
    refine h.tryPut hcall hqueue fun hfull => ?_
    exact h.goOn hcall (h.not_flushing_of_full hcall hqueue hfull) nofun
  · rename_i hcall hqueue
    exact h.tryPut hcall hqueue fun _ => h.goOn hcall (h.not_flushing_of_phase hcall nofun) nofun
  · rename_i hcall hqueue
    exact h.evictOldest hm hcall hqueue recorded
  · rename_i e q hcall hqueue
    refine h.tryPut hcall hqueue fun hfull => ?_
    have hroom := h.room e hcall
    rw [items_of_some hqueue] at hroom
    omega

/-! ### Starting -/

theorem start (h : QueueInv st) : QueueInv st.start := by
  unfold QueuedSink.start
  split
  · rename_i hqueue hcall
    obtain ⟨hflushing, hdrain⟩ := h.unopened hqueue
    refine { h with
      order := ?_, unfinished := ?_, preBounded := Nat.zero_le _, unopened := nofun,
      opened := fun _ => rfl, undrained := fun _ => hdrain, flushFirst := ?_, flushBounded := ?_,
      room := ?_ }
    · have horder := h.order
      rw [waiting, items_of_none hqueue, submitting_of_none hcall, hflushing] at horder
      show (st.taken ++ ([] ++ [] ++ st.submitting ++ st.preStart)).Sublist _
      rw [submitting_of_none hcall]
      simpa using horder
    · rintro q hq
      obtain rfl := Option.some.inj hq
      show 0 + st.drain.hand.length ≤ 0
      rw [hdrain]
      exact Nat.le_refl 0
    · intro _ e phase he
      cases hcall.symm.trans he
    · rintro rest hrest
      obtain rfl := Option.some.inj hrest
      show 0 + st.submitting.length + st.preStart.length ≤ m
      rw [submitting_of_none hcall]
      simpa using h.preBounded
    · intro e he
      cases hcall.symm.trans he
  · exact h

theorem flush (h : QueueInv st) : QueueInv st.flush := by
  unfold QueuedSink.flush
  split
  · rename_i e rest hflushing hcall
    have horder := h.order
    have hbounded := h.flushBounded _ hflushing
    rw [waiting, submitting_of_none hcall, hflushing] at horder
    rw [submitting_of_none hcall, List.length_cons, List.length_nil] at hbounded
    have hdrain := h.undrained (by simp [hflushing])
    refine { h with
      order := ?_, unopened := ?_, undrained := fun _ => hdrain, flushFirst := ?_, flushBounded := ?_,
      room := nofun }
    · show (st.taken ++ (st.preStart ++ st.items ++ [e] ++ rest)).Sublist _
      simpa using horder
    · intro hqueue
      cases hflushing.symm.trans (h.unopened hqueue).1
    · intro _ e' phase he'
      exact (Prod.mk.inj (Option.some.inj he')).2.symm
    · rintro rest' hrest
      obtain rfl := Option.some.inj hrest
      show st.items.length + [e].length + rest.length ≤ m
      rw [List.length_singleton]
      omega
  · rename_i hflushing hcall
    have hdrain := h.undrained (by simp [hflushing])
    have horder := h.order
    have hsent := h.sent
    have hacked := h.acked
    have hunfinished := h.unfinished
    rw [waiting, hflushing] at horder
    rw [hdrain] at hsent hacked hunfinished
    refine { h with
      order := horder, sent := hsent, acked := hacked, unfinished := hunfinished, unopened := ?_,
      undrained := fun hno => absurd rfl hno, flushFirst := fun hno => absurd rfl hno,
      flushBounded := nofun }
    intro hqueue
    cases hflushing.symm.trans (h.unopened hqueue).1
  · exact h

/-! ### Draining -/

theorem not_flushing_of_drain (h : QueueInv st) (hdrain : st.drain ≠ .unstarted) :
    st.flushing = none :=
  of_not_not fun hsome => hdrain (h.undrained hsome)

/-- The drain task is done with the event in its hand, which may have been delivered or dropped. -/
theorem acknowledge (h : QueueInv st) (hqueue : st.queue = some q) (hhand : st.drain.hand = [e])
    {next : DrainPhase} (hnext : next.hand = []) {delivered : List Entry}
    (hdelivered : delivered.Sublist st.taken) (drops : List (Entry × DropReason)) :
    QueueInv ({ st with delivered := delivered, drops := drops }.acknowledge q e next) := by
  have htasks := h.unfinished q hqueue
  rw [hhand, List.length_singleton] at htasks
  have hflushing : st.flushing = none :=
    h.not_flushing_of_drain fun hdrain => by rw [hdrain] at hhand; cases hhand
  obtain ⟨lost, hlost, hcount⟩ := h.acked
  obtain ⟨q', hitems, hleft, hack⟩ := @acknowledge_eq _
    { st with delivered := delivered, drops := drops } q e (by omega) next
  rw [hack]
  refine { h with
    order := ?_, sent := ?_, acked := ⟨lost, hlost, fun e' => ?_⟩, unfinished := ?_, unopened := nofun,
    opened := fun _ => h.opened (by simp [hqueue]), undrained := fun hsome => absurd hflushing hsome,
    flushFirst := fun hsome => absurd hflushing hsome, flushBounded := ?_, room := ?_ }
  · have horder := h.order
    rw [waiting, items_of_some hqueue] at horder
    show (st.taken ++ (st.preStart ++ q'.items ++ st.submitting ++ st.flushing.getD [])).Sublist _
    rwa [hitems]
  · show (delivered ++ next.hand).Sublist st.taken
    rwa [hnext, List.append_nil]
  · have := hcount e'
    rw [hhand] at this
    show (st.acked ++ [e]).count e' + next.hand.count e' + _ = _
    rw [hnext, List.count_append, List.count_nil]
    exact this
  · rintro q'' hq''
    obtain rfl := Option.some.inj hq''
    show _ + next.hand.length ≤ _
    rw [hnext, hitems, List.length_nil]
    omega
  · intro rest hrest
    cases hflushing.symm.trans hrest
  · intro e' he'
    have hroom := h.room e' he'
    rw [items_of_some hqueue, ← hitems] at hroom
    exact hroom

theorem take (h : QueueInv st) (hdrain : st.drain = .waiting) (hqueue : st.queue = some q)
    {q' : TaskQueue Entry m} (hq : q.items = e :: q'.items) (hunfinished : q'.unfinished = q.unfinished) :
    QueueInv (st.take q' e) := by
  have hpre : st.preStart = [] := h.opened (by simp [hqueue])
  have hflushing : st.flushing = none := h.not_flushing_of_drain (by simp [hdrain])
  have hhand : st.drain.hand = [] := by rw [hdrain]; rfl
  have htasks := h.unfinished q hqueue
  rw [hhand, hq, List.length_cons, List.length_nil] at htasks
  obtain ⟨lost, hlost, hcount⟩ := h.acked
  refine { h with
    order := ?_, sent := ?_, acked := ⟨lost, hlost, fun e' => ?_⟩, unfinished := ?_, unopened := nofun,
    opened := fun _ => hpre, undrained := fun hsome => absurd hflushing hsome,
    flushFirst := fun hsome => absurd hflushing hsome, flushBounded := ?_, room := ?_ }
  · have horder := h.order
    rw [waiting, items_of_some hqueue, hq, hpre] at horder
    show (st.taken ++ [e] ++ (st.preStart ++ q'.items ++ st.submitting ++ st.flushing.getD [])).Sublist
      (List.range st.submitted)
    rw [hpre]
    simpa using horder
  · have hsent := h.sent
    rw [hhand, List.append_nil] at hsent
    exact List.Sublist.append hsent (List.Sublist.refl _)
  · have := hcount e'
    rw [hhand, List.count_nil] at this
    show st.acked.count e' + [e].count e' + _ = (st.taken ++ [e]).count e'
    rw [List.count_append]
    omega
  · rintro q'' hq''
    obtain rfl := Option.some.inj hq''
    show q'.items.length + 1 ≤ q'.unfinished
    omega
  · intro rest hrest
    cases hflushing.symm.trans hrest
  · intro e' he'
    have hroom := h.room e' he'
    rw [items_of_some hqueue, hq, List.length_cons] at hroom
    show q'.items.length < m
    omega

theorem get (h : QueueInv st) (maxAttempts : ℕ) : QueueInv (st.get maxAttempts) := by
  rcases @get_cases _ st maxAttempts with hget | ⟨q, e, q', hdrain, hqueue, hq, hunfinished, hget⟩
  · rw [hget]
    exact h
  · have htake := h.take hdrain hqueue hq hunfinished
    rw [hget]
    split
    · have hdelivered : st.delivered.Sublist (st.taken ++ [e]) :=
        (List.sublist_append_left _ _).trans htake.sent
      exact htake.acknowledge rfl rfl rfl hdelivered st.drops
    · exact htake

/-- The drain task goes from one attempt to the next. -/
theorem keepHand (h : QueueInv st) {next : DrainPhase} (hhand : st.drain.hand = [e])
    (hnext : next.hand = [e]) : QueueInv { st with drain := next } := by
  have hsent := h.sent
  have hacked := h.acked
  have hunfinished := h.unfinished
  rw [hhand, ← hnext] at hsent hacked hunfinished
  refine { h with
    sent := hsent, acked := hacked, unfinished := hunfinished, unopened := ?_, undrained := ?_ }
  · intro hqueue
    rw [(h.unopened hqueue).2] at hhand
    cases hhand
  · intro hsome
    rw [h.undrained hsome] at hhand
    cases hhand

theorem attempt (h : QueueInv st) (maxAttempts : ℕ) (ans recorded : Option Exn) :
    QueueInv (st.attempt maxAttempts ans recorded) := by
  unfold QueuedSink.attempt
  split
  · rename_i e k q hdrain hqueue
    have hhand : st.drain.hand = [e] := by rw [hdrain]; rfl
    have hsent := h.sent
    have hdelivered : st.delivered.Sublist st.taken := (List.sublist_append_left _ _).trans hsent
    rw [hhand] at hsent
    cases ans with
    | none => exact h.acknowledge hqueue hhand rfl hsent st.drops
    | some x =>
      simp only
      split
      · split
        · refine h.acknowledge hqueue hhand ?_ hdelivered _
          split <;> rfl
        · exact h.keepHand hhand rfl
      · exact h.acknowledge hqueue hhand rfl hdelivered st.drops
  · exact h

theorem backoffElapsed (h : QueueInv st) : QueueInv st.backoffElapsed := by
  unfold QueuedSink.backoffElapsed
  split
  · rename_i e k hdrain
    exact h.keepHand (e := e) (by rw [hdrain]; rfl) rfl
  · exact h

end QueueInv

variable {st : QueuedSink m}

/-- **Every step keeps the invariant.** -/
theorem inv_step (hm : 0 < m) (maxAttempts : ℕ) (h : QueueInv st) (a : QueueAction) :
    QueueInv (st.step maxAttempts a) := by
  cases a with
  | submit => exact h.submit
  | proceed recorded => exact h.proceed hm recorded
  | start => exact h.start
  | flush => exact h.flush
  | get => exact h.get maxAttempts
  | attempt ans recorded => exact h.attempt maxAttempts ans recorded
  | backoffElapsed => exact h.backoffElapsed

/-! ## The buffer, step by step -/

theorem overflows_overflow (e : Entry) :
    overflows { st with drops := st.drops ++ [(e, .overflow)] } = st.overflows ++ [e] := by
  simp [overflows]

theorem overflows_deliveryFailed (e : Entry) :
    (st.recordDrop e .deliveryFailed).overflows = st.overflows := by
  simp [overflows, recordDrop]

theorem StepLaw.same {st' : QueuedSink m} (hbuffered : st'.buffered = st.buffered)
    (hoverflows : st'.overflows = st.overflows) (hcall : st'.call = none → st.submitting = []) :
    StepLaw st st' := by
  refine ⟨.kept [] (List.nil_sublist _) (by rw [hbuffered, List.append_nil]) hoverflows, ?_⟩
  intro e he hnone
  rw [hcall hnone] at he
  cases he

theorem StepLaw.refl : StepLaw st st := .same rfl rfl submitting_of_none

theorem stepLaw_submit : StepLaw st st.submit := by
  unfold submit
  split
  · rename_i hcall hflushing
    refine .same ?_ rfl nofun
    simp [buffered, moving, items, hflushing]
  · exact .refl

/-- Before `start` the buffer is the list. -/
theorem buffered_of_unopened (h : QueueInv st) (hqueue : st.queue = none) :
    st.buffered = st.preStart := by
  simp [buffered, moving, items_of_none hqueue, (h.unopened hqueue).1]

theorem stepLaw_buffer (h : QueueInv st) (hm : 0 < m) {e : Entry} {phase : SubmitPhase}
    (hcall : st.call = some (e, phase)) (hqueue : st.queue = none) (recorded : Option Exn) :
    StepLaw st (st.buffer e recorded) := by
  have hsubmitting := submitting_of_some hcall
  have hbuffered := buffered_of_unopened h hqueue
  have hflushing := (h.unopened hqueue).1
  rcases @buffer_cases _ st e recorded hm with
    ⟨hbuffer, -⟩ | ⟨oldest, rest, hpre, ⟨-, hbuffer⟩ | ⟨x, -, hbuffer⟩⟩
  · have hafter : (st.buffer e recorded).buffered = st.preStart ++ [e] := by
      simp [hbuffer, buffered, moving, items, hqueue, hflushing]
    refine ⟨.kept [e] (by rw [hsubmitting]) (by rw [hafter, hbuffered]) (by rw [hbuffer]; rfl), ?_⟩
    intro e' he' _
    rw [hsubmitting] at he'
    rw [hafter]
    exact .inl (List.mem_append_right _ he')
  · have hafter : (st.buffer e recorded).buffered = rest ++ [e] := by
      simp [hbuffer, buffered, moving, items, hqueue, hflushing]
    refine ⟨.evicted oldest rest [e] (by rw [hsubmitting]) (by rw [hbuffered, hpre]) hafter ?_ ?_, ?_⟩
    · rw [hbuffer]
      exact overflows_overflow oldest
    · exact h.not_mem_submitting (by simp [hpre])
    · intro e' he' _
      rw [hsubmitting] at he'
      rw [hafter]
      exact .inl (List.mem_append_right _ he')
  · have hafter : (st.buffer e recorded).buffered = rest ++ [] := by
      simp [hbuffer, buffered, moving, items, hqueue]
    refine ⟨.evicted oldest rest [] (List.nil_sublist _) (by rw [hbuffered, hpre]) hafter ?_ ?_, ?_⟩
    · rw [hbuffer]
      exact overflows_overflow oldest
    · exact h.not_mem_submitting (by simp [hpre])
    · rw [hbuffer]
      exact fun _ _ _ => .inr (by simp)

theorem stepLaw_tryPut (h : QueueInv st) {q : TaskQueue Entry m} {e : Entry} {phase : SubmitPhase}
    (hcall : st.call = some (e, phase)) (hqueue : st.queue = some q) {full : QueuedSink m}
    (hfull : q.items.length = m → StepLaw st full) : StepLaw st (st.tryPut q e full) := by
  have hsubmitting := submitting_of_some hcall
  have hpre : st.preStart = [] := h.opened (by simp [hqueue])
  rcases @tryPut_cases _ st q e full with ⟨q', hitems, -, hput⟩ | ⟨hlength, hput⟩
  · have hafter : (st.tryPut q e full).buffered = q.items ++ [e] ++ st.flushing.getD [] := by
      simp [hput, buffered, moving, items, hpre, hitems, submitting]
    constructor
    · cases hflushing : st.flushing with
      | none =>
        refine .kept [e] (by rw [hsubmitting]) ?_ (by rw [hput]; rfl)
        rw [hafter]
        simp [buffered, moving, items_of_some hqueue, hpre, hflushing]
      | some rest =>
        refine .kept [] (List.nil_sublist _) ?_ (by rw [hput]; rfl)
        rw [hafter]
        simp [buffered, moving, items_of_some hqueue, hpre, hflushing, hsubmitting]
    · intro e' he' _
      rw [hsubmitting] at he'
      rw [hafter]
      exact .inl (List.mem_append_left _ (List.mem_append_right _ he'))
  · rw [hput]
    exact hfull hlength

theorem stepLaw_goOn {e : Entry} {phase phase' : SubmitPhase} (hcall : st.call = some (e, phase)) :
    StepLaw st { st with call := some (e, phase') } := by
  refine .same ?_ rfl nofun
  simp [buffered, moving, items, submitting, hcall]

theorem stepLaw_evictOldest (h : QueueInv st) {q : TaskQueue Entry m} {e : Entry}
    (hcall : st.call = some (e, .evict)) (hqueue : st.queue = some q) (recorded : Option Exn) :
    StepLaw st (st.evictOldest q e recorded) := by
  have hpre : st.preStart = [] := h.opened (by simp [hqueue])
  have hflushing := h.not_flushing_of_phase hcall nofun
  have htasks := h.unfinished q hqueue
  have hother {oldest : Entry} {rest : List Entry} (hq : q.items = oldest :: rest) :
      oldest ∉ st.submitting := h.not_mem_submitting (by simp [items_of_some hqueue, hq])
  have hbuffered : st.buffered = q.items := by
    simp [buffered, moving, items_of_some hqueue, hpre, hflushing]
  rcases @evictOldest_cases _ st q e recorded (by omega) with
    ⟨hempty, hevict⟩ | ⟨oldest, q', hq, ⟨-, -, hevict⟩ | ⟨x, -, -, hevict⟩⟩
  · rw [hevict]
    exact stepLaw_goOn hcall
  · have hafter : (st.evictOldest q e recorded).buffered = q'.items ++ [] := by
      simp [hevict, buffered, moving, items, hpre, hflushing]
    refine ⟨.evicted oldest q'.items [] (List.nil_sublist _) (hbuffered.trans hq) hafter ?_ (hother hq), ?_⟩
    · rw [hevict]
      exact overflows_overflow oldest
    · rw [hevict]
      exact fun _ _ => nofun
  · have hafter : (st.evictOldest q e recorded).buffered = q'.items ++ [] := by
      simp [hevict, buffered, moving, items, hpre]
    refine ⟨.evicted oldest q'.items [] (List.nil_sublist _) (hbuffered.trans hq) hafter ?_ (hother hq), ?_⟩
    · rw [hevict]
      exact overflows_overflow oldest
    · rw [hevict]
      exact fun _ _ _ => .inr (by simp)

theorem stepLaw_proceed (h : QueueInv st) (hm : 0 < m) (recorded : Option Exn) :
    StepLaw st (st.proceed recorded) := by
  unfold proceed
  split
  · exact .refl
  · rename_i hcall hqueue
    exact stepLaw_buffer h hm hcall hqueue recorded
  · rename_i hcall hqueue
    exact stepLaw_tryPut h hcall hqueue fun _ => stepLaw_goOn hcall
  · rename_i hcall hqueue
    exact stepLaw_tryPut h hcall hqueue fun _ => stepLaw_goOn hcall
  · rename_i hcall hqueue
    exact stepLaw_evictOldest h hcall hqueue recorded
  · rename_i e q hcall hqueue
    refine stepLaw_tryPut h hcall hqueue fun hfull => ?_
    have hroom := h.room e hcall
    rw [items_of_some hqueue] at hroom
    omega

theorem stepLaw_start (h : QueueInv st) : StepLaw st st.start := by
  unfold start
  split
  · rename_i hqueue hcall
    refine .same ?_ rfl submitting_of_none
    rw [buffered_of_unopened h hqueue]
    simp [buffered, moving, items, submitting, hcall, TaskQueue.empty]
  · exact .refl

theorem stepLaw_flush : StepLaw st st.flush := by
  unfold flush
  split
  · rename_i hflushing hcall
    refine .same ?_ rfl nofun
    simp [buffered, moving, items, submitting, hcall, hflushing]
  · rename_i hflushing hcall
    refine .same ?_ rfl submitting_of_none
    simp [buffered, moving, items, submitting, hcall, hflushing]
  · exact .refl

/-- An acknowledgement changes nothing of the buffer. -/
theorem buffered_acknowledge {q : TaskQueue Entry m} {e : Entry} {next : DrainPhase}
    (hqueue : st.queue = some q) :
    (st.acknowledge q e next).buffered = st.buffered ∧
      (st.acknowledge q e next).overflows = st.overflows ∧
      (st.acknowledge q e next).call = st.call := by
  unfold acknowledge
  cases hdone : q.taskDone with
  | none => exact ⟨rfl, rfl, rfl⟩
  | some q' =>
    obtain ⟨hitems, -⟩ := TaskQueue.taskDone_eq_some hdone
    refine ⟨?_, rfl, rfl⟩
    simp [buffered, moving, items, submitting, hqueue, hitems]

theorem stepLaw_get (h : QueueInv st) (maxAttempts : ℕ) : StepLaw st (st.get maxAttempts) := by
  rcases @get_cases _ st maxAttempts with hget | ⟨q, e, q', hdrain, hqueue, hq, -, hget⟩
  · rw [hget]
    exact .refl
  · have hpre : st.preStart = [] := h.opened (by simp [hqueue])
    have htake : st.buffered = e :: (st.take q' e).buffered := by
      simp [buffered, moving, items, take, submitting, hqueue, hq, hpre]
    obtain ⟨hbuffered, hoverflows, hcall⟩ :
        (st.get maxAttempts).buffered = (st.take q' e).buffered ∧
          (st.get maxAttempts).overflows = st.overflows ∧ (st.get maxAttempts).call = st.call := by
      rw [hget]
      split
      · have htaken : (st.take q' e).queue = some q' := rfl
        exact buffered_acknowledge htaken
      · exact ⟨rfl, rfl, rfl⟩
    refine ⟨.took e (by rw [hbuffered, htake]) hdrain hoverflows, ?_⟩
    intro e' he' hnone
    rw [submitting_of_none (hcall.symm.trans hnone)] at he'
    cases he'

theorem StepLaw.of_acknowledge {st' : QueuedSink m} (hbuffered : st'.buffered = st.buffered)
    (hoverflows : st'.overflows = st.overflows) (hcall : st'.call = st.call) : StepLaw st st' :=
  .same hbuffered hoverflows fun hnone => submitting_of_none (hcall.symm.trans hnone)

theorem stepLaw_attempt (maxAttempts : ℕ) (ans recorded : Option Exn) :
    StepLaw st (st.attempt maxAttempts ans recorded) := by
  unfold attempt
  split
  · rename_i e k q hdrain hqueue
    have hack := fun (delivered : List Entry) (drops : List (Entry × DropReason)) next =>
      @buffered_acknowledge _ { st with delivered := delivered, drops := drops } q e next hqueue
    cases ans with
    | none =>
      obtain ⟨hbuffered, hoverflows, hcall⟩ := hack (st.delivered ++ [e]) st.drops .waiting
      exact .of_acknowledge hbuffered hoverflows hcall
    | some x =>
      simp only
      split
      · split
        · obtain ⟨hbuffered, hoverflows, hcall⟩ := hack st.delivered
            (st.drops ++ [(e, .deliveryFailed)]) (if (escaped recorded).isSome then .ended else .waiting)
          exact .of_acknowledge hbuffered (hoverflows.trans (overflows_deliveryFailed e)) hcall
        · exact .of_acknowledge rfl rfl rfl
      · obtain ⟨hbuffered, hoverflows, hcall⟩ := hack st.delivered st.drops .ended
        exact .of_acknowledge hbuffered hoverflows hcall
  · exact .refl

theorem stepLaw_backoffElapsed : StepLaw st st.backoffElapsed := by
  unfold backoffElapsed
  split
  · exact .of_acknowledge rfl rfl rfl
  · exact .refl

theorem stepLaw_step (hm : 0 < m) (maxAttempts : ℕ) (h : QueueInv st) (a : QueueAction) :
    StepLaw st (st.step maxAttempts a) := by
  cases a with
  | submit => exact stepLaw_submit
  | proceed recorded => exact stepLaw_proceed h hm recorded
  | start => exact stepLaw_start h
  | flush => exact stepLaw_flush
  | get => exact stepLaw_get h maxAttempts
  | attempt ans recorded => exact stepLaw_attempt maxAttempts ans recorded
  | backoffElapsed => exact stepLaw_backoffElapsed

/-! ## What is raised -/

theorem raised_acknowledge {q : TaskQueue Entry m} {e : Entry} {next : DrainPhase} :
    (st.acknowledge q e next).raised = st.raised := by
  unfold acknowledge
  split <;> rfl

/-- What does not depend on the queue and on the call is kept, if it is where the queue is full. -/
theorem tryPut_keeps {α : Type} (f : QueuedSink m → α) {q : TaskQueue Entry m} {e : Entry}
    {full : QueuedSink m} (hput : ∀ q', f { st with queue := some q', call := none } = f st)
    (hfull : q.items.length = m → f full = f st) : f (st.tryPut q e full) = f st := by
  rcases @tryPut_cases _ st q e full with ⟨q', -, -, htry⟩ | ⟨hlength, htry⟩
  · rw [htry, hput]
  · rw [htry, hfull hlength]

theorem raised_proceed (h : QueueInv st) (hm : 0 < m) {recorded : Option Exn}
    (hcaught : escaped recorded = none) : (st.proceed recorded).raised = st.raised := by
  unfold proceed
  split
  · rfl
  · rename_i e _ hcall hqueue
    rcases @buffer_cases _ st e recorded hm with
      ⟨hbuffer, -⟩ | ⟨oldest, rest, hpre, ⟨-, hbuffer⟩ | ⟨x, hx, -⟩⟩
    · rw [hbuffer]
    · rw [hbuffer]
    · cases hcaught.symm.trans hx
  · exact tryPut_keeps raised (fun _ => rfl) fun _ => rfl
  · exact tryPut_keeps raised (fun _ => rfl) fun _ => rfl
  · rename_i e q hcall hqueue
    have htasks := h.unfinished q hqueue
    rcases @evictOldest_cases _ st q e recorded (by omega) with
      ⟨-, hevict⟩ | ⟨oldest, q', -, ⟨-, -, hevict⟩ | ⟨x, hx, -⟩⟩
    · rw [hevict]
    · rw [hevict]
    · cases hcaught.symm.trans hx
  · rename_i e q hcall hqueue
    refine tryPut_keeps raised (fun _ => rfl) fun hfull => ?_
    have hroom := h.room e hcall
    rw [items_of_some hqueue] at hroom
    omega

/-- What the recorder lets out ends the call of `submit` in the middle of an eviction. -/
theorem escapeLaw_proceed (h : QueueInv st) (hm : 0 < m) {recorded : Option Exn} {x : Exn}
    (hescaped : escaped recorded = some x) :
    (st.proceed recorded).overflows = st.overflows ∨ EscapeLaw st (st.proceed recorded) x := by
  unfold proceed
  split
  · exact .inl rfl
  · rename_i e _ hcall hqueue
    rcases @buffer_cases _ st e recorded hm with
      ⟨hbuffer, -⟩ | ⟨oldest, rest, -, ⟨hcaught, -⟩ | ⟨x', hx', hbuffer⟩⟩
    · left
      rw [hbuffer]
      rfl
    · cases hcaught.symm.trans hescaped
    · obtain rfl : x' = x := Option.some.inj (hx'.symm.trans hescaped)
      right
      rw [hbuffer]
      refine ⟨rfl, rfl, ⟨oldest, overflows_overflow oldest, ?_⟩, rfl⟩
      rw [hqueue]
      exact (List.append_nil _).symm
  · exact .inl (tryPut_keeps overflows (fun _ => rfl) fun _ => rfl)
  · exact .inl (tryPut_keeps overflows (fun _ => rfl) fun _ => rfl)
  · rename_i e q hcall hqueue
    have htasks := h.unfinished q hqueue
    rcases @evictOldest_cases _ st q e recorded (by omega) with
      ⟨-, hevict⟩ | ⟨oldest, q', -, ⟨hcaught, -⟩ | ⟨x', hx', -, hevict⟩⟩
    · left
      rw [hevict]
      rfl
    · cases hcaught.symm.trans hescaped
    · obtain rfl : x' = x := Option.some.inj (hx'.symm.trans hescaped)
      right
      rw [hevict]
      refine ⟨rfl, rfl, ⟨oldest, overflows_overflow oldest, ?_⟩, rfl⟩
      rw [hqueue]
      rfl
  · rename_i e q hcall hqueue
    refine .inl (tryPut_keeps overflows (fun _ => rfl) fun hfull => ?_)
    -- there is room for the new event, so it is not dropped
    have hroom := h.room e hcall
    rw [items_of_some hqueue] at hroom
    omega

theorem raised_get (maxAttempts : ℕ) : (st.get maxAttempts).raised = st.raised := by
  rcases @get_cases _ st maxAttempts with hget | ⟨q, e, q', -, -, -, -, hget⟩
  · rw [hget]
  · rw [hget]
    split
    · exact raised_acknowledge
    · rfl

theorem raised_attempt (maxAttempts : ℕ) (ans recorded : Option Exn) :
    (st.attempt maxAttempts ans recorded).raised = st.raised := by
  unfold attempt
  split
  · cases ans with
    | none => exact raised_acknowledge
    | some x =>
      simp only
      split
      · split
        · exact raised_acknowledge
        · rfl
      · exact raised_acknowledge
  · rfl

/-- **`submit` raises nothing** when `_record_drop` raises nothing but an `Exception`. -/
theorem raised_step (hm : 0 < m) (maxAttempts : ℕ) (h : QueueInv st) {a : QueueAction}
    (ha : a.RecorderCaught) : (st.step maxAttempts a).raised = st.raised := by
  cases a with
  | submit =>
    show st.submit.raised = st.raised
    unfold submit
    split <;> rfl
  | proceed recorded => exact raised_proceed h hm ha
  | start =>
    show st.start.raised = st.raised
    unfold start
    split <;> rfl
  | flush =>
    show st.flush.raised = st.raised
    unfold flush
    split <;> rfl
  | get => exact raised_get maxAttempts
  | attempt ans recorded => exact raised_attempt maxAttempts ans recorded
  | backoffElapsed =>
    show st.backoffElapsed.raised = st.raised
    unfold backoffElapsed
    split <;> rfl

/-! ## The runs -/

/-- The state after a run. -/
def after (m maxAttempts : ℕ) (acts : List QueueAction) : QueuedSink m :=
  Runs.exec (step maxAttempts) {} acts

theorem inv_after (hm : 0 < m) (maxAttempts : ℕ) (acts : List QueueAction) :
    QueueInv (after m maxAttempts acts) :=
  Runs.exec_invariant queueInv_init (fun _ a h => inv_step hm maxAttempts h a) acts

theorem raised_after (hm : 0 < m) (maxAttempts : ℕ) {acts : List QueueAction}
    (hacts : ∀ a ∈ acts, a.RecorderCaught) : (after m maxAttempts acts).raised = [] := by
  have hboth : QueueInv (after m maxAttempts acts) ∧ (after m maxAttempts acts).raised = [] := by
    refine Runs.exec_induction (P := fun _ a => a.RecorderCaught)
      (I := fun st : QueuedSink m => QueueInv st ∧ st.raised = []) ⟨queueInv_init, rfl⟩ ?_ ?_
    · rintro st a ⟨h, hquiet⟩ ha
      exact ⟨inv_step hm maxAttempts h a, (raised_step hm maxAttempts h ha).trans hquiet⟩
    · rintro pre a post rfl
      exact hacts a (by simp)
  exact hboth.2

/-- **The discipline of the queue**: in every run the buffer is bounded, what is delivered is in order, an
overflow evicts the oldest event, and every event taken is acknowledged once; and `submit` raises nothing
as long as `_record_drop` raises nothing but an `Exception`. Anything else that it raises for an event that
is evicted, `submit` raises too, before the event is acknowledged. -/
theorem disciplined_after (hm : 0 < m) (maxAttempts : ℕ) (acts : List QueueAction) :
    Disciplined (after m maxAttempts acts) ∧
      (∀ a, StepLaw (after m maxAttempts acts) ((after m maxAttempts acts).step maxAttempts a)) ∧
      ((∀ a ∈ acts, a.RecorderCaught) → (after m maxAttempts acts).raised = []) ∧
      ∀ recorded x, escaped recorded = some x →
        ((after m maxAttempts acts).proceed recorded).overflows = (after m maxAttempts acts).overflows ∨
          EscapeLaw (after m maxAttempts acts) ((after m maxAttempts acts).proceed recorded) x := by
  have hinv := inv_after hm maxAttempts acts
  exact ⟨hinv.disciplined, fun a => stepLaw_step hm maxAttempts hinv a, raised_after hm maxAttempts,
    fun _ _ => escapeLaw_proceed hinv hm⟩

/-- Two events for a queue of one: the second evicts the first, and the recorder fails. -/
def overflowRun : List QueueAction :=
  [.start, .flush, .submit, .proceed none, .submit, .proceed none, .proceed none,
    .proceed (some .valueError), .proceed none]

theorem disciplined_after_overflow : (after 1 5 overflowRun).overflows = [0] ∧
    Disciplined (after 1 5 overflowRun) ∧ (after 1 5 overflowRun).raised = [] :=
  ⟨by decide, (disciplined_after Nat.one_pos 5 overflowRun).1,
    (disciplined_after Nat.one_pos 5 overflowRun).2.2.1 (by decide)⟩

/-- The recorder exits, and `submit` with it. -/
theorem submit_raises_of_exit :
    (after 1 5 [.submit, .proceed none, .submit, .proceed (some (.base "SystemExit"))]).raised
      = [.base "SystemExit"] := by
  decide

end QueuedSink

end WazuhMcp.Sinks
