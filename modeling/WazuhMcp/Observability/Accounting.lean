import WazuhMcp.Observability.Decorators

/-!
# Audit completeness of the wrapper

Every call of a wrapped tool should leave exactly one completion event and one increment of
`mcp_tool_calls_total`, both with what belongs to its outcome, whatever its limiter and its handler do
(`Audited`). The handler's failures are all reported, under four `except` clauses; the limiter step has one,
for `WazuhError`, and reports every such error as `rate_limited`. `audited_iff`: a call is audited exactly
when its limiter, if it is asked, returns or raises a `WazuhError` with that code.
-/

namespace WazuhMcp

open Interact

section Reading

variable {E : Type} {R : E → Type} {α : Type}

/-! ## Reading a trace -/

/-- The audit event that the wrapper emits, if the step is that. -/
def ToolOp.emitted : ToolOp E → Option AuditEvent
  | .emit event => some event
  | _ => none

/-- The label under which the step increments `mcp_tool_calls_total`, if it is that. -/
def ToolOp.label : ToolOp E → Option CallOutcome
  | .addCalls _ _ label => some label
  | _ => none

/-- Whether the step is one of the policy or the handler. -/
def ToolOp.isInner : ToolOp E → Bool
  | .inner _ => true
  | _ => false

/-- What the limiter came to, if the step is that. -/
def acquired? : ToolEvent E R → Option Acquired
  | ⟨.acquire _ _, ans⟩ => some ans
  | _ => none

/-- The audit events that the wrapper emits, in order. -/
def ownEvents (tr : List (ToolEvent E R)) : List AuditEvent := tr.filterMap fun ev => ev.op.emitted

/-- The labels under which `mcp_tool_calls_total` is incremented, in order. -/
def labels (tr : List (ToolEvent E R)) : List CallOutcome := tr.filterMap fun ev => ev.op.label

/-- How often `mcp_tool_calls_total` is incremented. -/
def callsCounted (tr : List (ToolEvent E R)) : ℕ := (labels tr).length

/-- What the limiter came to, each time it was asked. -/
def acquisitions (tr : List (ToolEvent E R)) : List Acquired := tr.filterMap acquired?

/-- The limiter was asked, and returned. -/
def LimiterPassed (tr : List (ToolEvent E R)) : Prop :=
  ∃ ans ∈ acquisitions tr, ans.outcome = .ok ()

/-- The error code and the label that belong to an exception: those of a `WazuhError` are its own code,
`parse_error` is a `ValidationError`, `cancelled` is what is no `Exception`, and all else is `internal`, with
the label `error`. -/
structure Belong (code : ErrorCode) (label : CallOutcome) (x : Exn) : Prop where
  wazuh : ∀ e, x = .wazuh e → code = .safe e.code ∧ label = .safe e.code
  validation : x = .validation → code = .parseError ∧ label = .parseError
  base : ∀ name, x = .base name → code = .cancelled ∧ label = .cancelled
  other : (∀ e, x ≠ .wazuh e) → x ≠ .validation → (∀ name, x ≠ .base name) →
    code = .internal ∧ label = .error

/-- The wrapper's own table has what belongs to an exception, and nothing else. -/
theorem belong_iff {code : ErrorCode} {label : CallOutcome} {x : Exn} :
    Belong code label x ↔ (label, code) = reportedAs x := by
  constructor
  · intro h
    cases x with
    | wazuh e =>
      obtain ⟨rfl, rfl⟩ := h.wazuh e rfl
      rfl
    | validation =>
      obtain ⟨rfl, rfl⟩ := h.validation rfl
      rfl
    | base name =>
      obtain ⟨rfl, rfl⟩ := h.base name rfl
      rfl
    | auth e | tool message | exception name =>
      obtain ⟨rfl, rfl⟩ := h.other (by simp) (by simp) (by simp)
      rfl
  · intro h
    obtain ⟨rfl, rfl⟩ := Prod.mk.inj h
    cases x <;> constructor <;> simp

/-- The event, and the label that the call is counted under, report the outcome of the call: `ok` if it
returned, and else `error`, with what belongs to what it raised. -/
def AuditEvent.Reports (event : AuditEvent) (label : CallOutcome) : Except Exn α → Prop
  | .ok _ => event.outcome = .ok ∧ event.errorCode = none ∧ label = .ok
  | .error x => event.outcome = .error ∧ ∃ code, event.errorCode = some code ∧ Belong code label x

section Blocks

variable {tr tr' : List (ToolEvent E R)}

@[simp] theorem ownEvents_nil : ownEvents ([] : List (ToolEvent E R)) = [] := rfl

@[simp] theorem labels_nil : labels ([] : List (ToolEvent E R)) = [] := rfl

@[simp] theorem acquisitions_nil : acquisitions ([] : List (ToolEvent E R)) = [] := rfl

@[simp] theorem ownEvents_append : ownEvents (tr ++ tr') = ownEvents tr ++ ownEvents tr' :=
  List.filterMap_append

@[simp] theorem ownEvents_cons (ev : ToolEvent E R) :
    ownEvents (ev :: tr) = ev.op.emitted.toList ++ ownEvents tr := by
  rw [ownEvents, List.filterMap_cons]
  cases ev.op.emitted <;> rfl

@[simp] theorem labels_append : labels (tr ++ tr') = labels tr ++ labels tr' := List.filterMap_append

@[simp] theorem labels_cons (ev : ToolEvent E R) :
    labels (ev :: tr) = ev.op.label.toList ++ labels tr := by
  rw [labels, List.filterMap_cons]
  cases ev.op.label <;> rfl

@[simp] theorem acquisitions_append : acquisitions (tr ++ tr') = acquisitions tr ++ acquisitions tr' :=
  List.filterMap_append

@[simp] theorem acquisitions_cons (ev : ToolEvent E R) :
    acquisitions (ev :: tr) = (acquired? ev).toList ++ acquisitions tr := by
  rw [acquisitions, List.filterMap_cons]
  cases acquired? ev <;> rfl

variable (trh : List (Event E R))

/-- The steps of a policy or a handler are none of the wrapper's. -/
@[simp] theorem ownEvents_inner :
    ownEvents (trh.map (Event.embed .inner) : List (ToolEvent E R)) = [] := by
  induction trh with
  | nil => rfl
  | cons ev trh ih => rw [List.map_cons, ownEvents_cons, ih]; rfl

@[simp] theorem labels_inner : labels (trh.map (Event.embed .inner) : List (ToolEvent E R)) = [] := by
  induction trh with
  | nil => rfl
  | cons ev trh ih => rw [List.map_cons, labels_cons, ih]; rfl

@[simp] theorem acquisitions_inner :
    acquisitions (trh.map (Event.embed .inner) : List (ToolEvent E R)) = [] := by
  induction trh with
  | nil => rfl
  | cons ev trh ih => rw [List.map_cons, acquisitions_cons, ih]; rfl

end Blocks

/-! ## The parts of a call -/

variable (t : InstrumentedTool E R α) (session : Session) (kwargs : JsonObject)

/-- The announcement of a write tool, as an audit event. -/
def InstrumentedTool.announcement : List AuditEvent :=
  if Text.startsWith t.toolName "write." then
    [session.auditEvent t.toolName kwargs .writeRequested]
  else []

@[simp] theorem ownEvents_announced :
    ownEvents (t.announced session kwargs) = t.announcement session kwargs := by
  rw [InstrumentedTool.announced, InstrumentedTool.announcement]
  split <;> rfl

@[simp] theorem labels_announced : labels (t.announced session kwargs) = [] := by
  unfold InstrumentedTool.announced
  split <;> rfl

@[simp] theorem acquisitions_announced : acquisitions (t.announced session kwargs) = [] := by
  unfold InstrumentedTool.announced
  split <;> rfl

theorem not_isInner_of_mem_announced {ev : ToolEvent E R} (h : ev ∈ t.announced session kwargs) :
    ev.op.isInner = false := by
  rw [InstrumentedTool.announced] at h
  split at h
  · rw [List.mem_singleton.mp h]
    rfl
  · cases h

theorem completion_reports (out : Except Exn α) (durationMs : ℤ) :
    (t.completion session kwargs out durationMs).Reports (InstrumentedTool.outcomeLabel out) out := by
  cases out with
  | ok result => exact ⟨rfl, rfl, rfl⟩
  | error x => exact ⟨rfl, _, rfl, belong_iff.mpr rfl⟩

variable {t session kwargs} {policy : Policy} {Pol : List (Event E R) → Prop}
  {Han : List (Event E R) → Except Exn α → Prop} {tr : List (ToolEvent E R)} {out : Except Exn α}

/-- The limiter returned, or raised a `WazuhError`. -/
def Acquired.Caught (ans : Acquired) : Prop :=
  ans.outcome = .ok () ∨ ∃ rle, ans.outcome = .error (.wazuh rle)

/-- The limiter returned, or raised a `WazuhError` that is what it will be reported as. -/
def Acquired.Reported (ans : Acquired) : Prop :=
  ans.outcome = .ok () ∨ ∃ rle, ans.outcome = .error (.wazuh rle) ∧ rle.code = .rateLimited

/-! ## The accounting of a call -/

/-- The call has passed both gates. -/
def InstrumentedTool.Passed (t : InstrumentedTool E R α) (session : Session) (policy : Policy)
    (tr : List (ToolEvent E R)) : Prop :=
  isAllowed session t.toolName policy = true ∧ LimiterPassed tr

/-- The accounting of a call: one completion event, after the announcement of a write tool that has passed
both gates, and one increment, under a label such that `Rep` holds of the two. -/
structure Accounted (t : InstrumentedTool E R α) (session : Session) (kwargs : JsonObject)
    (policy : Policy) (tr : List (ToolEvent E R)) (Rep : AuditEvent → CallOutcome → Prop) : Prop where
  reported : ∃ event label, event.outcome ≠ .writeRequested ∧ Rep event label ∧
    (t.Passed session policy tr → ownEvents tr = t.announcement session kwargs ++ [event]) ∧
    (¬ t.Passed session policy tr → ownEvents tr = [event]) ∧ labels tr = [label]

theorem Accounted.counted {t : InstrumentedTool E R α} {session : Session} {kwargs : JsonObject}
    {policy : Policy} {tr : List (ToolEvent E R)} {Rep : AuditEvent → CallOutcome → Prop}
    (h : Accounted t session kwargs policy tr Rep) : callsCounted tr = 1 := by
  obtain ⟨event, label, -, -, -, -, hlabels⟩ := h.reported
  rw [callsCounted, hlabels]
  rfl

theorem completion_outcome_ne (out : Except Exn α) (durationMs : ℤ) :
    (t.completion session kwargs out durationMs).outcome ≠ .writeRequested := by
  cases out <;> simp [InstrumentedTool.completion, Session.auditEvent]

@[simp] theorem acquisitions_completed (start stop : ℚ) (out : Except Exn α) :
    acquisitions (t.completed session kwargs start stop out) = [] := rfl

@[simp] theorem acquisitions_refused (x : Exn) : acquisitions (t.refused session kwargs x) = [] := by
  cases x <;> rfl

theorem limiterPassed_iff {ans : Acquired} (h : acquisitions tr = [ans]) :
    LimiterPassed tr ↔ ans.outcome = .ok () := by
  simp [LimiterPassed, h]

namespace InstrumentedTool.CallShape

/-- A call that RBAC denies does not ask the limiter; any other asks it once. -/
theorem acquisitions_eq (h : t.CallShape session kwargs policy Pol Han tr out) :
    (isAllowed session t.toolName policy = false ∧ acquisitions tr = []) ∨
      (isAllowed session t.toolName policy = true ∧ ∃ ans, acquisitions tr = [ans]) := by
  cases h with
  | denied hpol hdenied =>
    refine .inl ⟨hdenied, ?_⟩
    rw [acquisitions_append, acquisitions_inner]
    rfl
  | @refused trp ans x hpol hallowed hans =>
    refine .inr ⟨hallowed, ans, ?_⟩
    rw [acquisitions_append, acquisitions_inner, acquisitions_cons, acquisitions_refused]
    rfl
  | @handled trp trh ans start stop out hpol hallowed hans hhan =>
    refine .inr ⟨hallowed, ans, ?_⟩
    simp only [acquisitions_append, acquisitions_inner, acquisitions_cons, acquisitions_announced]
    rfl

/-- **The accounting of a call** whose limiter, if it is asked, returns or raises a `WazuhError`: the
completion event and the label report the outcome unless that error is taken for another. -/
theorem accounts (h : t.CallShape session kwargs policy Pol Han tr out)
    (hcaught : ∀ ans ∈ acquisitions tr, ans.Caught) :
    Accounted t session kwargs policy tr fun event label =>
      event.Reports label out ↔ ∀ ans ∈ acquisitions tr, ans.Reported := by
  have hacq := h.acquisitions_eq
  cases h with
  | @denied trp hpol hdenied =>
    obtain ⟨-, hnone⟩ := hacq.resolve_right (by simp [hdenied])
    refine ⟨session.failureEvent t.toolName kwargs (.safe .forbidden), .safe .forbidden, by simp
      [Session.failureEvent, Session.auditEvent], iff_of_true ⟨rfl, _, rfl, belong_iff.mpr rfl⟩ (by simp [hnone]),
      fun hpassed => ?_, fun _ => ?_, ?_⟩
    · rw [hpassed.1] at hdenied
      cases hdenied
    · rw [ownEvents_append, ownEvents_inner]
      rfl
    · rw [labels_append, labels_inner]
      rfl
  | @refused trp ans x hpol hallowed hans =>
    obtain ⟨-, ans', hone⟩ := hacq.resolve_left (by simp [hallowed])
    obtain rfl : ans = ans' := by
      simpa [acquired?] using hone
    obtain ⟨rle, rfl⟩ : ∃ rle, x = .wazuh rle := by
      rcases hcaught ans (by simp [hone]) with hok | ⟨rle, hrle⟩
      · rw [hans] at hok
        cases hok
      · rw [hans] at hrle
        exact ⟨rle, Except.error.inj hrle⟩
    refine ⟨session.failureEvent t.toolName kwargs (.safe .rateLimited), .safe .rateLimited, by simp
      [Session.failureEvent, Session.auditEvent], ?_, fun hpassed => ?_, fun _ => ?_, ?_⟩
    · simp [hone, AuditEvent.Reports, Session.failureEvent, Session.auditEvent, belong_iff, reportedAs,
        Acquired.Reported, hans, eq_comm]
    · rw [(limiterPassed_iff hone).mp hpassed.2] at hans
      cases hans
    · rw [ownEvents_append, ownEvents_inner]
      rfl
    · rw [labels_append, labels_inner]
      rfl
  | @handled trp trh ans start stop out hpol hallowed hans hhan =>
    obtain ⟨-, ans', hone⟩ := hacq.resolve_left (by simp [hallowed])
    obtain rfl : ans = ans' := by
      simpa [acquired?] using hone
    have hpassed : t.Passed session policy _ := ⟨hallowed, (limiterPassed_iff hone).mpr hans⟩
    refine ⟨t.completion session kwargs out (elapsedMs start stop), outcomeLabel out, completion_outcome_ne _ _,
      iff_of_true (completion_reports ..) (by simp [hone, Acquired.Reported, hans]), fun _ => ?_,
      fun hnot => absurd hpassed hnot, ?_⟩
    · simp only [ownEvents_append, ownEvents_inner, ownEvents_cons, ownEvents_announced]
      rfl
    · simp only [labels_append, labels_inner, labels_cons, labels_announced]
      rfl

/-- A call whose limiter raises anything else leaves no trace. -/
theorem silent (h : t.CallShape session kwargs policy Pol Han tr out)
    (hcaught : ¬ ∀ ans ∈ acquisitions tr, ans.Caught) :
    ownEvents tr = [] ∧ callsCounted tr = 0 := by
  have hacq := h.acquisitions_eq
  cases h with
  | @denied trp hpol hdenied =>
    obtain ⟨-, hnone⟩ := hacq.resolve_right (by simp [hdenied])
    exact absurd (by simp [hnone]) hcaught
  | @refused trp ans x hpol hallowed hans =>
    have hrefused : (t.refused session kwargs x : List (ToolEvent E R)) = [] := by
      cases x with
      | wazuh rle =>
        refine absurd ?_ hcaught
        simp [acquired?, Acquired.Caught, hans]
      | _ => rfl
    rw [hrefused]
    simp [callsCounted, ToolOp.emitted, ToolOp.label]
  | @handled trp trh ans start stop out hpol hallowed hans hhan =>
    refine absurd ?_ hcaught
    simp [acquired?, Acquired.Caught, hans]

end InstrumentedTool.CallShape

/-- A call has one event and one label. -/
theorem Accounted.exists_both {tr : List (ToolEvent E R)} {Rep Rep' : AuditEvent → CallOutcome → Prop}
    (h : Accounted t session kwargs policy tr Rep) (h' : Accounted t session kwargs policy tr Rep') :
    ∃ event label, Rep event label ∧ Rep' event label := by
  obtain ⟨event, label, -, hrep, hpassed, hstopped, hlabel⟩ := h.reported
  obtain ⟨event', label', -, hrep', hpassed', hstopped', hlabel'⟩ := h'.reported
  obtain rfl : label = label' := List.singleton_inj.mp (hlabel.symm.trans hlabel')
  refine ⟨event, label, hrep, ?_⟩
  by_cases hp : t.Passed session policy tr
  · have heq := (hpassed hp).symm.trans (hpassed' hp)
    rw [List.append_cancel_left_eq, List.singleton_inj] at heq
    rwa [heq]
  · have heq := (hstopped hp).symm.trans (hstopped' hp)
    rw [List.singleton_inj] at heq
    rwa [heq]

namespace InstrumentedTool.CallShape

/-- The completion event and the label report the outcome exactly when the limiter is reported as what it
did. -/
theorem accounted_reports_iff (h : t.CallShape session kwargs policy Pol Han tr out) :
    Accounted t session kwargs policy tr (fun event label => event.Reports label out) ↔
      ∀ ans ∈ acquisitions tr, ans.Reported := by
  constructor
  · intro haccounted
    have hcaught : ∀ ans ∈ acquisitions tr, ans.Caught := by
      by_contra hnot
      have hzero := (h.silent hnot).2
      rw [haccounted.counted] at hzero
      cases hzero
    obtain ⟨event, label, hrep, hiff⟩ := haccounted.exists_both (h.accounts hcaught)
    exact hiff.mp hrep
  · intro hreported
    have hcaught : ∀ ans ∈ acquisitions tr, ans.Caught := fun ans hans =>
      (hreported ans hans).imp_right fun ⟨rle, hrle, _⟩ => ⟨rle, hrle⟩
    obtain ⟨event, label, hne, hiff, hrest⟩ := (h.accounts hcaught).reported
    exact ⟨event, label, hne, hiff.mpr hreported, hrest⟩

end InstrumentedTool.CallShape

end Reading

/-! ## Any handler -/

/-- The handler of a tool, awaited: it may return, or raise anything. -/
inductive HandlerOp where
  | call (kwargs : JsonObject)

variable {α : Type}

/-- A wrapped tool with any policy and any handler. -/
def opaqueTool (toolName : String) (policy : Policy) (listLen : α → String → Option ℕ) :
    InstrumentedTool HandlerOp (fun _ => Except Exn α) α where
  toolName := toolName
  handler kwargs := .op (.call kwargs) .ofExcept
  rbacPolicy _ := .ret policy
  listLen := listLen

/-- What a call must leave behind and keep to, whatever its limiter and its handler do. -/
structure Audited (t : InstrumentedTool HandlerOp (fun _ => Except Exn α) α) (session : Session)
    (kwargs : JsonObject) (policy : Policy)
    (tr : List (ToolEvent HandlerOp fun _ => Except Exn α)) (out : Except Exn α) : Prop where
  accounted : Accounted t session kwargs policy tr fun event label => event.Reports label out
  announced_first : Guarded (fun pre => ownEvents pre = t.announcement session kwargs)
    (·.op.isInner) tr
  handler_once : tr.countP (·.op.isInner) ≤ 1
  handler_gated : Guarded (t.Passed session policy) (·.op.isInner) tr
  denied_free : isAllowed session t.toolName policy = false → acquisitions tr = []
  charged : (∃ ans ∈ acquisitions tr, ans.took = true) →
    ∃ event ∈ ownEvents tr, event.outcome ≠ .writeRequested

section Opaque

variable {t : InstrumentedTool HandlerOp (fun _ => Except Exn α) α} {session : Session}
  {kwargs : JsonObject} {policy : Policy} {tr : List (ToolEvent HandlerOp fun _ => Except Exn α)}
  {out : Except Exn α}

theorem Accounted.exists_completion {Rep : AuditEvent → CallOutcome → Prop}
    (h : Accounted t session kwargs policy tr Rep) :
    ∃ event ∈ ownEvents tr, event.outcome ≠ .writeRequested := by
  obtain ⟨event, -, hne, -, hpassed, hstopped, -⟩ := h.reported
  refine ⟨event, ?_, hne⟩
  by_cases hp : t.Passed session policy tr
  · simp [hpassed hp]
  · simp [hstopped hp]

/-- A call whose handler is one step runs it at most once, after both gates and the announcement. -/
theorem InstrumentedTool.CallShape.handler_gated
    (h : t.CallShape session kwargs policy (· = []) (fun trh _ => ∃ ev, trh = [ev]) tr out) :
    tr.countP (·.op.isInner) ≤ 1 ∧ Guarded (fun pre => t.Passed session policy pre ∧
      ownEvents pre = t.announcement session kwargs) (·.op.isInner) tr := by
  cases h with
  | @denied trp hpol hdenied =>
    obtain rfl := hpol
    refine ⟨Nat.zero_le _, guarded_of_forall_not ?_⟩
    simp [InstrumentedTool.denied, ToolOp.isInner]
  | @refused trp ans x hpol hallowed hans =>
    obtain rfl := hpol
    have hnot : ∀ ev ∈ (⟨.acquire session.tenantId session.userId, ans⟩ ::
        t.refused session kwargs x : List (ToolEvent HandlerOp fun _ => Except Exn α)),
        ¬ ev.op.isInner = true := by
      cases x <;> simp [InstrumentedTool.refused, ToolOp.isInner]
    exact ⟨(List.countP_eq_zero.mpr hnot).trans_le (Nat.zero_le _), guarded_of_forall_not hnot⟩
  | @handled trp trh ans start stop out hpol hallowed hans hhan =>
    obtain rfl := hpol
    obtain ⟨ev, rfl⟩ := hhan
    obtain ⟨pre, hdef⟩ : ∃ pre, pre = (⟨.acquire session.tenantId session.userId, ans⟩ ::
        ⟨.perfCounter, start⟩ :: t.announced session kwargs :
          List (ToolEvent HandlerOp fun _ => Except Exn α)) := ⟨_, rfl⟩
    have hpre : ∀ ev ∈ pre, ¬ ev.op.isInner = true := by
      intro ev hev
      rw [hdef] at hev
      rcases List.mem_cons.mp hev with rfl | hev
      · exact Bool.false_ne_true
      rcases List.mem_cons.mp hev with rfl | hev
      · exact Bool.false_ne_true
      · rw [not_isInner_of_mem_announced t session kwargs hev]
        exact Bool.false_ne_true
    have hpost : ∀ ev ∈ t.completed session kwargs start stop out, ¬ ev.op.isInner = true := by
      simp [InstrumentedTool.completed, ToolOp.isInner]
    have hsplit : (([] : List (Event HandlerOp fun _ => Except Exn α)).map (Event.embed .inner) ++
        ⟨.acquire session.tenantId session.userId, ans⟩ :: ⟨.perfCounter, start⟩ ::
          (t.announced session kwargs ++ ([ev].map (Event.embed .inner) ++
            t.completed session kwargs start stop out))) =
        pre ++ Event.embed .inner ev :: t.completed session kwargs start stop out := by
      simp [hdef]
    rw [hsplit]
    refine ⟨?_, guarded_single hpre hpost ⟨⟨hallowed, ans, ?_, hans⟩, ?_⟩⟩
    · rw [List.countP_append, List.countP_cons, List.countP_eq_zero.mpr hpre,
        List.countP_eq_zero.mpr hpost]
      exact Nat.le_refl 1
    · simp [hdef, acquired?]
    · simp [hdef, ToolOp.emitted]

/-- **A call is audited**, whatever its policy, its limiter and its handler do, exactly when the
limiter, if it is asked, returns or raises a `WazuhError` with the code `rate_limited`. -/
theorem audited_iff (toolName : String) (policy : Policy) (listLen : α → String → Option ℕ)
    (session : Session) (kwargs : JsonObject) :
    ((opaqueTool toolName policy listLen).call kwargs (some session)).All fun tr out =>
      Audited (opaqueTool toolName policy listLen) session kwargs policy tr out ↔
        ∀ ans ∈ acquisitions tr, ans.Reported := by
  have hshape : ((opaqueTool toolName policy listLen).call kwargs (some session)).All
      ((opaqueTool toolName policy listLen).CallShape session kwargs policy (· = [])
        fun trh _ => ∃ ev, trh = [ev]) := by
    refine InstrumentedTool.call_shape ⟨rfl, rfl⟩ fun out => ?_
    rw [Prog.all_ofExcept]
    exact ⟨_, rfl⟩
  refine hshape.mono fun tr out h => ?_
  obtain ⟨honce, hgated⟩ := h.handler_gated
  refine ⟨fun haudited => h.accounted_reports_iff.mp haudited.accounted, fun hreported => ?_⟩
  have haccounted := h.accounted_reports_iff.mpr hreported
  refine ⟨haccounted, hgated.mono fun _ hpre => hpre.2, honce, hgated.mono fun _ hpre => hpre.1,
    fun hdenied => ?_, fun _ => haccounted.exists_completion⟩
  rcases h.acquisitions_eq with ⟨-, hnone⟩ | ⟨hallowed, -⟩
  · exact hnone
  · rw [hallowed] at hdenied
    cases hdenied

/-- A limiter that takes a token and then fails with an error of its store charges for a call of
which nothing tells. -/
theorem not_audited_of_store_error :
    let session : Session := ⟨"alice", "acme", "admin", .oauth, none⟩
    let policy : Policy := [("admin", ["*"])]
    let t : InstrumentedTool HandlerOp (fun _ => Except Exn Unit) Unit :=
      opaqueTool "alerts.search_alerts" policy fun _ _ => none
    ¬ (t.call [] (some session)).All (Audited t session [] policy) := by
  intro session policy t hall
  have h := hall.run fun
    | .acquire _ _ => ⟨true, .error (.exception "ResponseError")⟩
    | .perfCounter => 0
    | .inner _ => .ok ()
    | .addCalls _ _ _ => ()
    | .addRateLimited _ _ => ()
    | .recordDuration _ _ _ => ()
    | .emit _ => ()
  have hcounted := h.accounted.counted
  exact absurd hcounted (by decide)

end Opaque

end WazuhMcp
