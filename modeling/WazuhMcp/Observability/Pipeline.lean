import WazuhMcp.Foundations.Broadcast
import WazuhMcp.Observability.Emitter
import WazuhMcp.Observability.Sinks.Conservation

/-!
# The audit pipeline

The emitter and all its sinks together: events are emitted, each to the global sinks and to those of its
tenant, and the sinks start, drain and stop, all of it in any order. A sink reports what it drops under a
tenant label, which `_wire_drop_metric` finds by the identity of the sink.

* `tenantLabel_build`: the label is the owner of the sink, and `<global>` for a global sink.
* `audit_trail`: whatever happens, the events that a sink is given are all events if it is global, and
  otherwise those of its tenant, in order; what other tenants do, and what their sinks do, makes no difference
  to it; and if its own steps lose nothing, then once it has stopped, each of these events is delivered, or
  reported once under the label of the tenant.
-/

namespace WazuhMcp

open Sinks

/-! ## The sinks and their labels -/

/-- The drain loop of a sink. -/
def SinkObject.kind : SinkObject → SinkKind
  | .http _ _ _ _ => .http
  | .wazuhIndexer _ _ _ _ _ => .wazuhIndexer
  | _ => .queued

/-- `s.name` -/
def SinkObject.name : SinkObject → String
  | .stderr => "stderr"
  | .stdout => "stdout"
  | .file _ _ _ => "file"
  | .http _ _ _ _ => "http"
  | .wazuhIndexer _ _ _ _ _ => "wazuh_indexer"

namespace MultiSinkAuditEmitter

variable (e : MultiSinkAuditEmitter)

/-- `per_tenant_owner` -/
def perTenantOwner : Dict AuditSink String :=
  e.perTenantSinks.foldl (fun owner entry => entry.2.foldl (fun owner s => owner.set s entry.1) owner) []

/-- `tenant_label`, of a sink. -/
def tenantLabel (s : AuditSink) : String :=
  if s ∈ e.globalSinks then "<global>" else (e.perTenantOwner.get s).getD "<unknown>"

/-- The labels under which `_recorder` counts what a sink drops. -/
def dropLabels (s : AuditSink) : String × String := (s.sink.name, e.tenantLabel s)

variable {e} {mkdir : String → Except Exn Unit} {hasPool : Bool} {r : SettingsRegistry}
  {perTenantSinks : Dict String (List AuditSink)}

theorem owner_of_mem_ownSinks {t : TenantSettings} {s : AuditSink} (hs : s ∈ t.ownSinks) :
    s.owner = some t.tenantId := by
  obtain ⟨cfg, -, rfl⟩ := List.mem_map.mp hs
  rfl

theorem ownSinks_nodup (t : TenantSettings) : t.ownSinks.Nodup := by
  have hplaces : t.ownSinks.map AuditSink.place = List.range' 0 t.auditSinks.length := by
    rw [TenantSettings.ownSinks, List.map_map]
    exact List.zipIdx_map_snd 0 t.auditSinks
  exact List.Nodup.of_map AuditSink.place (hplaces ▸ List.nodup_range')

/-- The loops over the dict of the sinks end with the owner of each of them. -/
theorem get_perTenantOwner (s : AuditSink)
    (howner : ∀ entry ∈ e.perTenantSinks, ∀ s' ∈ entry.2, s'.owner = some entry.1) :
    e.perTenantOwner.get s = if s ∈ e.perTenantSinks.flatMap Prod.snd then s.owner else none := by
  set entries := e.perTenantSinks.flatMap fun entry => entry.2.map fun s' => (s', entry.1) with hentries
  have hloop : e.perTenantOwner =
      entries.foldl (fun (owner : Dict AuditSink String) x => owner.set x.1 x.2) [] := by
    rw [hentries, List.foldl_flatMap]
    simp only [List.foldl_map]
    rfl
  have hmem : ∀ tid, (s, tid) ∈ entries ↔ ∃ entry ∈ e.perTenantSinks, s ∈ entry.2 ∧ entry.1 = tid := by
    simp [hentries]
  rw [hloop, Dict.get_foldl_set, Dict.get_nil, Option.or_none]
  cases hlookup : entries.reverse.lookup s with
  | none =>
    have hnone : s ∉ e.perTenantSinks.flatMap Prod.snd := by
      intro hs
      obtain ⟨entry, hentry, hs⟩ := List.mem_flatMap.mp hs
      have hpair := List.mem_reverse.mpr ((hmem entry.1).mpr ⟨entry, hentry, hs, rfl⟩)
      exact absurd rfl (bne_iff_ne.mp (List.lookup_eq_none_iff.mp hlookup _ hpair))
    rw [if_neg hnone]
  | some tid =>
    obtain ⟨front, back, hsplit, -⟩ := List.lookup_eq_some_iff.mp hlookup
    have hpair : (s, tid) ∈ entries := List.mem_reverse.mp (hsplit ▸ by simp)
    obtain ⟨entry, hentry, hs, rfl⟩ := (hmem tid).mp hpair
    rw [if_pos (List.mem_flatMap.mpr ⟨entry, hentry, hs⟩), howner entry hentry s hs]

section Build

variable (h : buildPerTenantSinks mkdir hasPool r.tenants = .ok perTenantSinks)
include h

/-- **The label of a sink is its owner**, and `<global>` for a global sink. -/
theorem tenantLabel_build {s : AuditSink} (hs : s ∈ (new perTenantSinks).allSinks) :
    (new perTenantSinks).tenantLabel s = s.owner.getD "<global>" := by
  have hentries := eq_of_buildPerTenantSinks h
  have howner : ∀ entry ∈ (new perTenantSinks).perTenantSinks, ∀ s' ∈ entry.2, s'.owner = some entry.1 := by
    intro entry hentry s' hs'
    rw [show (new perTenantSinks).perTenantSinks = perTenantSinks from rfl, hentries] at hentry
    obtain ⟨t, -, rfl⟩ := List.mem_map.mp hentry
    exact owner_of_mem_ownSinks hs'
  unfold tenantLabel
  split
  · rename_i hglobal
    rw [List.mem_singleton.mp hglobal]
    rfl
  · rename_i hglobal
    have htenant := (List.mem_append.mp hs).resolve_left hglobal
    obtain ⟨entry, hentry, hs'⟩ := List.mem_flatMap.mp htenant
    rw [get_perTenantOwner s howner, if_pos htenant, howner entry hentry s hs']
    rfl

/-- An event is submitted to no sink twice. -/
theorem sinksFor_nodup_build (event : AuditEvent) : ((new perTenantSinks).sinksFor event).Nodup := by
  rw [sinksFor_build h]
  cases r.find? event.tenant with
  | none => exact List.nodup_singleton _
  | some t =>
    refine List.nodup_append.mpr ⟨List.nodup_singleton _, ownSinks_nodup t, fun a ha b hb hab => ?_⟩
    have hnone : a.owner = none := congrArg AuditSink.owner (List.mem_singleton.mp ha)
    rw [hab, owner_of_mem_ownSinks hb] at hnone
    cases hnone

end Build

end MultiSinkAuditEmitter

/-! ## What counts the events of a sink -/

namespace Sinks

variable {Ans : Type} {s : Sink Ans} {st : SinkState}

theorem submitted_enqueue (e : Entry) : (st.enqueue s e).submitted = st.submitted := by
  unfold SinkState.enqueue
  dsimp only
  split
  · rfl
  · split <;> rfl

theorem submitted_foldl_enqueue (es : List Entry) :
    (es.foldl (SinkState.enqueue s) st).submitted = st.submitted := by
  induction es generalizing st with
  | nil => rfl
  | cons e es ih => rw [List.foldl_cons, ih, submitted_enqueue]

theorem submitted_nextRound : st.nextRound.submitted = st.submitted := by
  unfold SinkState.nextRound
  split <;> rfl

theorem submitted_acknowledge (events : List Entry) :
    (st.acknowledge s events).submitted = st.submitted := by
  unfold SinkState.acknowledge
  split <;> rfl

theorem submitted_abort (ans : Ans) : (st.abort s ans).submitted = st.submitted := by
  unfold SinkState.abort
  split
  · rfl
  · show (SinkState.acknowledge s _ _).submitted = _
    rw [submitted_acknowledge]
    split <;> rfl

theorem submitted_submit : (st.submit s).submitted = st.submitted + 1 := by
  unfold SinkState.submit
  dsimp only
  split
  · exact submitted_enqueue _
  · split <;> rfl

/-- Only `submit` counts. -/
theorem submitted_step {act : SinkAction Ans} (hact : act ≠ .submit) :
    (step s st act).submitted = st.submitted := by
  cases act with
  | submit => exact absurd rfl hact
  | start =>
    show (st.start s).submitted = _
    unfold SinkState.start
    split
    · rfl
    · exact submitted_foldl_enqueue _
  | get =>
    show (st.get s).submitted = _
    unfold SinkState.get
    split <;> rfl
  | flush =>
    show st.flush.submitted = _
    unfold SinkState.flush
    split
    · exact submitted_nextRound
    · rfl
    · rfl
  | attempt ans =>
    show (st.attempt s ans).submitted = _
    unfold SinkState.attempt
    split
    · simp only
      split
      · rw [submitted_nextRound, submitted_acknowledge]
        rfl
      · split
        · rw [submitted_nextRound, submitted_acknowledge]
          rfl
        · rfl
    · rfl
  | abort ans =>
    unfold step
    dsimp only
    split
    · exact submitted_abort ans
    · rfl
  | backoffElapsed =>
    show st.backoffElapsed.submitted = _
    unfold SinkState.backoffElapsed
    split <;> rfl
  | backoffStopped =>
    show (st.backoffStopped s).submitted = _
    unfold SinkState.backoffStopped
    split
    · simp only
      rw [submitted_nextRound, submitted_acknowledge]
      split <;> rfl
    · rfl
  | stopCall =>
    show st.stopCall.submitted = _
    unfold SinkState.stopCall
    split <;> rfl
  | joinDone =>
    show st.joinDone.submitted = _
    unfold SinkState.joinDone
    split
    · split <;> rfl
    · rfl
  | joinTimeout =>
    show st.joinTimeout.submitted = _
    unfold SinkState.joinTimeout
    split <;> rfl
  | cancel ans =>
    show (st.cancel s ans).submitted = _
    unfold SinkState.cancel
    split
    · split
      · rfl
      · exact submitted_abort ans
    · rfl

end Sinks

namespace MultiSinkAuditEmitter

variable {e : MultiSinkAuditEmitter} {mkdir : String → Except Exn Unit} {hasPool : Bool} {r : SettingsRegistry}
  {perTenantSinks : Dict String (List AuditSink)}

/-! ## The pipeline -/

/-- The emitter with its sinks, each of which has its constructor arguments. The steps of a sink are those
besides `submit`, which only the emitter calls. -/
@[reducible] def pipeline (e : MultiSinkAuditEmitter) (hnodup : ∀ event, (e.sinksFor event).Nodup)
    (args : AuditSink → SinkArgs) : Broadcast AuditSink AuditEvent where
  State _ := SinkState
  Move s := {act : SinkAction s.sink.kind.Ans // act ≠ .submit}
  move s st act := Sinks.step (s.sink.kind.sink (args s)) st act.1
  receive s st := st.submit (s.sink.kind.sink (args s))
  targets := e.sinksFor
  targets_nodup := hnodup

/-- The steps of the pipeline. -/
abbrev PipelineAct (e : MultiSinkAuditEmitter) (hnodup : ∀ event, (e.sinksFor event).Nodup)
    (args : AuditSink → SinkArgs) : Type := (e.pipeline hnodup args).Act

section Runs

variable (hnodup : ∀ event, (e.sinksFor event).Nodup) (args : AuditSink → SinkArgs)

/-- The sinks after a run, from when they were built. -/
def after (acts : List (e.PipelineAct hnodup args)) : AuditSink → SinkState :=
  Runs.exec (e.pipeline hnodup args).step (fun _ => .init) acts

/-- The events that are emitted, in order. -/
def emitted (acts : List (e.PipelineAct hnodup args)) : List AuditEvent := (e.pipeline hnodup args).sent acts

/-- The events that a sink is given, in order: the one at place `n` is its entry `n`. -/
def received (s : AuditSink) (acts : List (e.PipelineAct hnodup args)) : List AuditEvent :=
  ((e.pipeline hnodup args).actsOf s acts).filterMap (Broadcast.LocalAct.message _)

variable {hnodup args} {s : AuditSink}

/-- What a sink meets, as a step of its own machine. -/
def sinkAct : (e.pipeline hnodup args).LocalAct s → SinkAction s.sink.kind.Ans
  | .receive _ => .submit
  | .move act => act.1

theorem localStep_eq (st : SinkState) (act : (e.pipeline hnodup args).LocalAct s) :
    (e.pipeline hnodup args).localStep s st act = Sinks.step (s.sink.kind.sink (args s)) st (sinkAct act) := by
  cases act <;> rfl

/-- The steps of the run that concern the sink lose no event. -/
def LosslessAt (s : AuditSink) (st : AuditSink → SinkState) (a : e.PipelineAct hnodup args) : Prop :=
  ∀ act ∈ (e.pipeline hnodup args).actOf s a,
    Lossless (s.sink.kind.sink (args s)) (st s) (sinkAct act)

theorem after_eq (acts : List (e.PipelineAct hnodup args)) : after hnodup args acts s =
    Runs.exec ((e.pipeline hnodup args).localStep s) .init ((e.pipeline hnodup args).actsOf s acts) :=
  Broadcast.exec_apply acts

/-- A sink has counted the events that it was given. -/
theorem submitted_after (acts : List (e.PipelineAct hnodup args)) :
    (after hnodup args acts s).submitted = (received hnodup args s acts).length := by
  rw [after_eq, received]
  generalize (e.pipeline hnodup args).actsOf s acts = met
  induction met using List.reverseRecOn with
  | nil => rfl
  | append_singleton met act ih =>
    rw [Runs.exec_append_singleton, localStep_eq, List.filterMap_append, List.length_append, ← ih]
    cases act with
    | receive event => exact submitted_submit
    | move act => exact submitted_step act.2

/-- A sink that loses nothing of its own has settled what it was given before it was stopped. -/
theorem conserved_after {acts : List (e.PipelineAct hnodup args)}
    (hlossless : Runs.EachStep (e.pipeline hnodup args).step (LosslessAt s) (fun _ => .init) acts) :
    (after hnodup args acts s).Conserved := by
  have hlocal : Runs.EachStep ((e.pipeline hnodup args).localStep s)
      (fun st act => Lossless (s.sink.kind.sink (args s)) st (sinkAct act)) .init
      ((e.pipeline hnodup args).actsOf s acts) :=
    @Broadcast.eachStep_actsOf _ _ _ (e.pipeline hnodup args) s (fun _ => .init) _ acts hlossless
  have hinv : Inv (s.sink.kind.sink (args s)) (after hnodup args acts s) := by
    rw [after_eq]
    refine Runs.exec_induction Inv.init (fun st act h hact => ?_) hlocal
    rw [localStep_eq]
    exact h.step hact
  exact hinv.conserved

end Runs

section Trail

variable (h : buildPerTenantSinks mkdir hasPool r.tenants = .ok perTenantSinks) (args : AuditSink → SinkArgs)

/-- The pipeline of the sinks that are built for a registry. -/
abbrev BuiltAct : Type := (new perTenantSinks).PipelineAct (sinksFor_nodup_build h) args

/-- Whether the step concerns a sink: an event that it is to have, or a step of its own. -/
def Concerns (s : AuditSink) : BuiltAct h args → Prop
  | .send event => s.owner = none ∨ s.owner = some event.tenant
  | .move s' _ => s' = s

instance (s : AuditSink) : DecidablePred (Concerns h args s) := fun act => by
  cases act <;> unfold Concerns <;> infer_instance

variable {h args} {s : AuditSink} (hs : s ∈ (new perTenantSinks).allSinks)
include h hs

theorem mem_targets_iff (event : AuditEvent) :
    s ∈ (new perTenantSinks).sinksFor event ↔ s.owner = none ∨ s.owner = some event.tenant := by
  rw [mem_sinksFor_build h]
  constructor
  · rintro (hglobal | ⟨-, howner⟩)
    · exact .inl (congrArg AuditSink.owner (List.mem_singleton.mp hglobal))
    · exact .inr howner
  · rintro (hnone | howner)
    · left
      refine (List.mem_append.mp hs).resolve_right fun htenant => ?_
      obtain ⟨entry, hentry, hs'⟩ := List.mem_flatMap.mp htenant
      rw [show (new perTenantSinks).perTenantSinks = perTenantSinks from rfl, eq_of_buildPerTenantSinks h]
        at hentry
      obtain ⟨t, -, rfl⟩ := List.mem_map.mp hentry
      rw [owner_of_mem_ownSinks hs'] at hnone
      cases hnone
    · exact .inr ⟨hs, howner⟩

theorem actOf_eq_none_iff (act : BuiltAct h args) :
    ((new perTenantSinks).pipeline (sinksFor_nodup_build h) args).actOf s act = none ↔
      ¬Concerns h args s act := by
  cases act with
  | send event =>
    show (if s ∈ (new perTenantSinks).sinksFor event then _ else none) = none ↔
      ¬(s.owner = none ∨ s.owner = some event.tenant)
    rw [← mem_targets_iff (h := h) hs]
    split <;> simp_all
  | move s' act =>
    show (if h : s' = s then _ else none) = none ↔ ¬s' = s
    split <;> simp_all

/-- **The trail of a sink**, whatever the order in which events are emitted and the sinks take their steps. A
global sink is given all events, and a tenant's sink those of the tenant, in order. What does not concern
the sink makes no difference to it. If its own steps lose nothing and its `stop` has returned, each event
that it was given before `stop` was called is either delivered or reported once, and its reports go under
its owner. -/
theorem audit_trail (acts : List (BuiltAct h args)) :
    received (sinksFor_nodup_build h) args s acts =
      (emitted (sinksFor_nodup_build h) args acts).filter
        (fun event => s.owner = none ∨ s.owner = some event.tenant) ∧
    (∀ acts' : List (BuiltAct h args),
      acts.filter (fun act => Concerns h args s act) = acts'.filter (fun act => Concerns h args s act) →
        after _ args acts s = after _ args acts' s) ∧
    (after _ args acts s).submitted = (received (sinksFor_nodup_build h) args s acts).length ∧
    (Runs.EachStep ((new perTenantSinks).pipeline (sinksFor_nodup_build h) args).step (LosslessAt s)
      (fun _ => .init) acts → (after _ args acts s).Conserved) ∧
    (new perTenantSinks).dropLabels s = (s.sink.name, s.owner.getD "<global>") := by
  refine ⟨?_, fun acts' hacts => ?_, submitted_after acts, conserved_after,
    congrArg (Prod.mk _) (tenantLabel_build h hs)⟩
  · unfold received emitted
    rw [Broadcast.messages_actsOf]
    refine List.filter_congr fun event _ => ?_
    exact decide_eq_decide.mpr (mem_targets_iff (h := h) hs event)
  · have hconcerns : ∀ act : BuiltAct h args, decide (Concerns h args s act) = false →
        ((new perTenantSinks).pipeline (sinksFor_nodup_build h) args).actOf s act = none :=
      fun act hact => (actOf_eq_none_iff hs act).mpr (of_decide_eq_false hact)
    rw [after_eq, after_eq, ← Broadcast.actsOf_filter hconcerns acts,
      ← Broadcast.actsOf_filter hconcerns acts', hacts]

end Trail

/-- Two tenants, of which one writes its events to a file and one posts them. -/
def twoTenants : SettingsRegistry where
  tenants :=
    [{ tenantId := "acme", defaultRbacRole := "analyst", indexerUrl := "https://acme:9200"
       auditSinks := [.file "/var/acme.log" 1 3] },
      { tenantId := "globex", defaultRbacRole := "analyst", indexerUrl := "https://globex:9200"
        auditSinks := [.http "https://globex/audit" 50 500 5] }]
  nodup := by decide

/-- The sinks of the two tenants. -/
def twoTenantSinks : Dict String (List AuditSink) :=
  [("acme", [⟨some "acme", 0, .file "/var/acme.log" 1048576 3⟩]),
    ("globex", [⟨some "globex", 0, .http "https://globex/audit" 50 500 5⟩])]

theorem build_twoTenants :
    buildPerTenantSinks (fun _ => .ok ()) true twoTenants.tenants = .ok twoTenantSinks := rfl

/-- An event of a tenant. -/
def tenantEvent (tenant : String) : AuditEvent :=
  Session.auditEvent ⟨"alice", tenant, "analyst", .oauth, none⟩ "alerts.search_alerts" [] .ok

/-- Of two events, the file of `acme` is given the one of `acme`. -/
theorem audit_trail_twoTenants :
    received (sinksFor_nodup_build build_twoTenants) (fun _ => {})
      ⟨some "acme", 0, .file "/var/acme.log" 1048576 3⟩
      [.send (tenantEvent "acme"), .send (tenantEvent "globex")] = [tenantEvent "acme"] :=
  (@audit_trail _ _ _ _ build_twoTenants (fun _ => {}) _ (by decide)
    [.send (tenantEvent "acme"), .send (tenantEvent "globex")]).1

end MultiSinkAuditEmitter

end WazuhMcp
