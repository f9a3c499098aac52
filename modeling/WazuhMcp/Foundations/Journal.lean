import WazuhMcp.Foundations.Pool

/-!
# The journal of a pool

The operations that the tasks of a pool perform come in one order, each under the number of its task. This is
the journal of a run.

* `trace_eq_ofTask`: what the journal has under the number of a task is what the task has done.
* `journal_guarded`: where what stands before some events in every run of a program satisfies a condition, so
  does what stands before them in the journal, as far as it has been done by the same task.
* `journal_forall`: what holds of the events of every run of a program holds of the entries of its tasks.
-/

namespace Interact.Pool

variable {E : Type} {R : E → Type} {X α I C D W : Type} (prog : I → Prog E R X α)
  (env : Habitat E R I C D W)

/-- What is started in a run, in order. -/
def callers (acts : List (PoolAction I C D)) : List I :=
  acts.filterMap fun
    | .start caller => some caller
    | _ => none

/-- The operation that an action performs, with its answer and the number of its task. -/
def served (p : Pool E R X α I C W) : PoolAction I C D → Option (ℕ × Event E R)
  | .serve i choice =>
    match p.tasks[i]? with
    | some ⟨caller, _, .op e _⟩ => (env.serve p.world caller e choice).map fun answer => (i, ⟨e, answer.1⟩)
    | _ => none
  | _ => none

/-- The journal of a run from this pool on. -/
def journal (p : Pool E R X α I C W) : List (PoolAction I C D) → List (ℕ × Event E R)
  | [] => []
  | a :: acts => (served env p a).toList ++ journal (p.step prog env a) acts

/-- What a journal has under the number of a task. -/
def ofTask (i : ℕ) (log : List (ℕ × Event E R)) : List (Event E R) :=
  log.filterMap fun entry => if entry.1 = i then some entry.2 else none

/-- What the task with this number has done. -/
def traceOf (p : Pool E R X α I C W) (i : ℕ) : List (Event E R) := (p.tasks[i]?).elim [] Task.trace

variable {p : Pool E R X α I C W} {acts : List (PoolAction I C D)}

theorem ofTask_append (i : ℕ) (log log' : List (ℕ × Event E R)) :
    ofTask i (log ++ log') = ofTask i log ++ ofTask i log' := List.filterMap_append

/-- **What a task performs** when it is served: nothing, or its next operation. -/
theorem serve_cases (p : Pool E R X α I C W) (i : ℕ) (choice : C) :
    p.step prog env (.serve i choice) = p ∧ served env p (.serve i choice) = none ∨
    ∃ caller steps e k r w, p.tasks[i]? = some ⟨caller, steps, .op e k⟩ ∧
      p.step prog env (.serve i choice) = ⟨w, p.tasks.set i ⟨caller, steps ++ [(⟨e, r⟩, choice)], k r⟩⟩ ∧
      served env p (.serve i choice) = some (i, ⟨e, r⟩) := by
  simp only [step, served]
  cases htask : p.tasks[i]? with
  | none => exact .inl ⟨rfl, rfl⟩
  | some t =>
    obtain ⟨caller, steps, rest⟩ := t
    cases rest with
    | ret a => exact .inl ⟨rfl, rfl⟩
    | raise x => exact .inl ⟨rfl, rfl⟩
    | op e k =>
      dsimp only
      cases env.serve p.world caller e choice with
      | none => exact .inl ⟨rfl, rfl⟩
      | some answer => exact .inr ⟨caller, steps, e, k, answer.1, answer.2, rfl, rfl, rfl⟩

/-- What an action performs is the next operation of a task. -/
theorem served_eq_some {env : Habitat E R I C D W} {a : PoolAction I C D} {i : ℕ} {ev : Event E R}
    (h : served env p a = some (i, ev)) :
    ∃ caller steps k, p.tasks[i]? = some ⟨caller, steps, .op ev.op k⟩ := by
  cases a with
  | start caller => cases h
  | move d => cases h
  | serve j choice =>
    rw [served] at h
    split at h
    · rename_i caller steps e k htask
      obtain ⟨answer, -, hentry⟩ := Option.map_eq_some_iff.mp h
      obtain ⟨rfl, rfl⟩ := Prod.mk.inj hentry
      exact ⟨caller, steps, k, htask⟩
    · cases h

/-- A step adds to what a task has done the operation that it performs. -/
theorem traceOf_step (a : PoolAction I C D) (i : ℕ) :
    (p.step prog env a).traceOf i = p.traceOf i ++ ofTask i (served env p a).toList := by
  cases a with
  | move d => exact (List.append_nil _).symm
  | start caller =>
    show ((p.tasks ++ [⟨caller, [], prog caller⟩])[i]?).elim [] Task.trace = _
    rw [traceOf]
    rcases Nat.lt_trichotomy i p.tasks.length with hlt | rfl | hgt
    · rw [List.getElem?_append_left hlt]
      exact (List.append_nil _).symm
    · rw [List.getElem?_concat_length, List.getElem?_eq_none le_rfl]
      rfl
    · have hlength : (p.tasks ++ [(⟨caller, [], prog caller⟩ : Task E R X α I C)]).length ≤ i := by
        rw [List.length_append]
        exact hgt
      rw [List.getElem?_eq_none hlength, List.getElem?_eq_none hgt.le]
      rfl
  | serve j choice =>
    rcases serve_cases prog env p j choice with ⟨hstep, hserved⟩ |
      ⟨caller, steps, e, k, r, w, htask, hstep, hserved⟩
    · rw [hstep, hserved]
      exact (List.append_nil _).symm
    · rw [hstep, hserved]
      show ((p.tasks.set j ⟨caller, steps ++ [(⟨e, r⟩, choice)], k r⟩)[i]?).elim [] Task.trace =
        p.traceOf i ++ ofTask i [(j, ⟨e, r⟩)]
      by_cases hij : j = i
      · subst hij
        obtain ⟨hj, -⟩ := List.getElem?_eq_some_iff.mp htask
        rw [List.getElem?_set_self hj, traceOf, htask]
        simp [Task.trace, ofTask]
      · rw [List.getElem?_set_ne hij, traceOf]
        simp [ofTask, hij]

/-- **What the journal has under the number of a task** is what the task has done. -/
theorem trace_eq_ofTask (acts : List (PoolAction I C D)) (i : ℕ) :
    (Runs.exec (step prog env) p acts).traceOf i = p.traceOf i ++ ofTask i (journal prog env p acts) := by
  induction acts generalizing p with
  | nil => exact (List.append_nil _).symm
  | cons a acts ih =>
    show (Runs.exec (step prog env) (p.step prog env a) acts).traceOf i = _
    rw [ih, traceOf_step, journal, ofTask_append, List.append_assoc]

/-- The tasks of a pool are what has been started. -/
theorem callers_exec (w : W) (acts : List (PoolAction I C D)) :
    (Runs.exec (step prog env) (new w) acts).tasks.map Task.caller = callers acts := by
  induction acts using List.reverseRecOn with
  | nil => rfl
  | append_singleton acts a ih =>
    rw [Runs.exec_append_singleton, callers, List.filterMap_append, ← callers, ← ih]
    cases a with
    | start caller => exact List.map_append
    | move d => exact (List.append_nil _).symm
    | serve i choice =>
      rcases serve_cases prog env (Runs.exec (step prog env) (new w) acts) i choice with
        ⟨hstep, -⟩ | ⟨caller, steps, e, k, r, w', htask, hstep, -⟩
      · rw [hstep]
        exact (List.append_nil _).symm
      · rw [hstep]
        refine Eq.trans ?_ (List.append_nil _).symm
        show List.map Task.caller (List.set _ _ _) = _
        rw [List.map_set]
        refine List.ext_getElem? fun j => ?_
        by_cases hij : i = j
        · subst hij
          obtain ⟨hi, -⟩ := List.getElem?_eq_some_iff.mp htask
          rw [List.getElem?_set_self (by simpa using hi), List.getElem?_map, htask]
          rfl
        · rw [List.getElem?_set_ne hij]

variable {prog env}

/-- Where the journal of a run stands at an entry. -/
theorem journal_split {pre post : List (ℕ × Event E R)} {entry : ℕ × Event E R}
    (h : journal prog env p acts = pre ++ entry :: post) :
    ∃ before a after, acts = before ++ a :: after ∧ journal prog env p before = pre ∧
      served env (Runs.exec (step prog env) p before) a = some entry := by
  induction acts generalizing p pre with
  | nil => simp [journal] at h
  | cons a acts ih =>
    rw [journal] at h
    cases hserved : served env p a with
    | none =>
      rw [hserved] at h
      obtain ⟨before, b, after, rfl, hpre, hb⟩ := ih h
      exact ⟨a :: before, b, after, rfl, by rw [journal, hserved]; exact hpre, hb⟩
    | some first =>
      rw [hserved] at h
      cases pre with
      | nil =>
        obtain ⟨rfl, -⟩ := List.cons.inj h
        exact ⟨[], a, acts, rfl, rfl, hserved⟩
      | cons first' pre =>
        obtain ⟨rfl, hrest⟩ := List.cons.inj h
        obtain ⟨before, b, after, rfl, hpre, hb⟩ := ih hrest
        exact ⟨a :: before, b, after, rfl, by rw [journal, hserved, hpre]; rfl, hb⟩

/-- **What stands before an event in every run of a program** stands before it in the journal, under the number
of the same task. -/
theorem journal_guarded [∀ e, Inhabited (R e)] {G : I → List (Event E R) → Prop} {P : I → Event E R → Prop}
    (hguarded : ∀ caller, (prog caller).All fun tr _ => Guarded (G caller) (P caller) tr) {w : W}
    {pre post : List (ℕ × Event E R)} {i : ℕ} {ev : Event E R}
    (h : journal prog env (new w) acts = pre ++ (i, ev) :: post) :
    ∃ caller, (callers acts)[i]? = some caller ∧ (P caller ev → G caller (ofTask i pre)) := by
  obtain ⟨before, a, after, rfl, hpre, hserved⟩ := journal_split h
  obtain ⟨caller, steps, k, htask⟩ := served_eq_some hserved
  refine ⟨caller, ?_, fun hP => ?_⟩
  · have hcaller : (callers before)[i]? = some caller := by
      rw [← callers_exec prog env w before, List.getElem?_map, htask]
      rfl
    rw [callers, List.filterMap_append, ← callers]
    obtain ⟨hi, -⟩ := List.getElem?_eq_some_iff.mp hcaller
    rwa [List.getElem?_append_left hi]
  · have htrace := @trace_eq_ofTask _ _ _ _ _ _ _ _ prog env (new w) before i
    rw [traceOf, htask, hpre] at htrace
    have hall := all_exec prog env hguarded w before _ (List.mem_of_getElem? htask)
    have hrun := Prog.All.run (hall ev.ans) fun _ => default
    change Guarded (G caller) (P caller) _ at hrun
    rw [show Task.trace ⟨caller, steps, .op ev.op k⟩ = ofTask i pre from htrace] at hrun
    exact hrun _ ev _ rfl hP

/-- What every event of a program satisfies holds of its entries in the journal. -/
theorem journal_forall [∀ e, Inhabited (R e)] {P : I → Event E R → Prop}
    (hall : ∀ caller, (prog caller).All fun tr _ => ∀ ev ∈ tr, P caller ev) {w : W} {i : ℕ} {ev : Event E R}
    (h : (i, ev) ∈ journal prog env (new w) acts) :
    ∃ caller, (callers acts)[i]? = some caller ∧ P caller ev := by
  obtain ⟨pre, post, hjournal⟩ := List.append_of_mem h
  have hguarded : ∀ caller, (prog caller).All fun tr _ =>
      Guarded (fun _ => False) (fun ev => ¬P caller ev) tr := fun caller =>
    (hall caller).mono fun tr _ htr => guarded_of_forall_not fun ev hev => not_not_intro (htr ev hev)
  obtain ⟨caller, hcaller, hP⟩ := journal_guarded hguarded hjournal
  exact ⟨caller, hcaller, Classical.byContradiction hP⟩

end Interact.Pool
