import Mathlib.Algebra.BigOperators.Group.Finset.Basic
import Mathlib.Algebra.Order.BigOperators.Group.Finset
import Mathlib.Algebra.Order.Ring.Nat
import Mathlib.Tactic.Abel
import WazuhMcp.Foundations.Prog
import WazuhMcp.Foundations.Runs

/-!
# Programs that run side by side

A pool is any number of programs at work on a world they share. A step starts one more of them, lets
one perform its next operation, which the world answers as a choice of the environment's says, or lets
the world move by itself. The operations of the tasks come in any order, and a task that is never
served again is one that was abandoned.

* `Pool.All`: what every run of a program ends with, it ends with in a pool (`all_exec`).
* `Pool.forall_steps_iff`: the steps of the tasks are those that the run has served.
* `Pool.count_add_le`: what the steps of the tasks take from a potential of the world.
* `Pool.length_filter_le`: tasks that have each made such a step in one of several lanes number no more
  than the steps made there.
-/

namespace Interact

/-- A program at work: who runs it, the steps it has made, each with the environment's choice, and what
remains of it. -/
structure Task (E : Type) (R : E → Type) (X α I C : Type) where
  caller : I
  steps : List (Event E R × C)
  rest : Prog E R X α

/-- A world and the tasks at work on it. -/
structure Pool (E : Type) (R : E → Type) (X α I C W : Type) where
  world : W
  tasks : List (Task E R X α I C)

/-- How a world answers the operations of its tasks, where it can, and how it moves by itself. -/
structure Habitat (E : Type) (R : E → Type) (I C D W : Type) where
  serve : W → I → (e : E) → C → Option (R e × W)
  move : W → D → W

/-- A step of a pool. -/
inductive PoolAction (I C D : Type) where
  | start (caller : I)
  | serve (i : ℕ) (choice : C)
  | move (d : D)

variable {E : Type} {R : E → Type} {X α I C D W : Type}

namespace Task

/-- What the task has come to, if it is over. -/
def outcome (t : Task E R X α I C) : Option (Except X α) :=
  match t.rest with
  | .ret a => some (.ok a)
  | .raise x => some (.error x)
  | .op _ _ => none

/-- The events of the task's steps. -/
def trace (t : Task E R X α I C) : List (Event E R) := t.steps.map Prod.fst

/-- Every way in which the task can go on ends with a trace and an outcome that satisfy `Q`. -/
def All (Q : I → List (Event E R) → Except X α → Prop) (t : Task E R X α I C) : Prop :=
  t.rest.All fun tr out => Q t.caller (t.trace ++ tr) out

variable {Q : I → List (Event E R) → Except X α → Prop} {t : Task E R X α I C}

/-- A task that is over has ended with such a trace and outcome. -/
theorem All.of_outcome (h : t.All Q) {out : Except X α} (hout : t.outcome = some out) :
    Q t.caller t.trace out := by
  obtain ⟨caller, steps, rest⟩ := t
  cases rest with
  | ret a =>
    obtain rfl : .ok a = out := Option.some.inj hout
    simpa [All] using h
  | raise x =>
    obtain rfl : .error x = out := Option.some.inj hout
    simpa [All] using h
  | op e k => cases hout

/-- A task that is under way can go on in some such way. -/
theorem All.exists_completion [∀ e, Inhabited (R e)] (h : t.All Q) :
    ∃ tr out, Q t.caller (t.trace ++ tr) out :=
  ⟨_, _, Prog.All.run h fun _ => default⟩

end Task

namespace Pool

variable (prog : I → Prog E R X α) (env : Habitat E R I C D W)

/-- A pool without tasks. -/
def new (w : W) : Pool E R X α I C W := ⟨w, []⟩

/-- One step of a pool; what cannot be leaves it as it is. -/
def step (p : Pool E R X α I C W) : PoolAction I C D → Pool E R X α I C W
  | .start caller => { p with tasks := p.tasks ++ [⟨caller, [], prog caller⟩] }
  | .serve i choice =>
    match p.tasks[i]? with
    | some ⟨caller, steps, .op e k⟩ =>
      match env.serve p.world caller e choice with
      | some (r, w) => ⟨w, p.tasks.set i ⟨caller, steps ++ [(⟨e, r⟩, choice)], k r⟩⟩
      | none => p
    | _ => p
  | .move d => { p with world := env.move p.world d }

variable {p : Pool E R X α I C W}

/-- **What a step comes to.** -/
theorem step_cases (p : Pool E R X α I C W) (a : PoolAction I C D) :
    p.step prog env a = p ∨
    (∃ caller, p.step prog env a = { p with tasks := p.tasks ++ [⟨caller, [], prog caller⟩] }) ∨
    (∃ d, p.step prog env a = { p with world := env.move p.world d }) ∨
    ∃ pre caller steps e k post choice r w,
      p.tasks = pre ++ ⟨caller, steps, .op e k⟩ :: post ∧
      env.serve p.world caller e choice = some (r, w) ∧
      p.step prog env a = ⟨w, pre ++ ⟨caller, steps ++ [(⟨e, r⟩, choice)], k r⟩ :: post⟩ := by
  cases a with
  | start caller => exact .inr (.inl ⟨caller, rfl⟩)
  | move d => exact .inr (.inr (.inl ⟨d, rfl⟩))
  | serve i choice =>
    rw [step]
    split
    · rename_i caller steps e k htask
      split
      · rename_i r w hserve
        obtain ⟨hi, hget⟩ := List.getElem?_eq_some_iff.mp htask
        refine .inr (.inr (.inr ⟨p.tasks.take i, caller, steps, e, k, p.tasks.drop (i + 1), choice, r, w,
          ?_, hserve, ?_⟩))
        · rw [← hget, List.getElem_cons_drop, List.take_append_drop]
        · rw [List.set_eq_take_append_cons_drop, if_pos hi]
      · exact .inl rfl
    · exact .inl rfl

/-- What holds of a program that starts, and is kept by each operation, holds of every task. -/
theorem forall_tasks {T : Task E R X α I C → Prop} (hstart : ∀ caller, T ⟨caller, [], prog caller⟩)
    (hserve : ∀ caller steps e k r choice w w', env.serve w caller e choice = some (r, w') →
      T ⟨caller, steps, .op e k⟩ → T ⟨caller, steps ++ [(⟨e, r⟩, choice)], k r⟩)
    (w : W) (acts : List (PoolAction I C D)) :
    ∀ t ∈ (Runs.exec (step prog env) (new w) acts).tasks, T t := by
  let Inv (p : Pool E R X α I C W) : Prop := ∀ t ∈ p.tasks, T t
  have hstep (p : Pool E R X α I C W) (a : PoolAction I C D) (hp : Inv p) : Inv (p.step prog env a) := by
    rcases p.step_cases prog env a with hstep | ⟨caller, hstep⟩ | ⟨d, hstep⟩ |
      ⟨pre, caller, steps, e, k, post, choice, r, w, htasks, henv, hstep⟩ <;> rw [hstep]
    · exact hp
    · intro t ht
      rcases List.mem_append.mp ht with ht | ht
      · exact hp t ht
      · obtain rfl := List.mem_singleton.mp ht
        exact hstart caller
    · exact hp
    · have hbefore : T ⟨caller, steps, .op e k⟩ := hp _ (by simp [htasks])
      intro t ht
      rcases List.mem_append.mp ht with ht | ht
      · exact hp t (htasks ▸ List.mem_append_left _ ht)
      · rcases List.mem_cons.mp ht with rfl | ht
        · exact hserve caller steps e k r choice _ _ henv hbefore
        · exact hp t (htasks ▸ List.mem_append_right _ (List.mem_cons_of_mem _ ht))
  have hnew : Inv (new w) := fun t ht => by cases ht
  exact Runs.exec_invariant hnew hstep acts

/-- **The tasks of every pool go on as their programs do.** -/
theorem all_exec {Q : I → List (Event E R) → Except X α → Prop}
    (h : ∀ caller, (prog caller).All (Q caller))
    (w : W) (acts : List (PoolAction I C D)) :
    ∀ t ∈ (Runs.exec (step prog env) (new w) acts).tasks, t.All Q := by
  refine forall_tasks prog env h (fun caller steps e k r choice _ _ _ hbefore => ?_) w acts
  refine Prog.All.mono (hbefore r) fun tr out hout => ?_
  simpa [Task.trace] using hout

/-- The tasks of every pool have yet to perform only what their programs may. -/
theorem every_exec {P : I → Event E R → Prop} (h : ∀ caller, (prog caller).Every (P caller)) (w : W)
    (acts : List (PoolAction I C D)) :
    ∀ t ∈ (Runs.exec (step prog env) (new w) acts).tasks, t.rest.Every (P t.caller) :=
  forall_tasks prog env h (fun _ _ _ _ r _ _ _ _ hbefore => (hbefore r).2) w acts

/-- The steps of the tasks of every pool are such as the world serves. -/
theorem steps_exec {S : I → Event E R × C → Prop}
    (h : ∀ w caller e choice r w', env.serve w caller e choice = some (r, w') →
      S caller (⟨e, r⟩, choice)) (w : W) (acts : List (PoolAction I C D)) :
    ∀ t ∈ (Runs.exec (step prog env) (new w) acts).tasks, ∀ s ∈ t.steps, S t.caller s := by
  refine forall_tasks prog env (fun _ _ hs => by cases hs)
    (fun caller steps e k r choice w w' henv hbefore => ?_) w acts
  intro s hs
  rcases List.mem_append.mp hs with hs | hs
  · exact hbefore s hs
  · obtain rfl := List.mem_singleton.mp hs
    exact h w caller e choice r w' henv

/-- In the step, the task performs an operation, with the answer and the choice. -/
def Serves (env : Habitat E R I C D W) (p : Pool E R X α I C W) (a : PoolAction I C D)
    (t : Task E R X α I C) (s : Event E R × C) : Prop :=
  ∃ i k w, a = .serve i s.2 ∧ p.tasks[i]? = some t ∧ t.rest = .op s.1.op k ∧
    env.serve p.world t.caller s.1.op s.2 = some (s.1.ans, w)

/-- What a step serves: the task, and its operation with the answer and the choice. -/
def servedIn (env : Habitat E R I C D W) (p : Pool E R X α I C W) :
    PoolAction I C D → Option (Task E R X α I C × Event E R × C)
  | .serve i choice => p.tasks[i]?.bind fun t =>
    match t.rest with
    | .op e _ => (env.serve p.world t.caller e choice).map fun answer => (t, ⟨e, answer.1⟩, choice)
    | _ => none
  | _ => none

theorem serves_iff {a : PoolAction I C D} {t : Task E R X α I C} {s : Event E R × C} :
    p.Serves env a t s ↔ p.servedIn env a = some (t, s) := by
  constructor
  · rintro ⟨i, k, w, rfl, htask, hrest, hserve⟩
    simp only [servedIn, htask, Option.bind_some, hrest, hserve, Option.map_some]
  · intro h
    cases a with
    | start caller => cases h
    | move d => cases h
    | serve i choice =>
      obtain ⟨t', htask, h⟩ := Option.bind_eq_some_iff.mp h
      cases hrest : t'.rest with
      | ret x => simp [hrest] at h
      | raise x => simp [hrest] at h
      | op e k =>
        simp only [hrest, Option.map_eq_some_iff] at h
        obtain ⟨⟨answer, w⟩, hserve, heq⟩ := h
        obtain ⟨rfl, rfl⟩ := Prod.mk.inj heq
        exact ⟨i, k, w, rfl, htask, hrest, hserve⟩

/-- A step adds to the steps of the tasks the one that it serves. -/
theorem forall_steps_step {N : I → Event E R × C → Prop} (p : Pool E R X α I C W)
    (a : PoolAction I C D) :
    (∀ t ∈ (p.step prog env a).tasks, ∀ s ∈ t.steps, N t.caller s) ↔
      (∀ t ∈ p.tasks, ∀ s ∈ t.steps, N t.caller s) ∧ ∀ t s, p.Serves env a t s → N t.caller s := by
  constructor
  · intro h
    refine ⟨fun t ht s hs => ?_, ?_⟩
    · rcases p.step_cases prog env a with hstep | ⟨caller, hstep⟩ | ⟨d, hstep⟩ |
        ⟨pre, caller, steps, e, k, post, choice, r, w, htasks, -, hstep⟩ <;> rw [hstep] at h
      · exact h t ht s hs
      · exact h t (List.mem_append_left _ ht) s hs
      · exact h t ht s hs
      · simp only [htasks, List.mem_append, List.mem_cons] at h ht
        rcases ht with ht | rfl | ht
        · exact h t (.inl ht) s hs
        · exact h _ (.inr (.inl rfl)) s (List.mem_append_left _ hs)
        · exact h t (.inr (.inr ht)) s hs
    · rintro ⟨caller, steps, rest⟩ ⟨⟨e, r⟩, choice⟩ ⟨i, k, w, rfl, htask, hrest, hserve⟩
      obtain rfl : rest = .op e k := hrest
      refine h ⟨caller, steps ++ [(⟨e, r⟩, choice)], k r⟩ ?_ _ (List.mem_append_right _ (by simp))
      obtain ⟨hi, -⟩ := List.getElem?_eq_some_iff.mp htask
      simp only [step, htask]
      rw [hserve]
      exact List.mem_set hi _
  · rintro ⟨h, hserved⟩ t ht s hs
    cases a with
    | start caller =>
      rcases List.mem_append.mp ht with ht | ht
      · exact h t ht s hs
      · obtain rfl := List.mem_singleton.mp ht
        cases hs
    | move d => exact h t ht s hs
    | serve i choice =>
      rw [step] at ht
      split at ht
      · rename_i caller steps e k htask
        split at ht
        · rename_i r w hserve
          rcases List.mem_or_eq_of_mem_set ht with ht | rfl
          · exact h t ht s hs
          · rcases List.mem_append.mp hs with hs | hs
            · exact h _ (List.mem_of_getElem? htask) s hs
            · obtain rfl := List.mem_singleton.mp hs
              exact hserved ⟨caller, steps, .op e k⟩ _ ⟨i, k, w, rfl, htask, rfl, hserve⟩
        · exact h t ht s hs
      · exact h t ht s hs

/-- **The steps that the tasks have made** are those that the run has served. -/
theorem forall_steps_iff {N : I → Event E R × C → Prop} (w : W) (acts : List (PoolAction I C D)) :
    (∀ t ∈ (Runs.exec (step prog env) (new w) acts).tasks, ∀ s ∈ t.steps, N t.caller s) ↔
      Runs.EachStep (step prog env) (fun p a => ∀ t s, p.Serves env a t s → N t.caller s) (new w)
        acts := by
  let Law (p : Pool E R X α I C W) : Prop := ∀ t ∈ p.tasks, ∀ s ∈ t.steps, N t.caller s
  let Adds (p : Pool E R X α I C W) (a : PoolAction I C D) : Prop :=
    ∀ t s, p.Serves env a t s → N t.caller s
  have hnew : Law (new w) := fun t ht => by cases ht
  have hstep (pre : List (PoolAction I C D)) (a : PoolAction I C D) :
      Law ((Runs.exec (step prog env) (new w) pre).step prog env a) ↔
        Law (Runs.exec (step prog env) (new w) pre) ∧ Adds (Runs.exec (step prog env) (new w) pre) a :=
    forall_steps_step prog env _ a
  exact Runs.exec_iff_eachStep hnew hstep

/-! ## Counting steps -/

/-- The steps of the kind that the tasks have made. -/
def count (kind : I → Event E R × C → Bool) (p : Pool E R X α I C W) : ℕ :=
  (p.tasks.map fun t => t.steps.countP (kind t.caller)).sum

/-- **What a step adds to the steps of the tasks**: nothing, or the one that it serves. -/
theorem count_cases (p : Pool E R X α I C W) (a : PoolAction I C D) :
    ((∀ kind, (p.step prog env a).count kind = p.count kind) ∧
      ((p.step prog env a).world = p.world ∨
        ∃ d, a = .move d ∧ (p.step prog env a).world = env.move p.world d)) ∨
    ∃ t s, t ∈ p.tasks ∧ p.Serves env a t s ∧
      env.serve p.world t.caller s.1.op s.2 = some (s.1.ans, (p.step prog env a).world) ∧
      ∀ kind, (p.step prog env a).count kind = p.count kind + if kind t.caller s then 1 else 0 := by
  cases a with
  | start caller => exact .inl ⟨fun kind => by simp [step, count], .inl rfl⟩
  | move d => exact .inl ⟨fun kind => rfl, .inr ⟨d, rfl, rfl⟩⟩
  | serve i choice =>
    cases htask : p.tasks[i]? with
    | none =>
      have hstep : p.step prog env (.serve i choice) = p := by simp only [step, htask]
      rw [hstep]
      exact .inl ⟨fun _ => rfl, .inl rfl⟩
    | some t =>
      obtain ⟨caller, steps, rest⟩ := t
      cases rest with
      | ret | raise =>
        have hstep : p.step prog env (.serve i choice) = p := by simp only [step, htask]
        rw [hstep]
        exact .inl ⟨fun _ => rfl, .inl rfl⟩
      | op e k =>
        cases hserve : env.serve p.world caller e choice with
        | none =>
          have hstep : p.step prog env (.serve i choice) = p := by simp only [step, htask, hserve]
          rw [hstep]
          exact .inl ⟨fun _ => rfl, .inl rfl⟩
        | some answer =>
          obtain ⟨r, w⟩ := answer
          have hstep : p.step prog env (.serve i choice) =
              ⟨w, p.tasks.set i ⟨caller, steps ++ [(⟨e, r⟩, choice)], k r⟩⟩ := by
            simp only [step, htask, hserve]
          rw [hstep]
          obtain ⟨hi, hget⟩ := List.getElem?_eq_some_iff.mp htask
          refine .inr ⟨⟨caller, steps, .op e k⟩, (⟨e, r⟩, choice), List.mem_of_getElem? htask,
            ⟨i, k, w, rfl, htask, rfl, hserve⟩, hserve, fun kind => ?_⟩
          have htasks : p.tasks = p.tasks.take i ++ ⟨caller, steps, .op e k⟩ :: p.tasks.drop (i + 1) := by
            rw [← hget, List.getElem_cons_drop, List.take_append_drop]
          rw [List.set_eq_take_append_cons_drop, if_pos hi, count, count]
          nth_rewrite 3 [htasks]
          simp only [List.map_append, List.map_cons, List.sum_append, List.sum_cons, List.countP_append,
            List.countP_singleton]
          omega

/-- Steps of which each task has made no more than of others. -/
theorem count_le_count {kind kind' : I → Event E R × C → Bool} {p : Pool E R X α I C W}
    (h : ∀ t ∈ p.tasks, t.steps.countP (kind t.caller) ≤ t.steps.countP (kind' t.caller)) :
    p.count kind ≤ p.count kind' :=
  List.sum_le_sum h

variable {K : Type*} [Semiring K] [PartialOrder K] [IsOrderedRing K]

/-- **The steps of a kind are paid for from a potential of the world.** -/
theorem count_add_le (Inv : W → Prop) {P : I → Event E R → Prop} (kind : I → Event E R × C → Bool)
    (pot : W → K) {w : W} (hP : ∀ caller, (prog caller).Every (P caller)) (h₀ : Inv w)
    (hserve : ∀ w caller e choice r w', Inv w → P caller ⟨e, r⟩ →
      env.serve w caller e choice = some (r, w') →
        Inv w' ∧ (if kind caller (⟨e, r⟩, choice) then 1 else 0) + pot w' ≤ pot w)
    (hmove : ∀ w d, Inv w → Inv (env.move w d) ∧ pot (env.move w d) ≤ pot w)
    (acts : List (PoolAction I C D)) :
    let p := Runs.exec (step prog env) (new w) acts
    Inv p.world ∧ (p.count kind : K) + pot p.world ≤ pot w := by
  induction acts using List.reverseRecOn with
  | nil => exact ⟨h₀, by simp [new, count]⟩
  | append_singleton acts a ih =>
    have hevery := every_exec prog env hP w acts
    obtain ⟨hinv, hcount⟩ := ih
    rw [Runs.exec_append_singleton]
    set p := Runs.exec (step prog env) (new w) acts
    show Inv (p.step prog env a).world ∧
      ((p.step prog env a).count kind : K) + pot (p.step prog env a).world ≤ pot w
    rcases p.count_cases prog env a with ⟨hsame, hworld | ⟨d, -, hworld⟩⟩ |
      ⟨t, s, ht, ⟨-, k, -, -, -, hrest, -⟩, henv, hadds⟩
    · rw [hsame, hworld]
      exact ⟨hinv, hcount⟩
    · obtain ⟨hinv', hpot⟩ := hmove p.world d hinv
      rw [hsame, hworld]
      exact ⟨hinv', (add_le_add_right hpot _).trans hcount⟩
    · have hnext : (Prog.op s.1.op k).Every (P t.caller) := hrest ▸ hevery t ht
      obtain ⟨hinv', hpot⟩ := hserve p.world t.caller s.1.op s.2 s.1.ans _ hinv (hnext s.1.ans).1 henv
      refine ⟨hinv', le_trans (le_of_eq ?_) ((add_le_add_right hpot _).trans hcount)⟩
      rw [hadds]
      push_cast
      rw [add_assoc]

/-- **What the steps of the tasks keep of the world**, and the world by itself, holds of it. -/
theorem world_exec (Inv : W → Prop) {P : I → Event E R → Prop} {w : W}
    (hP : ∀ caller, (prog caller).Every (P caller)) (h₀ : Inv w)
    (hserve : ∀ w caller e choice r w', Inv w → P caller ⟨e, r⟩ →
      env.serve w caller e choice = some (r, w') → Inv w')
    (hmove : ∀ w d, Inv w → Inv (env.move w d)) (acts : List (PoolAction I C D)) :
    Inv (Runs.exec (step prog env) (new w) acts).world :=
  (count_add_le prog env (K := ℕ) Inv (fun _ _ => false) (fun _ => 0) hP h₀
    (fun w caller e choice r w' hw hp henv => ⟨hserve w caller e choice r w' hw hp henv, by simp⟩)
    (fun w d hw => ⟨hmove w d hw, le_rfl⟩) acts).1

/-- Tasks that have each made a step of a kind in some lane number no more than these steps. -/
theorem length_filter_le {L : Type*} [Fintype L] {kind : L → I → Event E R × C → Bool}
    {good : Task E R X α I C → Bool} {p : Pool E R X α I C W}
    (h : ∀ t ∈ p.tasks, good t → ∃ lane, ∃ s ∈ t.steps, kind lane t.caller s) :
    (p.tasks.filter good).length ≤ ∑ lane, p.count (kind lane) := by
  have hlength (ts : List (Task E R X α I C))
      (hts : ∀ t ∈ ts, good t → ∃ lane, ∃ s ∈ t.steps, kind lane t.caller s) :
      (ts.filter good).length ≤
        ∑ lane, (ts.map fun t => t.steps.countP (kind lane t.caller)).sum := by
    induction ts with
    | nil => simp
    | cons t ts ih =>
      obtain ⟨ht, hts⟩ := List.forall_mem_cons.mp hts
      have hrest := ih hts
      simp only [List.map_cons, List.sum_cons, Finset.sum_add_distrib, List.filter_cons]
      split
      · rename_i hgood
        obtain ⟨lane, s, hs, hkind⟩ := ht hgood
        have hone : 0 < t.steps.countP (kind lane t.caller) := List.countP_pos_iff.mpr ⟨s, hs, hkind⟩
        have hlane := Finset.single_le_sum (f := fun lane => t.steps.countP (kind lane t.caller))
          (fun _ _ => Nat.zero_le _) (Finset.mem_univ lane)
        rw [List.length_cons]
        omega
      · omega
  exact hlength p.tasks h

end Pool

end Interact
