import Mathlib.Data.List.Induction
import Mathlib.Logic.Function.Basic

/-!
# Runs of a state machine, and task contexts

A machine is a step function `S → A → S`; an action that is not enabled leaves the state as it is. A
run is a list of actions, in whatever order they happen to come.

* `EachStep P s acts` says that every step of the run meets `P` in the state it is taken in. An
  invariant that holds of such steps holds after the run (`exec_induction`), and a law that every
  step keeps exactly when it meets `P` holds after the run exactly when all steps do
  (`exec_iff_eachStep`).
* `Always Law s acts` says that the run never leaves the law. A law that is kept, where it holds, by
  exactly the steps that meet `P` holds throughout exactly the runs of such steps
  (`always_iff_eachStep`).
* `Unwinding` is what makes the outputs of some of the actions blind to all others: two runs in which
  the observed actions coincide have the same observed outputs (`Unwinding.outputs_eq`).
* `Contexts T V` is what each task reads from one context variable. A new task starts with a copy of
  the context of the task that spawns it.
-/

namespace Runs

variable {S A : Type} {step : S → A → S}

/-- The state after a run. -/
def exec (step : S → A → S) (s : S) (acts : List A) : S := acts.foldl step s

@[simp] theorem exec_nil (s : S) : exec step s [] = s := rfl

@[simp] theorem exec_append_singleton (s : S) (acts : List A) (a : A) :
    exec step s (acts ++ [a]) = step (exec step s acts) a := by
  simp [exec]

theorem exec_append (s : S) (acts acts' : List A) :
    exec step s (acts ++ acts') = exec step (exec step s acts) acts' := by
  simp [exec]

/-- Every step of the run meets `P`, in the state before it. -/
def EachStep (step : S → A → S) (P : S → A → Prop) (s : S) (acts : List A) : Prop :=
  ∀ pre a post, acts = pre ++ a :: post → P (exec step s pre) a

variable {P : S → A → Prop} {s : S}

theorem eachStep_nil : EachStep step P s [] := by
  rintro pre a post h
  simp at h

theorem eachStep_cons {a : A} {acts : List A} (ha : P s a) (hacts : EachStep step P (step s a) acts) :
    EachStep step P s (a :: acts) := by
  rintro pre b post h
  cases pre with
  | nil =>
    obtain ⟨rfl, -⟩ := List.cons.inj h
    exact ha
  | cons c pre =>
    obtain ⟨rfl, hrest⟩ := List.cons.inj h
    exact hacts pre b post hrest

theorem eachStep_cons_iff {a : A} {acts : List A} :
    EachStep step P s (a :: acts) ↔ P s a ∧ EachStep step P (step s a) acts := by
  refine ⟨fun h => ⟨h [] a acts rfl, fun pre b post hacts => ?_⟩, fun h => eachStep_cons h.1 h.2⟩
  exact h (a :: pre) b post (by rw [hacts, List.cons_append])

/-- A run can be checked step by step. -/
instance EachStep.decidable [∀ st a, Decidable (P st a)] :
    (s : S) → (acts : List A) → Decidable (EachStep step P s acts)
  | _, [] => .isTrue eachStep_nil
  | s, a :: acts =>
    have := EachStep.decidable (step s a) acts
    decidable_of_iff _ eachStep_cons_iff.symm

theorem eachStep_append_singleton {acts : List A} {a : A} :
    EachStep step P s (acts ++ [a]) ↔ EachStep step P s acts ∧ P (exec step s acts) a := by
  constructor
  · intro h
    refine ⟨fun pre b post hacts => h pre b (post ++ [a]) (by simp [hacts]), h acts a [] rfl⟩
  · rintro ⟨h, ha⟩ pre b post hacts
    rcases List.eq_nil_or_concat post with rfl | ⟨post, c, rfl⟩
    · obtain ⟨rfl, hb⟩ := List.append_inj' hacts rfl
      obtain rfl : a = b := by simpa using hb
      exact ha
    · rw [List.concat_eq_append, ← List.cons_append, ← List.append_assoc] at hacts
      exact h pre b post (List.append_inj' hacts rfl).1

theorem EachStep.mono {Q : S → A → Prop} {acts : List A} (h : EachStep step P s acts)
    (hPQ : ∀ st a, P st a → Q st a) : EachStep step Q s acts :=
  fun pre a post hacts => hPQ _ a (h pre a post hacts)

/-- **What the steps of a run preserve** holds after the run. -/
theorem exec_induction {I : S → Prop} {acts : List A} (h₀ : I s)
    (hstep : ∀ st a, I st → P st a → I (step st a)) (hP : EachStep step P s acts) :
    I (exec step s acts) := by
  induction acts using List.reverseRecOn with
  | nil => exact h₀
  | append_singleton acts a ih =>
    obtain ⟨hacts, ha⟩ := eachStep_append_singleton.mp hP
    rw [exec_append_singleton]
    exact hstep _ a (ih hacts) ha

/-- What every step preserves holds after every run. -/
theorem exec_invariant {Inv : S → Prop} (h₀ : Inv s) (hstep : ∀ st a, Inv st → Inv (step st a))
    (acts : List A) : Inv (exec step s acts) :=
  exec_induction (P := fun _ _ => True) h₀ (fun st a h _ => hstep st a h) fun _ _ _ _ => trivial

/-- **A law that each step keeps exactly when it meets `P`** holds after a run exactly when every
step of it meets `P`. -/
theorem exec_iff_eachStep {Law : S → Prop} (h₀ : Law s) {acts : List A}
    (hstep : ∀ pre a, Law (step (exec step s pre) a) ↔
      Law (exec step s pre) ∧ P (exec step s pre) a) :
    Law (exec step s acts) ↔ EachStep step P s acts := by
  induction acts using List.reverseRecOn with
  | nil => exact iff_of_true h₀ eachStep_nil
  | append_singleton acts a ih =>
    rw [exec_append_singleton, hstep, ih, eachStep_append_singleton]

/-- Within runs of which an invariant holds, it is enough that the steps of such a run keep the law
exactly when they meet `P`. -/
theorem exec_iff_eachStep_within {Inv Law : S → Prop} {Q : S → A → Prop} {acts : List A} (h₀ : Inv s)
    (hlaw : Law s) (hinv : ∀ st a, Inv st → Q st a → Inv (step st a))
    (hstep : ∀ st a, Inv st → Q st a → (Law (step st a) ↔ Law st ∧ P st a))
    (hQ : EachStep step Q s acts) : Law (exec step s acts) ↔ EachStep step P s acts := by
  induction acts using List.reverseRecOn with
  | nil => exact iff_of_true hlaw eachStep_nil
  | append_singleton acts a ih =>
    obtain ⟨hacts, ha⟩ := eachStep_append_singleton.mp hQ
    have hInv : Inv (exec step s acts) := exec_induction h₀ hinv hacts
    rw [exec_append_singleton, hstep _ a hInv ha, ih hacts, eachStep_append_singleton]

/-- The law holds of every state that the run goes through. -/
def Always (step : S → A → S) (Law : S → Prop) (s : S) (acts : List A) : Prop :=
  ∀ pre post, acts = pre ++ post → Law (exec step s pre)

/-- What the steps of a run preserve holds of every state that the run goes through. -/
theorem always_of_eachStep {Inv : S → Prop} {acts : List A} (h₀ : Inv s)
    (hstep : ∀ st a, Inv st → P st a → Inv (step st a)) (hP : EachStep step P s acts) :
    Always step Inv s acts := by
  rintro pre post rfl
  refine exec_induction h₀ hstep ?_
  intro pre' a post' hpre
  exact hP pre' a (post' ++ post) (by simp [hpre])

theorem Always.mono {Law Law' : S → Prop} {acts : List A} (h : Always step Law s acts)
    (hlaw : ∀ st, Law st → Law' st) : Always step Law' s acts :=
  fun pre post hacts => hlaw _ (h pre post hacts)

theorem always_nil {Law : S → Prop} : Always step Law s [] ↔ Law s := by
  constructor
  · exact fun h => h [] [] rfl
  · intro h pre post hacts
    obtain ⟨rfl, -⟩ := List.append_eq_nil_iff.mp hacts.symm
    exact h

theorem always_append_singleton {Law : S → Prop} {acts : List A} {a : A} :
    Always step Law s (acts ++ [a]) ↔ Always step Law s acts ∧ Law (exec step s (acts ++ [a])) := by
  constructor
  · intro h
    exact ⟨fun pre post hacts => h pre (post ++ [a]) (by simp [hacts]), h _ [] (by simp)⟩
  · rintro ⟨h, hlast⟩ pre post hacts
    rcases List.eq_nil_or_concat post with rfl | ⟨post, c, rfl⟩
    · rw [List.append_nil] at hacts
      exact hacts ▸ hlast
    · rw [List.concat_eq_append, ← List.append_assoc] at hacts
      exact h pre post (List.append_inj' hacts rfl).1

/-- **A law that is kept, where it holds, by exactly the steps that meet `P`**, holds throughout a run
exactly when every step of it meets `P`. -/
theorem always_iff_eachStep {Inv Law : S → Prop} (hinv : ∀ acts, Inv (exec step s acts))
    (h₀ : Law s) (hstep : ∀ st a, Inv st → Law st → (Law (step st a) ↔ P st a)) {acts : List A} :
    Always step Law s acts ↔ EachStep step P s acts := by
  induction acts using List.reverseRecOn with
  | nil => exact iff_of_true (always_nil.mpr h₀) eachStep_nil
  | append_singleton acts a ih =>
    rw [always_append_singleton, eachStep_append_singleton, ih, exec_append_singleton]
    refine and_congr_right fun hacts => hstep _ a (hinv acts) ?_
    exact ih.mpr hacts acts [] (by simp)

/-! ## Noninterference -/

variable {O V : Type*} {out : S → A → O} {low : A → Bool} {view : S → V}

/-- The outputs of the observed actions of a run, in order. -/
def outputs (step : S → A → S) (out : S → A → O) (low : A → Bool) (s : S) : List A → List O
  | [] => []
  | a :: acts =>
    if low a then out s a :: outputs step out low (step s a) acts
    else outputs step out low (step s a) acts

/-- Observed actions go by a view of the state, which the others leave alone. -/
structure Unwinding (step : S → A → S) (out : S → A → O) (low : A → Bool) (view : S → V) : Prop where
  silent : ∀ s a, low a = false → view (step s a) = view s
  step_congr : ∀ s s' a, low a = true → view s = view s' → view (step s a) = view (step s' a)
  out_congr : ∀ s s' a, low a = true → view s = view s' → out s a = out s' a

namespace Unwinding

/-- The actions that are not observed can be left out of a run. -/
theorem outputs_filter (h : Unwinding step out low view) {s s' : S} (hview : view s = view s')
    (acts : List A) :
    outputs step out low s acts = outputs step out low s' (acts.filter low) := by
  induction acts generalizing s s' with
  | nil => rfl
  | cons a acts ih =>
    cases hlow : low a with
    | true =>
      rw [List.filter_cons_of_pos hlow, outputs, outputs, if_pos hlow, if_pos hlow,
        h.out_congr s s' a hlow hview, ih (h.step_congr s s' a hlow hview)]
    | false =>
      rw [List.filter_cons_of_neg (by simp [hlow]), outputs, if_neg (by simp [hlow])]
      exact ih ((h.silent s a hlow).trans hview)

/-- **Runs in which the observed actions coincide** have the same observed outputs. -/
theorem outputs_eq (h : Unwinding step out low view) {s s' : S} (hview : view s = view s')
    {acts acts' : List A} (hacts : acts.filter low = acts'.filter low) :
    outputs step out low s acts = outputs step out low s' acts' := by
  have hpurged := h.outputs_filter hview acts
  have hpurged' := h.outputs_filter (rfl : view s' = view s') acts'
  rw [hpurged, hpurged', hacts]

end Unwinding

end Runs

/-! ## Lists of calls -/

namespace Calls

variable {α : Type*} {calls : List α} {i j : ℕ} {c d : α}

/-- Where a call has been put in another's place. -/
theorem get_set_cases (h : (calls.set i c)[j]? = some d) : i = j ∧ d = c ∨ i ≠ j ∧ calls[j]? = some d := by
  by_cases hij : i = j
  · subst hij
    rw [List.getElem?_set_self'] at h
    obtain ⟨_, -, hc⟩ := Option.map_eq_some_iff.mp h
    exact .inl ⟨rfl, hc.symm⟩
  · rw [List.getElem?_set_ne hij] at h
    exact .inr ⟨hij, h⟩

/-- Where one more call has been added. -/
theorem get_append_cases (h : (calls ++ [c])[j]? = some d) :
    calls[j]? = some d ∨ j = calls.length ∧ d = c := by
  rcases Nat.lt_trichotomy j calls.length with hlt | heq | hgt
  · exact .inl ((List.getElem?_append_left hlt).symm.trans h)
  · rw [heq, List.getElem?_concat_length] at h
    exact .inr ⟨heq, (Option.some.inj h).symm⟩
  · rw [List.getElem?_eq_none (by simp; omega)] at h
    cases h

end Calls

/-! ## Task contexts -/

/-- What each task reads from a context variable, if it is set in the task's context. -/
def Contexts (T V : Type) := T → Option V

namespace Contexts

variable {T V : Type} [DecidableEq T]

/-- No task has the variable set. -/
def unset : Contexts T V := fun _ => none

/-- The contexts once `parent` has spawned `child`, which starts with a copy of its context. -/
def spawn (c : Contexts T V) (child parent : T) : Contexts T V :=
  Function.update c child (c parent)

/-- The contexts once the task has assigned the variable, or reset it to where it was. -/
def assign (c : Contexts T V) (task : T) (value : Option V) : Contexts T V :=
  Function.update c task value

@[simp] theorem spawn_self (c : Contexts T V) (child parent : T) :
    c.spawn child parent child = c parent := Function.update_self ..

@[simp] theorem spawn_of_ne (c : Contexts T V) {child parent t : T} (h : t ≠ child) :
    c.spawn child parent t = c t := Function.update_of_ne h ..

@[simp] theorem assign_self (c : Contexts T V) (task : T) (value : Option V) :
    c.assign task value task = value := Function.update_self ..

@[simp] theorem assign_of_ne (c : Contexts T V) {task t : T} (h : t ≠ task) (value : Option V) :
    c.assign task value t = c t := Function.update_of_ne h ..

end Contexts
