import Mathlib.Data.Finset.Insert
import WazuhMcp.Foundations.Runs

/-!
# Machines side by side

Machines that take steps of their own in any order, and messages that are each handed to some of them, one
after the other. The machines share nothing but the messages.

* `exec_apply`: after a run, each machine is where its own steps and the messages to it take it.
* `messages_actsOf`: the messages to a machine are those of all messages that it is a target of, in order.
* `eachStep_actsOf`: what every step of the run meets, every step of a machine meets on its own.
-/

/-- Machines, and the machines that a message is handed to. -/
structure Broadcast (ι M : Type) where
  State : ι → Type
  Move : ι → Type
  move : ∀ i, State i → Move i → State i
  receive : ∀ i, State i → State i
  targets : M → List ι
  targets_nodup : ∀ m, (targets m).Nodup

namespace Broadcast

variable {ι M : Type} [DecidableEq ι] (b : Broadcast ι M)

/-- A message to its targets, or a step that a machine takes of its own. -/
inductive Act where
  | send (m : M)
  | move (i : ι) (a : b.Move i)

/-- What a single machine meets: a message, or a step of its own. -/
inductive LocalAct (i : ι) where
  | receive (m : M)
  | move (a : b.Move i)

/-- A step of a machine. -/
def localStep (i : ι) (s : b.State i) : b.LocalAct i → b.State i
  | .receive _ => b.receive i s
  | .move a => b.move i s a

/-- A message is handed to one target after the other. -/
def deliver (st : ∀ i, b.State i) (targets : List ι) : ∀ i, b.State i :=
  targets.foldl (fun st i => Function.update st i (b.receive i (st i))) st

/-- A step of all the machines together. -/
def step (st : ∀ i, b.State i) : b.Act → ∀ i, b.State i
  | .send m => b.deliver st (b.targets m)
  | .move i a => Function.update st i (b.move i (st i) a)

/-- What a step means to a machine. -/
def actOf (i : ι) : b.Act → Option (b.LocalAct i)
  | .send m => if i ∈ b.targets m then some (.receive m) else none
  | .move j a => if h : j = i then some (.move (h ▸ a)) else none

/-- What a run means to a machine. -/
def actsOf (i : ι) (acts : List b.Act) : List (b.LocalAct i) := acts.filterMap (b.actOf i)

/-- The message of a step, if it is one. -/
def Act.message : b.Act → Option M
  | .send m => some m
  | .move _ _ => none

/-- The messages of a run. -/
def sent (acts : List b.Act) : List M := acts.filterMap (Act.message b)

/-- The message that a machine meets in a step, if there is one. -/
def LocalAct.message {i : ι} : b.LocalAct i → Option M
  | .receive m => some m
  | .move _ => none

variable {b} {i : ι} {st : ∀ i, b.State i}

theorem deliver_of_not_mem {targets : List ι} (hi : i ∉ targets) : b.deliver st targets i = st i := by
  unfold deliver
  induction targets generalizing st with
  | nil => rfl
  | cons j targets ih =>
    obtain ⟨hj, hi⟩ := not_or.mp (fun h => hi (List.mem_cons.mpr h))
    rw [List.foldl_cons, ih hi, Function.update_of_ne hj]

theorem deliver_of_mem {targets : List ι} (hnodup : targets.Nodup) (hi : i ∈ targets) :
    b.deliver st targets i = b.receive i (st i) := by
  induction targets generalizing st with
  | nil => cases hi
  | cons j targets ih =>
    obtain ⟨hj, hnodup⟩ := List.nodup_cons.mp hnodup
    show b.deliver (Function.update st j (b.receive j (st j))) targets i = _
    rcases List.mem_cons.mp hi with rfl | hmem
    · rw [deliver_of_not_mem hj, Function.update_self]
    · have hne : i ≠ j := by
        rintro rfl
        exact hj hmem
      rw [ih hnodup hmem, Function.update_of_ne hne]

/-- **A step of all machines is, for each of them, what it means to it.** -/
theorem step_apply (a : b.Act) : b.step st a i = ((b.actOf i a).map (b.localStep i (st i))).getD (st i) := by
  cases a with
  | send m =>
    show b.deliver st (b.targets m) i = _
    by_cases hi : i ∈ b.targets m
    · rw [deliver_of_mem (b.targets_nodup m) hi, actOf, if_pos hi]
      rfl
    · rw [deliver_of_not_mem hi, actOf, if_neg hi]
      rfl
  | move j a =>
    show Function.update st j (b.move j (st j) a) i = _
    by_cases hj : j = i
    · subst hj
      rw [Function.update_self, actOf, dif_pos rfl]
      rfl
    · rw [Function.update_of_ne (Ne.symm hj), actOf, dif_neg hj]
      rfl

theorem actsOf_append_singleton (acts : List b.Act) (a : b.Act) :
    b.actsOf i (acts ++ [a]) = b.actsOf i acts ++ (b.actOf i a).toList := by
  rw [actsOf, List.filterMap_append, actsOf]
  cases h : b.actOf i a <;> simp [h]

/-- **After a run, each machine is where what the run means to it takes it.** -/
theorem exec_apply (acts : List b.Act) :
    Runs.exec b.step st acts i = Runs.exec (b.localStep i) (st i) (b.actsOf i acts) := by
  induction acts using List.reverseRecOn with
  | nil => rfl
  | append_singleton acts a ih =>
    rw [Runs.exec_append_singleton, step_apply, ih, actsOf_append_singleton]
    cases b.actOf i a with
    | none => simp
    | some act => simp

/-- What means nothing to a machine may be left out. -/
theorem actsOf_filter {p : b.Act → Bool} (hp : ∀ a, p a = false → b.actOf i a = none) (acts : List b.Act) :
    b.actsOf i (acts.filter p) = b.actsOf i acts := by
  rw [actsOf, List.filterMap_filter, actsOf]
  refine List.filterMap_congr fun a _ => ?_
  cases ha : p a with
  | true => simp
  | false => simp [hp a ha]

/-- **The messages to a machine** are those that it is a target of, in order. -/
theorem messages_actsOf (acts : List b.Act) :
    (b.actsOf i acts).filterMap (LocalAct.message b) = (b.sent acts).filter fun m => i ∈ b.targets m := by
  induction acts using List.reverseRecOn with
  | nil => rfl
  | append_singleton acts a ih =>
    have hsent : b.sent (acts ++ [a]) = b.sent acts ++ (Act.message b a).toList := by
      rw [sent, List.filterMap_append, sent]
      cases h : Act.message b a <;> simp [h]
    rw [actsOf_append_singleton, List.filterMap_append, ih, hsent, List.filter_append]
    congr 1
    cases a with
    | send m =>
      show List.filterMap _ (if i ∈ b.targets m then some (LocalAct.receive m) else none).toList = _
      by_cases hi : i ∈ b.targets m <;> simp [hi, Act.message, LocalAct.message]
    | move j a =>
      show List.filterMap _ (if h : j = i then some (LocalAct.move (h ▸ a)) else none).toList = _
      by_cases hj : j = i <;> simp [hj, Act.message, LocalAct.message]

/-- **What every step of a run meets, every step of a machine meets on its own.** -/
theorem eachStep_actsOf {P : b.State i → b.LocalAct i → Prop} {acts : List b.Act}
    (h : Runs.EachStep b.step (fun st a => ∀ act ∈ b.actOf i a, P (st i) act) st acts) :
    Runs.EachStep (b.localStep i) P (st i) (b.actsOf i acts) := by
  induction acts using List.reverseRecOn with
  | nil => exact Runs.eachStep_nil
  | append_singleton acts a ih =>
    obtain ⟨hacts, ha⟩ := Runs.eachStep_append_singleton.mp h
    rw [actsOf_append_singleton]
    cases hact : b.actOf i a with
    | none => simpa using ih hacts
    | some act =>
      rw [exec_apply] at ha
      exact Runs.eachStep_append_singleton.mpr ⟨ih hacts, ha act hact⟩

end Broadcast
