import Mathlib.Data.List.Infix
import Mathlib.Data.List.Range

/-!
# Bounded queues of tasks

A first-in first-out queue of at most `m` items, which also counts the tasks that are not done: every
item that is put adds one, and `taskDone` takes one off, for an item that has been taken out. It is an
error to do so when none is left.

Putting into a full queue, taking from an empty one and that error are `none` here.
-/

universe u

variable {α : Type u} {m : ℕ}

/-- A queue of at most `m` items. -/
structure TaskQueue (α : Type u) (m : ℕ) where
  items : List α
  unfinished : ℕ
  bounded : items.length ≤ m

namespace TaskQueue

/-- The queue that is made at first. -/
def empty : TaskQueue α m := ⟨[], 0, Nat.zero_le m⟩

variable (q : TaskQueue α m)

/-- The item is put behind the others, if there is room. -/
def putNowait (a : α) : Option (TaskQueue α m) :=
  if h : q.items.length < m then
    some ⟨q.items ++ [a], q.unfinished + 1, by simpa [Nat.succ_le_iff] using h⟩
  else none

/-- The oldest item is taken out. -/
def getNowait : Option (α × TaskQueue α m) :=
  match h : q.items with
  | [] => none
  | a :: items => some (a, ⟨items, q.unfinished, by have := q.bounded; simp [h] at this; omega⟩)

/-- One task is done. -/
def taskDone : Option (TaskQueue α m) :=
  if q.unfinished = 0 then none else some { q with unfinished := q.unfinished - 1 }

variable {q} {q' : TaskQueue α m} {a : α}

theorem putNowait_eq_some (h : q.putNowait a = some q') :
    q'.items = q.items ++ [a] ∧ q'.unfinished = q.unfinished + 1 := by
  unfold putNowait at h
  split at h
  · obtain rfl := Option.some.inj h
    exact ⟨rfl, rfl⟩
  · cases h

theorem putNowait_eq_none (h : q.putNowait a = none) : q.items.length = m := by
  unfold putNowait at h
  split at h
  · cases h
  · have := q.bounded
    omega

theorem getNowait_eq_some (h : q.getNowait = some (a, q')) :
    q.items = a :: q'.items ∧ q'.unfinished = q.unfinished := by
  unfold getNowait at h
  split at h
  · cases h
  · rename_i hitems
    obtain ⟨rfl, rfl⟩ := Prod.mk.inj (Option.some.inj h)
    exact ⟨hitems, rfl⟩

theorem getNowait_eq_none (h : q.getNowait = none) : q.items = [] := by
  unfold getNowait at h
  split at h
  · assumption
  · cases h

theorem taskDone_eq_some (h : q.taskDone = some q') :
    q'.items = q.items ∧ q'.unfinished + 1 = q.unfinished := by
  unfold taskDone at h
  split at h
  · cases h
  · obtain rfl := Option.some.inj h
    exact ⟨rfl, by show q.unfinished - 1 + 1 = _; omega⟩

theorem taskDone_eq_none (h : q.taskDone = none) : q.unfinished = 0 := by
  unfold taskDone at h
  split at h
  · assumption
  · cases h

end TaskQueue
