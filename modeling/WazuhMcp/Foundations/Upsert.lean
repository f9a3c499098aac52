import Mathlib.Data.List.Pairwise
import Mathlib.Order.Basic

/-!
# Stores with upserts

A store holds records, some of which have a key. To write a record with a key puts it in the place of the
record of that key, if there is one; a record without a key joins the store in any case.

* `WellKeyed.writeAll`: the store never holds two records of one key.
* `exists_key_writeAll`: the keys in the store are those that have been written.
* `WellKeyed.countP_le_one_iff`: of the records of a kind, all of which have a key, the store holds one at most
  exactly if they agree on the key.
-/

namespace Upsert

variable {α κ : Type} (key : α → Option κ)

/-- No two records have one key. -/
def WellKeyed (xs : List α) : Prop := xs.Pairwise fun x y => key x = none ∨ key x ≠ key y

variable {key} {xs ws : List α} {x y : α} {k : κ}

theorem wellKeyed_nil : WellKeyed key [] := .nil

/-- **Of the records of a kind** there is one at most exactly if they agree on the key. -/
theorem WellKeyed.countP_le_one_iff {p : α → Bool} (h : WellKeyed key xs)
    (hkeyed : ∀ x ∈ xs, p x = true → key x ≠ none) :
    xs.countP p ≤ 1 ↔ ∀ x ∈ xs, ∀ y ∈ xs, p x = true → p y = true → key x = key y := by
  induction xs with
  | nil => simp
  | cons z zs ih =>
    obtain ⟨hz, hzs⟩ := List.pairwise_cons.mp h
    have htail := ih hzs fun x hx => hkeyed x (List.mem_cons_of_mem _ hx)
    by_cases hp : p z = true
    · rw [List.countP_cons_of_pos hp]
      constructor
      · intro hone
        have hnone : zs.countP p = 0 := by omega
        rw [List.countP_eq_zero] at hnone
        intro x hx y hy hpx hpy
        rcases List.mem_cons.mp hx with rfl | hx
        · rcases List.mem_cons.mp hy with rfl | hy
          · rfl
          · exact absurd hpy (hnone y hy)
        · exact absurd hpx (hnone x hx)
      · intro hagree
        have hnone : zs.countP p = 0 := by
          rw [List.countP_eq_zero]
          intro y hy hpy
          have hkey := hagree z List.mem_cons_self y (List.mem_cons_of_mem _ hy) hp hpy
          rcases hz y hy with hunkeyed | hne
          · exact hkeyed z List.mem_cons_self hp hunkeyed
          · exact hne hkey
        omega
    · rw [List.countP_cons_of_neg hp, htail]
      constructor
      · intro hagree x hx y hy hpx hpy
        rcases List.mem_cons.mp hx with rfl | hx
        · exact absurd hpx hp
        · rcases List.mem_cons.mp hy with rfl | hy
          · exact absurd hpy hp
          · exact hagree x hx y hy hpx hpy
      · intro hagree x hx y hy
        exact hagree x (List.mem_cons_of_mem _ hx) y (List.mem_cons_of_mem _ hy)

/-! ## Writing -/

section Write

variable [DecidableEq κ]

/-- Writes a record. -/
def write (key : α → Option κ) (xs : List α) (x : α) : List α :=
  xs.filter (fun y => key x = none ∨ key y ≠ key x) ++ [x]

/-- Writes records, one after another. -/
def writeAll (key : α → Option κ) (xs ws : List α) : List α := ws.foldl (write key) xs

theorem mem_write : y ∈ write key xs x ↔ y ∈ xs ∧ (key x = none ∨ key y ≠ key x) ∨ y = x := by
  simp [write]

theorem WellKeyed.write (h : WellKeyed key xs) (x : α) : WellKeyed key (write key xs x) := by
  unfold WellKeyed Upsert.write
  rw [List.pairwise_append]
  refine ⟨h.filter _, List.pairwise_singleton _ _, fun y hy z hz => ?_⟩
  obtain rfl := List.mem_singleton.mp hz
  obtain ⟨-, hkept⟩ := List.mem_filter.mp hy
  rcases of_decide_eq_true hkept with hnone | hne
  · cases hkey : key y with
    | none => exact .inl rfl
    | some k =>
      right
      rw [hnone]
      exact Option.some_ne_none k
  · exact .inr hne

theorem WellKeyed.writeAll (h : WellKeyed key xs) (ws : List α) : WellKeyed key (writeAll key xs ws) := by
  induction ws generalizing xs with
  | nil => exact h
  | cons x ws ih => exact ih (h.write x)

theorem exists_key_write :
    (∃ y ∈ write key xs x, key y = some k) ↔ (∃ y ∈ xs, key y = some k) ∨ key x = some k := by
  constructor
  · rintro ⟨y, hy, hkey⟩
    rcases mem_write.mp hy with ⟨hy, -⟩ | rfl
    · exact .inl ⟨y, hy, hkey⟩
    · exact .inr hkey
  · rintro (⟨y, hy, hkey⟩ | hkey)
    · by_cases hsame : key x = some k
      · exact ⟨x, mem_write.mpr (.inr rfl), hsame⟩
      · refine ⟨y, mem_write.mpr (.inl ⟨hy, .inr ?_⟩), hkey⟩
        rw [hkey]
        exact Ne.symm hsame
    · exact ⟨x, mem_write.mpr (.inr rfl), hkey⟩

/-- The keys in the store are those that were there and those that have been written. -/
theorem exists_key_writeAll :
    (∃ y ∈ writeAll key xs ws, key y = some k) ↔ (∃ y ∈ xs, key y = some k) ∨ ∃ x ∈ ws, key x = some k := by
  induction ws generalizing xs with
  | nil => simp [writeAll]
  | cons x ws ih =>
    have hstep : writeAll key xs (x :: ws) = writeAll key (write key xs x) ws := rfl
    rw [hstep, ih, exists_key_write]
    simp only [List.mem_cons, exists_eq_or_imp, or_assoc]

/-- What holds of the records that were there and of those that are written holds of the store. -/
theorem forall_writeAll {P : α → Prop} (hxs : ∀ y ∈ xs, P y) (hws : ∀ x ∈ ws, P x) :
    ∀ y ∈ writeAll key xs ws, P y := by
  induction ws generalizing xs with
  | nil => exact hxs
  | cons x ws ih =>
    refine ih (fun y hy => ?_) fun z hz => hws z (List.mem_cons_of_mem _ hz)
    rcases mem_write.mp hy with ⟨hy, -⟩ | rfl
    · exact hxs y hy
    · exact hws y List.mem_cons_self

end Write

end Upsert
