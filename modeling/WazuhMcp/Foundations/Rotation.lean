import Mathlib.Data.List.Infix

/-!
# Rotated logs

A log that is appended to line by line. From time to time the current part is put aside as the newest
of the archives, of which at most `cap` are kept.

* `retained_rotate`: what a rotation leaves is a suffix of what there was.
* `retained_eq_append_rotate`: a rotation drops the archive for which there is no room, and no more.
* `rotate_keeps`: a rotation shifts the archives that it keeps.
-/

universe u

variable {α : Type u}

/-- The archives, the newest first, and the current part, if it has been begun. -/
structure RotatedLog (α : Type u) where
  archives : List (List α) := []
  current : Option (List α) := none

namespace RotatedLog

variable (log : RotatedLog α) (cap : ℕ)

/-- All lines that are still there, the oldest first. -/
def retained : List α := log.archives.reverse.flatten ++ log.current.getD []

/-- The current part is put aside. -/
def rotate : RotatedLog α :=
  match log.current with
  | none => log
  | some lines => { archives := (lines :: log.archives).take cap, current := none }

/-- The current part is begun, if it was not. -/
def begin : RotatedLog α := { log with current := some (log.current.getD []) }

/-- One more line. -/
def append (line : α) : RotatedLog α := { log with current := some (log.current.getD [] ++ [line]) }

variable {log cap}

theorem retained_append (line : α) : (log.append line).retained = log.retained ++ [line] := by
  simp [retained, append]

theorem retained_begin : log.begin.retained = log.retained := by
  simp [retained, begin]

theorem flatten_reverse_take_suffix (archives : List (List α)) :
    (archives.take cap).reverse.flatten <:+ archives.reverse.flatten := by
  refine ⟨(archives.drop cap).reverse.flatten, ?_⟩
  rw [← List.flatten_append, ← List.reverse_append, List.take_append_drop]

/-- **A rotation keeps a suffix.** -/
theorem retained_rotate : (log.rotate cap).retained <:+ log.retained := by
  unfold rotate retained
  cases hcurrent : log.current with
  | none => simp [hcurrent]
  | some lines =>
    simp only [Option.getD_none, Option.getD_some, List.append_nil]
    have hsuffix := @flatten_reverse_take_suffix α cap (lines :: log.archives)
    rwa [List.reverse_cons, List.flatten_append, List.flatten_singleton] at hsuffix

/-- Where the archives fill their places at most, the last of these is all that is not among the first. -/
theorem flatten_reverse_eq_append_take {archives : List (List α)} (hcap : 0 < cap)
    (hlength : archives.length ≤ cap) : archives.reverse.flatten =
      (archives[cap - 1]?).getD [] ++ (archives.take (cap - 1)).reverse.flatten := by
  have hlast : (archives.drop (cap - 1)).reverse.flatten = (archives[cap - 1]?).getD [] := by
    rcases Nat.lt_or_ge (cap - 1) archives.length with hlt | hge
    · rw [List.drop_eq_getElem_cons hlt, List.drop_eq_nil_of_le (by omega), List.getElem?_eq_getElem hlt]
      simp
    · rw [List.drop_eq_nil_of_le hge, List.getElem?_eq_none hge]
      rfl
  rw [← hlast, ← List.flatten_append, ← List.reverse_append, List.take_append_drop]

/-- **A rotation drops the archive for which there is no room**, and no more. -/
theorem retained_eq_append_rotate {lines : List α} (hcap : 0 < cap) (hlength : log.archives.length ≤ cap)
    (hcurrent : log.current = some lines) :
    log.retained = (log.archives[cap - 1]?).getD [] ++ (log.rotate cap).retained := by
  obtain ⟨c, rfl⟩ : ∃ c, cap = c + 1 := ⟨cap - 1, by omega⟩
  unfold retained rotate
  rw [hcurrent, flatten_reverse_eq_append_take hcap hlength]
  simp

/-- A rotation shifts what it keeps. -/
theorem rotate_keeps {lines : List α} (hcurrent : log.current = some lines) {i : ℕ} (hi : i + 1 < cap) :
    (log.rotate cap).archives[i + 1]? = log.archives[i]? := by
  unfold rotate
  rw [hcurrent]
  show ((lines :: log.archives).take cap)[i + 1]? = _
  rw [List.getElem?_take_of_lt hi, List.getElem?_cons_succ]

theorem rotate_archives_ne_nil {lines : List α} (hcap : 0 < cap) (hcurrent : log.current = some lines) :
    (log.rotate cap).archives ≠ [] := by
  obtain ⟨c, rfl⟩ : ∃ c, cap = c + 1 := ⟨cap - 1, by omega⟩
  unfold rotate
  rw [hcurrent]
  simp

end RotatedLog
