import Mathlib.Tactic.Ring
import WazuhMcp.Foundations.Bucket

/-!
# Capped buckets on a clock

A bucket whose credits are what a clock has moved since its last draw, at a fixed rate.

* `levelAt_eq_cap`: a bucket left alone for as long as it takes to refill is full, whatever it held.
* `draw_budget`: what draws are granted within a window of time is taken from a budget, of at most
  `cap + rate * width` for a bucket in whatever state. A machine that keeps such buckets bounds what
  it grants within the window by adding the budget to its invariant.
* `Within.take`: the same of a bucket that may be in debt, as long as nothing is granted that leaves it so.
-/

namespace Bucket

variable {K : Type*}

/-- A bucket, with the reading of the clock at its last draw. -/
structure Clocked (K : Type*) where
  level : K
  last : K

/-- A window of time. -/
structure Window (K : Type*) where
  start : K
  width : K

variable [Field K] [LinearOrder K]

/-- The last reading of the window. -/
def Window.stop (w : Window K) : K := w.start + w.width

/-- The reading lies in the window. -/
def Window.Has (w : Window K) (t : K) : Prop := w.start ≤ t ∧ t ≤ w.stop

instance (w : Window K) (t : K) : Decidable (w.Has t) := inferInstanceAs (Decidable (_ ∧ _))

namespace Clocked

/-- A full bucket. -/
def full (cap t : K) : Clocked K := ⟨cap, t⟩

/-- What the bucket holds at a reading; a reading before the last draw credits nothing. -/
def levelAt (cap rate : K) (b : Clocked K) (t : K) : K :=
  refilled cap b.level (max 0 (t - b.last) * rate)

/-- The draw of an amount at a reading. -/
def draw (cap rate : K) (b : Clocked K) (t amount : K) : Bool × Clocked K :=
  let (granted, level) := Bucket.draw cap b.level ⟨max 0 (t - b.last) * rate, amount⟩
  (granted, ⟨level, t⟩)

/-- What draws within the window may still be granted: all of it while the last draw was before the
window, and then what the bucket holds and what the rest of the window refills. -/
def budget (cap rate : K) (w : Window K) (b : Clocked K) : K :=
  if b.last < w.start then cap + rate * w.width
  else if b.last ≤ w.stop then b.level + rate * (w.stop - b.last)
  else 0

variable {cap rate : K} {b : Clocked K} {t amount : K} {w : Window K}

theorem draw_of_lt (h : levelAt cap rate b t < amount) :
    draw cap rate b t amount = (false, ⟨levelAt cap rate b t, t⟩) := by
  rw [draw, Bucket.draw_of_lt h]
  rfl

theorem draw_of_le (h : amount ≤ levelAt cap rate b t) :
    draw cap rate b t amount = (true, ⟨levelAt cap rate b t - amount, t⟩) := by
  rw [draw, Bucket.draw_of_le h]
  rfl

/-- Two buckets that hold the same at a reading are the same to a draw there. -/
theorem draw_congr {b' : Clocked K} (h : levelAt cap rate b t = levelAt cap rate b' t) :
    draw cap rate b t amount = draw cap rate b' t amount := by
  rcases lt_or_ge (levelAt cap rate b t) amount with hlt | hle
  · rw [draw_of_lt hlt, draw_of_lt (h ▸ hlt), h]
  · rw [draw_of_le hle, draw_of_le (h ▸ hle), h]

theorem levelAt_le : levelAt cap rate b t ≤ cap := min_le_left _ _

theorem not_has_of_after (hafter : w.stop < t) : ¬ w.Has t := fun h => absurd hafter (not_lt.mpr h.2)

variable [IsStrictOrderedRing K]

theorem levelAt_of_le (hlast : b.last ≤ t) :
    levelAt cap rate b t = min cap (b.level + (t - b.last) * rate) := by
  rw [levelAt, refilled, max_eq_right (sub_nonneg.mpr hlast)]

/-- A reading that is no later than the last draw finds what that draw left. -/
theorem levelAt_of_ge (hlevel : b.level ≤ cap) (hlast : t ≤ b.last) :
    levelAt cap rate b t = b.level := by
  rw [levelAt, refilled, max_eq_left (sub_nonpos.mpr hlast), zero_mul, add_zero, min_eq_right hlevel]

/-- A bucket that has had the time to refill is full. -/
theorem levelAt_eq_cap (hlevel : 0 ≤ b.level) (hlast : b.last ≤ t)
    (hrest : cap ≤ (t - b.last) * rate) : levelAt cap rate b t = cap := by
  rw [levelAt_of_le hlast, min_eq_left (hrest.trans (le_add_of_nonneg_left hlevel))]

theorem levelAt_full (hrate : 0 ≤ rate) (s : K) : levelAt cap rate (full cap s) t = cap :=
  min_eq_left (le_add_of_nonneg_right (mul_nonneg (le_max_left _ _) hrate))

/-! ## What a window grants -/

/-- No bucket has more to grant within the window than its capacity and what the window refills. -/
theorem budget_le (hcap : 0 ≤ cap) (hrate : 0 ≤ rate) (hwidth : 0 ≤ w.width)
    (hlevel : b.level ≤ cap) : budget cap rate w b ≤ cap + rate * w.width := by
  have hrefill : 0 ≤ rate * w.width := mul_nonneg hrate hwidth
  unfold budget
  split
  · exact le_rfl
  · rename_i hstart
    split
    · have hrest : w.stop - b.last ≤ w.width := by
        unfold Window.stop
        linarith [not_lt.mp hstart]
      linarith [mul_le_mul_of_nonneg_left hrest hrate]
    · linarith

theorem budget_nonneg (hcap : 0 ≤ cap) (hrate : 0 ≤ rate) (hwidth : 0 ≤ w.width)
    (hlevel : 0 ≤ b.level) : 0 ≤ budget cap rate w b := by
  unfold budget
  split
  · exact add_nonneg hcap (mul_nonneg hrate hwidth)
  · split
    · rename_i hstop
      exact add_nonneg hlevel (mul_nonneg hrate (sub_nonneg.mpr hstop))
    · exact le_rfl

/-- Up to the end of the window, whatever is left of a level and what is granted of it are taken from the
budget. -/
theorem budget_take (hrate : 0 ≤ rate) {left : K} (hlast : b.last ≤ t) (hstop : t ≤ w.stop)
    (hleft : left + amount ≤ levelAt cap rate b t) :
    (if w.Has t then amount else 0) + budget cap rate w ⟨left, t⟩ ≤ budget cap rate w b := by
  rw [levelAt_of_le hlast] at hleft
  rcases lt_or_ge t w.start with hbefore | hstart
  · have hhas : ¬ w.Has t := fun h => absurd hbefore (not_lt.mpr h.1)
    rw [if_neg hhas, zero_add, budget, if_pos hbefore, budget, if_pos (hlast.trans_lt hbefore)]
  · have hhas : w.Has t := ⟨hstart, hstop⟩
    have hafter : budget cap rate w ⟨left, t⟩ = left + rate * (w.stop - t) := by
      rw [budget, if_neg (not_lt.mpr hstart), if_pos hstop]
    rw [if_pos hhas, hafter, budget]
    split
    · have hrest : rate * (w.stop - t) ≤ rate * w.width :=
        mul_le_mul_of_nonneg_left (by rw [Window.stop]; linarith) hrate
      linarith [min_le_left cap (b.level + (t - b.last) * rate)]
    · rw [if_pos (hlast.trans hstop)]
      linarith [min_le_right cap (b.level + (t - b.last) * rate)]

theorem budget_of_after {left : K} (hwidth : 0 ≤ w.width) (hafter : w.stop < t) :
    budget cap rate w ⟨left, t⟩ = 0 := by
  have hstart : w.start ≤ w.stop := le_add_of_nonneg_right hwidth
  rw [budget, if_neg (not_lt.mpr (hstart.trans hafter.le)), if_neg (not_le.mpr hafter)]

/-- **Whatever is granted within the window**, of a level and with what is left of it, is taken from the
budget. -/
theorem budget_le_of_take (hcap : 0 ≤ cap) (hrate : 0 ≤ rate) (hwidth : 0 ≤ w.width) (hlevel : 0 ≤ b.level)
    (hlast : b.last ≤ t) {left : K} (hleft : left + amount ≤ levelAt cap rate b t) :
    (if w.Has t then amount else 0) + budget cap rate w ⟨left, t⟩ ≤ budget cap rate w b := by
  rcases le_or_gt t w.stop with hstop | hafter
  · exact budget_take hrate hlast hstop hleft
  · rw [if_neg (not_has_of_after hafter), zero_add, budget_of_after hwidth hafter]
    exact budget_nonneg hcap hrate hwidth hlevel

/-- **A draw takes what it is granted within the window** from the budget. -/
theorem draw_budget (hcap : 0 ≤ cap) (hrate : 0 ≤ rate) (hwidth : 0 ≤ w.width)
    (hlevel : 0 ≤ b.level) (hlast : b.last ≤ t) :
    (if (draw cap rate b t amount).1 ∧ w.Has t then amount else 0) +
      budget cap rate w (draw cap rate b t amount).2 ≤ budget cap rate w b := by
  rcases lt_or_ge (levelAt cap rate b t) amount with hlt | hle
  · have hnone := budget_le_of_take (w := w) hcap hrate hwidth hlevel hlast
      (add_zero (levelAt cap rate b t)).le
    simpa [draw_of_lt hlt] using hnone
  · have hgranted := budget_le_of_take (w := w) hcap hrate hwidth hlevel hlast
      (sub_add_cancel (levelAt cap rate b t) amount).le
    simpa [draw_of_le hle] using hgranted

/-- What has been granted within the window is within the allowance, and so it is with what may still be
granted. -/
structure Within (cap rate : K) (w : Window K) (granted : K) (b : Clocked K) : Prop where
  granted_le : granted ≤ cap + rate * w.width
  budget_le : granted + budget cap rate w b ≤ cap + rate * w.width

/-- **What is granted stays within the allowance**, if nothing is granted that leaves the bucket in debt. -/
theorem Within.take {granted left : K} (h : Within cap rate w granted b) (hcap : 0 ≤ cap) (hrate : 0 ≤ rate)
    (hwidth : 0 ≤ w.width) (hlast : b.last ≤ t) (hleft : left + amount ≤ levelAt cap rate b t)
    (hpaid : amount = 0 ∨ 0 ≤ left) :
    Within cap rate w (granted + if w.Has t then amount else 0) ⟨left, t⟩ := by
  rcases le_or_gt t w.stop with hstop | hafter
  · have htake := budget_take hrate hlast hstop hleft
    have hbudget : granted + (if w.Has t then amount else 0) + budget cap rate w ⟨left, t⟩ ≤
        cap + rate * w.width := by linarith [h.budget_le]
    refine ⟨?_, hbudget⟩
    rcases hpaid with rfl | hnonneg
    · simpa using h.granted_le
    · exact (le_add_of_nonneg_right (budget_nonneg hcap hrate hwidth hnonneg)).trans hbudget
  · rw [if_neg (not_has_of_after hafter), add_zero]
    refine ⟨h.granted_le, ?_⟩
    rw [budget_of_after hwidth hafter, add_zero]
    exact h.granted_le

/-- A bucket of which nothing has been granted yet. -/
theorem within_zero (hcap : 0 ≤ cap) (hrate : 0 ≤ rate) (hwidth : 0 ≤ w.width) (hlevel : b.level ≤ cap) :
    Within cap rate w 0 b := by
  refine ⟨add_nonneg hcap (mul_nonneg hrate hwidth), ?_⟩
  rw [zero_add]
  exact Clocked.budget_le hcap hrate hwidth hlevel

/-- What a bucket holds grows by no more than it is refilled. -/
theorem levelAt_add_le (hrate : 0 ≤ rate) {s : K} (hlast : b.last ≤ s) (hst : s ≤ t) :
    levelAt cap rate b t ≤ levelAt cap rate b s + (t - s) * rate := by
  have hrefill : 0 ≤ (t - s) * rate := mul_nonneg (sub_nonneg.mpr hst) hrate
  rw [levelAt_of_le hlast, levelAt_of_le (hlast.trans hst), ← min_add_add_right]
  apply min_le_min
  · linarith
  · linarith

/-- **A grant may be counted before the bucket is drawn on**, if the bucket was good for it then. -/
theorem Within.take_early {granted level : K} (h : Within cap rate w granted b) (hcap : 0 ≤ cap) (hrate : 0 ≤ rate)
    (hwidth : 0 ≤ w.width) {early : K} (hlast : b.last ≤ early) (hearly : early ≤ t) (hamount : 0 ≤ amount)
    (hgood : amount ≤ levelAt cap rate b early) (hlevel : level ≤ levelAt cap rate b t) :
    Within cap rate w (granted + if w.Has early then amount else 0) ⟨level - amount, t⟩ := by
  have htaken := h.take hcap hrate hwidth hlast (sub_add_cancel (levelAt cap rate b early) amount).le
    (.inr (sub_nonneg.mpr hgood))
  have hgrows : levelAt cap rate b t ≤ levelAt cap rate b early + (t - early) * rate :=
    levelAt_add_le hrate hlast hearly
  have hleft : level - amount + 0 ≤ levelAt cap rate ⟨levelAt cap rate b early - amount, early⟩ t := by
    have hclip : levelAt cap rate b t ≤ cap := levelAt_le
    rw [levelAt_of_le hearly]
    exact le_min (by linarith) (by linarith)
  have hdrawn := htaken.take hcap hrate hwidth hearly hleft (.inl rfl)
  simpa using hdrawn

end Clocked

end Bucket
