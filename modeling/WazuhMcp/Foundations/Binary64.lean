import Mathlib.Data.Int.Log
import Mathlib.Data.Rat.Floor
import Mathlib.Tactic.Linarith
import Mathlib.Tactic.Ring

/-!
# Rounding to double precision

The binary64 number that a positive rational rounds to. The numbers of the format are the multiples of
a power of two, `spacing x` near `x`, and a number halfway between two of them goes to the even one.
What rounds to `2 ^ 1024` or beyond is infinite.

* `nearest_lt_iff` says what rounds to less than a power of two, and `le_two_mul_nearest` that rounding
  loses at most half of a number.
* `fl` rounds numbers of either sign. What has been rounded is not changed by it (`fl_fl`), and neither
  is a whole number up to `2 ^ 53`, nor what is left of a double when one is taken from it
  (`fl_sub_natCast`).
* `Rounding` is the hook that a program in either arithmetic is written with: what it computes exactly
  is the program at `Rounding.exact`, and what it computes in double precision the same program at
  `Rounding.binary64`.
-/

namespace Binary64

/-- The nearest integer, and of two that are equally near the even one. -/
def roundHalfEven (q : ℚ) : ℤ :=
  if Int.fract q < 1 / 2 then ⌊q⌋
  else if 1 / 2 < Int.fract q then ⌊q⌋ + 1
  else if Even ⌊q⌋ then ⌊q⌋ else ⌊q⌋ + 1

variable {q x : ℚ} {n : ℤ}

theorem floor_le_roundHalfEven : ⌊q⌋ ≤ roundHalfEven q := by
  unfold roundHalfEven
  split_ifs <;> omega

theorem le_roundHalfEven (h : (n : ℚ) ≤ q) : n ≤ roundHalfEven q :=
  (Int.le_floor.mpr h).trans floor_le_roundHalfEven

theorem sub_half_le_roundHalfEven (q : ℚ) : q - 1 / 2 ≤ roundHalfEven q := by
  have hfract : q - ⌊q⌋ = Int.fract q := rfl
  have hlt := Int.fract_lt_one q
  unfold roundHalfEven
  split_ifs with hlow hhigh <;> push_cast <;> linarith

/-- What rounds to less than an even number. -/
theorem roundHalfEven_lt_two_mul_iff : roundHalfEven q < 2 * n ↔ q < 2 * n - 1 / 2 := by
  have hfract : q - ⌊q⌋ = Int.fract q := rfl
  have hnonneg := Int.fract_nonneg q
  have hlt := Int.fract_lt_one q
  rcases lt_trichotomy (⌊q⌋ + 1) (2 * n) with hbelow | heq | habove
  · have hcast : (⌊q⌋ : ℚ) + 2 ≤ 2 * n := by exact_mod_cast (by omega : ⌊q⌋ + 2 ≤ 2 * n)
    refine iff_of_true ?_ (by linarith)
    unfold roundHalfEven
    split_ifs <;> omega
  · -- the floor is odd, so that halfway goes up
    have hcast : (⌊q⌋ : ℚ) + 1 = 2 * n := by exact_mod_cast heq
    have hodd : ¬ Even ⌊q⌋ := by
      rintro ⟨k, hk⟩
      omega
    unfold roundHalfEven
    split_ifs with hlow hhigh
    · exact iff_of_true (by omega) (by linarith)
    · exact iff_of_false (by omega) (by linarith)
    · exact iff_of_false (by omega) (by linarith)
  · have hcast : (2 * n : ℚ) ≤ ⌊q⌋ := by exact_mod_cast (by omega : 2 * n ≤ ⌊q⌋)
    have hle := floor_le_roundHalfEven (q := q)
    exact iff_of_false (by omega) (by linarith)

/-- The distance between the numbers of the format around `x`. -/
def spacing (x : ℚ) : ℚ := 2 ^ max (Int.log 2 x - 52) (-1074)

/-- The number of the format, without a bound on its exponent, that `x` rounds to. -/
def nearest (x : ℚ) : ℚ := roundHalfEven (x / spacing x) * spacing x

/-- What `x` rounds to: `none` if it is infinite. -/
def round (x : ℚ) : Option ℚ := if nearest x < 2 ^ 1024 then some (nearest x) else none

theorem spacing_pos : 0 < spacing x := zpow_pos (by norm_num) _

theorem zpow_log_le (hx : 0 < x) : (2 : ℚ) ^ Int.log 2 x ≤ x := by
  exact_mod_cast Int.zpow_log_le_self (b := 2) (by norm_num) hx

theorem lt_zpow_of_log_lt {k : ℤ} (h : Int.log 2 x < k) : x < (2 : ℚ) ^ k := by
  have hlt : x < (2 : ℚ) ^ (Int.log 2 x + 1) := by
    exact_mod_cast Int.lt_zpow_succ_log_self (b := 2) (by norm_num) x
  exact hlt.trans_le (zpow_le_zpow_right₀ (by norm_num) (by omega))

/-- Rounding loses at most half of a number that is no smaller than the smallest of the format. -/
theorem le_two_mul_nearest (hx : (2 : ℚ) ^ (-1074 : ℤ) ≤ x) : x ≤ 2 * nearest x := by
  have hpos : 0 < x := (zpow_pos (by norm_num) _).trans_le hx
  have hspacing : spacing x ≤ x := by
    unfold spacing
    rcases max_choice (Int.log 2 x - 52) (-1074) with h | h <;> rw [h]
    · refine le_trans ?_ (zpow_log_le hpos)
      exact zpow_le_zpow_right₀ (by norm_num) (by omega)
    · exact hx
  have hround := mul_le_mul_of_nonneg_right (sub_half_le_roundHalfEven (x / spacing x))
    (spacing_pos (x := x)).le
  rw [sub_mul, div_mul_cancel₀ _ spacing_pos.ne'] at hround
  have hnearest : x - 1 / 2 * spacing x ≤ nearest x := hround
  linarith

theorem spacing_of_normal (h : -1022 ≤ Int.log 2 x) : spacing x = 2 ^ (Int.log 2 x - 52) := by
  rw [spacing, max_eq_left (by omega)]

/-- A normal number does not round below the power of two that it has reached. -/
theorem zpow_log_le_nearest (hx : 0 < x) (h : -1022 ≤ Int.log 2 x) :
    (2 : ℚ) ^ Int.log 2 x ≤ nearest x := by
  have hpower : (2 : ℚ) ^ Int.log 2 x = ((2 ^ 52 : ℤ) : ℚ) * spacing x := by
    rw [spacing_of_normal h, Int.cast_pow, Int.cast_ofNat, ← zpow_natCast, ← zpow_add₀ (by norm_num)]
    congr 1
    omega
  have hcount : ((2 ^ 52 : ℤ) : ℚ) ≤ x / spacing x := by
    rw [le_div_iff₀ spacing_pos, ← hpower]
    exact zpow_log_le hx
  rw [hpower]
  exact mul_le_mul_of_nonneg_right (Int.cast_le.mpr (le_roundHalfEven hcount)) spacing_pos.le

/-- What rounds to less than an even number of spacings. -/
theorem nearest_lt_spacings_iff {m : ℤ} :
    nearest x < 2 * m * spacing x ↔ x < 2 * m * spacing x - spacing x / 2 := by
  have hround : ((roundHalfEven (x / spacing x) : ℚ) < 2 * m) ↔
      roundHalfEven (x / spacing x) < 2 * m := by exact_mod_cast Iff.rfl
  have hlevel : (2 * (m : ℚ) - 1 / 2) * spacing x = 2 * m * spacing x - spacing x / 2 := by ring
  rw [nearest, mul_lt_mul_iff_left₀ spacing_pos, hround, roundHalfEven_lt_two_mul_iff,
    div_lt_iff₀ spacing_pos, hlevel]

/-- **What rounds to less than a power of two**: all that is more than half a spacing below it. -/
theorem nearest_lt_iff {k : ℤ} (hk : -1021 ≤ k) (hx : 0 < x) :
    nearest x < 2 ^ k ↔ x < 2 ^ k - 2 ^ (k - 54) := by
  have htwo : (1 : ℚ) ≤ 2 := by norm_num
  have hsplit : (2 : ℚ) ^ k = 2 * 2 ^ (k - 1) := by
    rw [← zpow_one_add₀ (by norm_num), add_sub_cancel]
  have hhalf : (2 : ℚ) ^ (k - 54) ≤ 2 ^ (k - 1) := zpow_le_zpow_right₀ htwo (by omega)
  have hpos : (0 : ℚ) < 2 ^ (k - 54) := zpow_pos (by norm_num) _
  rcases lt_or_ge (Int.log 2 x) k with hlog | hlog
  · -- the power is an even number of spacings
    obtain ⟨m, hm⟩ : ∃ m : ℕ, k = 1 + m + max (Int.log 2 x - 52) (-1074) :=
      ⟨(k - 1 - max (Int.log 2 x - 52) (-1074)).toNat, by omega⟩
    have hpower : (2 : ℚ) ^ k = 2 * ((2 ^ m : ℤ) : ℚ) * spacing x := by
      rw [hm, zpow_add₀ (by norm_num), zpow_add₀ (by norm_num), zpow_one, zpow_natCast, Int.cast_pow,
        Int.cast_ofNat]
      rfl
    have hround : nearest x < 2 ^ k ↔ x < 2 ^ k - spacing x / 2 := by
      rw [hpower]
      exact nearest_lt_spacings_iff
    rw [hround]
    rcases eq_or_ne (Int.log 2 x) (k - 1) with htop | hlow
    · have hspacing : spacing x / 2 = 2 ^ (k - 54) := by
        rw [spacing_of_normal (by omega), div_eq_iff (by norm_num), ← zpow_add_one₀ (by norm_num)]
        congr 1
        omega
      rw [hspacing]
    · have hxlt : x < (2 : ℚ) ^ (k - 1) := lt_zpow_of_log_lt (by omega)
      have hle : spacing x ≤ 2 ^ (k - 1) := zpow_le_zpow_right₀ htwo (by omega)
      exact iff_of_true (by linarith) (by linarith)
  · have hxge : (2 : ℚ) ^ k ≤ x := (zpow_le_zpow_right₀ htwo hlog).trans (zpow_log_le hx)
    have hnearest : (2 : ℚ) ^ k ≤ nearest x :=
      (zpow_le_zpow_right₀ htwo hlog).trans (zpow_log_le_nearest hx (by omega))
    exact iff_of_false (not_lt.mpr hnearest) (by linarith)

/-! ## The numbers of the format -/

theorem roundHalfEven_le (h : q ≤ n) : roundHalfEven q ≤ n := by
  have hfract : q - ⌊q⌋ = Int.fract q := rfl
  have hfloor : ⌊q⌋ ≤ n := by exact_mod_cast (Int.floor_le q).trans h
  rcases hfloor.lt_or_eq with hlt | heq
  · unfold roundHalfEven
    split_ifs <;> omega
  · have hzero : Int.fract q < 1 / 2 := by
      have hn : (⌊q⌋ : ℚ) = n := by exact_mod_cast heq
      linarith
    rw [roundHalfEven, if_pos hzero, heq]

theorem roundHalfEven_intCast (n : ℤ) : roundHalfEven n = n :=
  le_antisymm (roundHalfEven_le le_rfl) (le_roundHalfEven le_rfl)

/-- A number of the format, no less than nothing. -/
def Representable (x : ℚ) : Prop := ∃ m e : ℤ, 0 ≤ m ∧ m ≤ 2 ^ 53 ∧ -1074 ≤ e ∧ x = m * 2 ^ e

theorem nearest_zero : nearest 0 = 0 := by
  have hzero : roundHalfEven ((0 : ℤ) : ℚ) = 0 := roundHalfEven_intCast 0
  rw [Int.cast_zero] at hzero
  rw [nearest, zero_div, hzero, Int.cast_zero, zero_mul]

/-- What rounding comes to is a number of the format. -/
theorem representable_nearest (hx : 0 ≤ x) : Representable (nearest x) := by
  rcases hx.eq_or_lt with rfl | hpos
  · exact ⟨0, 0, le_rfl, by norm_num, by norm_num, by simp [nearest_zero]⟩
  · refine ⟨roundHalfEven (x / spacing x), max (Int.log 2 x - 52) (-1074), ?_, ?_, le_max_right _ _, rfl⟩
    · apply le_roundHalfEven
      rw [Int.cast_zero]
      exact div_nonneg hx spacing_pos.le
    · have htop : x < (2 : ℚ) ^ (Int.log 2 x + 1) := lt_zpow_of_log_lt (by omega)
      have hsplit : (2 : ℚ) ^ (53 + max (Int.log 2 x - 52) (-1074)) = ((2 ^ 53 : ℤ) : ℚ) * spacing x := by
        rw [zpow_add₀ (by norm_num), spacing]
        norm_num
      have hle : (2 : ℚ) ^ (Int.log 2 x + 1) ≤ 2 ^ (53 + max (Int.log 2 x - 52) (-1074)) :=
        zpow_le_zpow_right₀ (by norm_num) (by omega)
      apply roundHalfEven_le
      rw [div_le_iff₀ spacing_pos, ← hsplit]
      exact htop.le.trans hle

/-- A multiple of the spacing is not changed. -/
theorem nearest_of_multiple {n : ℤ} (h : x = n * spacing x) : nearest x = x := by
  have hquot : x / spacing x = n := by
    rw [div_eq_iff spacing_pos.ne']
    exact h
  rw [nearest, hquot, roundHalfEven_intCast]
  exact h.symm

/-- A number of the format is not changed by rounding. -/
theorem nearest_of_representable (h : Representable x) : nearest x = x := by
  obtain ⟨m, e, hm, htop, he, rfl⟩ := h
  rcases hm.eq_or_lt with rfl | hpos
  · simp [nearest_zero]
  have htwo : (0 : ℚ) < 2 ^ e := zpow_pos (by norm_num) _
  have hmQ : (0 : ℚ) < m := by exact_mod_cast hpos
  set x : ℚ := m * 2 ^ e with hx
  have hxpos : 0 < x := mul_pos hmQ htwo
  -- `x` is so many times a power of two that is no less than the spacing
  obtain ⟨k, f, hk, hf⟩ : ∃ k f : ℤ, x = k * 2 ^ f ∧ max (Int.log 2 x - 52) (-1074) ≤ f := by
    rcases htop.lt_or_eq with hlt | heq
    · refine ⟨m, e, rfl, ?_⟩
      have hlog : Int.log 2 x < 53 + e := by
        rw [← Int.lt_zpow_iff_log_lt (b := 2) (by norm_num) hxpos, Nat.cast_ofNat,
          zpow_add₀ (by norm_num), hx]
        have hcast : (m : ℚ) < 2 ^ (53 : ℤ) := by exact_mod_cast hlt
        exact mul_lt_mul_of_pos_right hcast htwo
      omega
    · refine ⟨2 ^ 52, e + 1, ?_, ?_⟩
      · rw [hx, heq, zpow_add_one₀ (by norm_num)]
        push_cast
        ring
      · have hpower : x = (2 : ℚ) ^ (53 + e) := by
          rw [hx, heq, zpow_add₀ (by norm_num)]
          norm_num
        have hlog : Int.log 2 x = 53 + e := by
          rw [hpower]
          exact_mod_cast Int.log_zpow (b := 2) (R := ℚ) (by norm_num) (53 + e)
        omega
  refine nearest_of_multiple (n := k * 2 ^ (f - max (Int.log 2 x - 52) (-1074)).toNat) ?_
  have hexp : (2 : ℚ) ^ (f - max (Int.log 2 x - 52) (-1074)).toNat * spacing x = 2 ^ f := by
    rw [spacing, ← zpow_natCast, ← zpow_add₀ (by norm_num)]
    congr 1
    omega
  push_cast
  rw [mul_assoc, hexp]
  exact hk

/-- What a number of either sign rounds to, without a bound on the exponent. -/
def fl (x : ℚ) : ℚ := if x < 0 then -nearest (-x) else nearest x

theorem fl_of_nonneg (hx : 0 ≤ x) : fl x = nearest x := if_neg (not_lt.mpr hx)

theorem representable_nonneg (h : Representable x) : 0 ≤ x := by
  obtain ⟨m, e, hm, -, -, rfl⟩ := h
  exact mul_nonneg (by exact_mod_cast hm) (zpow_pos (by norm_num) _).le

theorem fl_nonneg (hx : 0 ≤ x) : 0 ≤ fl x := by
  rw [fl_of_nonneg hx]
  exact representable_nonneg (representable_nearest hx)

theorem fl_of_representable (h : Representable x) : fl x = x := by
  rw [fl_of_nonneg (representable_nonneg h), nearest_of_representable h]

/-- **What has been rounded** is not changed by rounding. -/
theorem fl_fl (x : ℚ) : fl (fl x) = fl x := by
  rcases lt_or_ge x 0 with hneg | hnonneg
  · have hrep : Representable (nearest (-x)) := representable_nearest (neg_nonneg.mpr hneg.le)
    have hfl : fl x = -nearest (-x) := if_pos hneg
    rw [hfl]
    rcases (representable_nonneg hrep).eq_or_lt with hzero | hpos
    · rw [← hzero, neg_zero, fl_of_nonneg le_rfl, nearest_zero]
    · rw [fl, if_pos (neg_lt_zero.mpr hpos), neg_neg, nearest_of_representable hrep]
  · have hrep : Representable (fl x) := by
      rw [fl_of_nonneg hnonneg]
      exact representable_nearest hnonneg
    exact fl_of_representable hrep

theorem representable_natCast {k : ℕ} (hk : k ≤ 2 ^ 53) : Representable k :=
  ⟨k, 0, by omega, by exact_mod_cast hk, by norm_num, by simp⟩

/-- **A whole number is taken exactly** from a double that is no less than it. -/
theorem fl_sub_natCast {k : ℕ} (hx : fl x = x) (hk : (k : ℚ) ≤ x) (htop : x ≤ 2 ^ 53) :
    fl (x - k) = x - k := by
  have hnonneg : 0 ≤ x := (Nat.cast_nonneg k).trans hk
  have hrep : Representable x := by
    rw [← hx, fl_of_nonneg hnonneg]
    exact representable_nearest hnonneg
  apply fl_of_representable
  obtain ⟨m, e, hm, hmax, he, rfl⟩ := hrep
  have htwo : (0 : ℚ) < 2 ^ e := zpow_pos (by norm_num) _
  rcases le_or_gt e 0 with hlow | hhigh
  · -- the whole number is a multiple of the last place of the double
    have hwhole : (k : ℚ) = ((k * 2 ^ (-e).toNat : ℤ) : ℚ) * 2 ^ e := by
      push_cast
      rw [mul_assoc, ← zpow_natCast, ← zpow_add₀ (by norm_num), Int.toNat_of_nonneg (by omega),
        neg_add_cancel, zpow_zero, mul_one]
    rw [hwhole] at hk
    have hle : (k * 2 ^ (-e).toNat : ℤ) ≤ m := by exact_mod_cast le_of_mul_le_mul_right hk htwo
    have hpos : (0 : ℤ) ≤ k * 2 ^ (-e).toNat := by positivity
    refine ⟨m - k * 2 ^ (-e).toNat, e, by omega, by omega, he, ?_⟩
    rw [Int.cast_sub, sub_mul, ← hwhole]
  · -- the double is a whole number
    obtain ⟨j, hj⟩ : ∃ j : ℕ, (m : ℚ) * 2 ^ e = j := by
      refine ⟨m.toNat * 2 ^ e.toNat, ?_⟩
      have hmcast : ((m.toNat : ℕ) : ℚ) = m := by exact_mod_cast Int.toNat_of_nonneg hm
      push_cast
      rw [hmcast, ← zpow_natCast, Int.toNat_of_nonneg hhigh.le]
    rw [hj] at hk htop ⊢
    have hkj : k ≤ j := by exact_mod_cast hk
    rw [← Nat.cast_sub hkj]
    apply representable_natCast
    have : j ≤ 2 ^ 53 := by exact_mod_cast htop
    omega

end Binary64

/-! ## Programs in either arithmetic -/

/-- How the results of operations are rounded. What is no less than nothing stays so, and what has been
rounded is not changed. The whole numbers that are not rounded (`Whole`) are those up to `2 ^ 53` at least;
taken from a number that has been rounded and is no greater than such a number, they leave a difference that
is not rounded either. -/
structure Rounding where
  fl : ℚ → ℚ
  Whole : ℕ → Prop
  nonneg : ∀ {x}, 0 ≤ x → 0 ≤ fl x
  idem : ∀ x, fl (fl x) = fl x
  whole : ∀ {k : ℕ}, k ≤ 2 ^ 53 → Whole k
  natCast : ∀ {k : ℕ}, Whole k → fl k = k
  sub_natCast : ∀ {x} {k top : ℕ}, fl x = x → (k : ℚ) ≤ x → x ≤ top → Whole top → fl (x - k) = x - k

namespace Rounding

instance : CoeFun Rounding fun _ => ℚ → ℚ := ⟨Rounding.fl⟩

/-- Exact arithmetic. -/
def exact : Rounding where
  fl := id
  Whole _ := True
  nonneg := id
  idem _ := rfl
  whole _ := trivial
  natCast _ := rfl
  sub_natCast _ _ _ _ := rfl

/-- Double precision. -/
def binary64 : Rounding where
  fl := Binary64.fl
  Whole k := k ≤ 2 ^ 53
  nonneg := Binary64.fl_nonneg
  idem := Binary64.fl_fl
  whole := id
  natCast hk := Binary64.fl_of_representable (Binary64.representable_natCast hk)
  sub_natCast hx hk htop hwhole := Binary64.fl_sub_natCast hx hk (htop.trans (by exact_mod_cast hwhole))

@[simp] theorem exact_apply (x : ℚ) : exact x = x := rfl

variable (fl : Rounding)

/-- What is rounded and clipped at a whole number has been rounded. -/
theorem min_fixed {k : ℕ} (hk : fl.Whole k) (x : ℚ) : fl (min (k : ℚ) (fl x)) = min (k : ℚ) (fl x) := by
  rcases min_choice (k : ℚ) (fl x) with h | h <;> rw [h]
  · exact fl.natCast hk
  · exact fl.idem x

end Rounding
