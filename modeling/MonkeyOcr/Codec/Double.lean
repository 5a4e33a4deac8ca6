import Mathlib

namespace Codec.Double

/-- A rational rounded to an integer, ties to even. -/
def halfEven (x : ℚ) : ℤ :=
  let below := ⌊x⌋
  if x - below < 1 / 2 then below
  else if 1 / 2 < x - below then below + 1
  else if below % 2 = 0 then below
  else below + 1

/-- `⌊log₂ |x|⌋`, for `x` other than 0. -/
def exponent (x : ℚ) : ℤ :=
  let e : ℤ := x.num.natAbs.log2 - x.den.log2
  if (2 : ℚ) ^ e ≤ |x| then e else e - 1

/-- The double nearest to `x`, as a rational. There is no overflow here. -/
def nearest (x : ℚ) : ℚ :=
  let unit := (2 : ℚ) ^ max (exponent x - 52) (-1074)
  halfEven (x / unit) * unit

/-- `Math.round`, which rounds a tie up. -/
def mathRound (x : ℚ) : ℤ := ⌊x + 1 / 2⌋

/-- One tenth is no double, and seven tenths of a hundred are not seventy. -/
example : nearest (1 / 10) = 3602879701896397 / 2 ^ 55 ∧ nearest (nearest (7 / 10) * 100) = 70 := by decide +kernel

/-- The exponent of a number is that of the power of two below it. -/
theorem two_pow_exponent_le {x : ℚ} (nonzero : x ≠ 0) : (2 : ℚ) ^ exponent x ≤ |x| := by
  have numerator : x.num.natAbs ≠ 0 := by simpa using nonzero
  have whole : |x| = x.num.natAbs / x.den := by
    rw [← Rat.num_div_den x, abs_div, Nat.abs_cast, ← Int.cast_abs, Int.abs_eq_natAbs, Rat.num_div_den x]
    simp
  have least : ((2 ^ x.num.natAbs.log2 : ℕ) : ℚ) ≤ x.num.natAbs := by exact_mod_cast Nat.log2_self_le numerator
  have greatest : (x.den : ℚ) ≤ ((2 ^ (x.den.log2 + 1) : ℕ) : ℚ) := by
    exact_mod_cast Nat.lt_log2_self.le
  have positive : (0 : ℚ) < x.den := by exact_mod_cast x.den_pos
  unfold exponent
  dsimp only
  split
  · assumption
  · rw [whole, le_div_iff₀ positive]
    calc (2 : ℚ) ^ ((x.num.natAbs.log2 : ℤ) - x.den.log2 - 1) * x.den
        ≤ 2 ^ ((x.num.natAbs.log2 : ℤ) - x.den.log2 - 1) * ((2 ^ (x.den.log2 + 1) : ℕ) : ℚ) := by gcongr
      _ = ((2 ^ x.num.natAbs.log2 : ℕ) : ℚ) := by
        push_cast
        rw [← zpow_natCast, ← zpow_natCast, ← zpow_add₀ two_ne_zero]
        congr 1
        push_cast
        ring
      _ ≤ x.num.natAbs := least

theorem abs_halfEven_le (y : ℚ) : |(halfEven y : ℚ)| ≤ |y| + 1 := by
  have below := Int.floor_le y
  have above := Int.lt_floor_add_one y
  have near : (halfEven y : ℚ) = ⌊y⌋ ∨ (halfEven y : ℚ) = ⌊y⌋ + 1 := by
    unfold halfEven
    dsimp only
    split
    · exact .inl rfl
    · split
      · exact .inr (by push_cast; rfl)
      · split
        · exact .inl rfl
        · exact .inr (by push_cast; rfl)
  rw [abs_le]
  have upper := le_abs_self y
  have lower := neg_abs_le y
  rcases near with same | same
  · rw [same]
    constructor <;> linarith
  · rw [same]
    constructor <;> linarith

/-- Rounding at most doubles a number, but for tiny ones. -/
theorem abs_nearest_le (x : ℚ) : |nearest x| ≤ 2 * |x| + 1 := by
  set unit := (2 : ℚ) ^ max (exponent x - 52) (-1074) with unit_eq
  have positive : 0 < unit := by positivity
  have tiny : (2 : ℚ) ^ (-1074 : ℤ) ≤ 1 := zpow_le_one_of_nonpos₀ one_le_two (by decide)
  have small : unit ≤ |x| + 1 := by
    have natural := abs_nonneg x
    rcases le_total (exponent x - 52) (-1074) with least | usual
    · rw [unit_eq, max_eq_right least]
      linarith
    · rw [unit_eq, max_eq_left usual]
      rcases eq_or_ne x 0 with rfl | nonzero
      · have negative : exponent 0 - 52 ≤ 0 := by decide +kernel
        have one := zpow_le_one_of_nonpos₀ (one_le_two (α := ℚ)) negative
        linarith
      · have smaller : (2 : ℚ) ^ (exponent x - 52) ≤ 2 ^ exponent x := zpow_le_zpow_right₀ one_le_two (by omega)
        linarith [two_pow_exponent_le nonzero]
  calc |nearest x| = |(halfEven (x / unit) : ℚ)| * unit := by
        rw [nearest, ← unit_eq, abs_mul, abs_of_pos positive]
    _ ≤ (|x / unit| + 1) * unit := mul_le_mul_of_nonneg_right (abs_halfEven_le _) positive.le
    _ = |x| + unit := by
        rw [abs_div, abs_of_pos positive, add_mul, one_mul, div_mul_cancel₀ _ positive.ne']
    _ ≤ 2 * |x| + 1 := by linarith

end Codec.Double
