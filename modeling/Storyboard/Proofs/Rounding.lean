import Mathlib.Algebra.Order.Field.Basic
import Mathlib.Algebra.Order.Ring.Rat
import Mathlib.Data.Rat.Defs
import Mathlib.Tactic.FieldSimp
import Mathlib.Tactic.Linarith
import Mathlib.Tactic.LinearCombination
import Mathlib.Tactic.Positivity
import Mathlib.Tactic.Ring
import Storyboard.Rounding

/-!
# How far rounding goes

A quotient that is rounded to the nearest number of `Fine.precision` binary digits
moves by at most half a unit of its last digit, which is the quotient over two to the
power of `Fine.precision`. Quotients of small numbers that differ at all differ by
more than that, so rounding never turns their order around or makes them equal.

## Main results

* `Fine.roundDivide_near` — a rounded quotient and the quotient itself.
* `Fine.abs_quotient_sub_le` — what rounding to binary digits does to a quotient.
* `Fine.div_le_div_of_quotient_le` — the order of rounded quotients of small numbers.
-/

namespace Storyboard.Fine

/-- Rounding to a whole number moves a quotient by at most one half. -/
theorem roundDivide_near (n : Nat) {d : Nat} (hd : 0 < d) :
    2 * n ≤ 2 * (roundDivide n d * d) + d ∧ 2 * (roundDivide n d * d) ≤ 2 * n + d := by
  have hsplit : d * (n / d) + n % d = n := Nat.div_add_mod n d
  have hlost : n % d < d := Nat.mod_lt n hd
  unfold roundDivide
  dsimp only
  split
  · rw [Nat.add_mul, Nat.one_mul, Nat.mul_comm (n / d) d]
    omega
  · rw [Nat.mul_comm (n / d) d]
    omega

section Quotient

variable {n d : Nat}

/-- Shifted as far as it is for rounding, a quotient has all its digits before the
point. -/
private theorem precision_le_log2 (hn : 0 < n) (hd : 0 < d) :
    precision ≤ (n * 2 ^ (precision + d.log2) / d).log2 + 1 := by
  have hdigits : d < 2 ^ (d.log2 + 1) := Nat.lt_log2_self
  have hpower : 2 ^ (d.log2 + 1) * 2 ^ 52 = 2 ^ (precision + d.log2) := by
    rw [← pow_add]
    congr 1
    unfold precision
    omega
  have hshifted : 2 ^ 52 * d ≤ n * 2 ^ (precision + d.log2) := by
    calc 2 ^ 52 * d ≤ 2 ^ 52 * 2 ^ (d.log2 + 1) := Nat.mul_le_mul_left _ hdigits.le
      _ = 1 * 2 ^ (precision + d.log2) := by rw [Nat.mul_comm, hpower, Nat.one_mul]
      _ ≤ n * 2 ^ (precision + d.log2) := Nat.mul_le_mul_right _ hn
  have hlog : 52 ≤ (n * 2 ^ (precision + d.log2) / d).log2 :=
    (Nat.le_log2 (Nat.div_pos (by omega) hd).ne').2 ((Nat.le_div_iff_mul_le hd).2 hshifted)
  unfold precision at hlog ⊢
  omega

/-- Rounding to a multiple of a unit moves a quotient by at most half of it. -/
private theorem abs_roundDivide_sub_le (m unit : Nat) (hd : 0 < d) (hunit : 0 < unit) :
    |(roundDivide m (d * unit) * unit : ℚ) - m / d| ≤ unit / 2 := by
  have hnear := roundDivide_near m (Nat.mul_pos hd hunit)
  have hlow : (2 * m : ℚ) ≤ 2 * (roundDivide m (d * unit) * (d * unit)) + d * unit := by
    exact_mod_cast hnear.1
  have hhigh : (2 * (roundDivide m (d * unit) * (d * unit)) : ℚ) ≤ 2 * m + d * unit := by
    exact_mod_cast hnear.2
  have hpos : (0 : ℚ) < d := Nat.cast_pos.2 hd
  have hsplit : (m : ℚ) = d * (m / d) := by field_simp
  rw [abs_le]
  constructor
  · have hle : (d : ℚ) * (m / d - unit / 2) ≤ d * (roundDivide m (d * unit) * unit) := by
      linarith
    linarith [le_of_mul_le_mul_left hle hpos]
  · have hle : (d : ℚ) * (roundDivide m (d * unit) * unit) ≤ d * (m / d + unit / 2) := by
      linarith
    linarith [le_of_mul_le_mul_left hle hpos]

/-- Half a unit of the last digit that is kept is small against the number. -/
private theorem half_unit_le {whole m : Nat} (hd : 0 < d) (hwhole : whole * d ≤ m)
    (hlog : precision ≤ whole.log2 + 1) :
    (2 ^ (whole.log2 + 1 - precision) / 2 : ℚ) ≤ m / d / 2 ^ precision := by
  have hpos : (0 : ℚ) < d := Nat.cast_pos.2 hd
  have hfirst : 2 ^ whole.log2 ≤ whole := by
    apply Nat.log2_self_le
    intro hzero
    rw [hzero] at hlog
    exact absurd hlog (by decide)
  have hdigits : (2 ^ (whole.log2 + 1 - precision) * 2 ^ precision : ℚ) = 2 * 2 ^ whole.log2 := by
    rw [← pow_add, ← pow_succ']
    congr 1
    omega
  rw [le_div_iff₀ (by positivity), le_div_iff₀ hpos]
  calc (2 ^ (whole.log2 + 1 - precision) / 2 * 2 ^ precision * d : ℚ)
      = 2 ^ whole.log2 * d := by linear_combination (d : ℚ) / 2 * hdigits
    _ ≤ whole * d := mul_le_mul_of_nonneg_right (by exact_mod_cast hfirst) hpos.le
    _ ≤ m := by exact_mod_cast hwhole

/-- A rounded quotient differs from the quotient by at most half a unit of its last
digit. -/
theorem abs_quotient_sub_le (n : Nat) (hd : 0 < d) :
    |quotient n d - (n / d : ℚ)| ≤ (n / d : ℚ) / 2 ^ precision := by
  rcases Nat.eq_zero_or_pos n with rfl | hn
  · simp [quotient, roundDivide]
  · have hlog := precision_le_log2 hn hd
    unfold quotient
    simp only [Nat.shiftLeft_eq, Nat.one_mul]
    generalize precision + d.log2 = shift at hlog ⊢
    have hunit := half_unit_le hd (Nat.div_mul_le_self (n * 2 ^ shift) d) hlog
    generalize (n * 2 ^ shift / d).log2 + 1 - precision = excess at hunit ⊢
    have hnear := abs_roundDivide_sub_le (n * 2 ^ shift) (2 ^ excess) hd (Nat.two_pow_pos excess)
    rw [Rat.mkRat_eq_div]
    push_cast at hunit hnear ⊢
    generalize (roundDivide (n * 2 ^ shift) (d * 2 ^ excess) : ℚ) = kept at hnear ⊢
    have hscale : (0 : ℚ) < 2 ^ shift := by positivity
    have hsplit : (kept * 2 ^ excess / 2 ^ shift - n / d : ℚ) =
        (kept * 2 ^ excess - n * 2 ^ shift / d) / 2 ^ shift := by
      have hpos : (0 : ℚ) < d := Nat.cast_pos.2 hd
      field_simp
    rw [hsplit, abs_div, abs_of_pos hscale, div_le_iff₀ hscale]
    calc |kept * 2 ^ excess - n * 2 ^ shift / d|
        ≤ 2 ^ excess / 2 := hnear
      _ ≤ n * 2 ^ shift / d / 2 ^ precision := hunit
      _ = n / d / 2 ^ precision * 2 ^ shift := by ring

end Quotient

section SmallNumbers

variable {a b c d bound : Nat}

/-- Quotients that differ do so by at least a fraction that their denominators
give. -/
private theorem le_div_sub_div (hb : 0 < b) (hd : 0 < d) (hbbound : b ≤ bound)
    (hdbound : d ≤ bound) (h : (c / d : ℚ) < a / b) : (1 / bound ^ 2 : ℚ) ≤ a / b - c / d := by
  have hbpos : (0 : ℚ) < b := Nat.cast_pos.2 hb
  have hdpos : (0 : ℚ) < d := Nat.cast_pos.2 hd
  have hcross : c * b + 1 ≤ a * d := by
    rw [div_lt_div_iff₀ hdpos hbpos] at h
    exact_mod_cast h
  have hdenominators : (b * d : ℚ) ≤ bound ^ 2 := by
    rw [pow_two]
    exact_mod_cast Nat.mul_le_mul hbbound hdbound
  calc (1 / bound ^ 2 : ℚ) ≤ 1 / (b * d) := one_div_le_one_div_of_le (by positivity) hdenominators
    _ ≤ (a * d - c * b) / (b * d) := by
        apply div_le_div_of_nonneg_right _ (by positivity)
        have hcast : (c * b + 1 : ℚ) ≤ a * d := by exact_mod_cast hcross
        linarith
    _ = a / b - c / d := by field_simp

/-- A quotient below a bound is moved by less than the bound over a power of two. -/
private theorem abs_quotient_sub_le_bound (hb : 0 < b) (ha : a ≤ b * bound) :
    |quotient a b - (a / b : ℚ)| ≤ bound / 2 ^ precision := by
  apply (abs_quotient_sub_le a hb).trans
  apply div_le_div_of_nonneg_right _ (by positivity)
  rw [div_le_iff₀ (Nat.cast_pos.2 hb), mul_comm]
  exact_mod_cast ha

/-- Quotients of small numbers that differ are further apart than rounding moves
them, so that the order of the rounded ones is theirs. -/
theorem div_le_div_of_quotient_le (hb : 0 < b) (hd : 0 < d) (hbbound : b ≤ bound)
    (hdbound : d ≤ bound) (ha : a ≤ b * bound) (hc : c ≤ d * bound)
    (hbound : 2 * bound ^ 3 < 2 ^ precision) (h : quotient a b ≤ quotient c d) :
    (a / b : ℚ) ≤ c / d := by
  by_contra hlt
  have hgap := le_div_sub_div hb hd hbbound hdbound (not_le.1 hlt)
  have hfirst := abs_le.1 (abs_quotient_sub_le_bound hb ha)
  have hsecond := abs_le.1 (abs_quotient_sub_le_bound hd hc)
  have hpos : (0 : ℚ) < bound := Nat.cast_pos.2 (hb.trans_le hbbound)
  have hclose : (1 / bound ^ 2 : ℚ) ≤ 2 * bound / 2 ^ precision := by
    rw [mul_div_assoc]
    linarith [hfirst.1, hsecond.2]
  rw [div_le_div_iff₀ (by positivity) (by positivity)] at hclose
  have hcube : (2 * bound ^ 3 : ℚ) < 2 ^ precision := by exact_mod_cast hbound
  linarith

end SmallNumbers

end Storyboard.Fine
