/-!
# Rounding

A number between the whole numbers is held to a fixed count of binary digits:
it goes to the nearest number with so many digits, and of two that are equally
near to the one whose last digit is even.

## Main definitions

* `Fine.roundDivide` — a quotient to the nearest whole number.
* `Fine.quotient` — a quotient to the nearest number with `Fine.precision`
  binary digits.
-/

namespace Storyboard.Fine

/-- The quotient of `n` by `d` to the nearest whole number; a tie goes to the
even neighbour. -/
def roundDivide (n d : Nat) : Nat :=
  let whole := n / d
  let lost := n % d
  if d < 2 * lost ∨ 2 * lost = d ∧ whole % 2 = 1 then whole + 1 else whole

/-- The binary digits of a floating-point number. -/
def precision : Nat := 53

/-- The quotient of `n` by `d` to the nearest number with `precision` binary
digits. -/
def quotient (n d : Nat) : Rat :=
  -- Shifted so far, a quotient that is not zero has all its digits before the point.
  let shift := precision + d.log2
  let excess := ((n <<< shift) / d).log2 + 1 - precision
  mkRat (roundDivide (n <<< shift) (d <<< excess) <<< excess) (1 <<< shift)

end Storyboard.Fine
