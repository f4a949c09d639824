import Storyboard.Fault
import Storyboard.Rounding

/-!
# Whole numbers and floating point

Between pixels, places are worked out in floating point. A whole number goes
over to the nearest floating-point number, and of two that are equally near to
the one with an even last digit. Back to whole numbers the fraction is cut off,
and nothing else is lost, however large the number is.

A number too large for floating point is refused on the way there; infinity,
and what is no number, on the way back.

## Main definitions

* `Fine.ofInt`, `Fine.half` — a whole number, or its half, in floating point.
* `Fine.truncate` — a floating-point number without its fraction.
-/

namespace Storyboard.Fine

/-! ## From whole numbers -/

/-- The floating-point number nearest to `n` times a power of two; infinity if
there is none that large. -/
def nearest (n : Nat) (exponent : Int) : Float :=
  let excess := n.log2 + 1 - precision
  (Float.ofNat (roundDivide n (1 <<< excess))).scaleB (exponent + excess)

/-- The floating-point number nearest to `n` times a power of two, with the
sign of `n`. -/
def nearestSigned (n : Int) (exponent : Int) : Float :=
  if n < 0 then -(nearest n.natAbs exponent) else nearest n.natAbs exponent

/-- A whole number in floating point. -/
def ofInt (n : Int) : Except Fault Float :=
  let v := nearestSigned n 0
  if v.isFinite then .ok v else .error .tooLargeForFloat

/-- Half a whole number in floating point. -/
def half (n : Int) : Except Fault Float :=
  let v := nearestSigned n (-1)
  if v.isFinite then .ok v else .error .halfTooLargeForFloat

/-! ## To whole numbers -/

/-- A floating-point number without its fraction. -/
def truncate (v : Float) : Except Fault Int :=
  if v.isNaN then .error .notANumber
  else if v.isInf then .error .infinite
  else
    let (significand, exponent) := v.frExp
    let digits := (significand.scaleB precision).toInt64.toInt
    let shift := exponent - precision
    .ok (if 0 ≤ shift then digits <<< shift.toNat else digits.tdiv (1 <<< (-shift).toNat))

end Storyboard.Fine
