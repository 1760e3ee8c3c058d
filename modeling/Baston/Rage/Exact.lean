/-
Exact arithmetic.

The real numbers have all the operations the server uses, without rounding.  What is
proved over them is proved of the algorithm; every rational coordinate is one of them.
Only the conversions to machine integers keep the saturation of the source's casts.
-/
import Mathlib.Analysis.SpecialFunctions.Complex.Arg
import Baston.Lib.Cells
import Baston.Rage.Scalar

namespace Baston.Rage

noncomputable section

/-- `x as u32` of a whole number: saturating. -/
def saturateU32 (n : Int) : UInt32 :=
  if n < 0 then 0 else if 4294967295 < n then 4294967295 else UInt32.ofNat n.toNat

instance : Scalar ℝ where
  lt a b := decide (a < b)
  le a b := decide (a ≤ b)
  totalCmp a b := if a < b then .lt else if b < a then .gt else .eq
  max := max
  min := min
  abs := abs
  sqrt := Real.sqrt
  sin := Real.sin
  cos := Real.cos
  atan2 y x := Complex.arg ⟨x, y⟩
  toDegrees x := x * (180 / Real.pi)
  toRadians x := x * (Real.pi / 180)
  remEuclid x y := x - |y| * ⌊x / |y|⌋
  toI32 x := Cells.saturate (if x < 0 then ⌈x⌉ else ⌊x⌋)
  floorToI32 x := Cells.saturate ⌊x⌋
  floorToU32 x := saturateU32 ⌊x⌋
  ofInt n := n
  pi := Real.pi
  epsilon := 1.1920929E-7

end

end Baston.Rage
