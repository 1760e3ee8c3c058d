/-
The arithmetic of an `f32`, as far as the server uses it.

Positions, priorities and headings are `f32` in the source.  The model takes the
operations it needs as a class without laws, so a theorem about the server holds
for IEEE rounding, for exact rationals and for anything else with these operations;
a proof that needs a law has to say so.  The instance on `Float32` is the real
thing, and it computes: every operation but the trigonometric ones reduces in the
kernel.
-/
import Mathlib.Data.List.AList
import Mathlib.Algebra.Group.Nat.Defs
import Mathlib.Algebra.Group.Int.Defs

namespace Baston.Rage

/-- The operations on `f32` the source calls. -/
class Scalar (F : Type) extends Add F, Sub F, Mul F, Div F, Neg F, OfScientific F where
  /-- `a < b`. -/
  lt : F → F → Bool
  /-- `a <= b`. -/
  le : F → F → Bool
  /-- `f32::total_cmp`. -/
  totalCmp : F → F → Ordering
  /-- `f32::max`. -/
  max : F → F → F
  /-- `f32::min`. -/
  min : F → F → F
  abs : F → F
  sqrt : F → F
  sin : F → F
  cos : F → F
  atan2 : F → F → F
  toDegrees : F → F
  toRadians : F → F
  remEuclid : F → F → F
  /-- `x as i32`: truncation towards zero, saturating. -/
  toI32 : F → Int32
  /-- `x.floor() as i32`. -/
  floorToI32 : F → Int32
  /-- `x.floor() as u32`. -/
  floorToU32 : F → UInt32
  /-- `n as f32`. -/
  ofInt : Int → F
  /-- `std::f32::consts::PI`. -/
  pi : F
  /-- `f32::EPSILON`. -/
  epsilon : F

namespace F32

/-- The integer whose order `f32::total_cmp` compares by. -/
def orderKey (x : Float32) : Int :=
  let b : Int := x.toBits.toNat
  if b < 2 ^ 31 then b else -(b - 2 ^ 31) - 1

/-- `f32::max`: a NaN gives way to the other operand. -/
def maxNum (a b : Float32) : Float32 :=
  if a.isNaN then b else if b.isNaN then a else if a < b then b else a

/-- `f32::min`. -/
def minNum (a b : Float32) : Float32 :=
  if a.isNaN then b else if b.isNaN then a else if b < a then b else a

/-- Truncation towards zero, saturating, with NaN going to zero. -/
def truncToI32 (x : Float32) : Int32 := x.toModel.toInt32

/-- `floor` into an `i32`: one below the truncation for a negative non-integer. -/
def floorToI32 (x : Float32) : Int32 :=
  let t := truncToI32 x
  if x < Float32.ofInt t.toInt ∧ Int32.minValue < t then t - 1 else t

/-- The signed significand and the exponent of a finite value. -/
def significand (x : Float32) : Int × Int :=
  let b : Int := x.toBits.toNat
  let ex := b / 2 ^ 23 % 256
  let fr := if ex = 0 then b % 2 ^ 23 else b % 2 ^ 23 + 2 ^ 23
  (if b < 2 ^ 31 then fr else -fr, (if ex = 0 then 1 else ex) - 150)

/-- `f32`'s `%` on finite operands: exact, with the sign of the dividend. -/
def rem (x y : Float32) : Float32 :=
  let (mx, ex) := significand x
  let (my, ey) := significand y
  let e := if ex < ey then ex else ey
  let r := (mx * 2 ^ (ex - e).toNat).tmod (my * 2 ^ (ey - e).toNat)
  if 0 ≤ e then Float32.ofInt (r * 2 ^ e.toNat)
  else Float32.ofInt r / Float32.ofInt (2 ^ (-e).toNat)

/-- `f32::rem_euclid`. -/
def remEuclid (x y : Float32) : Float32 :=
  let r := rem x y
  if r < 0.0 then r + y.abs else r

instance : Scalar Float32 where
  lt a b := a.lt b
  le a b := a.le b
  totalCmp a b := compare (orderKey a) (orderKey b)
  max := maxNum
  min := minNum
  abs := Float32.abs
  sqrt := Float32.sqrt
  sin := Float32.sin
  cos := Float32.cos
  atan2 := Float32.atan2
  toDegrees x := x * 57.2957795130823208767981548141051703
  toRadians x := x * (3.14159265358979323846264338327950288 / 180.0)
  remEuclid := remEuclid
  toI32 := truncToI32
  floorToI32 := floorToI32
  floorToU32 x := x.toUInt32
  ofInt := Float32.ofInt
  pi := 3.14159265358979323846264338327950288
  epsilon := 1.1920929E-7

end F32

/-- A triple of coordinates, indices or velocities. -/
structure Vec3 (α : Type) where
  x : α
  y : α
  z : α
  deriving DecidableEq, Repr

namespace Vec3

variable {F : Type} [Scalar F]

/-- `[0.0; 3]`. -/
def zero : Vec3 F := ⟨0.0, 0.0, 0.0⟩

end Vec3

end Baston.Rage
