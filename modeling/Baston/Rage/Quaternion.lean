/-
Smallest-three quaternion compression (`rage/quaternion.rs`).

The wire carries the index of the largest component and the other three quantised
over `[-1/√2, 1/√2]`, where `√2` is the engine's own literal.
-/
import Baston.Rage.Scalar

namespace Baston.Rage.Quaternion

variable {F : Type} [Scalar F]

/-- The engine's approximation of `√2`. -/
def sqrt2 : F := 1.414214
def minimum : F := -1.0 / sqrt2
def maximum : F := 1.0 / sqrt2

/-- Bits per component. -/
def bits : Nat := 11

/-- A full turn in radians, as the engine spells it. -/
def tauRadians : F := 6.2831855

/-- A quaternion in its wire form. -/
structure CompressedQuaternion where
  largest : UInt32
  a : UInt32
  b : UInt32
  c : UInt32
  deriving DecidableEq

/-- Components in `xyzw` order. -/
structure Quat (F : Type) where
  x : F
  y : F
  z : F
  w : F

def compress (q : Quat F) (bits : Nat) : CompressedQuaternion :=
  let scale : F := Scalar.ofInt (2 ^ bits - 1)
  -- the largest magnitude, the earliest of equals
  let pick (best : UInt32 × F) (i : UInt32) (v : F) : UInt32 × F :=
    if Scalar.lt best.2 v then (i, v) else best
  let best := pick (pick (pick (0, Scalar.abs q.x) 1 (Scalar.abs q.y)) 2 (Scalar.abs q.z)) 3
    (Scalar.abs q.w)
  let (component, o1, o2, o3) : F × F × F × F :=
    if best.1 = 0 then (q.x, q.y, q.z, q.w)
    else if best.1 = 1 then (q.y, q.x, q.z, q.w)
    else if best.1 = 2 then (q.z, q.x, q.y, q.w)
    else (q.w, q.x, q.y, q.z)
  let sign : F := if Scalar.le 0.0 component then 1.0 else -1.0
  let quantise (value : F) : UInt32 :=
    let normal := (value * sign - minimum) / (maximum - minimum)
    Scalar.floorToU32 (normal * scale + 0.5)
  ⟨best.1, quantise o1, quantise o2, quantise o3⟩

def decompress (q : CompressedQuaternion) (bits : Nat) : Quat F :=
  let scale : F := Scalar.ofInt (2 ^ bits - 1)
  let dequantise (value : UInt32) : F :=
    Scalar.ofInt value.toNat / scale * (maximum - minimum) + minimum
  let a := dequantise q.a
  let b := dequantise q.b
  let c := dequantise q.c
  let largest := Scalar.sqrt (Scalar.max (1.0 - a * a - b * b - c * c) 0.0)
  if q.largest = 0 then ⟨largest, a, b, c⟩
  else if q.largest = 1 then ⟨a, largest, b, c⟩
  else if q.largest = 2 then ⟨a, b, largest, c⟩
  else ⟨a, b, c, largest⟩

/-- The quaternion of a heading in degrees: a rotation about Z. -/
def fromHeadingDegrees (heading : F) : Quat F :=
  let half := Scalar.toRadians heading * 0.5
  ⟨0.0, 0.0, Scalar.sin half, Scalar.cos half⟩

/-- The heading in degrees a quaternion represents about Z. -/
def toHeadingDegrees (q : Quat F) : F :=
  let yaw := Scalar.atan2 (2.0 * (q.w * q.z + q.x * q.y)) (1.0 - 2.0 * (q.y * q.y + q.z * q.z))
  let degrees := Scalar.toDegrees yaw
  if Scalar.lt degrees 0.0 then degrees + 360.0 else degrees

end Baston.Rage.Quaternion
