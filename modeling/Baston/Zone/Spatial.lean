/-
Rectangles on the map plane (`baston-protocol/src/spatial.rs`), and the names of the zones
they bound.
-/
import Baston.Rage.Scalar

namespace Baston.Zone

open Baston.Rage

/-- A zone is known by its name. -/
abbrev ZoneId := String

/-- An axis-aligned box: its minima belong to it, its maxima do not. -/
structure Aabb (F : Type) where
  xMin : F
  yMin : F
  xMax : F
  yMax : F
  deriving DecidableEq

namespace Aabb

variable {F : Type} [Scalar F]

def contains (b : Aabb F) (x y : F) : Bool :=
  Scalar.le b.xMin x && Scalar.lt x b.xMax && Scalar.le b.yMin y && Scalar.lt y b.yMax

def intersects (b other : Aabb F) : Bool :=
  Scalar.lt b.xMin other.xMax && Scalar.lt other.xMin b.xMax
    && Scalar.lt b.yMin other.yMax && Scalar.lt other.yMin b.yMax

def center (b : Aabb F) : F × F :=
  ((b.xMin + b.xMax) / 2.0, (b.yMin + b.yMax) / 2.0)

end Aabb

end Baston.Zone
