/-
Routing buckets as scripts set them (`InMemoryRoutingControl` in
`baston-scripting/state_bag.rs`).

The natives write here, and the game state takes over what it finds.  An entity is known by a
number alone, and bucket 0 is never stored.
-/
import Baston.Lib.Map

namespace Baston.Scripting

open Assoc

/-- Lockdown policy of a bucket. -/
inductive RoutingLockdownMode
  | inactive | relaxed | strict
  deriving DecidableEq, Repr

/-- Missing assignments resolve to bucket zero, missing policies are permissive. -/
structure InMemoryRoutingControl where
  entities : Map UInt32 UInt32 := ∅
  players : Map UInt32 UInt32 := ∅
  lockdown : Map UInt32 RoutingLockdownMode := ∅
  population : Map UInt32 Bool := ∅
  /-- Moves with every change. -/
  revision : UInt64 := 0

namespace InMemoryRoutingControl

def entityBucket (r : InMemoryRoutingControl) (entity : UInt32) : UInt32 :=
  (r.entities.lookup entity).getD 0

def setEntityBucket (r : InMemoryRoutingControl) (entity bucket : UInt32) :
    InMemoryRoutingControl :=
  { r with
    entities := if bucket = 0 then r.entities.erase entity else r.entities.insert entity bucket
    revision := r.revision + 1 }

def removeEntity (r : InMemoryRoutingControl) (entity : UInt32) : InMemoryRoutingControl :=
  { r with entities := r.entities.erase entity, revision := r.revision + 1 }

def playerBucket (r : InMemoryRoutingControl) (player : UInt32) : UInt32 :=
  (r.players.lookup player).getD 0

def setPlayerBucket (r : InMemoryRoutingControl) (player bucket : UInt32) :
    InMemoryRoutingControl :=
  { r with
    players := if bucket = 0 then r.players.erase player else r.players.insert player bucket
    revision := r.revision + 1 }

def lockdownMode (r : InMemoryRoutingControl) (bucket : UInt32) : RoutingLockdownMode :=
  (r.lockdown.lookup bucket).getD .inactive

def setLockdownMode (r : InMemoryRoutingControl) (bucket : UInt32)
    (mode : RoutingLockdownMode) : InMemoryRoutingControl :=
  { r with lockdown := r.lockdown.insert bucket mode, revision := r.revision + 1 }

def populationEnabled (r : InMemoryRoutingControl) (bucket : UInt32) : Bool :=
  (r.population.lookup bucket).getD true

def setPopulationEnabled (r : InMemoryRoutingControl) (bucket : UInt32) (enabled : Bool) :
    InMemoryRoutingControl :=
  { r with population := r.population.insert bucket enabled, revision := r.revision + 1 }

end InMemoryRoutingControl

/-- What a script can ask of the routing control. -/
inductive RoutingCall
  | setEntityBucket (entity bucket : UInt32)
  | removeEntity (entity : UInt32)
  | setPlayerBucket (player bucket : UInt32)
  | setLockdownMode (bucket : UInt32) (mode : RoutingLockdownMode)
  | setPopulationEnabled (bucket : UInt32) (enabled : Bool)
  deriving DecidableEq

def RoutingCall.apply (r : InMemoryRoutingControl) : RoutingCall → InMemoryRoutingControl
  | .setEntityBucket entity bucket => r.setEntityBucket entity bucket
  | .removeEntity entity => r.removeEntity entity
  | .setPlayerBucket player bucket => r.setPlayerBucket player bucket
  | .setLockdownMode bucket mode => r.setLockdownMode bucket mode
  | .setPopulationEnabled bucket enabled => r.setPopulationEnabled bucket enabled

end Baston.Scripting
