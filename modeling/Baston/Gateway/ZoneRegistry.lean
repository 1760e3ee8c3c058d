/-
The registry of live zones (`zone_registry.rs`): a map of the registered zones and a spatial
index of their bounds, behind two locks.

A call changes the map first, lets its lock go, and then changes the index.  So it is two
atomic steps, and between them any other call may run.  A heartbeat touches the map alone.
-/
import Baston.Lib.Map
import Baston.Gateway.QuadTree

namespace Baston.Gateway

open Assoc Baston.Rage Baston.Zone

variable {F : Type}

/-- A registered zone, as far as its place in the index and its liveness go. -/
structure ZoneEntry (F : Type) where
  bounds : Aabb F
  /-- In nanoseconds. -/
  lastHeartbeat : Nat

structure ZoneRegistry (F : Type) where
  zones : Map ZoneId (ZoneEntry F) := ∅
  quadtree : QuadTree F
  /-- Missed-heartbeat window before eviction, in nanoseconds. -/
  zoneTimeout : Nat

namespace ZoneRegistry

/-- A call, and the time it reads when it starts.  `addressOk` is whether the address of the
zone parses. -/
inductive Call (F : Type)
  | registerZone (zoneId : ZoneId) (bounds : Aabb F) (addressOk : Bool) (now : Nat)
  | heartbeat (zoneId : ZoneId) (now : Nat)
  | evictSilentZones (ord : IterOrder ZoneId) (now : Nat)
  | removeZone (zoneId : ZoneId)

/-- What a call still has to do to the index. -/
inductive Indexing (F : Type)
  | insert (zoneId : ZoneId) (bounds : Aabb F)
  | remove (zoneIds : List ZoneId)

/-- The zones that have been silent for longer than the timeout. -/
def silent (ord : IterOrder ZoneId) (now : Nat) (r : ZoneRegistry F) : List ZoneId :=
  ((r.zones.visit ord).filter fun z => r.zoneTimeout < now - z.2.lastHeartbeat).map Prod.fst

/-- The first step of a call: the map changes, and what is left to do is known. -/
def start : Call F → ZoneRegistry F → ZoneRegistry F × Option (Indexing F)
  | .registerZone id bounds addressOk now, r =>
    if addressOk then
      ({ r with zones := r.zones.insert id ⟨bounds, now⟩ }, some (.insert id bounds))
    else (r, none)
  | .heartbeat id now, r =>
    ({ r with zones := r.zones.modify id fun z => { z with lastHeartbeat := now } }, none)
  | .evictSilentZones ord now, r =>
    let dead := r.silent ord now
    ({ r with zones := dead.foldl (fun zones id => zones.erase id) r.zones },
      if dead.isEmpty then none else some (.remove dead))
  | .removeZone id, r =>
    if id ∈ r.zones then ({ r with zones := r.zones.erase id }, some (.remove [id]))
    else (r, none)

/-- The second step of a call. -/
def finish [Scalar F] : Indexing F → ZoneRegistry F → ZoneRegistry F
  | .insert id bounds, r => { r with quadtree := r.quadtree.insert id bounds }
  | .remove ids, r => { r with quadtree := ids.foldl (fun t id => (t.remove id).1) r.quadtree }

end ZoneRegistry

/-- The registry, and what each call in progress has left to do to the index. -/
structure SharedRegistry (F : Type) where
  registry : ZoneRegistry F
  inProgress : Map Nat (ZoneRegistry.Indexing F) := ∅

namespace SharedRegistry

/-- A task starts a call, or finishes the one it is at. -/
inductive Move (F : Type)
  | call (task : Nat) (call : ZoneRegistry.Call F)
  | index (task : Nat)

def step [Scalar F] : Move F → SharedRegistry F → Option (SharedRegistry F × Unit)
  | .call task call, s =>
    match s.inProgress.lookup task with
    | some _ => none
    | none =>
      match s.registry.start call with
      | (registry, some rest) => some (⟨registry, s.inProgress.insert task rest⟩, ())
      | (registry, none) => some (⟨registry, s.inProgress⟩, ())
  | .index task, s =>
    match s.inProgress.lookup task with
    | some rest => some (⟨s.registry.finish rest, s.inProgress.erase task⟩, ())
    | none => none

end SharedRegistry

end Baston.Gateway
