/-
Recovery from a zone failure, and draining a zone (`mesh.rs`, `connection_router.rs`,
`zone_registry.rs`).

The players of a zone that failed are spread over the zones that are left.  The tally starts from
the routing table and counts every assignment as it is made.

Every player of a zone that is drained is routed to the least loaded other zone, one after the
other.  What a zone holds is asked of the registry, and the registry knows what the zone's last
heartbeat said.

Step by step, a recovery (`handle_zone_failure`) starts when the zone is out of the registry.  Its
players are read off the routing table, spread over the zones that are left or kicked, and the
assignments are written in one go under the handoff lock.  Only a handoff waits for that lock:
players that connect, players that are moved by their position and the recovery of another zone
write to the table at any time.
-/
import Mathlib.Data.List.MinMax
import Mathlib.Data.List.Sort
import Baston.Lib.Map
import Baston.Lib.Trace
import Baston.Zone.Spatial

namespace Baston.Gateway

open Assoc Baston.Zone

/-- Which zone a player is routed to. -/
structure ConnectionRouter where
  routingTable : Map UInt32 ZoneId

namespace ConnectionRouter

def countInZone (zone : ZoneId) (router : ConnectionRouter) : Nat :=
  (router.routingTable.entries.filter fun e => e.2 = zone).length

/-- All players routed to a zone. -/
def playersInZone (ord : IterOrder UInt32) (zone : ZoneId) (router : ConnectionRouter) :
    List UInt32 :=
  ((router.routingTable.visit ord).filter fun e => e.2 = zone).map Prod.fst

def commitHandoff (router : ConnectionRouter) (source : UInt32) (toZone : ZoneId) :
    ConnectionRouter :=
  ⟨router.routingTable.insert source toZone⟩

def remove (router : ConnectionRouter) (source : UInt32) : ConnectionRouter :=
  ⟨router.routingTable.erase source⟩

end ConnectionRouter

/-- What a zone holds, and what it may hold. -/
structure ZoneLoad where
  count : Nat
  capacity : Nat
  zone : ZoneId
  deriving DecidableEq

namespace Rebalance

/-- The loads, the assignments and the players that found no room, while the plan is made. -/
structure Plan where
  load : List ZoneLoad
  assignments : List (UInt32 × ZoneId)
  unplaceable : List UInt32

/-- The least loaded zone that still has room, by its place in the list; of several the first. -/
def target (load : List ZoneLoad) : Option (ZoneLoad × Nat) :=
  (load.zipIdx.filter fun p => p.1.count < p.1.capacity).argmin fun p => p.1.count

/-- One orphan is assigned, or found to be unplaceable. -/
def place (plan : Plan) (source : UInt32) : Plan :=
  match target plan.load with
  | some (chosen, i) =>
    { plan with
      load := plan.load.modify i fun l => { l with count := l.count + 1 }
      assignments := plan.assignments ++ [(source, chosen.zone)] }
  | none => { plan with unplaceable := plan.unplaceable ++ [source] }

/-- The assignments, and the players that no zone has room for. -/
def planRebalance (router : ConnectionRouter) (orphaned : List UInt32)
    (survivors : List (ZoneId × UInt32)) : List (UInt32 × ZoneId) × List UInt32 :=
  if survivors = [] then ([], orphaned)
  else
    let load := survivors.map fun s => ⟨router.countInZone s.1, s.2.toNat, s.1⟩
    let plan := orphaned.foldl place ⟨load, [], []⟩
    (plan.assignments, plan.unplaceable)

end Rebalance

/-! ## Draining -/

/-- A registered zone, as far as its room goes. -/
structure ZoneRoom where
  maxPlayers : UInt32
  /-- As the last heartbeat had it. -/
  playerCount : UInt32

/-- The registered zones. -/
abbrev ZoneRooms := Map ZoneId ZoneRoom

namespace ZoneRooms

/-- The zone with the fewest players, but for one; of several the first the map comes by. -/
def findLeastLoadedZoneExcluding (ord : IterOrder ZoneId) (exclude : Option ZoneId)
    (zones : ZoneRooms) : Option ZoneId :=
  (((zones.visit ord).filter fun z => some z.1 ≠ exclude).argmin fun z =>
    z.2.playerCount.toNat).map Prod.fst

end ZoneRooms

/-- The routing table, and the reroutes so far. -/
structure Drain where
  router : ConnectionRouter
  moved : List (UInt32 × ZoneId) := []

namespace Drain

/-- The loop over the players; it stops where there is no other zone. -/
def run (zones : ZoneRooms) (ord : IterOrder ZoneId) (zoneId : ZoneId) :
    List UInt32 → Drain → Drain
  | [], d => d
  | source :: players, d =>
    match zones.findLeastLoadedZoneExcluding ord (some zoneId) with
    | none => d
    | some fallback =>
      run zones ord zoneId players
        ⟨d.router.commitHandoff source fallback, d.moved ++ [(source, fallback)]⟩

end Drain

/-- Reroute all players of a zone; the source counts the reroutes. -/
def drainZone (zones : ZoneRooms) (ord : IterOrder ZoneId) (playersOrd : IterOrder UInt32)
    (zoneId : ZoneId) (router : ConnectionRouter) : Drain :=
  Drain.run zones ord zoneId (router.playersInZone playersOrd zoneId) ⟨router, []⟩

/-! ## A recovery -/

/-- The zones that are left, with what they may hold, by their names. -/
def ZoneRooms.survivors (ord : IterOrder ZoneId) (exclude : Option ZoneId) (zones : ZoneRooms) :
    List (ZoneId × UInt32) :=
  (((zones.visit ord).filter fun z => some z.1 ≠ exclude).map
    fun z => (z.1, z.2.maxPlayers)).insertionSort fun a b => a.1 ≤ b.1

/-- How far a recovery is. -/
inductive RecoveryPhase
  | evicted
  | orphansRead (orphaned : List UInt32)
  | survivorsRead (orphaned : List UInt32) (survivors : List (ZoneId × UInt32))
  /-- Those without a place are kicked, one after the other. -/
  | kicking (assignments : List (UInt32 × ZoneId)) (unplaceable : List UInt32)
  /-- `commit_batch` has the lock and writes. -/
  | committing (assignments : List (UInt32 × ZoneId))
  | recovered

structure Recovery where
  router : ConnectionRouter
  phase : RecoveryPhase := .evicted

inductive RecoveryOp
  | playersInZone (ord : IterOrder UInt32)
  | survivors (zones : ZoneRooms) (ord : IterOrder ZoneId)
  | planRebalance
  | kick
  /-- `commit_batch`, up to the lock; without assignments it returns at once. -/
  | lock
  | commit
  /-- What other tasks do: `assign`, `commit_handoff` and `remove` of the routing table. -/
  | assign (source : UInt32) (zone : ZoneId)
  | commitHandoff (source : UInt32) (zone : ZoneId)
  | remove (source : UInt32)

inductive RecoveryAnswer
  | none
  | kicked (source : UInt32)
  | rerouted (source : UInt32) (zone : ZoneId)
  deriving DecidableEq

namespace Recovery

/-- One step of the recovery of a zone, or of somebody else; `none` if it cannot be taken. -/
def step (failedZone : ZoneId) : RecoveryOp → Recovery → Option (Recovery × RecoveryAnswer)
  | .playersInZone ord, s =>
    match s.phase with
    | .evicted => some ({ s with
        phase := .orphansRead (s.router.playersInZone ord failedZone) }, .none)
    | _ => none
  | .survivors zones ord, s =>
    match s.phase with
    | .orphansRead orphaned => some ({ s with
        phase := .survivorsRead orphaned (zones.survivors ord (some failedZone)) }, .none)
    | _ => none
  | .planRebalance, s =>
    match s.phase with
    | .survivorsRead orphaned survivors =>
      let plan := Rebalance.planRebalance s.router orphaned survivors
      some ({ s with phase := .kicking plan.1 plan.2 }, .none)
    | _ => none
  | .kick, s =>
    match s.phase with
    | .kicking assignments (source :: unplaceable) =>
      some ({ router := s.router.remove source, phase := .kicking assignments unplaceable },
        .kicked source)
    | _ => none
  | .lock, s =>
    match s.phase with
    | .kicking [] [] => some ({ s with phase := .recovered }, .none)
    | .kicking assignments [] => some ({ s with phase := .committing assignments }, .none)
    | _ => none
  | .commit, s =>
    match s.phase with
    | .committing ((source, zone) :: assignments) =>
      some ({ router := s.router.commitHandoff source zone,
              phase := .committing assignments }, .rerouted source zone)
    | .committing [] => some ({ s with phase := .recovered }, .none)
    | _ => none
  | .assign source zone, s => some ({ s with router := s.router.commitHandoff source zone }, .none)
  | .commitHandoff source zone, s =>
    match s.phase with
    | .committing _ => none
    | _ => some ({ s with router := s.router.commitHandoff source zone }, .none)
  | .remove source, s => some ({ s with router := s.router.remove source }, .none)

end Recovery

end Baston.Gateway
