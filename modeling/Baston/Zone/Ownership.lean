/-
Network ownership (`ownership.rs`).

Every entity but the peds of players belongs to the nearest player.  A scan reads where the
players are, copies the entities, and hands over one after the other those that somebody else has
come nearer to.  It runs on a thread of its own: clients report meanwhile, entities come and go,
and players leave.  What the scan goes by is what it has read.
-/
import Baston.Lib.Trace
import Baston.Zone.OneSync
import Baston.Zone.StateIngest

namespace Baston.Zone

open Assoc Baston.Rage

variable {F : Type}

/-- Connected players with the coordinates of their peds. -/
def StateIngest.playerPositions (ord : IterOrder UInt32) (s : StateIngest F) :
    List (UInt32 × Vec3 F) :=
  (s.playerEntities.visit ord).filterMap fun (source, id) =>
    (s.entityManager.get id).map fun state => (source, state.coords)

/-- Copies of the entities that match. -/
def EntityManager.snapshotFiltered (ord : IterOrder EntityId) (predicate : EntityState F → Bool)
    (m : EntityManager F) : List (EntityState F) :=
  ((m.entities.visit ord).map Prod.snd).filter predicate

/-- `partial_cmp`, and equal what does not compare. -/
def compareDistances [Scalar F] (a b : F) : Ordering :=
  if Scalar.lt a b then .lt else if Scalar.lt b a then .gt else .eq

/-- The nearest player. -/
def assignNetworkOwner [Scalar F] (entity : EntityState F) (players : List (UInt32 × Vec3 F)) :
    Option UInt32 :=
  (ServerGameState.minBy (fun a b => compareDistances (distance3d a.2 entity.coords)
    (distance3d b.2 entity.coords)) players).map Prod.fst

/-- A scan comes to an entity: who it belongs to now, with what `on_owner_changed` is told. -/
def reassign [Scalar F] (players : List (UInt32 × Vec3 F)) (entity : EntityState F)
    (m : EntityManager F) : EntityManager F × Option (EntityId × Option UInt32) :=
  let ownerConnected := entity.networkOwner.any fun owner => (players.map Prod.fst).contains owner
  let best := assignNetworkOwner entity players
  if !ownerConnected || best ≠ entity.networkOwner then
    if best = entity.networkOwner then (m, none)
    else
      let (m, stored) := m.setNetworkOwner entity.entityId best
      (m, if stored then some (entity.entityId, best) else none)
  else (m, none)

/-- Every entity of a scan in turn. -/
def reassignAll [Scalar F] (players : List (UInt32 × Vec3 F)) :
    List (EntityState F) → EntityManager F →
      EntityManager F × List (EntityId × Option UInt32)
  | [], m => (m, [])
  | entity :: left, m =>
    let (m, told) := reassign players entity m
    let (m, later) := reassignAll players left m
    (m, told.toList ++ later)

/-- What a scan looks at. -/
def EntityManager.reassignable (ord : IterOrder EntityId) (m : EntityManager F) :
    List (EntityState F) :=
  m.snapshotFiltered ord fun entity => entity.entityType ≠ .player

/-- A whole scan while nobody else does anything, with what `on_owner_changed` is told. -/
def StateIngest.scan [Scalar F] (ord : IterOrder UInt32) (ord' : IterOrder EntityId)
    (s : StateIngest F) : StateIngest F × List (EntityId × Option UInt32) :=
  let players := s.playerPositions ord
  let (m, told) := reassignAll players (s.entityManager.reassignable ord') s.entityManager
  ({ s with entityManager := m }, told)

/-! ### A scan and everybody else -/

/-- How far the scan is. -/
inductive ScanPhase (F : Type)
  | idle
  | positionsRead (players : List (UInt32 × Vec3 F))
  | handingOver (players : List (UInt32 × Vec3 F)) (left : List (EntityState F))

structure OwnershipMonitor (F : Type) where
  ingest : StateIngest F
  phase : ScanPhase F := .idle

inductive OwnershipOp (F : Type)
  | playerPositions (ord : IterOrder UInt32)
  | snapshot (ord : IterOrder EntityId)
  /-- The next entity of the scan, or its end. -/
  | reassign
  /-- What is done about a player meanwhile. -/
  | client (call : StateIngest.Call F)
  /-- What is done about an entity meanwhile. -/
  | manage (call : EntityManager.Call F)

namespace OwnershipMonitor

/-- One step, with what `on_owner_changed` is told. -/
def step [Scalar F] [BEq F] : OwnershipOp F → OwnershipMonitor F →
    Option (OwnershipMonitor F × Option (EntityId × Option UInt32))
  | .playerPositions ord, s =>
    match s.phase with
    | .idle => some ({ s with phase := .positionsRead (s.ingest.playerPositions ord) }, none)
    | _ => none
  | .snapshot ord, s =>
    match s.phase with
    | .positionsRead players =>
      some ({ s with
        phase := .handingOver players (s.ingest.entityManager.reassignable ord) }, none)
    | _ => none
  | .reassign, s =>
    match s.phase with
    | .handingOver _ [] => some ({ s with phase := .idle }, none)
    | .handingOver players (entity :: left) =>
      let (m, told) := Zone.reassign players entity s.ingest.entityManager
      some (⟨{ s.ingest with entityManager := m }, .handingOver players left⟩, told)
    | _ => none
  | .client call, s => (s.ingest.step call).map fun r => ({ s with ingest := r.1 }, none)
  | .manage call, s =>
    some ({ s with
      ingest := { s.ingest with entityManager := (s.ingest.entityManager.perform call).1 } }, none)

end OwnershipMonitor

end Baston.Zone
