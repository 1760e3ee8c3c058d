/-
Entities that leave a zone on their own (`scan_entities`, `resolve_zones` and
`spawn_entity_handoff_consumer` in `boundary_loop.rs`).

A scan clones what is out of bounds, asks the gateway which zones cover it, publishes each
entity to its zone and then removes it.  Every wait of it is a point where the zone's players
are served.  What is published is delivered once, in the order it was sent to a zone; the
gateway's answers and whether a publish goes through come from outside.

The gateway is asked once for each cell of a grid, about the cell's centre, and the answer goes for
all entities in the cell.
-/
import Baston.Zone.Spatial
import Baston.Zone.StateIngest

namespace Baston.Zone

open Assoc Baston.Rage

variable {F : Type}

/-- Side of the grid used to batch zone lookups, in metres. -/
def zoneResolveCellM [Scalar F] : F := 64.0

/-- Grid cell a position falls into. -/
def resolutionCell [Scalar F] (coords : Vec3 F) : Int32 × Int32 :=
  (Scalar.floorToI32 (coords.x / zoneResolveCellM), Scalar.floorToI32 (coords.y / zoneResolveCellM))

/-- The zones the gateway named for the cells it was asked about. -/
abbrev ZoneOfCell := Int32 × Int32 → Option ZoneId

/-- Centre of a cell. -/
def resolutionCellCentre [Scalar F] (cell : Int32 × Int32) : F × F :=
  ((Scalar.ofInt cell.1.toInt + 0.5) * zoneResolveCellM,
    (Scalar.ofInt cell.2.toInt + 0.5) * zoneResolveCellM)

/-- What the gateway says of a cell; `ask` is `none` where no zone covers the point. -/
def answer [Scalar F] (ask : F → F → Option ZoneId) (cell : Int32 × Int32) : Option ZoneId :=
  ask (resolutionCellCentre cell).1 (resolutionCellCentre cell).2

/-- An answer, filed under its cell. -/
def fileAnswer [Scalar F] (ask : F → F → Option ZoneId) (zones : Map (Int32 × Int32) ZoneId)
    (cell : Int32 × Int32) : Map (Int32 × Int32) ZoneId :=
  match answer ask cell with
  | some zone => zones.insert cell zone
  | none => zones

/-- The answers for the cells the entities are in. -/
def resolveZones [Scalar F] (ask : F → F → Option ZoneId) (departed : List (EntityState F)) :
    ZoneOfCell :=
  let cells := (departed.map fun entity => resolutionCell entity.coords).dedup
  fun cell => (cells.foldl (fileAnswer ask) ∅).lookup cell

/-- Where a scan stands. -/
inductive Scan (F : Type)
  | idle
  | resolving (departed : List (EntityState F))
  | handing (departed : List (EntityState F)) (zoneOfCell : ZoneOfCell)
  /-- Published, not yet removed. -/
  | published (entity : EntityState F) (target : ZoneId) (departed : List (EntityState F))
      (zoneOfCell : ZoneOfCell)

/-- A zone, its scan, and the zones it hands entities to. -/
structure Migration (F : Type) where
  zoneId : ZoneId
  bounds : Aabb F
  ingest : StateIngest F
  scan : Scan F := .idle
  /-- Published to a zone and not yet consumed, oldest first. -/
  inFlight : ZoneId → List (EntityState F) := fun _ => []
  peers : ZoneId → EntityManager F

/-- What can happen next. -/
inductive MigrationStep (F : Type)
  | apply (now : Nat) (fresh : EntityId) (source : UInt32) (update : ClientStateUpdate F)
  | setNetworkOwner (id : EntityId) (owner : Option UInt32)
  | snapshot (ord : IterOrder EntityId)
  | resolve (zoneOfCell : ZoneOfCell)
  | publish (accepted : Bool)
  | remove
  | deliver (target : ZoneId)

/-- The player has a live ped in the zone. -/
def StateIngest.connected (source : UInt32) (s : StateIngest F) : Bool :=
  ((s.playerEntity source).bind s.entityManager.get).isSome

namespace Migration

/-- An entity that a scan is to hand over. -/
def departs [Scalar F] (m : Migration F) (entity : EntityState F) : Bool :=
  entity.entityType ≠ .player && !m.bounds.contains entity.coords.x entity.coords.y
    && !entity.networkOwner.any fun owner => m.ingest.connected owner

/-- `snapshot_filtered`. -/
def departed [Scalar F] (ord : IterOrder EntityId) (m : Migration F) : List (EntityState F) :=
  ((m.ingest.entityManager.entities.visit ord).map Prod.snd).filter m.departs

/-- The entity as the target zone gets it; it assigns an owner of its own. -/
def payload (entity : EntityState F) : EntityState F := { entity with networkOwner := none }

/-- The zone an entity goes to, if it goes anywhere. -/
def targetOf [Scalar F] (m : Migration F) (zoneOfCell : ZoneOfCell) (entity : EntityState F) :
    Option ZoneId :=
  (zoneOfCell (resolutionCell entity.coords)).filter fun target => target ≠ m.zoneId

def step [Scalar F] [BEq F] : MigrationStep F → Migration F → Option (Migration F × Unit)
  | .apply now fresh source update, m =>
    (m.ingest.step (.apply now fresh source update)).map fun (ingest, _) => ({ m with ingest }, ())
  | .setNetworkOwner id owner, m =>
    let manager := (m.ingest.entityManager.setNetworkOwner id owner).1
    some ({ m with ingest := { m.ingest with entityManager := manager } }, ())
  | .snapshot ord, m =>
    match m.scan with
    | .idle =>
      match m.departed ord with
      | [] => some (m, ())
      | departed => some ({ m with scan := .resolving departed }, ())
    | _ => none
  | .resolve zoneOfCell, m =>
    match m.scan with
    | .resolving departed => some ({ m with scan := .handing departed zoneOfCell }, ())
    | _ => none
  | .publish accepted, m =>
    match m.scan with
    | .handing [] _ => some ({ m with scan := .idle }, ())
    | .handing (entity :: departed) zoneOfCell =>
      match m.targetOf zoneOfCell entity, accepted with
      | some target, true =>
        some ({ m with
          scan := .published entity target departed zoneOfCell
          inFlight := Function.update m.inFlight target
            (m.inFlight target ++ [payload entity]) }, ())
      -- unresolved, our own, or not published: kept
      | _, _ => some ({ m with scan := .handing departed zoneOfCell }, ())
    | _ => none
  | .remove, m =>
    match m.scan with
    | .published entity _ departed zoneOfCell =>
      let manager := (m.ingest.entityManager.removeEntity entity.entityId).1
      some ({ m with
        ingest := { m.ingest with entityManager := manager }
        scan := .handing departed zoneOfCell }, ())
    | _ => none
  | .deliver target, m =>
    match m.inFlight target with
    | [] => none
    | entity :: rest =>
      some ({ m with
        inFlight := Function.update m.inFlight target rest
        peers := Function.update m.peers target ((m.peers target).spawnEntity entity) }, ())

end Migration

end Baston.Zone
