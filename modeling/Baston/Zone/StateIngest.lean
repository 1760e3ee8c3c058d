/-
The players of a zone and their entities (`state_ingest.rs`, with the update of
`udp/state.rs`): a client reports the state of an entity it owns, and a handoff moves what a
player owns.  The target zone restores what the snapshot carries, and the origin zone then
releases everything the player owned (`post_handoff_cleanup` in `baston-zone.rs`).
-/
import Baston.Zone.EntityManager

namespace Baston.Zone

open Assoc Baston.Rage

variable {F : Type}

/-- What one zone hands another about a player, as far as the entities go. -/
structure PlayerStateSnapshot (F : Type) where
  sourceId : UInt32
  coords : Vec3 F
  /-- The player's own ped, verbatim. -/
  playerEntity : Option (EntityState F)
  /-- Entities network-owned by the player. -/
  ownedEntities : List (EntityState F)

/-- State the network owner reports for one of its entities; without an id, for its ped. -/
structure ClientStateUpdate (F : Type) where
  entityId : Option EntityId
  entityType : EntityType
  modelHash : UInt32
  coords : Vec3 F
  heading : F
  velocity : Vec3 F
  health : F
  armour : F
  extra : Option (EntityExtra F)

/-- Why an update was rejected. -/
inductive RejectReason
  | teleport | notOwner | unknownEntity
  deriving DecidableEq, Repr

/-- `distance3d`. -/
def distance3d [Scalar F] (a b : Vec3 F) : F :=
  let dx := a.x - b.x
  let dy := a.y - b.y
  let dz := a.z - b.z
  Scalar.sqrt (dx * dx + dy * dy + dz * dz)

/-- `Duration::as_secs_f32`, of a duration in nanoseconds. -/
def asSecsF32 [Scalar F] (nanos : Nat) : F :=
  Scalar.ofInt (nanos / 10 ^ 9 : Nat)
    + Scalar.ofInt (nanos % 10 ^ 9 : Nat) / Scalar.ofInt (10 ^ 9)

structure StateIngest (F : Type) where
  entityManager : EntityManager F
  /-- Player source to its ped. -/
  playerEntities : Map UInt32 EntityId := ∅
  /-- Last accepted time, in nanoseconds, and coordinates of each entity. -/
  lastAccepted : Map EntityId (Nat × Vec3 F) := ∅
  snapshotSubscribers : Map UInt32 Unit := ∅
  maxSpeedMps : F

namespace StateIngest

def new (entityManager : EntityManager F) (maxSpeedMps : F) : StateIngest F where
  entityManager := entityManager
  maxSpeedMps := maxSpeedMps

/-- The player-ped entity of a source, if it reported state already. -/
def playerEntity (source : UInt32) (s : StateIngest F) : Option EntityId :=
  s.playerEntities.lookup source

/-- Whether the source speaks the binary state protocol, and so is sent snapshots. -/
def isSnapshotSubscriber (source : UInt32) (s : StateIngest F) : Bool :=
  decide (source ∈ s.snapshotSubscribers)

/-- Opt a source into snapshots. -/
def markSnapshotSubscriber (source : UInt32) (s : StateIngest F) : StateIngest F :=
  { s with snapshotSubscribers := s.snapshotSubscribers.insert source () }

/-! ### One report of a client -/

/-- Register a client-created entity that is not a player. -/
def spawnOwnedEntity (now : Nat) (source : UInt32) (id : EntityId)
    (update : ClientStateUpdate F) (s : StateIngest F) : StateIngest F × EntityId :=
  ({ s with
      entityManager := s.entityManager.spawnEntity
        { entityId := id
          entityType := update.entityType
          networkOwner := some source
          modelHash := update.modelHash
          coords := update.coords
          heading := update.heading
          velocity := update.velocity
          health := update.health
          armour := update.armour
          extra := update.extra.getD (.object false) }
      lastAccepted := s.lastAccepted.insert id (now, update.coords) }, id)

/-- The first report of a player creates its ped, under a fresh id. -/
def spawnPlayerEntity (now : Nat) (fresh : EntityId) (source : UInt32)
    (update : ClientStateUpdate F) (s : StateIngest F) : StateIngest F × EntityId :=
  ({ s with
      entityManager := s.entityManager.spawnEntity
        { entityId := fresh
          entityType := .player
          networkOwner := some source
          modelHash := update.modelHash
          coords := update.coords
          heading := update.heading
          velocity := update.velocity
          health := update.health
          armour := update.armour
          extra := update.extra.getD (.player false none) }
      playerEntities := s.playerEntities.insert source fresh
      lastAccepted := s.lastAccepted.insert fresh (now, update.coords) }, fresh)

/-- The speed check: a report is a teleport when its displacement since the last accepted
one, over the time between them but at least 50 ms, exceeds the ceiling. -/
def teleports [Scalar F] (now : Nat) (id : EntityId) (coords : Vec3 F) (s : StateIngest F) :
    Bool :=
  match s.lastAccepted.lookup id with
  | none => false
  | some (at_, origin) =>
    let dt := Scalar.max (asSecsF32 (now - at_)) 0.05
    let speed := distance3d origin coords / dt
    Scalar.lt s.maxSpeedMps speed

/-- Mounting a vehicle transfers its network ownership to the driver. -/
def mount (source : UInt32) (extra : Option (EntityExtra F)) (m : EntityManager F) :
    EntityManager F :=
  match extra with
  | some (.player true (some vehicle)) =>
    if (m.get vehicle).any fun v => v.networkOwner ≠ some source then
      (m.setNetworkOwner vehicle (some source)).1
    else m
  | _ => m

/-- What `apply` does to an entity it has found and that the source may write. -/
def write [Scalar F] [BEq F] (now : Nat) (source : UInt32) (id : EntityId)
    (update : ClientStateUpdate F) (s : StateIngest F) :
    StateIngest F × Except RejectReason EntityId :=
  if s.teleports now id update.coords then (s, .error .teleport)
  else
    let manager := mount source update.extra s.entityManager
    ({ s with
        lastAccepted := s.lastAccepted.insert id (now, update.coords)
        entityManager := (manager.updateEntity id
          { coords := some update.coords
            heading := some update.heading
            velocity := some update.velocity
            health := some update.health
            armour := some update.armour
            extra := update.extra }).1 }, .ok id)

/-- Apply a state update coming from `source`; `fresh` is the id a new ped would get. -/
def apply [Scalar F] [BEq F] (now : Nat) (fresh : EntityId) (source : UInt32)
    (update : ClientStateUpdate F) (s : StateIngest F) :
    StateIngest F × Except RejectReason EntityId :=
  match update.entityId with
  | none =>
    match s.playerEntities.lookup source with
    | some id => s.write now source id update
    | none =>
      let (s, id) := s.spawnPlayerEntity now fresh source update
      (s, .ok id)
  | some id =>
    match s.entityManager.get id with
    | none =>
      if update.entityType ≠ .player then
        let (s, id) := s.spawnOwnedEntity now source id update
        (s, .ok id)
      else (s, .error .unknownEntity)
    | some state =>
      if state.networkOwner ≠ some source then (s, .error .notOwner)
      else s.write now source id update

/-! ### Handoff and departure -/

/-- Re-establish a handed-off player's state, under the entity ids it had. -/
def restorePlayerState (now : Nat) (snapshot : PlayerStateSnapshot F) (s : StateIngest F) :
    StateIngest F × Option EntityId :=
  let manager := snapshot.ownedEntities.foldl (fun m entity => m.spawnEntity entity)
    s.entityManager
  match snapshot.playerEntity with
  | none => ({ s with entityManager := manager }, none)
  | some ped =>
    ({ s with
        entityManager := manager.spawnEntity ped
        playerEntities := s.playerEntities.insert snapshot.sourceId ped.entityId
        lastAccepted := s.lastAccepted.insert ped.entityId (now, snapshot.coords) },
      some ped.entityId)

/-- A player left: its ped goes, and what was known about it. -/
def onPlayerDropped (source : UInt32) (s : StateIngest F) : StateIngest F :=
  match s.playerEntities.lookup source with
  | none => { s with snapshotSubscribers := s.snapshotSubscribers.erase source }
  | some id =>
    { s with
      entityManager := (s.entityManager.removeEntity id).1
      playerEntities := s.playerEntities.erase source
      lastAccepted := s.lastAccepted.erase id
      snapshotSubscribers := s.snapshotSubscribers.erase source }

/-- The cleanup after a completed handoff: every entity of the player goes, then its ped. -/
def postHandoffCleanup (ord : IterOrder EntityId) (source : UInt32) (s : StateIngest F) :
    StateIngest F :=
  let owned := s.entityManager.entitiesOwnedBy ord source
  let manager := owned.foldl (fun m entity => (m.removeEntity entity.entityId).1) s.entityManager
  onPlayerDropped source { s with entityManager := manager }

/-! ### The calls about players -/

/-- One call, with the time where it looks at the clock. -/
inductive Call (F : Type)
  | apply (now : Nat) (fresh : EntityId) (source : UInt32) (update : ClientStateUpdate F)
  | restorePlayerState (now : Nat) (snapshot : PlayerStateSnapshot F)
  | onPlayerDropped (source : UInt32)

/-- The player a call is about. -/
def Call.source : Call F → UInt32
  | .apply _ _ source _ => source
  | .restorePlayerState _ snapshot => snapshot.sourceId
  | .onPlayerDropped source => source

/-- One call.  A new id is not one that is in use. -/
def step [Scalar F] [BEq F] :
    Call F → StateIngest F → Option (StateIngest F × Option (Except RejectReason EntityId))
  | .apply now fresh source update, s =>
    if fresh ∈ s.entityManager.entities then none
    else
      let (s, answer) := s.apply now fresh source update
      some (s, some answer)
  | .restorePlayerState now snapshot, s => some ((s.restorePlayerState now snapshot).1, none)
  | .onPlayerDropped source, s => some (s.onPlayerDropped source, none)

end StateIngest

end Baston.Zone
