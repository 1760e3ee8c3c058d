/-
The gateway's aggregated world (`state_aggregator.rs`, with the snapshots of `udp/state.rs`):
the batches of every zone arrive on one stream and are merged into one map, the last write
about an entity winning.  A batch does not say which zone it comes from.

Every push tick compares the world with what each client was last sent, and sends the client
the difference, as far as it is near, due and not the client's own.  A snapshot that creates
or deletes something goes by the reliable plane, one of deltas alone by the other.
-/
import Baston.Zone.StateIngest

namespace Baston.Gateway

open Assoc Baston.Rage Baston.Zone

variable {F : Type}

/-- `StateAggregator::world_state`. -/
abbrev WorldState (F : Type) := Map EntityId (EntityState F)

/-- One turn of the loop of `merge_batch`. -/
def mergeDirty (world : WorldState F) (dirty : DirtyEntity F) : WorldState F :=
  if dirty.dirtyFields.contains .deleted then world.erase dirty.entityId
  else world.insert dirty.entityId dirty.state

def mergeBatch (world : WorldState F) (batch : List (DirtyEntity F)) : WorldState F :=
  batch.foldl mergeDirty world

/-- The world after a stream of batches, oldest first. -/
def mergeBatches (world : WorldState F) (stream : List (List (DirtyEntity F))) : WorldState F :=
  stream.foldl mergeBatch world

/-! ### What a client is sent -/

/-- The fields of an entity that changed since the last snapshot sent to this client. -/
structure EntityDelta (F : Type) where
  entityId : EntityId
  coords : Option (Vec3 F)
  heading : Option F
  velocity : Option (Vec3 F)
  health : Option F
  armour : Option F
  extra : Option (EntityExtra F)
  networkOwner : Option (Option UInt32)

/-- One entity operation inside a snapshot. -/
inductive EntityOp (F : Type)
  /-- Full state, sent once when the entity enters the client's area of interest. -/
  | upsert (entity : DirtyEntity F)
  | delta (delta : EntityDelta F)
  /-- The entity left the area or despawned. -/
  | delete (id : EntityId)

/-- Update cadence per entity distance, in nanoseconds. -/
def updateRateForDistance [Scalar F] (dist : F) : Nat :=
  let d := (Scalar.floorToU32 dist).toNat
  if d ≤ 99 then 50 * 10 ^ 6
  else if d ≤ 299 then 100 * 10 ^ 6
  else 500 * 10 ^ 6

/-- What the push loop knows about one client: when and what it was last sent. -/
structure ClientEntityTracker (F : Type) where
  lastSent : Map EntityId (Nat × EntityState F) := ∅

/-- `(old != new).then_some(new)`. -/
def changed {α : Type} [BEq α] (old new : α) : Option α := if old != new then some new else none

/-- Changed fields between the client's baseline and the current state, if any. -/
def buildDelta [BEq F] (baseline current : EntityState F) : Option (EntityDelta F) :=
  let delta : EntityDelta F :=
    { entityId := current.entityId
      coords := changed baseline.coords current.coords
      heading := changed baseline.heading current.heading
      velocity := changed baseline.velocity current.velocity
      health := changed baseline.health current.health
      armour := changed baseline.armour current.armour
      extra := changed baseline.extra current.extra
      networkOwner := changed baseline.networkOwner current.networkOwner }
  let empty := delta.coords.isNone && delta.heading.isNone && delta.velocity.isNone
    && delta.health.isNone && delta.armour.isNone && delta.extra.isNone
    && delta.networkOwner.isNone
  if empty then none else some delta

/-- The local variables of `compute_client_ops_from`. -/
structure ClientOps (F : Type) where
  lastSent : Map EntityId (Nat × EntityState F)
  ops : List (EntityOp F) := []
  visible : List EntityId := []

/-- One turn of the loop over the candidates. -/
def considerEntity [Scalar F] [BEq F] (now : Nat) (viewerSource : UInt32) (center : Vec3 F)
    (radius : F) (acc : ClientOps F) (state : EntityState F) : ClientOps F :=
  -- the owner is the authority on its own entities
  if state.networkOwner = some viewerSource then acc
  else
    let dist := distance3d center state.coords
    if Scalar.lt radius dist then acc
    else
      let acc := { acc with visible := state.entityId :: acc.visible }
      match acc.lastSent.lookup state.entityId with
      | some (lastAt, baseline) =>
        if now - lastAt < updateRateForDistance dist then acc
        else
          match buildDelta baseline state with
          | none => acc
          | some delta =>
            { acc with
              ops := acc.ops ++ [.delta delta]
              lastSent := acc.lastSent.insert state.entityId (now, state) }
      | none =>
        { acc with
          ops := acc.ops
            ++ [.upsert ⟨state.entityId, DirtyFlags.all.difference .deleted, state⟩]
          lastSent := acc.lastSent.insert state.entityId (now, state) }

/-- One turn of the `retain` that follows: what is not visible any more is deleted once. -/
def retainEntity (visible : List EntityId) (acc : ClientOps F) (id : EntityId) : ClientOps F :=
  if id ∈ visible then acc
  else { acc with ops := acc.ops ++ [.delete id], lastSent := acc.lastSent.erase id }

/-- The operations for one client at time `now`.  The candidates are a superset of what is
near; `ord` is the order the tracker's map is visited in. -/
def computeClientOpsFrom [Scalar F] [BEq F] (ord : IterOrder EntityId) (now : Nat)
    (candidates : List (EntityState F)) (tracker : ClientEntityTracker F)
    (viewerSource : UInt32) (center : Vec3 F) (radius : F) :
    ClientEntityTracker F × List (EntityOp F) :=
  let acc := candidates.foldl (considerEntity now viewerSource center radius)
    { lastSent := tracker.lastSent }
  let acc := ((acc.lastSent.visit ord).map Prod.fst).foldl (retainEntity acc.visible) acc
  (⟨acc.lastSent⟩, acc.ops)

/-- The operations for one client out of the whole world. -/
def computeClientOps [Scalar F] [BEq F] (ord : IterOrder EntityId) (now : Nat)
    (world : WorldState F) (tracker : ClientEntityTracker F) (viewerSource : UInt32)
    (center : Vec3 F) (radius : F) : ClientEntityTracker F × List (EntityOp F) :=
  let states := (world.visit ord).map Prod.snd
  computeClientOpsFrom ord now states tracker viewerSource center radius

/-! ### The grid of one tick -/

/-- A uniform grid over the world, rebuilt each push tick. -/
structure SpatialGrid (F : Type) where
  cell : F
  cells : Map (Int32 × Int32) (List (EntityState F))

namespace SpatialGrid

variable [Scalar F]

/-- The width of a cell, which exceeds the radius. -/
def cellWidth (aoiRadius : F) : F := Scalar.max aoiRadius 1.0 * 1.05

/-- The cell of a position. -/
def cellOf (cell : F) (p : Vec3 F) : Int32 × Int32 :=
  (Scalar.floorToI32 (p.x / cell), Scalar.floorToI32 (p.y / cell))

def build (ord : IterOrder EntityId) (world : WorldState F) (aoiRadius : F) : SpatialGrid F :=
  let cell := cellWidth aoiRadius
  { cell := cell
    cells := Map.group (fun s => cellOf cell s.coords) id ∅ ((world.visit ord).map Prod.snd) }

/-- `-1..=1`. -/
def around : List Int32 := [-1, 0, 1]

/-- Entities in the 3×3 neighbourhood of `center`. -/
def candidates (center : Vec3 F) (grid : SpatialGrid F) : List (EntityState F) :=
  let c := cellOf grid.cell center
  around.flatMap fun dx => around.flatMap fun dy =>
    (grid.cells.lookup (c.1 + dx, c.2 + dy)).getD []

end SpatialGrid

/-! ### One client, one tick -/

/-- The two queues towards the clients. -/
inductive Plane
  /-- Reliable. -/
  | control
  /-- Bounded, and shed when it overflows. -/
  | sync
  deriving DecidableEq, Repr

structure EntitySnapshot (F : Type) where
  tick : Nat
  ops : List (EntityOp F)

structure StateAggregator (F : Type) where
  worldState : WorldState F := ∅
  trackers : Map UInt32 (ClientEntityTracker F) := ∅
  /-- The players of the gateway itself. -/
  stateIngest : StateIngest F
  aoiRadius : F

def EntityOp.isDelta : EntityOp F → Bool
  | .delta _ => true
  | _ => false

namespace StateAggregator

/-- Build one client's snapshot for this tick, with the plane it is handed to. -/
def pushToClient [Scalar F] [BEq F] (ord : IterOrder EntityId) (now tick : Nat)
    (source : UInt32) (grid : SpatialGrid F) (a : StateAggregator F) :
    StateAggregator F × Option (Plane × EntitySnapshot F) :=
  if a.stateIngest.isSnapshotSubscriber source then
    match a.stateIngest.playerEntity source with
    | none => (a, none)
    | some playerEntity =>
      -- the viewpoint is the gateway's own entity of the player, not one of the world
      match a.stateIngest.entityManager.get playerEntity with
      | none => (a, none)
      | some e =>
        let center := e.coords
        let tracker := (a.trackers.lookup source).getD {}
        let (tracker, ops) := computeClientOpsFrom ord now (grid.candidates center) tracker source
          center a.aoiRadius
        let a := { a with trackers := a.trackers.insert source tracker }
        if ops.isEmpty then (a, none)
        else
          let reliable := ops.any fun op => !op.isDelta
          (a, some (if reliable then .control else .sync, ⟨tick, ops⟩))
  else (a, none)

end StateAggregator

end Baston.Gateway
