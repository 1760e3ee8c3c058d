/-
The entity store of a zone server (`entity_manager.rs`, with the types of
`baston-protocol/src/entity.rs`).

The live entities and the queue of changes waiting for the next flush are two maps behind
two locks.  Here each function runs to its end at once; `EntityTasks` takes them apart
where several tasks share the manager.
-/
import Baston.Lib.Map
import Baston.Rage.Scalar

namespace Baston.Zone

open Assoc Baston.Rage

/-- A UUID. -/
abbrev EntityId := BitVec 128

inductive EntityType
  | player | vehicle | ped | object
  deriving DecidableEq, Repr

/-- Per-type extra state. -/
inductive EntityExtra (F : Type)
  | player (isInVehicle : Bool) (vehicleId : Option EntityId)
  | vehicle (speed engineHealth : F) (doorsOpen : UInt8)
  | ped (isFleeing : Bool) (currentWeapon : UInt32)
  | object (isStatic : Bool)
  deriving BEq

structure EntityState (F : Type) where
  entityId : EntityId
  entityType : EntityType
  /-- Source id of the network owner, if any. -/
  networkOwner : Option UInt32
  modelHash : UInt32
  coords : Vec3 F
  heading : F
  velocity : Vec3 F
  health : F
  armour : F
  extra : EntityExtra F

/-- `==` on `[f32; 3]`. -/
instance {F : Type} [BEq F] : BEq (Vec3 F) where
  beq a b := a.x == b.x && a.y == b.y && a.z == b.z

/-! ### Dirty flags -/

/-- Which fields of an entity changed since the last flush. -/
abbrev DirtyFlags := BitVec 32

namespace DirtyFlags

def coords : DirtyFlags := BitVec.twoPow 32 0
def heading : DirtyFlags := BitVec.twoPow 32 1
def velocity : DirtyFlags := BitVec.twoPow 32 2
def health : DirtyFlags := BitVec.twoPow 32 3
def armour : DirtyFlags := BitVec.twoPow 32 4
def extra : DirtyFlags := BitVec.twoPow 32 5
def created : DirtyFlags := BitVec.twoPow 32 6
def deleted : DirtyFlags := BitVec.twoPow 32 7

def all : DirtyFlags :=
  coords ||| heading ||| velocity ||| health ||| armour ||| extra ||| created ||| deleted

/-- `flags.contains(other)`. -/
def contains (flags other : DirtyFlags) : Bool := flags &&& other == other

/-- `flags - other`. -/
def difference (flags other : DirtyFlags) : DirtyFlags := flags &&& ~~~other

end DirtyFlags

/-- An entity as it is published: the flags, and the full state whatever they say. -/
structure DirtyEntity (F : Type) where
  entityId : EntityId
  dirtyFields : DirtyFlags
  state : EntityState F

/-- A partial update; what is `none` is left untouched. -/
structure EntityStateUpdate (F : Type) where
  coords : Option (Vec3 F) := none
  heading : Option F := none
  velocity : Option (Vec3 F) := none
  health : Option F := none
  armour : Option F := none
  extra : Option (EntityExtra F) := none

variable {F : Type}

/-- One field of an update: stored and flagged only when it differs from the state. -/
def EntityState.diffField {α : Type} [BEq α] (new : Option α) (field : EntityState F → α)
    (store : α → EntityState F → EntityState F) (flag : DirtyFlags)
    (acc : EntityState F × DirtyFlags) : EntityState F × DirtyFlags :=
  match new with
  | none => acc
  | some v => if field acc.1 != v then (store v acc.1, acc.2 ||| flag) else acc

/-- The state after an update, with the flags of the fields that changed. -/
def EntityState.applyUpdate [BEq F] (update : EntityStateUpdate F) (state : EntityState F) :
    EntityState F × DirtyFlags :=
  (state, 0)
    |> diffField update.coords (·.coords) (fun v s => { s with coords := v }) .coords
    |> diffField update.heading (·.heading) (fun v s => { s with heading := v }) .heading
    |> diffField update.velocity (·.velocity) (fun v s => { s with velocity := v }) .velocity
    |> diffField update.health (·.health) (fun v s => { s with health := v }) .health
    |> diffField update.armour (·.armour) (fun v s => { s with armour := v }) .armour
    |> diffField update.extra (·.extra) (fun v s => { s with extra := v }) .extra

/-! ### The manager -/

structure EntityManager (F : Type) where
  entities : Map EntityId (EntityState F) := ∅
  dirtyQueue : Map EntityId (DirtyEntity F) := ∅

namespace EntityManager

def new : EntityManager F := {}

/-- Coalesce a change into the queue.  A pending deletion is never resurrected. -/
def markDirty (id : EntityId) (flags : DirtyFlags) (state : EntityState F)
    (queue : Map EntityId (DirtyEntity F)) : Map EntityId (DirtyEntity F) :=
  match queue.lookup id with
  | some pending =>
    if pending.dirtyFields.contains .deleted then queue
    else queue.insert id
      { pending with dirtyFields := pending.dirtyFields ||| flags, state := state }
  | none => queue.insert id ⟨id, flags, state⟩

/-- A delete supersedes any pending update. -/
def markDeleted (id : EntityId) (state : EntityState F)
    (queue : Map EntityId (DirtyEntity F)) : Map EntityId (DirtyEntity F) :=
  queue.insert id ⟨id, .deleted, state⟩

def spawnEntity (state : EntityState F) (m : EntityManager F) : EntityManager F :=
  { entities := m.entities.insert state.entityId state
    dirtyQueue :=
      markDirty state.entityId (DirtyFlags.all.difference .deleted) state m.dirtyQueue }

def removeEntity (id : EntityId) (m : EntityManager F) :
    EntityManager F × Option (EntityState F) :=
  match m.entities.lookup id with
  | some state =>
    ({ entities := m.entities.erase id, dirtyQueue := markDeleted id state m.dirtyQueue },
      some state)
  | none => (m, none)

def updateEntity [BEq F] (id : EntityId) (update : EntityStateUpdate F)
    (m : EntityManager F) : EntityManager F × DirtyFlags :=
  match m.entities.lookup id with
  | some state =>
    let (state, flags) := state.applyUpdate update
    let entities := m.entities.insert id state
    if flags = 0 then ({ m with entities := entities }, flags)
    else ({ entities := entities, dirtyQueue := markDirty id flags state m.dirtyQueue }, flags)
  | none => (m, 0)

def setNetworkOwner (id : EntityId) (owner : Option UInt32) (m : EntityManager F) :
    EntityManager F × Bool :=
  match m.entities.lookup id with
  | some state =>
    if state.networkOwner = owner then (m, true)
    else
      let state := { state with networkOwner := owner }
      ({ entities := m.entities.insert id state
         dirtyQueue := markDirty id .extra state m.dirtyQueue }, true)
  | none => (m, false)

/-- Drain the queue, in the order the hash map hands its values out. -/
def flushDirty (ord : IterOrder EntityId) (m : EntityManager F) :
    EntityManager F × List (DirtyEntity F) :=
  ({ m with dirtyQueue := ∅ }, (m.dirtyQueue.visit ord).map Prod.snd)

def get (m : EntityManager F) (id : EntityId) : Option (EntityState F) :=
  m.entities.lookup id

/-- The entities network-owned by a player. -/
def entitiesOwnedBy (ord : IterOrder EntityId) (source : UInt32) (m : EntityManager F) :
    List (EntityState F) :=
  ((m.entities.visit ord).map Prod.snd).filter fun state => state.networkOwner = some source

/-! ### The calls a zone makes -/

inductive Call (F : Type)
  | spawnEntity (state : EntityState F)
  | removeEntity (id : EntityId)
  | updateEntity (id : EntityId) (update : EntityStateUpdate F)
  | setNetworkOwner (id : EntityId) (owner : Option UInt32)
  | flushDirty (ord : IterOrder EntityId)

/-- One call, with the batch it hands to the publisher. -/
def perform [BEq F] : Call F → EntityManager F → EntityManager F × List (DirtyEntity F)
  | .spawnEntity state, m => (m.spawnEntity state, [])
  | .removeEntity id, m => ((m.removeEntity id).1, [])
  | .updateEntity id update, m => ((m.updateEntity id update).1, [])
  | .setNetworkOwner id owner, m => ((m.setNetworkOwner id owner).1, [])
  | .flushDirty ord, m => m.flushDirty ord

end EntityManager

end Baston.Zone
