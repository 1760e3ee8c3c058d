/-
What the sync-tree decoder recovers, and how an entity keeps it
(the data types of `rage/sync_parse.rs`).

A sync record carries only the nodes that changed, so every field of `SyncNodeData`
is optional and an entity folds each record into what it knew before.
`EntityNodeState.merge` is that fold for everything beyond position, velocity,
health and model.
-/
import Baston.Rage.Scalar

namespace Baston.Rage

/-- The enforced game build, which selects the node layouts. -/
structure GameBuild where
  build : UInt32
  deriving DecidableEq, Repr

namespace GameBuild

def isWinterUpdate25 (b : GameBuild) : Bool := b.build ≥ 3717
def is2060 (b : GameBuild) : Bool := b.build ≥ 2060
def is2189 (b : GameBuild) : Bool := b.build ≥ 2189
def is2372 (b : GameBuild) : Bool := b.build ≥ 2372
def is2545 (b : GameBuild) : Bool := b.build ≥ 2545
def is2699 (b : GameBuild) : Bool := b.build ≥ 2699
def is3258 (b : GameBuild) : Bool := b.build ≥ 3258
def is3407 (b : GameBuild) : Bool := b.build ≥ 3407

instance : Inhabited GameBuild := ⟨⟨3258⟩⟩

end GameBuild

/-! ### Node payloads -/

/-- `CPedMovementGroupDataNode`. -/
structure PedMovement where
  isStealthy : Bool := false
  isStrafing : Bool := false
  isRagdolling : Bool := false
  deriving DecidableEq, Repr

/-- Task type of an empty tree slot; one more from build 2060. -/
def idleTaskType : UInt16 := 530

/-- `CPedTaskTreeDataNode`. -/
structure PedTasks where
  /-- The default is the engine's "no script task" hash. -/
  scriptCommand : UInt32 := 0x811E343C
  scriptTaskStage : UInt32 := 3
  /-- One task type for each of the eight tree slots. -/
  taskTypes : List UInt16 := List.replicate 8 idleTaskType
  deriving DecidableEq, Repr

/-- `CVehicleGameStateDataNode`. -/
structure VehicleGameState where
  radioStation : UInt8 := 0
  engineOn : Bool := false
  engineStarting : Bool := false
  handbrake : Bool := false
  defaultHeadlights : Bool := false
  headlightsColour : UInt8 := 0
  sirenOn : Bool := false
  lockStatus : UInt8 := 0
  doorsOpen : UInt8 := 0
  doorPositions : List UInt8 := List.replicate 7 0
  isStationary : Bool := false
  lightsOn : Bool := false
  highbeamsOn : Bool := false
  lightState : UInt8 := 0
  hasBeenOwnedByPlayer : Bool := false
  hasLock : Bool := false
  lockedPlayers : Int32 := 0
  deriving DecidableEq, Repr

/-- `CVehicleHealthDataNode`, with the engine's undamaged values as defaults. -/
structure VehicleHealth where
  engineHealth : Int32 := 1000
  petrolTankHealth : Int32 := 1000
  health : Int32 := 1000
  bodyHealth : Int32 := 1000
  tyresFine : Bool := true
  tyreStatus : List UInt8 := List.replicate 16 0
  totalRepairs : UInt8 := 0
  deriving DecidableEq, Repr

/-- `CVehicleAppearanceDataNode`. -/
structure VehicleAppearance where
  primaryColour : UInt8 := 0
  secondaryColour : UInt8 := 0
  pearlColour : UInt8 := 0
  wheelColour : UInt8 := 0
  interiorColour : UInt8 := 0
  dashboardColour : UInt8 := 0
  isPrimaryColourRgb : Bool := false
  primaryRgb : List UInt8 := List.replicate 3 0
  isSecondaryColourRgb : Bool := false
  secondaryRgb : List UInt8 := List.replicate 3 0
  dirtLevel : UInt8 := 1
  extras : UInt16 := 0
  liveryIndex : Int16 := -1
  roofLiveryIndex : Int16 := -1
  kitIndex : UInt8 := 0
  wheelChoice : UInt8 := 0
  wheelType : UInt8 := 255
  windowTintIndex : UInt8 := 0
  tyreSmokeColour : List UInt8 := List.replicate 3 255
  plate : List UInt8 := List.replicate 8 32
  numberPlateTextIndex : UInt32 := 0
  hornTypeHash : UInt32 := 0
  hasNeonLights : Bool := false
  neonColour : List UInt8 := List.replicate 3 0
  neonSides : List Bool := List.replicate 4 false
  deriving DecidableEq, Repr

/-- `CVehicleDamageStatusDataNode`. -/
structure VehicleDamage where
  damagedByBullets : Bool := false
  anyWindowBroken : Bool := false
  windowsBroken : List Bool := List.replicate 8 false
  deriving DecidableEq, Repr

/-- `CPedGameStateDataNode`. -/
structure PedGameState where
  curWeapon : UInt32 := 0
  /-- Object id of the vehicle the ped is in, or `-1`. -/
  curVehicle : Int32 := -1
  curVehicleSeat : Int32 := -1
  isHandcuffed : Bool := false
  isFlashlightOn : Bool := false
  actionModeEnabled : Bool := false
  stealthModeEnabled : Bool := false
  arrestState : UInt8 := 0
  deathState : UInt8 := 0
  deriving DecidableEq, Repr

/-- State recovered from one clone record. -/
structure SyncNodeData (F : Type) where
  sector : Option (Vec3 Int32) := none
  sectorPosition : Option (Vec3 F) := none
  velocity : Option (Vec3 F) := none
  health : Option F := none
  maxHealth : Option F := none
  armour : Option F := none
  model : Option UInt32 := none
  vehicleSeat : Option (UInt16 × UInt8) := none
  heading : Option F := none
  vehicleGameState : Option VehicleGameState := none
  vehicleHealth : Option VehicleHealth := none
  vehicleAppearance : Option VehicleAppearance := none
  vehicleDamage : Option VehicleDamage := none
  pedGameState : Option PedGameState := none
  sourceOfDamage : Option UInt16 := none
  causeOfDeath : Option UInt32 := none
  desiredHeading : Option F := none
  pedMovement : Option PedMovement := none
  relationshipGroup : Option UInt32 := none
  pedTasks : Option PedTasks := none
  populationType : Option UInt8 := none
  isVisible : Option Bool := none
  scriptHash : Option UInt32 := none
  attachedTo : Option UInt16 := none
  deriving DecidableEq

/-! ### The merged state of an entity -/

/-- The last known value of every node beyond position, velocity, health and model. -/
structure EntityNodeState where
  vehicleGameState : Option VehicleGameState := none
  vehicleHealth : Option VehicleHealth := none
  vehicleAppearance : Option VehicleAppearance := none
  vehicleDamage : Option VehicleDamage := none
  pedGameState : Option PedGameState := none
  pedMovement : Option PedMovement := none
  pedTasks : Option PedTasks := none
  relationshipGroup : Option UInt32 := none
  sourceOfDamage : Option UInt16 := none
  causeOfDeath : Option UInt32 := none
  populationType : Option UInt8 := none
  isVisible : Option Bool := none
  scriptHash : Option UInt32 := none
  attachedTo : Option UInt16 := none
  /-- Derived by `merge`: the vehicle a ped has just left. -/
  lastVehicle : Option UInt16 := none
  lastVehicleSeat : Option Int32 := none
  deriving DecidableEq

/-- Keep the slot unless the record carries a value. -/
def mergeField {α : Type} (slot incoming : Option α) : Option α :=
  match incoming with
  | some value => some value
  | none => slot

namespace EntityNodeState

/-- The vehicle and seat a ped has just left: it had one and the record reports none. -/
def leftVehicle {F : Type} (s : EntityNodeState) (decoded : SyncNodeData F) :
    Option (UInt16 × Int32) :=
  match decoded.pedGameState, s.pedGameState with
  | some state, some previous =>
    -- `u16::try_from` drops an id that does not fit
    if state.curVehicle < 0 ∧ 0 ≤ previous.curVehicle ∧ previous.curVehicle < 65536 then
      some (previous.curVehicle.toUInt32.toUInt16, previous.curVehicleSeat)
    else none
  | _, _ => none

/-- Fold one decoded record in, keeping whatever it did not carry. -/
def merge {F : Type} (s : EntityNodeState) (decoded : SyncNodeData F) : EntityNodeState where
  vehicleGameState := mergeField s.vehicleGameState decoded.vehicleGameState
  vehicleHealth := mergeField s.vehicleHealth decoded.vehicleHealth
  vehicleAppearance := mergeField s.vehicleAppearance decoded.vehicleAppearance
  vehicleDamage := mergeField s.vehicleDamage decoded.vehicleDamage
  pedGameState := mergeField s.pedGameState decoded.pedGameState
  pedMovement := mergeField s.pedMovement decoded.pedMovement
  pedTasks := mergeField s.pedTasks decoded.pedTasks
  relationshipGroup := mergeField s.relationshipGroup decoded.relationshipGroup
  sourceOfDamage := mergeField s.sourceOfDamage decoded.sourceOfDamage
  causeOfDeath := mergeField s.causeOfDeath decoded.causeOfDeath
  populationType := mergeField s.populationType decoded.populationType
  isVisible := mergeField s.isVisible decoded.isVisible
  scriptHash := mergeField s.scriptHash decoded.scriptHash
  attachedTo := mergeField s.attachedTo decoded.attachedTo
  lastVehicle := mergeField s.lastVehicle ((s.leftVehicle decoded).map Prod.fst)
  lastVehicleSeat := mergeField s.lastVehicleSeat ((s.leftVehicle decoded).map Prod.snd)

end EntityNodeState

/-! ### World position -/

/-- Sector indices assumed for an entity that never sent any. -/
def defaultSector : Vec3 Int32 := ⟨512, 512, 0⟩

/-- Recombine a sector index and an in-sector offset. -/
def worldPosition {F : Type} [Scalar F] (sector : Vec3 Int32) (sectorPosition : Vec3 F) :
    Vec3 F where
  x := (Scalar.ofInt sector.x.toInt - 512.0) * 54.0 + sectorPosition.x
  y := (Scalar.ofInt sector.y.toInt - 512.0) * 54.0 + sectorPosition.y
  z := (Scalar.ofInt sector.z.toInt * 69.0 + sectorPosition.z) - 1700.0

end Baston.Rage
