/-
The GTA V sync trees (`rage/sync_trees.rs`).

Each table is the preorder traversal of one tree, and its order is the wire format.
A node carries its depth, the three `NodeIds` that decide when it is read, and, on a
leaf, the name of its data node and the most bytes it may take.
-/
import Baston.Rage.Clone

namespace Baston.Rage

/-- The data nodes the trees mention, under their C++ type names. -/
inductive NodeName
  | cVehicleCreationDataNode | cAutomobileCreationDataNode | cGlobalFlagsDataNode
  | cDynamicEntityGameStateDataNode | cPhysicalGameStateDataNode | cVehicleGameStateDataNode
  | cEntityScriptGameStateDataNode | cPhysicalScriptGameStateDataNode
  | cVehicleScriptGameStateDataNode | cEntityScriptInfoDataNode | cPhysicalAttachDataNode
  | cVehicleAppearanceDataNode | cVehicleDamageStatusDataNode
  | cVehicleComponentReservationDataNode | cVehicleHealthDataNode | cVehicleTaskDataNode
  | cSectorDataNode | cSectorPositionDataNode | cEntityOrientationDataNode
  | cPhysicalVelocityDataNode | cVehicleAngVelocityDataNode | cVehicleSteeringDataNode
  | cVehicleControlDataNode | cVehicleGadgetDataNode | cMigrationDataNode
  | cPhysicalMigrationDataNode | cPhysicalScriptMigrationDataNode
  | cVehicleProximityMigrationDataNode | cBikeGameStateDataNode | cBoatGameStateDataNode
  | cDoorCreationDataNode | cDoorScriptInfoDataNode | cDoorScriptGameStateDataNode
  | cDoorMovementDataNode | cHeliHealthDataNode | cHeliControlDataNode | cObjectCreationDataNode
  | cObjectGameStateDataNode | cObjectScriptGameStateDataNode | cPhysicalHealthDataNode
  | cObjectSectorPosNode | cObjectOrientationDataNode | cPhysicalAngVelocityDataNode
  | cPedCreationDataNode | cPedScriptCreationDataNode | cPedGameStateDataNode
  | cPedComponentReservationDataNode | cPedScriptGameStateDataNode | cPedAttachDataNode
  | cPedHealthDataNode | cPedMovementGroupDataNode | cPedAIDataNode | cPedAppearanceDataNode
  | cPedOrientationDataNode | cPedMovementDataNode | cPedTaskTreeDataNode
  | cPedTaskSpecificDataNode | cPedSectorPosMapNode | cPedSectorPosNavMeshNode
  | cPedInventoryDataNode | cPedTaskSequenceDataNode | cPickupCreationDataNode
  | cPickupScriptGameStateNode | cPickupSectorPosNode | cPickupPlacementCreationDataNode
  | cPickupPlacementStateDataNode | cPlaneGameStateDataNode | cPlaneControlDataNode
  | cSubmarineGameStateDataNode | cSubmarineControlDataNode | cPlayerCreationDataNode
  | cPlayerGameStateDataNode | cPlayerAppearanceDataNode | cPlayerPedGroupDataNode
  | cPlayerAmbientModelStreamingNode | cPlayerGamerDataNode | cPlayerExtendedGameStateNode
  | cPlayerSectorPosNode | cPlayerCameraDataNode | cPlayerWantedAndLOSDataNode
  | cTrainGameStateDataNode
  deriving DecidableEq, Repr

/-- What a node is: a parent of those below it, or a leaf with data. -/
inductive NodeKind
  | parent
  | data (name : NodeName) (maxBytes : UInt16)
  deriving DecidableEq, Repr

/-- One item of a flattened tree. -/
structure FlatNode where
  depth : UInt8
  ids : UInt8 × UInt8 × UInt8
  kind : NodeKind
  deriving DecidableEq, Repr

namespace SyncTrees

/-- A parent node. -/
def p (depth : UInt8) (ids : UInt8 × UInt8 × UInt8) : FlatNode := ⟨depth, ids, .parent⟩

/-- A leaf data node. -/
def d (depth : UInt8) (ids : UInt8 × UInt8 × UInt8) (name : NodeName) (maxBytes : UInt16) :
    FlatNode := ⟨depth, ids, .data name maxBytes⟩

/-- `CAutomobileSyncTree`. -/
def automobileTree : List FlatNode := [
  p 0 (127, 0, 0),
  p 1 (1, 0, 0),
  d 2 (1, 0, 0) .cVehicleCreationDataNode 14,
  d 2 (1, 0, 0) .cAutomobileCreationDataNode 2,
  p 1 (127, 127, 0),
  p 2 (127, 127, 0),
  p 3 (127, 127, 0),
  d 4 (127, 127, 0) .cGlobalFlagsDataNode 2,
  d 4 (127, 127, 0) .cDynamicEntityGameStateDataNode 102,
  d 4 (127, 127, 0) .cPhysicalGameStateDataNode 4,
  d 4 (127, 127, 0) .cVehicleGameStateDataNode 57,
  p 3 (127, 127, 1),
  d 4 (127, 127, 1) .cEntityScriptGameStateDataNode 1,
  d 4 (127, 127, 1) .cPhysicalScriptGameStateDataNode 13,
  d 4 (127, 127, 1) .cVehicleScriptGameStateDataNode 50,
  d 4 (127, 127, 1) .cEntityScriptInfoDataNode 24,
  d 2 (127, 127, 0) .cPhysicalAttachDataNode 28,
  d 2 (127, 127, 0) .cVehicleAppearanceDataNode 179,
  d 2 (127, 127, 0) .cVehicleDamageStatusDataNode 34,
  d 2 (127, 127, 0) .cVehicleComponentReservationDataNode 65,
  d 2 (127, 127, 0) .cVehicleHealthDataNode 57,
  d 2 (127, 127, 0) .cVehicleTaskDataNode 34,
  p 1 (127, 86, 0),
  d 2 (87, 87, 0) .cSectorDataNode 4,
  d 2 (87, 87, 0) .cSectorPositionDataNode 5,
  d 2 (87, 87, 0) .cEntityOrientationDataNode 5,
  d 2 (87, 87, 0) .cPhysicalVelocityDataNode 5,
  d 2 (87, 87, 0) .cVehicleAngVelocityDataNode 4,
  p 2 (127, 86, 0),
  d 3 (86, 86, 0) .cVehicleSteeringDataNode 2,
  d 3 (87, 87, 0) .cVehicleControlDataNode 28,
  d 3 (127, 127, 0) .cVehicleGadgetDataNode 31,
  p 1 (4, 0, 0),
  d 2 (4, 0, 0) .cMigrationDataNode 13,
  d 2 (4, 0, 0) .cPhysicalMigrationDataNode 1,
  d 2 (4, 0, 1) .cPhysicalScriptMigrationDataNode 1,
  d 2 (4, 0, 0) .cVehicleProximityMigrationDataNode 36]

/-- `CBikeSyncTree`. -/
def bikeTree : List FlatNode := [
  p 0 (127, 0, 0),
  p 1 (1, 0, 0),
  d 2 (1, 0, 0) .cVehicleCreationDataNode 14,
  p 1 (127, 127, 0),
  p 2 (127, 127, 0),
  p 3 (127, 127, 0),
  d 4 (127, 127, 0) .cGlobalFlagsDataNode 2,
  d 4 (127, 127, 0) .cDynamicEntityGameStateDataNode 102,
  d 4 (127, 127, 0) .cPhysicalGameStateDataNode 4,
  d 4 (127, 127, 0) .cVehicleGameStateDataNode 57,
  d 4 (127, 127, 0) .cBikeGameStateDataNode 1,
  p 3 (127, 127, 1),
  d 4 (127, 127, 1) .cEntityScriptGameStateDataNode 1,
  d 4 (127, 127, 1) .cPhysicalScriptGameStateDataNode 13,
  d 4 (127, 127, 1) .cVehicleScriptGameStateDataNode 50,
  d 4 (127, 127, 1) .cEntityScriptInfoDataNode 24,
  d 2 (127, 127, 0) .cPhysicalAttachDataNode 28,
  d 2 (127, 127, 0) .cVehicleAppearanceDataNode 179,
  d 2 (127, 127, 0) .cVehicleDamageStatusDataNode 34,
  d 2 (127, 127, 0) .cVehicleComponentReservationDataNode 65,
  d 2 (127, 127, 0) .cVehicleHealthDataNode 57,
  d 2 (127, 127, 0) .cVehicleTaskDataNode 34,
  p 1 (127, 86, 0),
  d 2 (87, 87, 0) .cSectorDataNode 4,
  d 2 (87, 87, 0) .cSectorPositionDataNode 5,
  d 2 (87, 87, 0) .cEntityOrientationDataNode 5,
  d 2 (87, 87, 0) .cPhysicalVelocityDataNode 5,
  d 2 (87, 87, 0) .cVehicleAngVelocityDataNode 4,
  p 2 (127, 86, 0),
  d 3 (86, 86, 0) .cVehicleSteeringDataNode 2,
  d 3 (87, 87, 0) .cVehicleControlDataNode 28,
  d 3 (127, 127, 0) .cVehicleGadgetDataNode 31,
  p 1 (4, 0, 0),
  d 2 (4, 0, 0) .cMigrationDataNode 13,
  d 2 (4, 0, 0) .cPhysicalMigrationDataNode 1,
  d 2 (4, 0, 1) .cPhysicalScriptMigrationDataNode 1,
  d 2 (4, 0, 0) .cVehicleProximityMigrationDataNode 36]

/-- `CBoatSyncTree`. -/
def boatTree : List FlatNode := [
  p 0 (127, 0, 0),
  p 1 (1, 0, 0),
  d 2 (1, 0, 0) .cVehicleCreationDataNode 14,
  p 1 (127, 87, 0),
  p 2 (127, 87, 0),
  p 3 (127, 87, 0),
  d 4 (127, 127, 0) .cGlobalFlagsDataNode 2,
  d 4 (127, 127, 0) .cDynamicEntityGameStateDataNode 102,
  d 4 (127, 127, 0) .cPhysicalGameStateDataNode 4,
  d 4 (127, 127, 0) .cVehicleGameStateDataNode 57,
  d 4 (87, 87, 0) .cBoatGameStateDataNode 5,
  p 3 (127, 127, 1),
  d 4 (127, 127, 1) .cEntityScriptGameStateDataNode 1,
  d 4 (127, 127, 1) .cPhysicalScriptGameStateDataNode 13,
  d 4 (127, 127, 1) .cVehicleScriptGameStateDataNode 50,
  d 4 (127, 127, 1) .cEntityScriptInfoDataNode 24,
  d 2 (127, 127, 0) .cPhysicalAttachDataNode 28,
  d 2 (127, 127, 0) .cVehicleAppearanceDataNode 179,
  d 2 (127, 127, 0) .cVehicleDamageStatusDataNode 34,
  d 2 (127, 127, 0) .cVehicleComponentReservationDataNode 65,
  d 2 (127, 127, 0) .cVehicleHealthDataNode 57,
  d 2 (127, 127, 0) .cVehicleTaskDataNode 34,
  p 1 (127, 86, 0),
  d 2 (87, 87, 0) .cSectorDataNode 4,
  d 2 (87, 87, 0) .cSectorPositionDataNode 5,
  d 2 (87, 87, 0) .cEntityOrientationDataNode 5,
  d 2 (87, 87, 0) .cPhysicalVelocityDataNode 5,
  d 2 (87, 87, 0) .cVehicleAngVelocityDataNode 4,
  p 2 (127, 86, 0),
  d 3 (86, 86, 0) .cVehicleSteeringDataNode 2,
  d 3 (87, 87, 0) .cVehicleControlDataNode 28,
  d 3 (127, 127, 0) .cVehicleGadgetDataNode 31,
  p 1 (4, 0, 0),
  d 2 (4, 0, 0) .cMigrationDataNode 13,
  d 2 (4, 0, 0) .cPhysicalMigrationDataNode 1,
  d 2 (4, 0, 1) .cPhysicalScriptMigrationDataNode 1,
  d 2 (4, 0, 0) .cVehicleProximityMigrationDataNode 36]

/-- `CDoorSyncTree`. -/
def doorTree : List FlatNode := [
  p 0 (127, 0, 0),
  p 1 (1, 0, 0),
  d 2 (1, 0, 0) .cDoorCreationDataNode 17,
  p 1 (127, 127, 0),
  d 2 (127, 127, 0) .cGlobalFlagsDataNode 2,
  d 2 (127, 127, 1) .cDoorScriptInfoDataNode 28,
  d 2 (127, 127, 1) .cDoorScriptGameStateDataNode 8,
  d 1 (86, 86, 0) .cDoorMovementDataNode 2,
  p 1 (4, 0, 0),
  d 2 (4, 0, 0) .cMigrationDataNode 13,
  d 2 (4, 0, 1) .cPhysicalScriptMigrationDataNode 1]

/-- `CHeliSyncTree`. -/
def heliTree : List FlatNode := [
  p 0 (127, 0, 0),
  p 1 (1, 0, 0),
  d 2 (1, 0, 0) .cVehicleCreationDataNode 14,
  d 2 (1, 0, 0) .cAutomobileCreationDataNode 2,
  p 1 (127, 87, 0),
  p 2 (127, 127, 0),
  p 3 (127, 127, 0),
  d 4 (127, 127, 0) .cGlobalFlagsDataNode 2,
  d 4 (127, 127, 0) .cDynamicEntityGameStateDataNode 102,
  d 4 (127, 127, 0) .cPhysicalGameStateDataNode 4,
  d 4 (127, 127, 0) .cVehicleGameStateDataNode 57,
  p 3 (127, 127, 1),
  d 4 (127, 127, 1) .cEntityScriptGameStateDataNode 1,
  d 4 (127, 127, 1) .cPhysicalScriptGameStateDataNode 13,
  d 4 (127, 127, 1) .cVehicleScriptGameStateDataNode 50,
  d 4 (127, 127, 1) .cEntityScriptInfoDataNode 24,
  d 2 (127, 127, 0) .cPhysicalAttachDataNode 28,
  d 2 (127, 127, 0) .cVehicleAppearanceDataNode 179,
  d 2 (127, 127, 0) .cVehicleDamageStatusDataNode 34,
  d 2 (127, 127, 0) .cVehicleComponentReservationDataNode 65,
  d 2 (127, 127, 0) .cVehicleHealthDataNode 57,
  d 2 (127, 127, 0) .cVehicleTaskDataNode 34,
  d 2 (87, 87, 0) .cHeliHealthDataNode 16,
  p 1 (127, 86, 0),
  d 2 (87, 87, 0) .cSectorDataNode 4,
  d 2 (87, 87, 0) .cSectorPositionDataNode 5,
  d 2 (87, 87, 0) .cEntityOrientationDataNode 5,
  d 2 (87, 87, 0) .cPhysicalVelocityDataNode 5,
  d 2 (87, 87, 0) .cVehicleAngVelocityDataNode 4,
  p 2 (127, 86, 0),
  d 3 (86, 86, 0) .cVehicleSteeringDataNode 2,
  d 3 (87, 87, 0) .cVehicleControlDataNode 28,
  d 3 (127, 127, 0) .cVehicleGadgetDataNode 31,
  d 3 (86, 86, 0) .cHeliControlDataNode 8,
  p 1 (4, 0, 0),
  d 2 (4, 0, 0) .cMigrationDataNode 13,
  d 2 (4, 0, 0) .cPhysicalMigrationDataNode 1,
  d 2 (4, 0, 1) .cPhysicalScriptMigrationDataNode 1,
  d 2 (4, 0, 0) .cVehicleProximityMigrationDataNode 36]

/-- `CObjectSyncTree`. -/
def objectTree : List FlatNode := [
  p 0 (127, 0, 0),
  p 1 (1, 0, 0),
  d 2 (1, 0, 0) .cObjectCreationDataNode 30,
  p 1 (127, 127, 0),
  p 2 (127, 127, 0),
  p 3 (127, 127, 0),
  d 4 (127, 127, 0) .cGlobalFlagsDataNode 2,
  d 4 (127, 127, 0) .cDynamicEntityGameStateDataNode 102,
  d 4 (127, 127, 0) .cPhysicalGameStateDataNode 4,
  d 4 (127, 127, 0) .cObjectGameStateDataNode 44,
  p 3 (127, 127, 1),
  d 4 (127, 127, 1) .cEntityScriptGameStateDataNode 1,
  d 4 (127, 127, 1) .cPhysicalScriptGameStateDataNode 13,
  d 4 (127, 127, 1) .cObjectScriptGameStateDataNode 14,
  d 4 (127, 127, 1) .cEntityScriptInfoDataNode 24,
  d 2 (127, 127, 0) .cPhysicalAttachDataNode 28,
  d 2 (127, 127, 0) .cPhysicalHealthDataNode 19,
  p 1 (87, 87, 0),
  d 2 (87, 87, 0) .cSectorDataNode 4,
  d 2 (87, 87, 0) .cObjectSectorPosNode 8,
  d 2 (87, 87, 0) .cObjectOrientationDataNode 8,
  d 2 (87, 87, 0) .cPhysicalVelocityDataNode 5,
  d 2 (87, 87, 0) .cPhysicalAngVelocityDataNode 4,
  p 1 (4, 0, 0),
  d 2 (4, 0, 0) .cMigrationDataNode 13,
  d 2 (4, 0, 0) .cPhysicalMigrationDataNode 1,
  d 2 (4, 0, 1) .cPhysicalScriptMigrationDataNode 1]

/-- `CPedSyncTree`. -/
def pedTree : List FlatNode := [
  p 0 (127, 0, 0),
  p 1 (1, 0, 0),
  d 2 (1, 0, 0) .cPedCreationDataNode 20,
  d 2 (1, 0, 1) .cPedScriptCreationDataNode 1,
  p 1 (127, 87, 0),
  p 2 (127, 127, 0),
  p 3 (127, 127, 0),
  d 4 (127, 127, 0) .cGlobalFlagsDataNode 2,
  d 4 (127, 127, 0) .cDynamicEntityGameStateDataNode 102,
  d 4 (127, 127, 0) .cPhysicalGameStateDataNode 4,
  d 4 (127, 127, 0) .cPedGameStateDataNode 104,
  d 4 (127, 127, 0) .cPedComponentReservationDataNode 65,
  p 3 (127, 127, 1),
  d 4 (127, 127, 1) .cEntityScriptGameStateDataNode 1,
  d 4 (127, 127, 1) .cPhysicalScriptGameStateDataNode 13,
  d 4 (127, 127, 1) .cPedScriptGameStateDataNode 115,
  d 4 (127, 127, 1) .cEntityScriptInfoDataNode 24,
  d 2 (127, 127, 1) .cPedAttachDataNode 22,
  d 2 (127, 127, 0) .cPedHealthDataNode 17,
  d 2 (87, 87, 0) .cPedMovementGroupDataNode 26,
  d 2 (127, 127, 1) .cPedAIDataNode 9,
  d 2 (87, 87, 0) .cPedAppearanceDataNode 141,
  p 1 (127, 87, 0),
  d 2 (87, 87, 0) .cPedOrientationDataNode 3,
  d 2 (87, 87, 0) .cPedMovementDataNode 5,
  p 2 (127, 87, 0),
  d 3 (127, 127, 0) .cPedTaskTreeDataNode 28,
  d 3 (87, 87, 0) .cPedTaskSpecificDataNode 77,
  d 3 (87, 87, 0) .cPedTaskSpecificDataNode 77,
  d 3 (87, 87, 0) .cPedTaskSpecificDataNode 77,
  d 3 (87, 87, 0) .cPedTaskSpecificDataNode 77,
  d 3 (87, 87, 0) .cPedTaskSpecificDataNode 77,
  d 3 (87, 87, 0) .cPedTaskSpecificDataNode 77,
  d 3 (87, 87, 0) .cPedTaskSpecificDataNode 77,
  d 3 (87, 87, 0) .cPedTaskSpecificDataNode 77,
  d 2 (87, 87, 0) .cSectorDataNode 4,
  d 2 (87, 87, 0) .cPedSectorPosMapNode 12,
  d 2 (87, 87, 0) .cPedSectorPosNavMeshNode 4,
  p 1 (87, 0, 0),
  d 2 (4, 0, 0) .cMigrationDataNode 13,
  d 2 (4, 0, 0) .cPhysicalMigrationDataNode 1,
  d 2 (4, 0, 1) .cPhysicalScriptMigrationDataNode 1,
  d 2 (87, 0, 0) .cPedInventoryDataNode 321,
  d 2 (4, 4, 1) .cPedTaskSequenceDataNode 1]

/-- `CPickupSyncTree`. -/
def pickupTree : List FlatNode := [
  p 0 (127, 0, 0),
  p 1 (1, 0, 0),
  d 2 (1, 0, 0) .cPickupCreationDataNode 66,
  p 1 (127, 127, 0),
  p 2 (127, 127, 0),
  d 3 (127, 127, 0) .cGlobalFlagsDataNode 2,
  d 3 (127, 127, 0) .cDynamicEntityGameStateDataNode 102,
  p 2 (127, 127, 1),
  d 3 (127, 127, 1) .cPickupScriptGameStateNode 14,
  d 3 (127, 127, 1) .cPhysicalGameStateDataNode 4,
  d 3 (127, 127, 1) .cEntityScriptGameStateDataNode 1,
  d 3 (127, 127, 1) .cPhysicalScriptGameStateDataNode 13,
  d 3 (127, 127, 1) .cEntityScriptInfoDataNode 24,
  d 3 (127, 127, 1) .cPhysicalHealthDataNode 19,
  d 2 (127, 127, 1) .cPhysicalAttachDataNode 28,
  p 1 (87, 87, 0),
  d 2 (87, 87, 0) .cSectorDataNode 4,
  d 2 (87, 87, 0) .cPickupSectorPosNode 8,
  d 2 (87, 87, 0) .cEntityOrientationDataNode 5,
  d 2 (87, 87, 0) .cPhysicalVelocityDataNode 5,
  d 2 (87, 87, 0) .cPhysicalAngVelocityDataNode 4,
  p 1 (4, 0, 0),
  d 2 (4, 0, 0) .cMigrationDataNode 13,
  d 2 (4, 0, 1) .cPhysicalMigrationDataNode 1,
  d 2 (4, 0, 1) .cPhysicalScriptMigrationDataNode 1]

/-- `CPickupPlacementSyncTree`. -/
def pickupPlacementTree : List FlatNode := [
  p 0 (127, 0, 0),
  d 1 (1, 0, 0) .cPickupPlacementCreationDataNode 54,
  d 1 (4, 0, 0) .cMigrationDataNode 13,
  d 1 (127, 127, 0) .cGlobalFlagsDataNode 2,
  d 1 (127, 127, 0) .cPickupPlacementStateDataNode 7]

/-- `CPlaneSyncTree`. -/
def planeTree : List FlatNode := [
  p 0 (127, 0, 0),
  p 1 (1, 0, 0),
  d 2 (1, 0, 0) .cVehicleCreationDataNode 14,
  p 1 (127, 127, 0),
  p 2 (127, 127, 0),
  p 3 (127, 127, 0),
  d 4 (127, 127, 0) .cGlobalFlagsDataNode 2,
  d 4 (127, 127, 0) .cDynamicEntityGameStateDataNode 102,
  d 4 (127, 127, 0) .cPhysicalGameStateDataNode 4,
  d 4 (127, 127, 0) .cVehicleGameStateDataNode 57,
  p 3 (127, 127, 1),
  d 4 (127, 127, 1) .cEntityScriptGameStateDataNode 1,
  d 4 (127, 127, 1) .cPhysicalScriptGameStateDataNode 13,
  d 4 (127, 127, 1) .cVehicleScriptGameStateDataNode 50,
  d 4 (127, 127, 1) .cEntityScriptInfoDataNode 24,
  d 2 (127, 127, 0) .cPhysicalAttachDataNode 28,
  d 2 (127, 127, 0) .cVehicleAppearanceDataNode 179,
  d 2 (127, 127, 0) .cVehicleDamageStatusDataNode 34,
  d 2 (127, 127, 0) .cVehicleComponentReservationDataNode 65,
  d 2 (127, 127, 0) .cVehicleHealthDataNode 57,
  d 2 (127, 127, 0) .cVehicleTaskDataNode 34,
  d 2 (127, 127, 0) .cPlaneGameStateDataNode 52,
  p 1 (127, 86, 0),
  d 2 (87, 87, 0) .cSectorDataNode 4,
  d 2 (87, 87, 0) .cSectorPositionDataNode 5,
  d 2 (87, 87, 0) .cEntityOrientationDataNode 5,
  d 2 (87, 87, 0) .cPhysicalVelocityDataNode 5,
  d 2 (87, 87, 0) .cVehicleAngVelocityDataNode 4,
  p 2 (127, 86, 0),
  d 3 (86, 86, 0) .cVehicleSteeringDataNode 2,
  d 3 (87, 87, 0) .cVehicleControlDataNode 28,
  d 3 (127, 127, 0) .cVehicleGadgetDataNode 31,
  d 3 (86, 86, 0) .cPlaneControlDataNode 7,
  p 1 (4, 0, 0),
  d 2 (4, 0, 0) .cMigrationDataNode 13,
  d 2 (4, 0, 0) .cPhysicalMigrationDataNode 1,
  d 2 (4, 0, 1) .cPhysicalScriptMigrationDataNode 1,
  d 2 (4, 0, 0) .cVehicleProximityMigrationDataNode 36]

/-- `CSubmarineSyncTree`. -/
def submarineTree : List FlatNode := [
  p 0 (127, 0, 0),
  p 1 (1, 0, 0),
  d 2 (1, 0, 0) .cVehicleCreationDataNode 14,
  p 1 (127, 87, 0),
  p 2 (127, 87, 0),
  p 3 (127, 87, 0),
  d 4 (127, 127, 0) .cGlobalFlagsDataNode 2,
  d 4 (127, 127, 0) .cDynamicEntityGameStateDataNode 102,
  d 4 (127, 127, 0) .cPhysicalGameStateDataNode 4,
  d 4 (127, 127, 0) .cVehicleGameStateDataNode 57,
  d 4 (87, 87, 0) .cSubmarineGameStateDataNode 1,
  p 3 (127, 127, 1),
  d 4 (127, 127, 1) .cEntityScriptGameStateDataNode 1,
  d 4 (127, 127, 1) .cPhysicalScriptGameStateDataNode 13,
  d 4 (127, 127, 1) .cVehicleScriptGameStateDataNode 50,
  d 4 (127, 127, 1) .cEntityScriptInfoDataNode 24,
  d 2 (127, 127, 0) .cPhysicalAttachDataNode 28,
  d 2 (127, 127, 0) .cVehicleAppearanceDataNode 179,
  d 2 (127, 127, 0) .cVehicleDamageStatusDataNode 34,
  d 2 (127, 127, 0) .cVehicleComponentReservationDataNode 65,
  d 2 (127, 127, 0) .cVehicleHealthDataNode 57,
  d 2 (127, 127, 0) .cVehicleTaskDataNode 34,
  p 1 (127, 86, 0),
  d 2 (87, 87, 0) .cSectorDataNode 4,
  d 2 (87, 87, 0) .cSectorPositionDataNode 5,
  d 2 (87, 87, 0) .cEntityOrientationDataNode 5,
  d 2 (87, 87, 0) .cPhysicalVelocityDataNode 5,
  d 2 (87, 87, 0) .cVehicleAngVelocityDataNode 4,
  p 2 (127, 86, 0),
  d 3 (86, 86, 0) .cVehicleSteeringDataNode 2,
  d 3 (87, 87, 0) .cVehicleControlDataNode 28,
  d 3 (127, 127, 0) .cVehicleGadgetDataNode 31,
  d 3 (86, 86, 0) .cSubmarineControlDataNode 4,
  p 1 (4, 0, 0),
  d 2 (4, 0, 0) .cMigrationDataNode 13,
  d 2 (4, 0, 0) .cPhysicalMigrationDataNode 1,
  d 2 (4, 0, 1) .cPhysicalScriptMigrationDataNode 1,
  d 2 (4, 0, 0) .cVehicleProximityMigrationDataNode 36]

/-- `CPlayerSyncTree`. -/
def playerTree : List FlatNode := [
  p 0 (127, 0, 0),
  p 1 (1, 0, 0),
  d 2 (1, 0, 0) .cPlayerCreationDataNode 128,
  p 1 (127, 86, 0),
  p 2 (127, 87, 0),
  p 3 (127, 127, 0),
  d 4 (127, 127, 0) .cGlobalFlagsDataNode 2,
  d 4 (127, 127, 0) .cDynamicEntityGameStateDataNode 102,
  d 4 (127, 127, 0) .cPhysicalGameStateDataNode 4,
  d 4 (127, 127, 0) .cPedGameStateDataNode 104,
  d 4 (127, 127, 0) .cPedComponentReservationDataNode 65,
  p 3 (127, 87, 0),
  d 4 (127, 127, 1) .cEntityScriptGameStateDataNode 1,
  d 4 (87, 87, 0) .cPlayerGameStateDataNode 104,
  d 2 (127, 127, 1) .cPedAttachDataNode 22,
  d 2 (127, 127, 0) .cPedHealthDataNode 17,
  d 2 (87, 87, 0) .cPedMovementGroupDataNode 26,
  d 2 (127, 127, 1) .cPedAIDataNode 9,
  d 2 (87, 87, 0) .cPlayerAppearanceDataNode 560,
  d 2 (86, 86, 0) .cPlayerPedGroupDataNode 19,
  d 2 (86, 86, 0) .cPlayerAmbientModelStreamingNode 5,
  d 2 (86, 86, 0) .cPlayerGamerDataNode 370,
  d 2 (86, 86, 0) .cPlayerExtendedGameStateNode 20,
  p 1 (127, 86, 0),
  d 2 (87, 87, 0) .cPedOrientationDataNode 3,
  d 2 (87, 87, 0) .cPedMovementDataNode 5,
  p 2 (127, 87, 0),
  d 3 (127, 127, 0) .cPedTaskTreeDataNode 28,
  d 3 (87, 87, 0) .cPedTaskSpecificDataNode 77,
  d 3 (87, 87, 0) .cPedTaskSpecificDataNode 77,
  d 3 (87, 87, 0) .cPedTaskSpecificDataNode 77,
  d 3 (87, 87, 0) .cPedTaskSpecificDataNode 77,
  d 3 (87, 87, 0) .cPedTaskSpecificDataNode 77,
  d 3 (87, 87, 0) .cPedTaskSpecificDataNode 77,
  d 3 (87, 87, 0) .cPedTaskSpecificDataNode 77,
  d 3 (87, 87, 0) .cPedTaskSpecificDataNode 77,
  d 2 (87, 87, 0) .cSectorDataNode 4,
  d 2 (87, 87, 0) .cPlayerSectorPosNode 13,
  d 2 (86, 86, 0) .cPlayerCameraDataNode 24,
  d 2 (86, 86, 0) .cPlayerWantedAndLOSDataNode 30,
  p 1 (4, 0, 0),
  d 2 (4, 0, 0) .cMigrationDataNode 13,
  d 2 (4, 0, 0) .cPhysicalMigrationDataNode 1,
  d 2 (4, 0, 1) .cPhysicalScriptMigrationDataNode 1]

/-- `CTrainSyncTree`. -/
def trainTree : List FlatNode := [
  p 0 (127, 0, 0),
  p 1 (1, 0, 0),
  d 2 (1, 0, 0) .cVehicleCreationDataNode 14,
  p 1 (127, 127, 0),
  p 2 (127, 127, 0),
  p 3 (127, 127, 0),
  d 4 (127, 127, 0) .cGlobalFlagsDataNode 2,
  d 4 (127, 127, 0) .cDynamicEntityGameStateDataNode 102,
  d 4 (127, 127, 0) .cPhysicalGameStateDataNode 4,
  d 4 (127, 127, 0) .cVehicleGameStateDataNode 57,
  d 4 (127, 127, 0) .cTrainGameStateDataNode 17,
  p 3 (127, 127, 1),
  d 4 (127, 127, 1) .cEntityScriptGameStateDataNode 1,
  d 4 (127, 127, 1) .cPhysicalScriptGameStateDataNode 13,
  d 4 (127, 127, 1) .cVehicleScriptGameStateDataNode 50,
  d 4 (127, 127, 1) .cEntityScriptInfoDataNode 24,
  d 2 (127, 127, 0) .cPhysicalAttachDataNode 28,
  d 2 (127, 127, 0) .cVehicleAppearanceDataNode 179,
  d 2 (127, 127, 0) .cVehicleDamageStatusDataNode 34,
  d 2 (127, 127, 0) .cVehicleComponentReservationDataNode 65,
  d 2 (127, 127, 0) .cVehicleHealthDataNode 57,
  d 2 (127, 127, 0) .cVehicleTaskDataNode 34,
  p 1 (127, 86, 0),
  d 2 (87, 87, 0) .cSectorDataNode 4,
  d 2 (87, 87, 0) .cSectorPositionDataNode 5,
  d 2 (87, 87, 0) .cEntityOrientationDataNode 5,
  d 2 (87, 87, 0) .cPhysicalVelocityDataNode 5,
  d 2 (87, 87, 0) .cVehicleAngVelocityDataNode 4,
  p 2 (127, 86, 0),
  d 3 (86, 86, 0) .cVehicleSteeringDataNode 2,
  d 3 (87, 87, 0) .cVehicleControlDataNode 28,
  d 3 (127, 127, 0) .cVehicleGadgetDataNode 31,
  p 1 (4, 0, 0),
  d 2 (4, 0, 0) .cMigrationDataNode 13,
  d 2 (4, 0, 0) .cPhysicalMigrationDataNode 1,
  d 2 (4, 0, 1) .cPhysicalScriptMigrationDataNode 1,
  d 2 (4, 0, 0) .cVehicleProximityMigrationDataNode 36]

end SyncTrees

open SyncTrees in
/-- The flattened tree of an entity type; a trailer shares the automobile's. -/
def treeFor : NetObjEntityType → List FlatNode
  | .automobile => automobileTree
  | .bike => bikeTree
  | .boat => boatTree
  | .door => doorTree
  | .heli => heliTree
  | .object => objectTree
  | .ped => pedTree
  | .pickup => pickupTree
  | .pickupPlacement => pickupPlacementTree
  | .plane => planeTree
  | .submarine => submarineTree
  | .player => playerTree
  | .trailer => automobileTree
  | .train => trainTree

end Baston.Rage
