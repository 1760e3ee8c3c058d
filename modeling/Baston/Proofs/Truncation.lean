/-
A truncated leaf decodes to nothing, unless a flag is left.

Leaf by leaf: which bodies a decoder takes nothing from that is not in them.
-/
import Baston.Proofs.TruncatedHealth

namespace Baston.Rage

open MessageBuffer SyncParse BitM

namespace SyncParse

section

variable {F : Type} [Scalar F] {build : GameBuild} {body : LeafBody}

/-! ### The leaves that are one reader -/

theorem nothing_readers (F : Type) [Scalar F] (build : GameBuild) (hpadded : body.Padded) :
    NothingFromBeyond F .cSectorPositionDataNode build body
      ∧ NothingFromBeyond F .cPedSectorPosMapNode build body
      ∧ NothingFromBeyond F .cEntityOrientationDataNode build body
      ∧ NothingFromBeyond F .cVehicleHealthDataNode build body
      ∧ NothingFromBeyond F .cPedTaskTreeDataNode build body
      ∧ NothingFromBeyond F .cPedAIDataNode build body
      ∧ NothingFromBeyond F .cPedScriptGameStateDataNode build body := by
  refine ⟨?_, ?_, ?_, ?_, ?_, ?_, ?_⟩
  · exact nothingFromBeyond_of_checked .sectorPosition
      (fun sectorPosition out => { out with sectorPosition }) hpadded (steady_sectorOffset 12)
      (checked_sectorOffset 12) (fun _ _ => rfl) rfl (fun _ _ => Iff.rfl) fun _ => Iff.rfl
  · exact nothingFromBeyond_of_checked .sectorPosition
      (fun sectorPosition out => { out with sectorPosition }) hpadded (steady_sectorOffset 12)
      (checked_sectorOffset 12) (fun _ _ => rfl) rfl (fun _ _ => Iff.rfl) fun _ => Iff.rfl
  · exact nothingFromBeyond_of_checked .heading (fun heading out => { out with heading }) hpadded
      steady_quaternion checked_quaternion (fun _ _ => rfl) rfl (fun _ _ => Iff.rfl)
      fun _ => Iff.rfl
  · exact nothingFromBeyond_of_checked .vehicleHealth
      (fun vehicleHealth out => { out with vehicleHealth }) hpadded (steady_vehicleHealth build)
      (checked_vehicleHealth build) (fun _ _ => rfl) rfl (fun _ _ => Iff.rfl) fun _ => Iff.rfl
  · exact nothingFromBeyond_of_checked .pedTasks (fun pedTasks out => { out with pedTasks }) hpadded
      (steady_pedTasks build) (checked_pedTasks build) (fun _ _ => rfl) rfl (fun _ _ => Iff.rfl)
      fun _ => Iff.rfl
  · exact nothingFromBeyond_of_checked .relationshipGroup
      (fun relationshipGroup out => { out with relationshipGroup }) hpadded (.bits 32)
      (.bits 32) (fun _ _ => rfl) rfl (fun _ _ => Iff.rfl) fun _ => Iff.rfl
  · refine nothingFromBeyond_of_checked .populationType
      (fun populationType out => { out with populationType }) hpadded (steady_u8 4)
      (checked_u8 4) (fun buf out => ?_) rfl (fun _ _ => Iff.rfl) fun _ => Iff.rfl
    unfold readU8
    rw [run_bind]
    show ({ out with populationType := ((bits 4).run buf).1.map UInt32.toUInt8 } : SyncNodeData F) = _
    rcases (bits 4).run buf with ⟨_ | v, mid⟩
    · rfl
    · rfl

theorem nothing_vehicleGameState (hpadded : body.Padded) :
    NothingFromBeyond F .cVehicleGameStateDataNode build body
      ↔ flagInside (upToLock build) body = true :=
  (nothingFromBeyond_iff_settled .vehicleGameState
    (fun vehicleGameState out => { out with vehicleGameState }) (fun _ _ => rfl) rfl
    (fun _ _ => Iff.rfl) fun _ => Iff.rfl).trans (settled_vehicleGameState hpadded build)

theorem nothing_vehicleAppearance (hpadded : body.Padded) :
    NothingFromBeyond F .cVehicleAppearanceDataNode build body
      ↔ (flagInside upToNeon body && flagInside upToNeonSide body) = true :=
  (nothingFromBeyond_iff_settled .vehicleAppearance
    (fun vehicleAppearance out => { out with vehicleAppearance }) (fun _ _ => rfl) rfl
    (fun _ _ => Iff.rfl) fun _ => Iff.rfl).trans (settled_vehicleAppearance hpadded build)

theorem nothing_vehicleDamage (hpadded : body.Padded) :
    NothingFromBeyond F .cVehicleDamageStatusDataNode build body
      ↔ (flagInside upToWindows body && flagInside upToWindow body) = true :=
  (nothingFromBeyond_iff_settled .vehicleDamage
    (fun vehicleDamage out => { out with vehicleDamage }) (fun _ _ => rfl) rfl
    (fun _ _ => Iff.rfl) fun _ => Iff.rfl).trans (settled_vehicleDamage hpadded)

theorem nothing_pedGameState (hpadded : body.Padded) :
    NothingFromBeyond F .cPedGameStateDataNode build body
      ↔ flagInside (upToStealth build) body = true :=
  (nothingFromBeyond_iff_settled .pedGameState
    (fun pedGameState out => { out with pedGameState }) (fun _ _ => rfl) rfl
    (fun _ _ => Iff.rfl) fun _ => Iff.rfl).trans (settled_pedGameState hpadded build)

theorem nothing_pedMovement (hpadded : body.Padded) :
    NothingFromBeyond F .cPedMovementGroupDataNode build body
      ↔ flagInside upToRagdolling body = true :=
  (nothingFromBeyond_iff_settled .pedMovement
    (fun pedMovement out => { out with pedMovement }) (fun _ _ => rfl) rfl
    (fun _ _ => Iff.rfl) fun _ => Iff.rfl).trans (settled_pedMovement hpadded)

/-- A leaf without fields sets none. -/
theorem nothing_unread {name : NodeName} (hname : writes name = []) :
    NothingFromBeyond F name build body := by
  refine nothingFromBeyond_of_empty fun f hf => ?_
  rw [hname] at hf
  exact absurd hf List.not_mem_nil

end

/-! ### Every leaf -/

/-- **Truncated leaves.**  The walk hands every decoder a body that is padded with zeros to whole
bytes.

Of such a body, however short, a decoder sets no field from bits past the end exactly when each
flag that it keeps with no field behind it lies in the body, or the decoder gives up before. -/
theorem truncated_leaves (F : Type) [Scalar F] :
    (∀ (entityType : NetObjEntityType) (isCreate lengthHack : Bool) (build : GameBuild)
        (data : List UInt8) (i : Nat) (name : NodeName) (body : LeafBody),
      .leaf i name body ∈ parseLog F entityType isCreate data lengthHack build → body.Padded)
    ∧ ∀ (name : NodeName) (build : GameBuild) (body : LeafBody), body.Padded →
        (NothingFromBeyond F name build body ↔ flagsInside name build body = true) := by
  refine ⟨fun _ _ _ _ _ _ _ _ h => padded_of_parseLog h, fun name build body hpadded => ?_⟩
  obtain ⟨hposition, hmap, horientation, hhealth, htasks, hai, hscript⟩ :=
    nothing_readers F build hpadded
  cases name with
  | cSectorDataNode => exact iff_of_true (nothing_sector hpadded) rfl
  | cSectorPositionDataNode => exact iff_of_true hposition rfl
  | cPlayerSectorPosNode => exact iff_of_true (nothing_playerSectorPos hpadded) rfl
  | cObjectSectorPosNode => exact iff_of_true (nothing_objectSectorPos hpadded) rfl
  | cPedSectorPosMapNode => exact iff_of_true hmap rfl
  | cPedHealthDataNode => exact nothing_pedHealth hpadded
  | cVehicleCreationDataNode => exact iff_of_true (nothing_vehicleCreation hpadded) rfl
  | cPedCreationDataNode => exact iff_of_true (nothing_pedCreation hpadded) rfl
  | cEntityOrientationDataNode => exact iff_of_true horientation rfl
  | cObjectOrientationDataNode => exact iff_of_true (nothing_objectOrientation hpadded) rfl
  | cPedOrientationDataNode => exact iff_of_true (nothing_pedOrientation hpadded) rfl
  | cPhysicalVelocityDataNode => exact iff_of_true (nothing_velocity hpadded) rfl
  | cVehicleGameStateDataNode => exact nothing_vehicleGameState hpadded
  | cVehicleHealthDataNode => exact iff_of_true hhealth rfl
  | cVehicleAppearanceDataNode => exact nothing_vehicleAppearance hpadded
  | cVehicleDamageStatusDataNode => exact nothing_vehicleDamage hpadded
  | cPedGameStateDataNode => exact nothing_pedGameState hpadded
  | cPedMovementGroupDataNode => exact nothing_pedMovement hpadded
  | cPedAIDataNode => exact iff_of_true hai rfl
  | cPedTaskTreeDataNode => exact iff_of_true htasks rfl
  | cPedScriptGameStateDataNode => exact iff_of_true hscript rfl
  | cPhysicalGameStateDataNode => exact (nothing_physicalGameState hpadded).trans decide_eq_true_iff.symm
  | cEntityScriptInfoDataNode => exact iff_of_true (nothing_entityScript hpadded) rfl
  | cPhysicalAttachDataNode => exact (nothing_attach hpadded (.inl rfl)).trans decide_eq_true_iff.symm
  | cPedAttachDataNode => exact (nothing_attach hpadded (.inr rfl)).trans decide_eq_true_iff.symm
  | _ => exact iff_of_true (nothing_unread rfl) rfl

/-- A vehicle's game state that ends after its radio station and three flags. -/
def cutVehicle : LeafBody := ⟨0, 10, [170, 128]⟩

theorem cutVehicle_padded : cutVehicle.Padded := by
  refine ⟨rfl, fun j hj => ?_⟩
  have hj' : 10 ≤ j := hj
  by_cases hlow : j < 16
  · have hbits : ∀ j < 16, 10 ≤ j → bitOf [170, 128] j = false := by decide
    exact hbits j hlow hj'
  · simp only [bitOf, cutVehicle]
    rw [List.getD_eq_default _ _ (by simp only [List.length_cons, List.length_nil]; omega)]
    simp

/-- It decodes to nothing, and nothing of it is made up. -/
theorem cut_vehicle_nothing :
    NothingFromBeyond Float32 .cVehicleGameStateDataNode ⟨3258⟩ cutVehicle
      ∧ leafOut .cVehicleGameStateDataNode ⟨3258⟩ cutVehicle ({} : SyncNodeData Float32) = {} :=
  ⟨((truncated_leaves Float32).2 .cVehicleGameStateDataNode ⟨3258⟩ cutVehicle
    cutVehicle_padded).mpr (by decide +kernel), by decide +kernel⟩

/-- An update of a prop whose visibility node is empty makes it invisible, as no bit of it says. -/
theorem empty_node_hides :
    .leaf 8 .cPhysicalGameStateDataNode ⟨20, 0, []⟩
        ∈ parseLog Float32 .object false [114, 0, 0, 0] false ⟨3258⟩
      ∧ (parseSyncTree .object false [114, 0, 0, 0] false ⟨3258⟩ : SyncNodeData Float32).isVisible
        = some false
      ∧ ¬ NothingFromBeyond Float32 .cPhysicalGameStateDataNode ⟨3258⟩ ⟨20, 0, []⟩ := by
  have hleaf : .leaf 8 .cPhysicalGameStateDataNode ⟨20, 0, []⟩
      ∈ parseLog Float32 .object false [114, 0, 0, 0] false ⟨3258⟩ := by decide +kernel
  refine ⟨hleaf, by decide +kernel, fun h => ?_⟩
  have hmore := LeafBody.goesOnAs_flagAt (padded_of_parseLog hleaf) (Nat.zero_le 0)
  have hsame := h .isVisible (by simp only [Field.Same]; decide +kernel) _ hmore {}
  simp only [Field.Same] at hsame
  exact absurd hsame (by decide +kernel)

end SyncParse

end Baston.Rage
