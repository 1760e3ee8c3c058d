/-
Decoding sync trees (`rage/sync_parse.rs`).

The walk is preorder over the flat tree.  A node is read when its `NodeIds` admit the
record kind and, where they ask for one, its presence bit is set; a skipped parent
takes its whole subtree with it and consumes nothing.  A leaf is framed by its length
in bits, its decoder sees only a copy of that many bits, and the walk resumes at the
end of the frame whatever the decoder did.
-/
import Baston.Rage.SyncTrees
import Baston.Rage.SyncData
import Baston.Rage.Quaternion

namespace Baston.Rage

open BitM (bits bit)

variable {F : Type} [Scalar F]

namespace SyncParse

/-- Bit width of the per-leaf length prefix. -/
def nodeLengthBits : Nat := 13

/-! ### Leaf decoders -/

/-- The three quantised in-sector coordinates. -/
def readSectorOffset (width : Nat) : BitM (Vec3 F) := do
  let x ← BitM.float width 54.0
  let y ← BitM.float width 54.0
  let z ← BitM.float width 69.0
  pure ⟨x, y, z⟩

/-- Fold an angle into `0..360`. -/
def normaliseDegrees (degrees : F) : F := Scalar.remEuclid degrees 360.0

/-- A compressed quaternion, as the heading it encodes. -/
def readQuaternionHeading : BitM F := do
  let largest ← bits 2
  let a ← bits Quaternion.bits
  let b ← bits Quaternion.bits
  let c ← bits Quaternion.bits
  pure (Quaternion.toHeadingDegrees (Quaternion.decompress ⟨largest, a, b, c⟩ Quaternion.bits))

/-- `CPedHealthDataNode`, up to the fields that abort it: health, maximum, armour. -/
def decodePedHealthHead (build : GameBuild) :
    StateM MessageBuffer (Option UInt32 × Option UInt32 × Option UInt32) := do
  let healthBits := if build.isWinterUpdate25 then 14 else 13
  let isFine ← MessageBuffer.readBit
  let maxHealthChanged ← MessageBuffer.readBit
  let maxHealth ← if maxHealthChanged then (bits healthBits).run else pure none
  let health ←
    if isFine then pure maxHealth
    else do
      let value ← (bits healthBits).run
      let _ ← MessageBuffer.readBit
      let _ ← MessageBuffer.readBit
      pure value
  let noArmour ← MessageBuffer.readBit
  let armour ← if noArmour then pure (some 0) else (bits 13).run
  pure (health, maxHealth, armour)

/-- `CPedHealthDataNode`, who did the damage; `0` when nothing did. -/
def decodePedDamageSource (build : GameBuild) : BitM UInt16 := do
  if build.is2060 then
    let hasFirst ← bit
    let hasSecond ← bit
    BitM.when hasSecond (bits 13)
    BitM.when (!hasFirst) (bits 13)
  if ← bit then
    let source ← bits 13
    pure source.toUInt16
  else pure 0

/-- `CPedHealthDataNode`.  What was decoded before a truncation is kept. -/
def decodePedHealth (build : GameBuild) (out : SyncNodeData F) :
    StateM MessageBuffer (SyncNodeData F) := do
  let (health, maxHealth, armour) ← decodePedHealthHead build
  let asF (v : UInt32) : F := Scalar.ofInt v.toNat
  let out := { out with
    health := health.map asF, maxHealth := maxHealth.map asF, armour := armour.map asF }
  match ← (decodePedDamageSource build).run with
  | none => pure out
  | some source =>
    let out := { out with sourceOfDamage := some source }
    match ← (bits 32).run with
    | none => pure out
    | some cause => pure { out with causeOfDeath := some cause }

/-- `CPedMovementGroupDataNode`. -/
def decodePedMovement : BitM PedMovement := do
  let _ ← bits 32
  if ← bit then
    -- default action mode: every flag is clear
    pure {}
  else
    let _ ← bits 3
    let _ ← bits 5
    let _ ← bits 32
    let _ ← bit
    let isStealthy ← bit
    let isStrafing ← bit
    let isRagdolling ← bit
    pure ⟨isStealthy, isStrafing, isRagdolling⟩

/-- `CPedTaskTreeDataNode`. -/
def decodePedTasks (build : GameBuild) : BitM PedTasks := do
  let idle := if build.is2060 then idleTaskType + 1 else idleTaskType
  let (scriptCommand, scriptTaskStage) ←
    if ← bit then do
      let command ← bits 32
      let stage ← bits 3
      pure (command, stage)
    else pure (({} : PedTasks).scriptCommand, ({} : PedTasks).scriptTaskStage)
  let occupied ← bits 8
  let taskTypes ← BitM.forEach
    (fun slot =>
      if occupied &&& (1 <<< UInt32.ofNat slot) = 0 then pure idle
      else do
        let task ← bits 10
        let _ ← bit
        let _ ← bits 3
        let _ ← bits 3
        let _ ← bits 5
        pure task.toUInt16)
    (List.range 8)
  pure ⟨scriptCommand, scriptTaskStage, taskTypes⟩

/-- The detailed part of `CVehicleGameStateDataNode`, absent from a bare record. -/
def decodeVehicleDetail (build : GameBuild) (out : VehicleGameState) :
    BitM VehicleGameState := do
  let defaultHeadlights ← bit
  let headlightsColour ←
    if defaultHeadlights then pure out.headlightsColour else do
      let colour ← bits 8
      pure colour.toUInt8
  let sirenOn ← bit
  BitM.when build.is3407 bit
  if ← bit then
    let _ ← bit
  let _ ← bit
  let out := { out with defaultHeadlights, headlightsColour, sirenOn }
  let out ←
    if ← bit then do
      let lockStatus ← bits 5
      let _ ← bits 7
      let _ ← bits 7
      let doorsOpen ← bits 7
      let doorPositions ← BitM.forEach
        (fun door =>
          if doorsOpen &&& (1 <<< UInt32.ofNat door) = 0 then pure 0
          else do
            let position ← bits 4
            pure position.toUInt8)
        (List.range 7)
      -- eight bits are read, but the engine only walks the low seven
      let extraMask ← bits 8
      let _ ← BitM.forEach
        (fun slot => BitM.when (extraMask &&& (1 <<< UInt32.ofNat slot) ≠ 0) (bits 5))
        (List.range 7)
      pure { out with
        lockStatus := lockStatus.toUInt8, doorsOpen := doorsOpen.toUInt8, doorPositions }
    else pure out
  if ← bit then
    let _ ← bits 6
  let _ ← bit
  let _ ← bit
  let isStationary ← bit
  let _ ← bit
  let _ ← bit
  let _ ← bit
  if ← bit then
    -- `read_float(10, 3000.0)?`, whose value is dropped
    let _ ← bits 10
  pure { out with isStationary }

/-- `CVehicleGameStateDataNode`. -/
def decodeVehicleGameState (build : GameBuild) : BitM VehicleGameState := do
  let radioStation ← bits (if build.is2545 then 7 else 6)
  let _ ← bit
  let engineOn ← bit
  let engineStarting ← bit
  let _ ← bit
  let handbrake ← bit
  let _ ← bit
  let _ ← bit
  let stateAbsent ← bit
  let out : VehicleGameState :=
    { radioStation := radioStation.toUInt8, engineOn, engineStarting, handbrake }
  let out ←
    if stateAbsent then pure { out with defaultHeadlights := true }
    else decodeVehicleDetail build out
  if ← bit then
    let _ ← bits 32
    let _ ← bits 13
  if ← bit then
    let _ ← bits 13
    let _ ← bits 13
  if ← bit then
    let _ ← bits 13
  let lightsOn ← bit
  let highbeamsOn ← bit
  let lightState ← bits 3
  BitM.skip 6 bit
  let _ ← bits 32
  let _ ← bits 3
  let _ ← bit
  let hasBeenOwnedByPlayer ← bit
  BitM.skip 6 bit
  BitM.when build.is2699 (BitM.skip 2 bit)
  let hasLock ← bit
  let lockedPlayers ←
    if hasLock then do
      let mask ← bits 32
      pure mask.toInt32
    else pure out.lockedPlayers
  pure { out with
    lightsOn, highbeamsOn, lightState := lightState.toUInt8, hasBeenOwnedByPlayer, hasLock,
    lockedPlayers }

/-- `CVehicleHealthDataNode`, the wheel block: the tyre status, `0` intact, `1` burst,
`2` on the rim. -/
def decodeTyres (build : GameBuild) (tyresFine wheelExtraFine : Bool) : BitM (List UInt8) := do
  let intact := List.replicate 16 0
  if tyresFine && wheelExtraFine then pure intact
  else
    let totalWheels ← bits 4
    let status ←
      if tyresFine then pure intact
      else do
        let wheels ← BitM.forEach
          (fun _ => do
            if build.is2060 then
              if ← bit then
                let _ ← bits 8
            let burst ← bit
            let onRim ← bit
            let _ ← bit
            let _ ← bit
            pure (if onRim then 2 else if burst then 1 else 0))
          (List.range totalWheels.toNat)
        pure (wheels ++ intact.drop wheels.length)
    if !wheelExtraFine then
      BitM.skip totalWheels.toNat do
        if ← bit then
          let _ ← bits 10
    pure status

/-- `CVehicleHealthDataNode`. -/
def decodeVehicleHealth (build : GameBuild) : BitM VehicleHealth := do
  let d : VehicleHealth := {}
  let _ ← bit
  let _ ← bit
  let engineDamaged ← bit
  let petrolTankDamaged ← bit
  let engineHealth ← if engineDamaged then BitM.signed 19 else pure d.engineHealth
  let petrolTankHealth ← if petrolTankDamaged then BitM.signed 19 else pure d.petrolTankHealth
  let tyresFine ← bit
  let wheelExtraFine ← bit
  let tyreStatus ← decodeTyres build tyresFine wheelExtraFine
  let health ← if ← bit then pure d.health else BitM.signed 19
  let bodyHealth ← if ← bit then pure d.bodyHealth else BitM.signed 19
  if ← bit then
    let _ ← bits 13
    let _ ← bits 32
  let _ ← bits 4
  let totalRepairs ← bits 4
  pure ⟨engineHealth, petrolTankHealth, health, bodyHealth, tyresFine, tyreStatus,
    totalRepairs.toUInt8⟩

/-- A byte. -/
def readU8 (width : Nat) : BitM UInt8 := do
  let v ← bits width
  pure v.toUInt8

/-- `n` colour channels. -/
def readChannels (n : Nat) : BitM (List UInt8) := BitM.forEach (fun _ => readU8 8) (List.range n)

/-- The emblem block of `CVehicleAppearanceDataNode`, of which nothing is kept. -/
def skipEmblems : BitM Unit := do
  if ← bit then
    let _ ← bits 32
    let _ ← bits 32
  else
    let _ ← bits 1
    let _ ← bits 32
    let _ ← bit
    let _ ← bits 3
  BitM.skip 4 do
    if ← bit then
      let _ ← bits 10
      let _ ← bits 8
      BitM.skip 3 do
        let _ ← bits 14
        let _ ← bits 14
        bits 10
      let _ ← bits 16

/-- The mod-kit block of `CVehicleAppearanceDataNode`: wheel choice and type. -/
def decodeModKit : BitM (UInt8 × UInt8) := do
  BitM.skip 13 do
    if ← bit then
      let _ ← bits 32
  if ← bit then
    let _ ← bits 6
  let wheelChoice ← readU8 8
  let wheelType ← readU8 4
  if ← bit then
    let _ ← bits 8
  let _ ← bit
  let _ ← bit
  pure (wheelChoice, wheelType)

/-- An optional livery index, `0` when its flag is clear. -/
def readLivery : BitM Int16 := do
  if ← bit then
    let v ← bits 5
    pure v.toUInt16.toInt16
  else pure 0

/-- `CVehicleAppearanceDataNode`. -/
def decodeVehicleAppearance (build : GameBuild) : BitM VehicleAppearance := do
  let d : VehicleAppearance := {}
  let primaryColour ← readU8 8
  let secondaryColour ← readU8 8
  let pearlColour ← readU8 8
  let wheelColour ← readU8 8
  let interiorColour ← readU8 8
  let dashboardColour ← readU8 8
  let isPrimaryColourRgb ← bit
  let primaryRgb ← if isPrimaryColourRgb then readChannels 3 else pure d.primaryRgb
  let isSecondaryColourRgb ← bit
  let secondaryRgb ← if isSecondaryColourRgb then readChannels 3 else pure d.secondaryRgb
  let _ ← bits 8
  let (dirtLevel, extras, liveryIndex, roofLiveryIndex) ←
    if ← bit then do
      let dirt ← readU8 5
      let extras ← bits 16
      let livery ← readLivery
      let roof ← readLivery
      pure (dirt, extras.toUInt16, livery, roof)
    else pure (d.dirtLevel, d.extras, d.liveryIndex, d.roofLiveryIndex)
  let kitIndex ← readU8 2
  let (wheelChoice, wheelType) ←
    if kitIndex ≠ 0 then decodeModKit else pure (d.wheelChoice, d.wheelType)
  let windowTintIndex ← if ← bit then readU8 8 else pure d.windowTintIndex
  let tyreSmokeColour ← if ← bit then readChannels 3 else pure d.tyreSmokeColour
  let hasPlate ← bit
  let plate ←
    if hasPlate then BitM.forEach (fun _ => readU8 7) (List.range 8) else pure d.plate
  let numberPlateTextIndex ← bits 32
  let hornTypeHash ← bits 32
  if ← bit then skipEmblems
  let hasNeonLights ← bit
  let (neonColour, neonSides) ←
    if hasNeonLights then do
      let colour ← readChannels 3
      let sides ← BitM.forEach (fun _ => bit) (List.range 4)
      BitM.when build.is2372 bit
      pure (colour, sides)
    else pure (d.neonColour, d.neonSides)
  pure ⟨primaryColour, secondaryColour, pearlColour, wheelColour, interiorColour,
    dashboardColour, isPrimaryColourRgb, primaryRgb, isSecondaryColourRgb, secondaryRgb,
    dirtLevel, extras, liveryIndex, roofLiveryIndex, kitIndex, wheelChoice, wheelType,
    windowTintIndex, tyreSmokeColour, plate, numberPlateTextIndex, hornTypeHash,
    hasNeonLights, neonColour, neonSides⟩

/-- `CVehicleDamageStatusDataNode`. -/
def decodeVehicleDamage : BitM VehicleDamage := do
  if ← bit then BitM.skip 6 (bits 2)
  let damagedByBullets ← bit
  BitM.when damagedByBullets (BitM.skip 6 (bits 8))
  if ← bit then BitM.skip 2 (bits 2)
  if ← bit then BitM.skip 22 bit
  let anyWindowBroken ← bit
  let windowsBroken ← BitM.forEach
    (fun _ => if anyWindowBroken then bit else pure false) (List.range 8)
  pure ⟨damagedByBullets, anyWindowBroken, windowsBroken⟩

/-- `CPedGameStateDataNode`, the occupied vehicle and seat. -/
def decodeOccupancy : BitM (Int32 × Int32) := do
  if ← bit then
    let vehicle ← bits 13
    if ← bit then
      let seat ← bits 5
      pure (vehicle.toInt32, seat.toInt32)
    else pure (-1, -1)
  else pure (-1, -1)

/-- `CPedGameStateDataNode`. -/
def decodePedGameState (build : GameBuild) : BitM PedGameState := do
  BitM.skip 6 bit
  if build.is2060 then
    BitM.skip 2 bit
    BitM.when build.is2189 bit
    BitM.when build.is2372 bit
    BitM.when build.is3407 (BitM.skip 2 bit)
  let arrestState ← bits 1
  let deathState ← bits 2
  let curWeapon ←
    if ← bit then do
      let weapon ← bits 32
      BitM.when build.is3258 (bits 3)
      pure weapon
    else pure 0
  BitM.when build.is2060 bit
  BitM.skip 5 bit
  if ← bit then
    let _ ← bits 5
  let weaponComponents ← bits 4
  BitM.skip weaponComponents.toNat do
    let _ ← bits 32
    if build.is2372 then
      if ← bit then
        let _ ← bits 5
  let gadgets ← bits 2
  BitM.skip gadgets.toNat (bits 32)
  let (curVehicle, curVehicleSeat) ← decodeOccupancy
  if ← bit then
    let _ ← bit
  let isHandcuffed ←
    if ← bit then do
      let _ ← bits 13
      let cuffed ← bit
      BitM.skip 4 bit
      pure cuffed
    else pure false
  let isFlashlightOn ← bit
  let actionModeEnabled ← bit
  let stealthModeEnabled ← bit
  pure ⟨curWeapon, curVehicle, curVehicleSeat, isHandcuffed, isFlashlightOn,
    actionModeEnabled, stealthModeEnabled, arrestState.toUInt8, deathState.toUInt8⟩

/-- Whether `decodeLeaf` understands this node. -/
def decodes : NodeName → Bool
  | .cSectorDataNode | .cSectorPositionDataNode | .cPlayerSectorPosNode
  | .cObjectSectorPosNode | .cPedSectorPosMapNode | .cPedHealthDataNode
  | .cVehicleCreationDataNode | .cPedCreationDataNode | .cEntityOrientationDataNode
  | .cObjectOrientationDataNode | .cPedOrientationDataNode | .cPhysicalVelocityDataNode
  | .cVehicleGameStateDataNode | .cVehicleHealthDataNode | .cVehicleAppearanceDataNode
  | .cVehicleDamageStatusDataNode | .cPedGameStateDataNode | .cPedMovementGroupDataNode
  | .cPedAIDataNode | .cPedTaskTreeDataNode | .cPedScriptGameStateDataNode
  | .cPhysicalGameStateDataNode | .cEntityScriptInfoDataNode | .cPhysicalAttachDataNode
  | .cPedAttachDataNode => true
  | _ => false

/-- Fold one leaf into the record.  An unknown leaf changes nothing. -/
def decodeLeaf (name : NodeName) (build : GameBuild) (out : SyncNodeData F) :
    StateM MessageBuffer (SyncNodeData F) :=
  match name with
  | .cSectorDataNode => do
    let x ← (bits 10).run
    let y ← (bits 10).run
    let z ← (bits 6).run
    match x, y, z with
    | some x, some y, some z => pure { out with sector := some ⟨x.toInt32, y.toInt32, z.toInt32⟩ }
    | _, _, _ => pure out
  | .cSectorPositionDataNode => do
    pure { out with sectorPosition := ← (readSectorOffset 12).run }
  | .cPlayerSectorPosNode => do
    if ← MessageBuffer.readBit then
      let _ ← MessageBuffer.readBit
      let _ ← MessageBuffer.readBit
      if ← MessageBuffer.readBit then
        -- the standing-on block, read to stay aligned
        let _ ← (bits 13).run
        let _ ← (BitM.signedFloat 14 (40.0 : F)).run
        let _ ← (BitM.signedFloat 14 (40.0 : F)).run
        let _ ← (BitM.signedFloat 10 (20.0 : F)).run
    pure { out with sectorPosition := ← (readSectorOffset 12).run }
  | .cObjectSectorPosNode => do
    let width := if ← MessageBuffer.readBit then 20 else 12
    pure { out with sectorPosition := ← (readSectorOffset width).run }
  | .cPedSectorPosMapNode => do
    pure { out with sectorPosition := ← (readSectorOffset 12).run }
  | .cPedHealthDataNode => decodePedHealth build out
  | .cVehicleCreationDataNode => do
    let model ← (bits 32).run
    let populationType ← (bits 4).run
    pure { out with model, populationType := populationType.map UInt32.toUInt8 }
  | .cPedCreationDataNode => do
    let _ ← MessageBuffer.readBit
    let _ ← MessageBuffer.readBit
    let populationType ← (bits 4).run
    let model ← (bits 32).run
    let out := { out with model, populationType := populationType.map UInt32.toUInt8 }
    let _ ← (bits 16).run
    let inVehicle ← MessageBuffer.readBit
    let _ ← (bits 32).run
    if inVehicle then
      let vehicle ← (bits 13).run
      let seat ← (bits 5).run
      match vehicle, seat with
      | some vehicle, some seat =>
        pure { out with vehicleSeat := some (vehicle.toUInt16, seat.toUInt8) }
      | _, _ => pure out
    else pure out
  | .cEntityOrientationDataNode => do
    pure { out with heading := ← readQuaternionHeading.run }
  | .cObjectOrientationDataNode => do
    if ← MessageBuffer.readBit then
      let divisor : F := Scalar.pi * 4.0
      let _ ← (BitM.signedFloat 20 divisor).run
      let _ ← (BitM.signedFloat 20 divisor).run
      let z ← (BitM.signedFloat 20 divisor).run
      pure { out with heading := z.map fun z => normaliseDegrees (Scalar.toDegrees z) }
    else
      pure { out with heading := ← readQuaternionHeading.run }
  | .cPedOrientationDataNode => do
    let asDegrees (radians : F) : F := normaliseDegrees (Scalar.toDegrees radians)
    let heading ← (BitM.signedFloat 8 Quaternion.tauRadians).run
    let desired ← (BitM.signedFloat 8 Quaternion.tauRadians).run
    pure { out with heading := heading.map asDegrees, desiredHeading := desired.map asDegrees }
  | .cPhysicalVelocityDataNode => do
    let x ← (BitM.signed 12).run
    let y ← (BitM.signed 12).run
    let z ← (BitM.signed 12).run
    match x, y, z with
    | some x, some y, some z =>
      let quantum (v : Int32) : F := Scalar.ofInt v.toInt * 0.0625
      pure { out with velocity := some ⟨quantum x, quantum y, quantum z⟩ }
    | _, _, _ => pure out
  | .cVehicleGameStateDataNode => do
    pure { out with vehicleGameState := ← (decodeVehicleGameState build).run }
  | .cVehicleHealthDataNode => do
    pure { out with vehicleHealth := ← (decodeVehicleHealth build).run }
  | .cVehicleAppearanceDataNode => do
    pure { out with vehicleAppearance := ← (decodeVehicleAppearance build).run }
  | .cVehicleDamageStatusDataNode => do
    pure { out with vehicleDamage := ← decodeVehicleDamage.run }
  | .cPedGameStateDataNode => do
    pure { out with pedGameState := ← (decodePedGameState build).run }
  | .cPedMovementGroupDataNode => do
    pure { out with pedMovement := ← decodePedMovement.run }
  | .cPedAIDataNode => do
    pure { out with relationshipGroup := ← (bits 32).run }
  | .cPedTaskTreeDataNode => do
    pure { out with pedTasks := ← (decodePedTasks build).run }
  | .cPedScriptGameStateDataNode => do
    pure { out with populationType := (← (bits 4).run).map UInt32.toUInt8 }
  | .cPhysicalGameStateDataNode => do
    pure { out with isVisible := some (← MessageBuffer.readBit) }
  | .cEntityScriptInfoDataNode => do
    if ← MessageBuffer.readBit then
      pure { out with scriptHash := ← (bits 32).run }
    else pure out
  | .cPhysicalAttachDataNode | .cPedAttachDataNode => do
    -- "not attached" is `some 0`: a merge must tell a detach from no attach node
    if ← MessageBuffer.readBit then
      pure { out with attachedTo := (← (bits 13).run).map UInt32.toUInt16 }
    else pure { out with attachedTo := some 0 }
  | _ => pure out

/-! ### The walk -/

/-- What one traversal keeps fixed. -/
structure WalkContext where
  tree : List FlatNode
  syncType : UInt32
  objType : UInt32
  build : GameBuild

/-- What it changes: the position in the tree, in the stream, and the record so far. -/
structure WalkState (F : Type) where
  cursor : Nat
  buf : MessageBuffer
  out : SyncNodeData F

/-- Whether a node is read.  The presence bit is consumed only when both gates pass. -/
def shouldRead (ids : UInt8 × UInt8 × UInt8) (syncType objType : UInt32) :
    StateM MessageBuffer Bool :=
  if ids.1.toUInt32 &&& syncType = 0 then pure false
  else if ids.2.2.toUInt32 ≠ 0 ∧ objType &&& ids.2.2.toUInt32 = 0 then pure false
  else if ids.2.1.toUInt32 &&& syncType ≠ 0 then MessageBuffer.readBit
  else pure true

/-- The position past every descendant of a node at `depth`. -/
def skipSubtree (tree : List FlatNode) (cursor : Nat) (depth : UInt8) : Nat :=
  cursor + ((tree.drop cursor).takeWhile fun child => decide (child.depth > depth)).length

/-- A leaf that is read: its frame, its decoder, and the resynchronisation. -/
def walkLeaf (ctx : WalkContext) (name : NodeName) (st : WalkState F) : Bool × WalkState F :=
  match st.buf.readBitsSingle nodeLengthBits with
  | (none, buf) => (false, { st with buf })
  | (some length, buf) =>
    let length := length.toNat
    let stop := buf.curBit + length
    if stop > buf.data.length * 8 then (false, { st with buf })
    else
      let out :=
        if decodes name then
          match (buf.readBits ((length + 7) / 8) length).1 with
          | none => st.out
          | some body =>
            (decodeLeaf name ctx.build st.out (MessageBuffer.fromBits body length)).1
        else st.out
      (true, { st with buf := buf.setCurrentBit stop, out })

mutual

/-- One node and, for a read parent, its subtree; `false` once the stream is exhausted.
The fuel only counts calls, of which a tree of `n` nodes makes at most `2 * n + 1`. -/
def walk (ctx : WalkContext) : Nat → WalkState F → Bool × WalkState F
  | 0, st => (false, st)
  | fuel + 1, st =>
    match ctx.tree[st.cursor]? with
    | none => (false, st)
    | some node =>
      let (read, buf) := shouldRead node.ids ctx.syncType ctx.objType st.buf
      let st := { st with cursor := st.cursor + 1, buf }
      match node.kind with
      | .parent =>
        if read then walkChildren ctx fuel node.depth st
        else (true, { st with cursor := skipSubtree ctx.tree st.cursor node.depth })
      | .data name _ => if read then walkLeaf ctx name st else (true, st)

/-- The children of a node at `depth`, in turn. -/
def walkChildren (ctx : WalkContext) : Nat → UInt8 → WalkState F → Bool × WalkState F
  | 0, _, st => (false, st)
  | fuel + 1, depth, st =>
    match ctx.tree[st.cursor]? with
    | none => (true, st)
    | some child =>
      if child.depth > depth then
        match walk ctx fuel st with
        | (false, st) => (false, st)
        | (true, st) => walkChildren ctx fuel depth st
      else (true, st)

end

/-- A fuel that covers every call on `tree`. -/
def walkFuel (tree : List FlatNode) : Nat := 2 * tree.length + 1

end SyncParse

open SyncParse in
/-- Decode the nodes of one clone record.  Whatever was read before a truncation is
returned. -/
def parseSyncTree (entityType : NetObjEntityType) (isCreate : Bool) (data : List UInt8)
    (lengthHack : Bool) (build : GameBuild) : SyncNodeData F :=
  let buf := (MessageBuffer.fromBytes data).withLengthHack lengthHack
  let tree := treeFor entityType
  -- a create is walked as object type 0, a sync reads it as one leading bit
  let (syncType, objType, buf) : UInt32 × UInt32 × MessageBuffer :=
    if isCreate then (1, 0, buf)
    else
      let (objType, buf) := buf.readBit
      (2, objType.toUInt32, buf)
  (walk ⟨tree, syncType, objType, build⟩ (walkFuel tree) ⟨0, buf, {}⟩).2.out

end Baston.Rage
