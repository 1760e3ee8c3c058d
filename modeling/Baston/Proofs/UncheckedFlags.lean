/-
The flags a decoder ends on.

A flag past the end is zero and nobody notices, unless a field follows that is past the end as
well.  Six decoders end on flags that they keep.  Each is cut here in front of its last one: the
reads up to the flag, as the decoder makes them, and the rest.
-/
import Baston.Proofs.LeafExtents

namespace Baston.Rage

open MessageBuffer

/-! ### Cutting a reader in two -/

section

variable {m : Type → Type} [Monad m] [LawfulMonad m] {α β γ : Type}

theorem split_bind {x : m α} {k : α → m γ} {k' : α → m β} {t : β → m γ}
    (h : ∀ a, k a = k' a >>= t) : x >>= k = (x >>= k') >>= t := by
  rw [bind_assoc]
  congr 1
  funext a
  exact h a

omit [LawfulMonad m] in
theorem split_ite {c : Prop} [Decidable c] {x y : m γ} {x' y' : m β} {t : β → m γ}
    (hx : x = x' >>= t) (hy : y = y' >>= t) :
    (if c then x else y) = (if c then x' else y') >>= t := by
  split
  · exact hx
  · exact hy

end

namespace SyncParse

open BitM

/-! ### Vehicles: the lock flag -/

/-- `CVehicleGameStateDataNode` up to its lock flag. -/
def upToLock (build : GameBuild) : BitM VehicleGameState := do
  let radioStation ← bits (if build.is2545 then 7 else 6)
  let _ ← bit
  let engineOn ← bit
  let engineStarting ← bit
  let _ ← bit
  let handbrake ← bit
  let _ ← bit
  let _ ← bit
  let stateAbsent ← bit
  let out : VehicleGameState :=
    { radioStation := radioStation.toUInt8, engineOn, engineStarting, handbrake }
  let out ←
    if stateAbsent then pure { out with defaultHeadlights := true }
    else decodeVehicleDetail build out
  if ← bit then
    let _ ← bits 32
    let _ ← bits 13
  if ← bit then
    let _ ← bits 13
    let _ ← bits 13
  if ← bit then
    let _ ← bits 13
  let lightsOn ← bit
  let highbeamsOn ← bit
  let lightState ← bits 3
  BitM.skip 6 bit
  let _ ← bits 32
  let _ ← bits 3
  let _ ← bit
  let hasBeenOwnedByPlayer ← bit
  BitM.skip 6 bit
  BitM.when build.is2699 (BitM.skip 2 bit)
  pure { out with lightsOn, highbeamsOn, lightState := lightState.toUInt8, hasBeenOwnedByPlayer }

def fromLock (out : VehicleGameState) : BitM VehicleGameState := do
  let hasLock ← bit
  let lockedPlayers ←
    if hasLock then do
      let mask ← bits 32
      pure mask.toInt32
    else pure out.lockedPlayers
  pure { out with hasLock, lockedPlayers }

theorem vehicleGameState_split (build : GameBuild) :
    decodeVehicleGameState build = upToLock build >>= fromLock := by
  unfold decodeVehicleGameState upToLock
  refine split_bind fun radioStation => split_bind fun _ => split_bind fun _ => split_bind fun _ =>
    split_bind fun _ => split_bind fun _ => split_bind fun _ => split_bind fun _ =>
    split_bind fun stateAbsent => ?_
  extract_lets -underBinder out jp jp'
  have hjp : ∀ x, jp x = jp' x >>= fromLock := by
    intro out
    refine split_bind fun _ => ?_
    extract_lets -underBinder jp jp'
    have hjp : ∀ x, jp x = jp' x >>= fromLock := by
      intro x
      refine split_bind fun _ => ?_
      extract_lets -underBinder jp jp'
      have hjp : ∀ x, jp x = jp' x >>= fromLock := by
        intro x
        refine split_bind fun _ => ?_
        extract_lets -underBinder jp jp'
        have hjp : ∀ x, jp x = jp' x >>= fromLock := by
          intro x
          refine split_bind fun _ => split_bind fun _ => split_bind fun _ => split_bind fun _ =>
            split_bind fun _ => split_bind fun _ => split_bind fun _ => split_bind fun _ =>
            split_bind fun _ => split_bind fun _ => ?_
          rw [pure_bind]
          rfl
        clear_value jp jp'
        exact split_ite (split_bind fun _ => hjp _) (hjp _)
      clear_value jp jp'
      exact split_ite (split_bind fun _ => split_bind fun _ => hjp _) (hjp _)
    clear_value jp jp'
    exact split_ite (split_bind fun _ => split_bind fun _ => hjp _) (hjp _)
  clear_value jp jp'
  exact split_ite (split_bind hjp) (split_bind hjp)

theorem steady_upToLock (build : GameBuild) : Steady (upToLock build) := by
  unfold upToLock
  refine .bind (.bits _) fun radioStation => .bind .bit fun _ => .bind .bit fun _ =>
    .bind .bit fun _ => .bind .bit fun _ => .bind .bit fun _ => .bind .bit fun _ =>
    .bind .bit fun _ => .bind .bit fun stateAbsent => ?_
  extract_lets -underBinder out jp
  have hjp : ∀ x, Steady (jp x) := by
    intro out
    refine .bind .bit fun _ => ?_
    extract_lets -underBinder jp
    have hjp : ∀ x, Steady (jp x) := by
      intro x
      refine .bind .bit fun _ => ?_
      extract_lets -underBinder jp
      have hjp : ∀ x, Steady (jp x) := by
        intro x
        refine .bind .bit fun _ => ?_
        extract_lets -underBinder jp
        have hjp : ∀ x, Steady (jp x) := fun _ =>
          .bind .bit fun _ => .bind .bit fun _ => .bind (.bits 3) fun _ =>
            .bind (.skip 6 .bit) fun _ => .bind (.bits 32) fun _ => .bind (.bits 3) fun _ =>
            .bind .bit fun _ => .bind .bit fun _ => .bind (.skip 6 .bit) fun _ =>
            .bind (.when _ (.skip 2 .bit)) fun _ => .pure _
        clear_value jp
        exact .ite (.bind (.bits 13) fun _ => hjp _) (hjp _)
      clear_value jp
      exact .ite (.bind (.bits 13) fun _ => .bind (.bits 13) fun _ => hjp _) (hjp _)
    clear_value jp
    exact .ite (.bind (.bits 32) fun _ => .bind (.bits 13) fun _ => hjp _) (hjp _)
  clear_value jp
  exact .ite (.bind (.pure _) hjp) (.bind (steady_vehicleDetail build out) hjp)

/-! ### Vehicles: the neon lights -/

/-- `CVehicleAppearanceDataNode` up to its neon flag. -/
def upToNeon : BitM VehicleAppearance := do
  let d : VehicleAppearance := {}
  let primaryColour ← readU8 8
  let secondaryColour ← readU8 8
  let pearlColour ← readU8 8
  let wheelColour ← readU8 8
  let interiorColour ← readU8 8
  let dashboardColour ← readU8 8
  let isPrimaryColourRgb ← bit
  let primaryRgb ← if isPrimaryColourRgb then readChannels 3 else pure d.primaryRgb
  let isSecondaryColourRgb ← bit
  let secondaryRgb ← if isSecondaryColourRgb then readChannels 3 else pure d.secondaryRgb
  let _ ← bits 8
  let (dirtLevel, extras, liveryIndex, roofLiveryIndex) ←
    if ← bit then do
      let dirt ← readU8 5
      let extras ← bits 16
      let livery ← readLivery
      let roof ← readLivery
      pure (dirt, extras.toUInt16, livery, roof)
    else pure (d.dirtLevel, d.extras, d.liveryIndex, d.roofLiveryIndex)
  let kitIndex ← readU8 2
  let (wheelChoice, wheelType) ←
    if kitIndex ≠ 0 then decodeModKit else pure (d.wheelChoice, d.wheelType)
  let windowTintIndex ← if ← bit then readU8 8 else pure d.windowTintIndex
  let tyreSmokeColour ← if ← bit then readChannels 3 else pure d.tyreSmokeColour
  let hasPlate ← bit
  let plate ←
    if hasPlate then BitM.forEach (fun _ => readU8 7) (List.range 8) else pure d.plate
  let numberPlateTextIndex ← bits 32
  let hornTypeHash ← bits 32
  if ← bit then skipEmblems
  pure { d with
    primaryColour, secondaryColour, pearlColour, wheelColour, interiorColour, dashboardColour,
    isPrimaryColourRgb, primaryRgb, isSecondaryColourRgb, secondaryRgb, dirtLevel, extras,
    liveryIndex, roofLiveryIndex, kitIndex, wheelChoice, wheelType, windowTintIndex,
    tyreSmokeColour, plate, numberPlateTextIndex, hornTypeHash }

def fromNeon (build : GameBuild) (out : VehicleAppearance) : BitM VehicleAppearance := do
  let hasNeonLights ← bit
  let (neonColour, neonSides) ←
    if hasNeonLights then do
      let colour ← readChannels 3
      let sides ← BitM.forEach (fun _ => bit) (List.range 4)
      BitM.when build.is2372 bit
      pure (colour, sides)
    else pure (out.neonColour, out.neonSides)
  pure { out with hasNeonLights, neonColour, neonSides }

theorem vehicleAppearance_split (build : GameBuild) :
    decodeVehicleAppearance build = upToNeon >>= fromNeon build := by
  unfold decodeVehicleAppearance upToNeon
  extract_lets -underBinder d
  refine split_bind fun _ => split_bind fun _ => split_bind fun _ => split_bind fun _ =>
    split_bind fun _ => split_bind fun _ => split_bind fun _ => ?_
  extract_lets -underBinder jp jp'
  have hjp : ∀ x, jp x = jp' x >>= fromNeon build := by
    intro primaryRgb
    refine split_bind fun _ => ?_
    extract_lets -underBinder jp jp'
    have hjp : ∀ x, jp x = jp' x >>= fromNeon build := by
      intro secondaryRgb
      refine split_bind fun _ => split_bind fun _ => ?_
      extract_lets -underBinder jp jp'
      have hjp : ∀ x, jp x = jp' x >>= fromNeon build := by
        intro x
        obtain ⟨dirtLevel, extras, liveryIndex, roofLiveryIndex⟩ := x
        refine split_bind fun _ => ?_
        extract_lets -underBinder jp jp'
        have hjp : ∀ x, jp x = jp' x >>= fromNeon build := by
          intro x
          obtain ⟨wheelChoice, wheelType⟩ := x
          refine split_bind fun _ => ?_
          extract_lets -underBinder jp jp'
          have hjp : ∀ x, jp x = jp' x >>= fromNeon build := by
            intro windowTintIndex
            refine split_bind fun _ => ?_
            extract_lets -underBinder jp jp'
            have hjp : ∀ x, jp x = jp' x >>= fromNeon build := by
              intro tyreSmokeColour
              refine split_bind fun _ => ?_
              extract_lets -underBinder jp jp'
              have hjp : ∀ x, jp x = jp' x >>= fromNeon build := by
                intro plate
                refine split_bind fun _ => split_bind fun _ => split_bind fun _ => ?_
                extract_lets -underBinder jp jp'
                have hjp : ∀ x, jp x = jp' x >>= fromNeon build := by
                  intro x
                  unfold jp'
                  rw [pure_bind]
                  rfl
                clear_value jp jp'
                exact split_ite (split_bind hjp) (hjp _)
              clear_value jp jp'
              exact split_ite (split_bind hjp) (split_bind hjp)
            clear_value jp jp'
            exact split_ite (split_bind hjp) (split_bind hjp)
          clear_value jp jp'
          exact split_ite (split_bind hjp) (split_bind hjp)
        clear_value jp jp'
        exact split_ite (split_bind hjp) (split_bind hjp)
      clear_value jp jp'
      exact split_ite (split_bind fun _ => split_bind fun _ => split_bind fun _ =>
        split_bind fun _ => split_bind hjp) (split_bind hjp)
    clear_value jp jp'
    exact split_ite (split_bind hjp) (split_bind hjp)
  clear_value jp jp'
  exact split_ite (split_bind hjp) (split_bind hjp)

theorem steady_upToNeon : Steady upToNeon := by
  unfold upToNeon
  extract_lets -underBinder d
  refine .bind (steady_u8 8) fun _ => .bind (steady_u8 8) fun _ => .bind (steady_u8 8) fun _ =>
    .bind (steady_u8 8) fun _ => .bind (steady_u8 8) fun _ => .bind (steady_u8 8) fun _ =>
    .bind .bit fun _ => ?_
  extract_lets -underBinder jp
  have hjp : ∀ x, Steady (jp x) := by
    intro primaryRgb
    refine .bind .bit fun _ => ?_
    extract_lets -underBinder jp
    have hjp : ∀ x, Steady (jp x) := by
      intro secondaryRgb
      refine .bind (.bits 8) fun _ => .bind .bit fun _ => ?_
      extract_lets -underBinder jp
      have hjp : ∀ x, Steady (jp x) := by
        intro x
        obtain ⟨dirtLevel, extras, liveryIndex, roofLiveryIndex⟩ := x
        refine .bind (steady_u8 2) fun _ => ?_
        extract_lets -underBinder jp
        have hjp : ∀ x, Steady (jp x) := by
          intro x
          obtain ⟨wheelChoice, wheelType⟩ := x
          refine .bind .bit fun _ => ?_
          extract_lets -underBinder jp
          have hjp : ∀ x, Steady (jp x) := by
            intro windowTintIndex
            refine .bind .bit fun _ => ?_
            extract_lets -underBinder jp
            have hjp : ∀ x, Steady (jp x) := by
              intro tyreSmokeColour
              refine .bind .bit fun _ => ?_
              extract_lets -underBinder jp
              have hjp : ∀ x, Steady (jp x) := by
                intro plate
                refine .bind (.bits 32) fun _ => .bind (.bits 32) fun _ => .bind .bit fun _ => ?_
                exact .ite (.bind steady_emblems fun _ => .pure _) (.pure _)
              clear_value jp
              exact .ite (.bind (.forEach (fun _ => steady_u8 7) _) hjp) (.bind (.pure _) hjp)
            clear_value jp
            exact .ite (.bind (steady_channels 3) hjp) (.bind (.pure _) hjp)
          clear_value jp
          exact .ite (.bind (steady_u8 8) hjp) (.bind (.pure _) hjp)
        clear_value jp
        exact .ite (.bind steady_modKit hjp) (.bind (.pure _) hjp)
      clear_value jp
      exact .ite (.bind (steady_u8 5) fun _ => .bind (.bits 16) fun _ => .bind steady_livery fun _ =>
        .bind steady_livery fun _ => .bind (.pure _) hjp) (.bind (.pure _) hjp)
    clear_value jp
    exact .ite (.bind (steady_channels 3) hjp) (.bind (.pure _) hjp)
  clear_value jp
  exact .ite (.bind (steady_channels 3) hjp) (.bind (.pure _) hjp)

/-- With neon lights on, up to the flag of the last side. -/
def upToNeonSide : BitM (VehicleAppearance × List UInt8 × List Bool) := do
  let out ← upToNeon
  if ← bit then
    let colour ← readChannels 3
    let sides ← BitM.forEach (fun _ => bit) (List.range 3)
    pure (out, colour, sides)
  else failure

theorem steady_upToNeonSide : Steady upToNeonSide :=
  .bind steady_upToNeon fun _ => .bind .bit fun _ => .ite (.bind (steady_channels 3) fun _ =>
    .bind (.forEach (fun _ => .bit) _) fun _ => .pure _) .fail

/-! ### Vehicles: the windows -/

/-- `CVehicleDamageStatusDataNode` up to the flag for any window. -/
def upToWindows : BitM Bool := do
  if ← bit then BitM.skip 6 (bits 2)
  let damagedByBullets ← bit
  BitM.when damagedByBullets (BitM.skip 6 (bits 8))
  if ← bit then BitM.skip 2 (bits 2)
  if ← bit then BitM.skip 22 bit
  pure damagedByBullets

def fromWindows (damagedByBullets : Bool) : BitM VehicleDamage := do
  let anyWindowBroken ← bit
  let windowsBroken ← BitM.forEach
    (fun _ => if anyWindowBroken then bit else pure false) (List.range 8)
  pure ⟨damagedByBullets, anyWindowBroken, windowsBroken⟩

theorem vehicleDamage_split : decodeVehicleDamage = upToWindows >>= fromWindows := by
  unfold decodeVehicleDamage upToWindows
  refine split_bind fun _ => ?_
  extract_lets -underBinder jp jp'
  have hjp : ∀ x, jp x = jp' x >>= fromWindows := by
    intro x
    refine split_bind fun damaged => split_bind fun _ => split_bind fun _ => ?_
    extract_lets -underBinder jp jp'
    have hjp : ∀ x, jp x = jp' x >>= fromWindows := by
      intro x
      refine split_bind fun _ => ?_
      extract_lets -underBinder jp jp'
      have hjp : ∀ x, jp x = jp' x >>= fromWindows := by
        intro x
        unfold jp'
        rw [pure_bind]
        rfl
      clear_value jp jp'
      exact split_ite (split_bind hjp) (hjp _)
    clear_value jp jp'
    exact split_ite (split_bind hjp) (hjp _)
  clear_value jp jp'
  exact split_ite (split_bind hjp) (hjp _)

theorem steady_upToWindows : Steady upToWindows := by
  unfold upToWindows
  refine .bind .bit fun _ => ?_
  extract_lets -underBinder jp
  have hjp : ∀ x, Steady (jp x) := by
    intro x
    refine .bind .bit fun _ => .bind (.when _ (.skip 6 (.bits 8))) fun _ => .bind .bit fun _ => ?_
    extract_lets -underBinder jp
    have hjp : ∀ x, Steady (jp x) := fun _ =>
      .bind .bit fun _ => .ite (.bind (.skip 22 .bit) fun _ => .pure _) (.pure _)
    clear_value jp
    exact .ite (.bind (.skip 2 (.bits 2)) hjp) (hjp _)
  clear_value jp
  exact .ite (.bind (.skip 6 (.bits 2)) hjp) (hjp _)

/-- With a window broken, up to the flag of the last window. -/
def upToWindow : BitM (Bool × List Bool) := do
  let damagedByBullets ← upToWindows
  if ← bit then
    let windows ← BitM.forEach (fun _ => bit) (List.range 7)
    pure (damagedByBullets, windows)
  else failure

theorem steady_upToWindow : Steady upToWindow :=
  .bind steady_upToWindows fun _ => .bind .bit fun _ =>
    .ite (.bind (.forEach (fun _ => .bit) _) fun _ => .pure _) .fail

/-! ### Peds -/

/-- `CPedGameStateDataNode` up to the stealth flag. -/
def upToStealth (build : GameBuild) : BitM PedGameState := do
  BitM.skip 6 bit
  if build.is2060 then
    BitM.skip 2 bit
    BitM.when build.is2189 bit
    BitM.when build.is2372 bit
    BitM.when build.is3407 (BitM.skip 2 bit)
  let arrestState ← bits 1
  let deathState ← bits 2
  let curWeapon ←
    if ← bit then do
      let weapon ← bits 32
      BitM.when build.is3258 (bits 3)
      pure weapon
    else pure 0
  BitM.when build.is2060 bit
  BitM.skip 5 bit
  if ← bit then
    let _ ← bits 5
  let weaponComponents ← bits 4
  BitM.skip weaponComponents.toNat do
    let _ ← bits 32
    if build.is2372 then
      if ← bit then
        let _ ← bits 5
  let gadgets ← bits 2
  BitM.skip gadgets.toNat (bits 32)
  let (curVehicle, curVehicleSeat) ← decodeOccupancy
  if ← bit then
    let _ ← bit
  let isHandcuffed ←
    if ← bit then do
      let _ ← bits 13
      let cuffed ← bit
      BitM.skip 4 bit
      pure cuffed
    else pure false
  let isFlashlightOn ← bit
  let actionModeEnabled ← bit
  pure { curWeapon, curVehicle, curVehicleSeat, isHandcuffed, isFlashlightOn, actionModeEnabled,
         arrestState := arrestState.toUInt8, deathState := deathState.toUInt8 }

def fromStealth (out : PedGameState) : BitM PedGameState := do
  let stealthModeEnabled ← bit
  pure { out with stealthModeEnabled }

theorem pedGameState_split (build : GameBuild) :
    decodePedGameState build = upToStealth build >>= fromStealth := by
  unfold decodePedGameState upToStealth
  refine split_bind fun _ => ?_
  extract_lets -underBinder jp jp'
  have hjp : ∀ x, jp x = jp' x >>= fromStealth := by
    intro x
    refine split_bind fun arrestState => split_bind fun deathState => split_bind fun _ => ?_
    extract_lets -underBinder jp jp'
    have hjp : ∀ x, jp x = jp' x >>= fromStealth := by
      intro curWeapon
      refine split_bind fun _ => split_bind fun _ => split_bind fun _ => ?_
      extract_lets -underBinder jp jp'
      have hjp : ∀ x, jp x = jp' x >>= fromStealth := by
        intro x
        refine split_bind fun _ => split_bind fun _ => split_bind fun _ => split_bind fun _ =>
          split_bind fun occupied => ?_
        obtain ⟨curVehicle, curVehicleSeat⟩ := occupied
        refine split_bind fun _ => ?_
        extract_lets -underBinder jp jp'
        have hjp : ∀ x, jp x = jp' x >>= fromStealth := by
          intro x
          refine split_bind fun _ => ?_
          extract_lets -underBinder jp jp'
          have hjp : ∀ x, jp x = jp' x >>= fromStealth := by
            intro isHandcuffed
            refine split_bind fun _ => split_bind fun _ => ?_
            rw [pure_bind]
            rfl
          clear_value jp jp'
          exact split_ite (split_bind fun _ => split_bind fun _ => split_bind fun _ =>
            split_bind hjp) (split_bind hjp)
        clear_value jp jp'
        exact split_ite (split_bind fun _ => hjp _) (hjp _)
      clear_value jp jp'
      exact split_ite (split_bind fun _ => hjp _) (hjp _)
    clear_value jp jp'
    exact split_ite (split_bind fun _ => split_bind fun _ => split_bind hjp) (split_bind hjp)
  clear_value jp jp'
  exact split_ite (split_bind fun _ => split_bind fun _ => split_bind fun _ => split_bind hjp)
    (hjp _)

theorem steady_upToStealth (build : GameBuild) : Steady (upToStealth build) := by
  unfold upToStealth
  refine .bind (.skip 6 .bit) fun _ => ?_
  extract_lets -underBinder jp
  have hjp : ∀ x, Steady (jp x) := by
    intro x
    refine .bind (.bits 1) fun _ => .bind (.bits 2) fun _ => .bind .bit fun _ => ?_
    extract_lets -underBinder jp
    have hjp : ∀ x, Steady (jp x) := by
      intro curWeapon
      refine .bind (.when _ .bit) fun _ => .bind (.skip 5 .bit) fun _ => .bind .bit fun _ => ?_
      extract_lets -underBinder jp
      have hjp : ∀ x, Steady (jp x) := by
        intro x
        refine .bind (.bits 4) fun _ => .bind (.skip _ ?_) fun _ => .bind (.bits 2) fun _ =>
          .bind (.skip _ (.bits 32)) fun _ => .bind steady_occupancy fun occupied => ?_
        · exact .bind (.bits 32) fun _ => .ite (.bind .bit fun _ =>
            .ite (.bind (.bits 5) fun _ => .pure _) (.pure _)) (.pure _)
        · obtain ⟨curVehicle, curVehicleSeat⟩ := occupied
          refine .bind .bit fun _ => ?_
          extract_lets -underBinder jp
          have hjp : ∀ x, Steady (jp x) := by
            intro x
            refine .bind .bit fun _ => ?_
            extract_lets -underBinder jp
            have hjp : ∀ x, Steady (jp x) := fun _ =>
              .bind .bit fun _ => .bind .bit fun _ => .pure _
            clear_value jp
            exact .ite (.bind (.bits 13) fun _ => .bind .bit fun _ => .bind (.skip 4 .bit) fun _ =>
              .bind (.pure _) hjp) (.bind (.pure _) hjp)
          clear_value jp
          exact .ite (.bind .bit fun _ => hjp _) (hjp _)
      clear_value jp
      exact .ite (.bind (.bits 5) fun _ => hjp _) (hjp _)
    clear_value jp
    exact .ite (.bind (.bits 32) fun _ => .bind (.when _ (.bits 3)) fun _ => .bind (.pure _) hjp)
      (.bind (.pure _) hjp)
  clear_value jp
  exact .ite (.bind (.skip 2 .bit) fun _ => .bind (.when _ .bit) fun _ => .bind (.when _ .bit)
    fun _ => .bind (.when _ (.skip 2 .bit)) hjp) (hjp _)

/-- `CPedMovementGroupDataNode`, an action mode other than the default, up to its last flag. -/
def actionMode : BitM PedMovement := do
  let _ ← bits 3
  let _ ← bits 5
  let _ ← bits 32
  let _ ← bit
  let isStealthy ← bit
  let isStrafing ← bit
  pure { isStealthy, isStrafing }

/-- With such a mode, up to the ragdolling flag. -/
def upToRagdolling : BitM PedMovement := do
  let _ ← bits 32
  if ← bit then failure
  else actionMode

def fromRagdolling (out : PedMovement) : BitM PedMovement := do
  let isRagdolling ← bit
  pure { out with isRagdolling }

theorem pedMovement_split :
    decodePedMovement = bits 32 >>= fun _ => bit >>= fun default =>
      if default then pure {} else actionMode >>= fromRagdolling := by
  unfold decodePedMovement actionMode
  simp only [bind_assoc, pure_bind]
  rfl

theorem steady_actionMode : Steady actionMode :=
  .bind (.bits 3) fun _ => .bind (.bits 5) fun _ => .bind (.bits 32) fun _ => .bind .bit fun _ =>
    .bind .bit fun _ => .bind .bit fun _ => .pure _

theorem steady_upToRagdolling : Steady upToRagdolling :=
  .bind (.bits 32) fun _ => .bind .bit fun _ => .ite .fail steady_actionMode

/-- `CPedHealthDataNode`, who did the damage, up to whether anybody did. -/
def damageIds (build : GameBuild) : BitM Unit := do
  if build.is2060 then
    let hasFirst ← bit
    let hasSecond ← bit
    BitM.when hasSecond (bits 13)
    BitM.when (!hasFirst) (bits 13)

def fromDamageFlag : BitM UInt16 := do
  if ← bit then
    let source ← bits 13
    pure source.toUInt16
  else pure 0

theorem pedDamageSource_split (build : GameBuild) :
    decodePedDamageSource build = damageIds build >>= fun _ => fromDamageFlag := by
  unfold decodePedDamageSource damageIds
  by_cases hbuild : build.is2060 = true
  · simp only [if_pos hbuild, bind_assoc]
    rfl
  · simp only [hbuild, Bool.false_eq_true, if_false, pure_bind]
    rfl

theorem steady_damageIds (build : GameBuild) : Steady (damageIds build) :=
  .ite (.bind .bit fun _ => .bind .bit fun _ => .bind (.when _ (.bits 13)) fun _ =>
    .when _ (.bits 13)) (.pure _)

end SyncParse

end Baston.Rage
