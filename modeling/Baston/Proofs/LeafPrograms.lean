/-
The leaf decoders written out.

Each decoder as a program, with a bound on what it reads.  The bounds are generous: all that
matters is that a body is shorter than its length field can say.
-/
import Baston.Proofs.Programs
import Baston.Rage.SyncParse

namespace Baston.Rage

namespace SyncParse

open Program

variable {F : Type} [Scalar F]

/-! ### Shared parts -/

def sectorOffsetProgram (width : Nat) (hwidth : ¬ (width = 0 ∨ width > 32)) :
    Program (readSectorOffset (F := F) width).run 96 := by
  have hwide : widest width ≤ 32 := widest_fits hwidth
  unfold readSectorOffset
  exact .obind (.float width _ hwidth) (by omega) fun x =>
    .obind (.float width _ hwidth) (by omega) fun y =>
    .obind (.float width _ hwidth) (by omega) fun z => .opure _

def quaternionProgram : Program (readQuaternionHeading (F := F)).run 64 :=
  .obind (.bits 2 (by decide)) (by decide) fun largest =>
    .obind (.bits _ (by decide)) (by decide) fun a =>
    .obind (.bits _ (by decide)) (by decide) fun b =>
    .obind (.bits _ (by decide)) (by decide) fun c => .opure _

def u8Program (width : Nat) (hwidth : width ≤ 8) : Program (readU8 width).run 8 := by
  have hwide : widest width ≤ 8 := by
    unfold widest
    split <;> omega
  exact .obind (.bits width (by omega)) hwide fun v => .opure _

def channelsProgram (n : Nat) : Program (readChannels n).run (n * 8) :=
  (forEach (fun _ => u8Program 8 (by decide)) (List.range n)).weaken (by rw [List.length_range])

/-! ### Peds -/

def pedHealthHeadProgram (build : GameBuild) : Program (decodePedHealthHead build) 100 := by
  unfold decodePedHealthHead
  extract_lets -underBinder healthBits
  have hbits : healthBits ≤ 32 ∧ widest healthBits ≤ 16 := by
    unfold healthBits
    split <;> decide
  refine .bind .readBit (by decide) fun isFine => .bind .readBit (by decide) fun changed => ?_
  extract_lets -underBinder jp
  have hjp : ∀ x, Program (jp x) 60 := by
    intro maxHealth
    unfold jp
    extract_lets -underBinder jp'
    have hjp' : ∀ x, Program (jp' x) 20 := fun health =>
      .bind .readBit (by decide) fun noArmour =>
        .ite (.sret (.pure _)) (.bind .ident (by decide) fun armour => .pure _)
    refine .ite (.sret ((hjp' _).weaken (by decide))) ?_
    refine .bind ((Program.bits _ hbits.1).weaken hbits.2) (by decide) fun value => ?_
    exact .bind .readBit (by decide) fun _ => .bind .readBit (by decide) fun _ =>
      .sret ((hjp' _).weaken (by decide))
  refine .ite ?_ (.sret ((hjp _).weaken (by decide)))
  exact .bind ((Program.bits _ hbits.1).weaken hbits.2) (by decide) fun maxHealth =>
    (hjp _).weaken (by decide)

def pedDamageSourceProgram (build : GameBuild) : Program (decodePedDamageSource build).run 60 := by
  unfold decodePedDamageSource
  extract_lets -underBinder jp
  have hjp : ∀ x, Program (jp x).run 20 := fun _ =>
    .obind .bit (by decide) fun some =>
      .oite (.obind .ident (by decide) fun source => .opure _) (.opure _)
  refine .oite ?_ ((hjp ()).weaken (by decide))
  exact .obind .bit (by decide) fun hasFirst => .obind .bit (by decide) fun hasSecond =>
    .obind (.when _ .ident) (by decide) fun _ =>
    .obind (.when _ .ident) (by decide) fun u => (hjp u).weaken (by decide)

def pedMovementProgram : Program decodePedMovement.run 100 :=
  .obind .word (by decide) fun _ => .obind .bit (by decide) fun _ =>
    .oite (.opure _) (.obind (.bits 3 (by decide)) (by decide) fun _ =>
      .obind (.bits 5 (by decide)) (by decide) fun _ =>
      .obind .word (by decide) fun _ => .obind .bit (by decide) fun _ =>
      .obind .bit (by decide) fun _ => .obind .bit (by decide) fun _ =>
      .obind .bit (by decide) fun _ => .opure _)

def pedTasksProgram (build : GameBuild) : Program (decodePedTasks build).run 300 := by
  unfold decodePedTasks
  extract_lets -underBinder idle
  refine .obind .bit (by decide) fun script => ?_
  extract_lets -underBinder jp
  have hjp : ∀ x, Program (jp x).run 250 := by
    intro x
    obtain ⟨scriptCommand, scriptTaskStage⟩ := x
    refine .obind (.bits 8 (by decide)) (by decide) fun occupied => ?_
    refine .obind (.forEach (N := 22) (fun slot => .oite (.opure _) ?_) _) (by decide) fun _ => .opure _
    exact .obind (.bits 10 (by decide)) (by decide) fun task => .obind .bit (by decide) fun _ =>
      .obind (.bits 3 (by decide)) (by decide) fun _ =>
      .obind (.bits 3 (by decide)) (by decide) fun _ =>
      .obind (.bits 5 (by decide)) (by decide) fun _ => .opure _
  clear_value jp
  refine .oite ?_ ?_
  · refine .obind .word (by decide) fun command => ?_
    exact .obind (.bits 3 (by decide)) (by decide) fun stage => .ret ((hjp _).weaken (by decide))
  · exact .ret ((hjp _).weaken (by decide))

def occupancyProgram : Program decodeOccupancy.run 30 :=
  .obind .bit (by decide) fun _ =>
    .oite (.obind .ident (by decide) fun vehicle => .obind .bit (by decide) fun _ =>
      .oite (.obind (.bits 5 (by decide)) (by decide) fun seat => .opure _) (.opure _)) (.opure _)

def pedGameStateProgram (build : GameBuild) : Program (decodePedGameState build).run 1000 := by
  unfold decodePedGameState
  refine .obind (.skip 6 .bit) (by decide) fun _ => ?_
  extract_lets -underBinder jp
  have hjp : ∀ x, Program (jp x).run 900 := by
    intro x
    refine .obind .flag (by decide) fun arrestState => ?_
    refine .obind (.bits 2 (by decide)) (by decide) fun deathState => ?_
    refine .obind .bit (by decide) fun armed => ?_
    extract_lets -underBinder jp
    have hjp : ∀ x, Program (jp x).run 800 := by
      intro curWeapon
      refine .obind (.when _ .bit) (by decide) fun _ => .obind (.skip 5 .bit) (by decide) fun _ => ?_
      refine .obind .bit (by decide) fun _ => ?_
      extract_lets -underBinder jp
      have hjp : ∀ x, Program (jp x).run 780 := by
        intro x
        refine .bitsBind 4 (by decide) (by decide) fun weaponComponents hcomponents => ?_
        have hfew : weaponComponents.toNat * 38 ≤ 15 * 38 := by
          have : widest 4 = 4 := rfl
          rw [this] at hcomponents
          omega
        refine .obind (M := 15 * 38) (.weaken (.skip _ (N := 38) ?_) hfew) (by decide) fun _ => ?_
        · refine .obind .word (by decide) fun _ => .oite ?_ (.opure _)
          exact .obind .bit (by decide) fun _ =>
            .oite (.obind (.bits 5 (by decide)) (by decide) fun _ => .opure _) (.opure _)
        · refine .bitsBind 2 (by decide) (by decide) fun gadgets hgadgets => ?_
          have hfew : gadgets.toNat * 32 ≤ 3 * 32 := by
            have : widest 2 = 2 := rfl
            rw [this] at hgadgets
            omega
          refine .obind (M := 3 * 32) (.weaken (.skip _ .word) hfew) (by decide)
            fun _ => .obind occupancyProgram (by decide) fun occupied => ?_
          obtain ⟨curVehicle, curVehicleSeat⟩ := occupied
          refine .obind .bit (by decide) fun _ => ?_
          extract_lets -underBinder jp
          have hjp : ∀ x, Program (jp x).run 50 := by
            intro x
            refine .obind .bit (by decide) fun _ => ?_
            extract_lets -underBinder jp
            have hjp : ∀ x, Program (jp x).run 3 := fun isHandcuffed =>
              .obind .bit (by decide) fun _ => .obind .bit (by decide) fun _ =>
                .obind .bit (by decide) fun _ => .opure _
            refine .oite ?_ (.ret ((hjp _).weaken (by decide)))
            exact .obind .ident (by decide) fun _ =>
              .obind .bit (by decide) fun cuffed => .obind (.skip 4 .bit) (by decide) fun _ =>
              .ret ((hjp _).weaken (by decide))
          exact .oite (.obind .bit (by decide) fun _ => (hjp ()).weaken (by decide))
            ((hjp ()).weaken (by decide))
      exact .oite (.obind (.bits 5 (by decide)) (by decide) fun _ => (hjp ()).weaken (by decide))
        ((hjp ()).weaken (by decide))
    refine .oite ?_ (.ret ((hjp _).weaken (by decide)))
    exact .obind .word (by decide) fun weapon =>
      .obind (.when _ (.bits 3 (by decide))) (by decide) fun _ => .ret ((hjp _).weaken (by decide))
  refine .oite ?_ ((hjp ()).weaken (by decide))
  exact .obind (.skip 2 .bit) (by decide) fun _ => .obind (.when _ .bit) (by decide) fun _ =>
    .obind (.when _ .bit) (by decide) fun _ => .obind (.when _ (.skip 2 .bit)) (by decide) fun u =>
    (hjp u).weaken (by decide)

def pedHealthProgram (build : GameBuild) (out : SyncNodeData F) :
    Program (decodePedHealth build out) 250 := by
  unfold decodePedHealth
  refine .bind (pedHealthHeadProgram build) (by decide) fun head => ?_
  obtain ⟨health, maxHealth, armour⟩ := head
  refine .bind (pedDamageSourceProgram build) (by decide) fun source => ?_
  rcases source with _ | source
  · exact .pure _
  · refine .bind .word (by decide) fun cause => ?_
    rcases cause with _ | cause
    · exact .pure _
    · exact .pure _

/-! ### Vehicles -/

def vehicleDetailProgram (build : GameBuild) (out : VehicleGameState) :
    Program (decodeVehicleDetail build out).run 200 := by
  unfold decodeVehicleDetail
  refine .obind .bit (by decide) fun defaultHeadlights => ?_
  extract_lets -underBinder jp
  have hjp : ∀ x, Program (jp x).run 180 := by
    intro headlightsColour
    refine .obind .bit (by decide) fun sirenOn => ?_
    refine .obind (.when _ .bit) (by decide) fun _ => .obind .bit (by decide) fun _ => ?_
    extract_lets -underBinder jp
    have hjp : ∀ x, Program (jp x).run 170 := by
      intro x
      refine .obind .bit (by decide) fun _ => ?_
      extract_lets -underBinder out
      refine .obind .bit (by decide) fun _ => ?_
      extract_lets -underBinder jp
      have hjp : ∀ x, Program (jp x).run 60 := by
        intro out
        refine .obind .bit (by decide) fun _ => ?_
        extract_lets -underBinder jp
        have hjp : ∀ x, Program (jp x).run 40 := by
          intro x
          refine .obind .bit (by decide) fun _ => .obind .bit (by decide) fun _ =>
            .obind .bit (by decide) fun isStationary => .obind .bit (by decide) fun _ =>
            .obind .bit (by decide) fun _ => .obind .bit (by decide) fun _ =>
            .obind .bit (by decide) fun _ => ?_
          extract_lets -underBinder jp
          exact .oite (.obind (.bits 10 (by decide)) (by decide) fun _ => .opure _) (.opure _)
        exact .oite (.obind (.bits 6 (by decide)) (by decide) fun _ => (hjp ()).weaken (by decide))
          ((hjp ()).weaken (by decide))
      clear_value jp
      refine .oite ?_ (.ret ((hjp _).weaken (by decide)))
      refine .obind (.bits 5 (by decide)) (by decide) fun lockStatus => ?_
      refine .obind (.bits 7 (by decide)) (by decide) fun _ => ?_
      refine .obind (.bits 7 (by decide)) (by decide) fun _ => ?_
      refine .obind (.bits 7 (by decide)) (by decide) fun doorsOpen => ?_
      refine .obind (.forEach (N := 4) (fun door => .oite (.opure _) ?_) _) (by decide) fun _ => ?_
      · exact .obind (.bits 4 (by decide)) (by decide) fun position => .opure _
      · refine .obind (.bits 8 (by decide)) (by decide) fun extraMask => ?_
        exact .obind (.forEach (N := 5) (fun slot => .when _ (.bits 5 (by decide))) _) (by decide)
          fun _ => .ret ((hjp _).weaken (by decide))
    exact .oite (.obind .bit (by decide) fun _ => (hjp ()).weaken (by decide))
      ((hjp ()).weaken (by decide))
  refine .oite (.ret ((hjp _).weaken (by decide))) ?_
  exact .obind (.bits 8 (by decide)) (by decide) fun colour => .ret ((hjp _).weaken (by decide))

def vehicleGameStateProgram (build : GameBuild) :
    Program (decodeVehicleGameState build).run 600 := by
  unfold decodeVehicleGameState
  have hradio : (if build.is2545 = true then 7 else 6) ≤ 32
      ∧ widest (if build.is2545 = true then 7 else 6) ≤ 7 := by
    split <;> decide
  refine .obind ((Program.bits _ hradio.1).weaken hradio.2) (by decide) fun radioStation => ?_
  refine .obind .bit (by decide) fun _ => .obind .bit (by decide) fun engineOn =>
    .obind .bit (by decide) fun engineStarting => .obind .bit (by decide) fun _ =>
    .obind .bit (by decide) fun handbrake => .obind .bit (by decide) fun _ =>
    .obind .bit (by decide) fun _ => .obind .bit (by decide) fun stateAbsent => ?_
  extract_lets -underBinder out jp
  have hjp : ∀ x, Program (jp x).run 300 := by
    intro out
    refine .obind .bit (by decide) fun _ => ?_
    extract_lets -underBinder jp
    have hjp : ∀ x, Program (jp x).run 200 := by
      intro x
      refine .obind .bit (by decide) fun _ => ?_
      extract_lets -underBinder jp
      have hjp : ∀ x, Program (jp x).run 150 := by
        intro x
        refine .obind .bit (by decide) fun _ => ?_
        extract_lets -underBinder jp
        have hjp : ∀ x, Program (jp x).run 120 := by
          intro x
          refine .obind .bit (by decide) fun lightsOn => .obind .bit (by decide) fun highbeamsOn => ?_
          refine .obind (.bits 3 (by decide)) (by decide) fun lightState => ?_
          refine .obind (.skip 6 .bit) (by decide) fun _ => ?_
          refine .obind .word (by decide) fun _ => ?_
          refine .obind (.bits 3 (by decide)) (by decide) fun _ => ?_
          refine .obind .bit (by decide) fun _ => .obind .bit (by decide) fun hasBeenOwned => ?_
          refine .obind (.skip 6 .bit) (by decide) fun _ => ?_
          refine .obind (.when _ (.skip 2 .bit)) (by decide) fun _ => ?_
          refine .obind .bit (by decide) fun hasLock => ?_
          extract_lets -underBinder jp
          refine .oite ?_ (.ret (.opure _))
          exact .obind .word (by decide) fun mask => .ret (.opure _)
        exact .oite (.obind .ident (by decide) fun _ => (hjp ()).weaken (by decide))
          ((hjp ()).weaken (by decide))
      refine .oite ?_ ((hjp ()).weaken (by decide))
      exact .obind .ident (by decide) fun _ =>
        .obind .ident (by decide) fun _ => (hjp ()).weaken (by decide)
    refine .oite ?_ ((hjp ()).weaken (by decide))
    exact .obind .word (by decide) fun _ =>
      .obind .ident (by decide) fun _ => (hjp ()).weaken (by decide)
  refine .oite (.ret ((hjp _).weaken (by decide))) ?_
  exact .obind (vehicleDetailProgram build _) (by decide) fun out => (hjp _).weaken (by decide)

def tyresProgram (build : GameBuild) (tyresFine wheelExtraFine : Bool) :
    Program (decodeTyres build tyresFine wheelExtraFine).run 400 := by
  unfold decodeTyres
  extract_lets -underBinder intact
  refine .oite (.opure _) (.bitsBind 4 (by decide) (by decide) fun totalWheels hwheels => ?_)
  have hfew : totalWheels.toNat ≤ 15 := by
    have hfour : widest 4 = 4 := rfl
    rw [hfour] at hwheels
    omega
  extract_lets -underBinder jp
  have hjp : ∀ x, Program (jp x).run 180 := by
    intro status
    refine .oite (.obind (M := 15 * 11) (.weaken (.skip _ (N := 11) ?_) (by omega)) (by decide)
      fun _ => .opure _) (.opure _)
    exact .obind .bit (by decide) fun _ =>
      .oite (.obind (.bits 10 (by decide)) (by decide) fun _ => .opure _) (.opure _)
  clear_value jp
  refine .oite (.ret ((hjp _).weaken (by decide))) ?_
  refine .obind (M := 15 * 13) (.weaken (.forEach (N := 13) (fun _ => ?_) _) ?_) (by decide)
    fun wheels => .ret ((hjp _).weaken (by decide))
  · have hrest : Program (do
        let burst ← BitM.bit
        let onRim ← BitM.bit
        let _ ← BitM.bit
        let _ ← BitM.bit
        Pure.pure (if onRim then 2 else if burst then 1 else 0) : BitM UInt8).run 4 :=
      .obind .bit (by decide) fun burst => .obind .bit (by decide) fun onRim =>
        .obind .bit (by decide) fun _ => .obind .bit (by decide) fun _ => .opure _
    refine .oite (.obind .bit (by decide) fun _ => ?_) (hrest.weaken (by decide))
    refine .oite ?_ (hrest.weaken (by decide))
    exact .obind (.bits 8 (by decide)) (by decide) fun _ => hrest.weaken (by decide)
  · rw [List.length_range]
    omega

def vehicleHealthProgram (build : GameBuild) : Program (decodeVehicleHealth build).run 700 := by
  unfold decodeVehicleHealth
  extract_lets -underBinder d
  refine .obind .bit (by decide) fun _ => .obind .bit (by decide) fun _ =>
    .obind .bit (by decide) fun engineDamaged => .obind .bit (by decide) fun petrolTankDamaged => ?_
  extract_lets -underBinder jp
  have hjp : ∀ x, Program (jp x).run 650 := by
    intro engineHealth
    unfold jp
    extract_lets -underBinder jp
    have hjp : ∀ x, Program (jp x).run 600 := by
      intro petrolTankHealth
      refine .obind .bit (by decide) fun tyresFine => .obind .bit (by decide) fun wheelFine => ?_
      refine .obind (tyresProgram build tyresFine wheelFine) (by decide) fun tyreStatus => ?_
      refine .obind .bit (by decide) fun _ => ?_
      extract_lets -underBinder jp
      have hjp : ∀ x, Program (jp x).run 150 := by
        intro health
        refine .obind .bit (by decide) fun _ => ?_
        extract_lets -underBinder jp
        have hjp : ∀ x, Program (jp x).run 100 := by
          intro bodyHealth
          refine .obind .bit (by decide) fun _ => ?_
          extract_lets -underBinder jp
          have hjp : ∀ x, Program (jp x).run 10 := fun _ =>
            .obind (.bits 4 (by decide)) (by decide) fun _ =>
              .obind (.bits 4 (by decide)) (by decide) fun totalRepairs => .opure _
          refine .oite ?_ ((hjp ()).weaken (by decide))
          exact .obind .ident (by decide) fun _ =>
            .obind .word (by decide) fun _ => (hjp ()).weaken (by decide)
        clear_value jp
        exact .oite (.ret ((hjp _).weaken (by decide)))
          (.obind (.signed 19 (by decide)) (by decide) fun _ => (hjp _).weaken (by decide))
      clear_value jp
      exact .oite (.ret ((hjp _).weaken (by decide)))
        (.obind (.signed 19 (by decide)) (by decide) fun _ => (hjp _).weaken (by decide))
    clear_value jp
    exact .oite (.obind (.signed 19 (by decide)) (by decide) fun _ => (hjp _).weaken (by decide))
      (.ret ((hjp _).weaken (by decide)))
  clear_value jp
  exact .oite (.obind (.signed 19 (by decide)) (by decide) fun _ => (hjp _).weaken (by decide))
    (.ret ((hjp _).weaken (by decide)))

def emblemsProgram : Program skipEmblems.run 700 := by
  unfold skipEmblems
  refine .obind .bit (by decide) fun _ => ?_
  extract_lets -underBinder jp
  have hjp : ∀ x, Program (jp x).run (4 * 149) := by
    intro x
    refine .skip 4 (.obind .bit (by decide) fun _ => .oite ?_ (.opure _))
    refine .obind (.bits 10 (by decide)) (by decide) fun _ => ?_
    refine .obind (.bits 8 (by decide)) (by decide) fun _ => ?_
    refine .obind (.skip 3 (N := 38) ?_) (by decide) fun _ => ?_
    · exact .obind (.bits 14 (by decide)) (by decide) fun _ =>
        .obind (.bits 14 (by decide)) (by decide) fun _ => .bits 10 (by decide)
    · exact .obind .short (by decide) fun _ => .opure _
  refine .oite ?_ ?_
  · refine .obind .word (by decide) fun _ => ?_
    exact .obind .word (by decide) fun _ => (hjp ()).weaken (by decide)
  · refine .obind .flag (by decide) fun _ => ?_
    refine .obind .word (by decide) fun _ => .obind .bit (by decide) fun _ => ?_
    exact .obind (.bits 3 (by decide)) (by decide) fun _ => (hjp ()).weaken (by decide)

def modKitProgram : Program decodeModKit.run 500 := by
  unfold decodeModKit
  refine .obind (.skip 13 (N := 33) ?_) (by decide) fun _ => .obind .bit (by decide) fun _ => ?_
  · exact .obind .bit (by decide) fun _ =>
      .oite (.obind .word (by decide) fun _ => .opure _) (.opure _)
  · extract_lets -underBinder jp
    have hjp : ∀ x, Program (jp x).run 50 := by
      intro x
      refine .obind (u8Program 8 (by decide)) (by decide) fun wheelChoice => ?_
      refine .obind (u8Program 4 (by decide)) (by decide) fun wheelType => ?_
      refine .obind .bit (by decide) fun _ => ?_
      extract_lets -underBinder jp
      have hjp : ∀ x, Program (jp x).run 2 := fun _ =>
        .obind .bit (by decide) fun _ => .obind .bit (by decide) fun _ => .opure _
      exact .oite (.obind (.bits 8 (by decide)) (by decide) fun _ => (hjp ()).weaken (by decide))
        ((hjp ()).weaken (by decide))
    exact .oite (.obind (.bits 6 (by decide)) (by decide) fun _ => (hjp ()).weaken (by decide))
      ((hjp ()).weaken (by decide))

def liveryProgram : Program readLivery.run 6 :=
  .obind .bit (by decide) fun _ =>
    .oite (.obind (.bits 5 (by decide)) (by decide) fun v => .opure _) (.opure _)

def vehicleAppearanceProgram (build : GameBuild) :
    Program (decodeVehicleAppearance build).run 2500 := by
  unfold decodeVehicleAppearance
  extract_lets -underBinder d
  refine .obind (u8Program 8 (by decide)) (by decide) fun primaryColour => ?_
  refine .obind (u8Program 8 (by decide)) (by decide) fun secondaryColour => ?_
  refine .obind (u8Program 8 (by decide)) (by decide) fun pearlColour => ?_
  refine .obind (u8Program 8 (by decide)) (by decide) fun wheelColour => ?_
  refine .obind (u8Program 8 (by decide)) (by decide) fun interiorColour => ?_
  refine .obind (u8Program 8 (by decide)) (by decide) fun dashboardColour => ?_
  refine .obind .bit (by decide) fun isPrimaryColourRgb => ?_
  extract_lets -underBinder jp
  have hjp : ∀ x, Program (jp x).run 2400 := by
    intro primaryRgb
    refine .obind .bit (by decide) fun isSecondaryColourRgb => ?_
    extract_lets -underBinder jp
    have hjp : ∀ x, Program (jp x).run 2300 := by
      intro secondaryRgb
      refine .obind (.bits 8 (by decide)) (by decide) fun _ => .obind .bit (by decide) fun _ => ?_
      extract_lets -underBinder jp
      have hjp : ∀ x, Program (jp x).run 2200 := by
        intro x
        obtain ⟨dirtLevel, extras, liveryIndex, roofLiveryIndex⟩ := x
        refine .obind (u8Program 2 (by decide)) (by decide) fun kitIndex => ?_
        extract_lets -underBinder jp
        have hjp : ∀ x, Program (jp x).run 1600 := by
          intro x
          obtain ⟨wheelChoice, wheelType⟩ := x
          refine .obind .bit (by decide) fun _ => ?_
          extract_lets -underBinder jp
          have hjp : ∀ x, Program (jp x).run 1500 := by
            intro windowTintIndex
            refine .obind .bit (by decide) fun _ => ?_
            extract_lets -underBinder jp
            have hjp : ∀ x, Program (jp x).run 1400 := by
              intro tyreSmokeColour
              refine .obind .bit (by decide) fun hasPlate => ?_
              extract_lets -underBinder jp
              have hjp : ∀ x, Program (jp x).run 1300 := by
                intro plate
                refine .obind .word (by decide) fun numberPlateTextIndex => ?_
                refine .obind .word (by decide) fun hornTypeHash => ?_
                refine .obind .bit (by decide) fun _ => ?_
                extract_lets -underBinder jp
                have hjp : ∀ x, Program (jp x).run 100 := by
                  intro x
                  refine .obind .bit (by decide) fun hasNeonLights => ?_
                  extract_lets -underBinder jp
                  have hjp : ∀ x, Program (jp x).run 0 := fun x => .opure _
                  clear_value jp
                  refine .oite ?_ (.ret ((hjp _).weaken (by decide)))
                  refine .obind (channelsProgram 3) (by decide) fun colour => ?_
                  refine .obind (.forEach (fun _ => .bit) _) (by decide) fun sides => ?_
                  exact .obind (.when _ .bit) (by decide) fun _ => .ret ((hjp _).weaken (by decide))
                exact .oite (.obind emblemsProgram (by decide) fun u => (hjp u).weaken (by decide))
                  ((hjp ()).weaken (by decide))
              clear_value jp
              refine .oite ?_ (.ret ((hjp _).weaken (by decide)))
              exact .obind (.forEach (fun _ => u8Program 7 (by decide)) _) (by decide) fun plate =>
                (hjp plate).weaken (by decide)
            clear_value jp
            exact .oite (.obind (channelsProgram 3) (by decide) fun c => (hjp c).weaken (by decide))
              (.ret ((hjp _).weaken (by decide)))
          clear_value jp
          refine .oite ?_ (.ret ((hjp _).weaken (by decide)))
          exact .obind (u8Program 8 (by decide)) (by decide) fun t => (hjp t).weaken (by decide)
        clear_value jp
        exact .oite (.obind modKitProgram (by decide) fun kit => (hjp kit).weaken (by decide))
          (.ret ((hjp _).weaken (by decide)))
      clear_value jp
      refine .oite ?_ (.ret ((hjp _).weaken (by decide)))
      refine .obind (u8Program 5 (by decide)) (by decide) fun dirt => ?_
      refine .obind .short (by decide) fun extras => ?_
      exact .obind liveryProgram (by decide) fun livery =>
        .obind liveryProgram (by decide) fun roof => .ret ((hjp _).weaken (by decide))
    clear_value jp
    exact .oite (.obind (channelsProgram 3) (by decide) fun c => (hjp c).weaken (by decide))
      (.ret ((hjp _).weaken (by decide)))
  clear_value jp
  exact .oite (.obind (channelsProgram 3) (by decide) fun c => (hjp c).weaken (by decide))
    (.ret ((hjp _).weaken (by decide)))

def vehicleDamageProgram : Program decodeVehicleDamage.run 200 := by
  unfold decodeVehicleDamage
  refine .obind .bit (by decide) fun _ => ?_
  extract_lets -underBinder jp
  have hjp : ∀ x, Program (jp x).run 150 := by
    intro x
    refine .obind .bit (by decide) fun damagedByBullets => ?_
    refine .obind (.when _ (.skip 6 (.bits 8 (by decide)))) (by decide) fun _ => ?_
    refine .obind .bit (by decide) fun _ => ?_
    extract_lets -underBinder jp
    have hjp : ∀ x, Program (jp x).run 80 := by
      intro x
      refine .obind .bit (by decide) fun _ => ?_
      extract_lets -underBinder jp
      have hjp : ∀ x, Program (jp x).run 20 := fun _ =>
        .obind .bit (by decide) fun anyWindowBroken =>
          .obind (.forEach (N := 1) (fun _ => .oite .bit (.opure _)) _) (by decide) fun _ => .opure _
      exact .oite (.obind (.skip 22 .bit) (by decide) fun u => (hjp u).weaken (by decide))
        ((hjp ()).weaken (by decide))
    refine .oite ?_ ((hjp ()).weaken (by decide))
    exact .obind (.skip 2 (.bits 2 (by decide))) (by decide) fun u => (hjp u).weaken (by decide)
  refine .oite ?_ ((hjp ()).weaken (by decide))
  exact .obind (.skip 6 (.bits 2 (by decide))) (by decide) fun u => (hjp u).weaken (by decide)

/-! ### Every leaf -/

def sectorProgram (build : GameBuild) (out : SyncNodeData F) :
    Program (decodeLeaf .cSectorDataNode build out) 26 :=
  .bind (.bits 10 (by decide)) (by decide) fun x => .bind (.bits 10 (by decide)) (by decide) fun y =>
    .bind (.bits 6 (by decide)) (by decide) fun z =>
      match x, y, z with
      | some _, some _, some _ => .pure _
      | none, _, _ => .pure _
      | some _, none, _ => .pure _
      | some _, some _, none => .pure _

def playerSectorPosProgram (build : GameBuild) (out : SyncNodeData F) :
    Program (decodeLeaf .cPlayerSectorPosNode build out) 200 := by
  refine .bind .readBit (by decide) fun _ => ?_
  extract_lets -underBinder jp
  have hjp : ∀ x, Program (jp x) 96 := fun x =>
    .bind (sectorOffsetProgram 12 (by decide)) (by decide) fun _ => .pure _
  refine .ite (.bind .readBit (by decide) fun _ => .bind .readBit (by decide) fun _ =>
    .bind .readBit (by decide) fun _ => .ite ?_ ((hjp ()).weaken (by decide)))
      ((hjp ()).weaken (by decide))
  refine .bind .ident (by decide) fun _ => ?_
  refine .bind (.signedFloat 14 _ (by decide)) (by decide) fun _ => ?_
  refine .bind (.signedFloat 14 _ (by decide)) (by decide) fun _ => ?_
  exact .bind (.signedFloat 10 _ (by decide)) (by decide) fun _ => (hjp ()).weaken (by decide)

def pedCreationProgram (build : GameBuild) (out : SyncNodeData F) :
    Program (decodeLeaf .cPedCreationDataNode build out) 120 := by
  refine .bind .readBit (by decide) fun _ => .bind .readBit (by decide) fun _ => ?_
  refine .bind (.bits 4 (by decide)) (by decide) fun populationType => ?_
  refine .bind .word (by decide) fun model => ?_
  refine .bind .short (by decide) fun _ => ?_
  refine .bind .readBit (by decide) fun inVehicle =>
    .bind .word (by decide) fun _ => ?_
  refine .ite (.bind .ident (by decide) fun vehicle =>
    .bind (.bits 5 (by decide)) (by decide) fun seat => ?_) (.pure _)
  rcases vehicle with _ | vehicle
  · exact .pure _
  · rcases seat with _ | seat
    · exact .pure _
    · exact .pure _

def objectOrientationProgram (build : GameBuild) (out : SyncNodeData F) :
    Program (decodeLeaf .cObjectOrientationDataNode build out) 90 := by
  refine .bind .readBit (by decide) fun _ => .ite ?_ ?_
  · refine .bind (.signedFloat 20 _ (by decide)) (by decide) fun _ => ?_
    refine .bind (.signedFloat 20 _ (by decide)) (by decide) fun _ => ?_
    exact .bind (.signedFloat 20 _ (by decide)) (by decide) fun z => .pure _
  · exact .bind quaternionProgram (by decide) fun _ => .pure _

def velocityProgram (build : GameBuild) (out : SyncNodeData F) :
    Program (decodeLeaf .cPhysicalVelocityDataNode build out) 36 :=
  .bind (.signed 12 (by decide)) (by decide) fun x => .bind (.signed 12 (by decide)) (by decide) fun y =>
    .bind (.signed 12 (by decide)) (by decide) fun z =>
      match x, y, z with
      | some _, some _, some _ => .pure _
      | none, _, _ => .pure _
      | some _, none, _ => .pure _
      | some _, some _, none => .pure _

def attachProgram (out : SyncNodeData F) : Program (do
    if ← MessageBuffer.readBit then
      Pure.pure { out with attachedTo := (← (BitM.bits 13).run).map UInt32.toUInt16 }
    else Pure.pure { out with attachedTo := some 0 } : StateM MessageBuffer (SyncNodeData F)) 20 :=
  .bind .readBit (by decide) fun _ =>
    .ite (.bind .ident (by decide) fun _ => .pure _) (.pure _)

/-- Every leaf decoder written out, within what a leaf's length can say. -/
def leafProgram (name : NodeName) (build : GameBuild) (out : SyncNodeData F) :
    Program (decodeLeaf name build out) 8191 := by
  cases name
  case cSectorDataNode => exact (sectorProgram build out).weaken (by decide)
  case cPlayerSectorPosNode => exact (playerSectorPosProgram build out).weaken (by decide)
  case cPedCreationDataNode => exact (pedCreationProgram build out).weaken (by decide)
  case cObjectOrientationDataNode => exact (objectOrientationProgram build out).weaken (by decide)
  case cPhysicalVelocityDataNode => exact (velocityProgram build out).weaken (by decide)
  case cPedHealthDataNode => exact (pedHealthProgram build out).weaken (by decide)
  case cPhysicalAttachDataNode => exact (attachProgram out).weaken (by decide)
  case cPedAttachDataNode => exact (attachProgram out).weaken (by decide)
  case cSectorPositionDataNode =>
    exact .bind (sectorOffsetProgram 12 (by decide)) (by decide) fun _ => .pure _
  case cPedSectorPosMapNode =>
    exact .bind (sectorOffsetProgram 12 (by decide)) (by decide) fun _ => .pure _
  case cObjectSectorPosNode =>
    refine .bind .readBit (by decide) fun wide => ?_
    exact .bind (sectorOffsetProgram _ (by split <;> decide)) (by decide) fun _ => .pure _
  case cVehicleCreationDataNode =>
    exact .bind .word (by decide) fun model =>
      .bind (.bits 4 (by decide)) (by decide) fun populationType => .pure _
  case cEntityOrientationDataNode => exact .bind quaternionProgram (by decide) fun _ => .pure _
  case cPedOrientationDataNode =>
    exact .bind (.signedFloat 8 _ (by decide)) (by decide) fun heading =>
      .bind (.signedFloat 8 _ (by decide)) (by decide) fun desired => .pure _
  case cVehicleGameStateDataNode =>
    exact .bind (vehicleGameStateProgram build) (by decide) fun _ => .pure _
  case cVehicleHealthDataNode =>
    exact .bind (vehicleHealthProgram build) (by decide) fun _ => .pure _
  case cVehicleAppearanceDataNode =>
    exact .bind (vehicleAppearanceProgram build) (by decide) fun _ => .pure _
  case cVehicleDamageStatusDataNode =>
    exact .bind vehicleDamageProgram (by decide) fun _ => .pure _
  case cPedGameStateDataNode =>
    exact .bind (pedGameStateProgram build) (by decide) fun _ => .pure _
  case cPedMovementGroupDataNode =>
    exact .bind pedMovementProgram (by decide) fun _ => .pure _
  case cPedAIDataNode => exact .bind .word (by decide) fun _ => .pure _
  case cPedTaskTreeDataNode => exact .bind (pedTasksProgram build) (by decide) fun _ => .pure _
  case cPedScriptGameStateDataNode =>
    exact .bind (.bits 4 (by decide)) (by decide) fun _ => .pure _
  case cPhysicalGameStateDataNode => exact .bind .readBit (by decide) fun _ => .pure _
  case cEntityScriptInfoDataNode =>
    exact .bind .readBit (by decide) fun _ =>
      .ite (.bind .word (by decide) fun _ => .pure _) (.pure _)
  all_goals exact .pure out

end SyncParse

end Baston.Rage
