/-
What the leaf decoders look at.

The parts of the decoders that are read the same from every body that goes on, and those that
end in a field, which cannot succeed past the end.
-/
import Baston.Proofs.Extents
import Baston.Rage.SyncParse

namespace Baston.Rage

namespace SyncParse

open BitM

variable {F : Type} [Scalar F]

/-! ### Shared parts -/

theorem steady_sectorOffset (width : Nat) : Steady (readSectorOffset (F := F) width) :=
  .bind (.float width _) fun _ => .bind (.float width _) fun _ =>
    .bind (.float width _) fun _ => .pure _

theorem checked_sectorOffset (width : Nat) : Checked (readSectorOffset (F := F) width) :=
  .bind fun _ => .bind fun _ => (Checked.float width _).map _

theorem steady_quaternion : Steady (readQuaternionHeading (F := F)) :=
  .bind (.bits _) fun _ => .bind (.bits _) fun _ => .bind (.bits _) fun _ =>
    .bind (.bits _) fun _ => .pure _

theorem checked_quaternion : Checked (readQuaternionHeading (F := F)) :=
  .bind fun _ => .bind fun _ => .bind fun _ => (Checked.bits _).map _

theorem steady_u8 (width : Nat) : Steady (readU8 width) := .bind (.bits width) fun _ => .pure _

theorem checked_u8 (width : Nat) : Checked (readU8 width) := (Checked.bits width).map _

theorem steady_channels (n : Nat) : Steady (readChannels n) := .forEach (fun _ => steady_u8 8) _

/-! ### Peds -/

theorem steady_pedTasks (build : GameBuild) : Steady (decodePedTasks build) := by
  unfold decodePedTasks
  extract_lets -underBinder idle
  refine .bind .bit fun script => ?_
  extract_lets -underBinder jp
  have hjp : ∀ x, Steady (jp x) := by
    intro x
    obtain ⟨scriptCommand, scriptTaskStage⟩ := x
    refine .bind (.bits 8) fun occupied => .bind (.forEach (fun slot => .ite (.pure _) ?_) _)
      fun taskTypes => .pure _
    exact .bind (.bits 10) fun task => .bind .bit fun _ => .bind (.bits 3) fun _ =>
      .bind (.bits 3) fun _ => .bind (.bits 5) fun _ => .pure _
  clear_value jp
  refine .ite ?_ (.bind (.pure _) hjp)
  exact .bind (.bits 32) fun command => .bind (.bits 3) fun stage => .bind (.pure _) hjp

theorem checked_pedTasks (build : GameBuild) : Checked (decodePedTasks build) := by
  unfold decodePedTasks
  extract_lets -underBinder idle
  refine .bind fun script => ?_
  extract_lets -underBinder jp
  have hjp : ∀ x, Checked (jp x) := by
    intro x
    obtain ⟨scriptCommand, scriptTaskStage⟩ := x
    refine (Checked.bits 8).andThen fun occupied => .bind (.forEach (fun slot => ?_) _)
      fun taskTypes => .pure _
    refine .ite (.pure _) (Checked.stays ?_)
    exact .bind fun task => .bind fun _ => .bind fun _ => .bind fun _ => (Checked.bits 5).map _
  clear_value jp
  exact .ite (.bind fun command => .bind fun stage => .bind hjp) (.bind hjp)

theorem steady_occupancy : Steady decodeOccupancy :=
  .bind .bit fun _ => .ite (.bind (.bits 13) fun _ => .bind .bit fun _ =>
    .ite (.bind (.bits 5) fun _ => .pure _) (.pure _)) (.pure _)

/-! ### Vehicles -/

theorem steady_vehicleDetail (build : GameBuild) (out : VehicleGameState) :
    Steady (decodeVehicleDetail build out) := by
  unfold decodeVehicleDetail
  refine .bind .bit fun defaultHeadlights => ?_
  extract_lets -underBinder jp
  have hjp : ∀ x, Steady (jp x) := by
    intro headlightsColour
    refine .bind .bit fun sirenOn => .bind (.when _ .bit) fun _ => .bind .bit fun _ => ?_
    extract_lets -underBinder jp
    have hjp : ∀ x, Steady (jp x) := by
      intro x
      refine .bind .bit fun _ => ?_
      extract_lets -underBinder out
      refine .bind .bit fun _ => ?_
      extract_lets -underBinder jp
      have hjp : ∀ x, Steady (jp x) := by
        intro out
        refine .bind .bit fun _ => ?_
        extract_lets -underBinder jp
        have hjp : ∀ x, Steady (jp x) := fun _ =>
          .bind .bit fun _ => .bind .bit fun _ => .bind .bit fun _ => .bind .bit fun _ =>
            .bind .bit fun _ => .bind .bit fun _ => .bind .bit fun _ =>
            .ite (.bind (.bits 10) fun _ => .pure _) (.pure _)
        clear_value jp
        exact .ite (.bind (.bits 6) fun _ => hjp _) (hjp _)
      clear_value jp
      refine .ite ?_ (.bind (.pure _) hjp)
      refine .bind (.bits 5) fun _ => .bind (.bits 7) fun _ => .bind (.bits 7) fun _ => ?_
      refine .bind (.bits 7) fun doorsOpen => .bind (.forEach (fun door => .ite (.pure _) ?_) _)
        fun _ => ?_
      · exact .bind (.bits 4) fun _ => .pure _
      · exact .bind (.bits 8) fun extraMask =>
          .bind (.forEach (fun slot => .when _ (.bits 5)) _) fun _ => .bind (.pure _) hjp
    clear_value jp
    exact .ite (.bind .bit fun _ => hjp _) (hjp _)
  clear_value jp
  exact .ite (.bind (.pure _) hjp) (.bind (.bits 8) fun _ => .bind (.pure _) hjp)

theorem steady_tyres (build : GameBuild) (tyresFine wheelExtraFine : Bool) :
    Steady (decodeTyres build tyresFine wheelExtraFine) := by
  unfold decodeTyres
  extract_lets -underBinder intact
  refine .ite (.pure _) (.bind (.bits 4) fun totalWheels => ?_)
  extract_lets -underBinder jp
  have hjp : ∀ x, Steady (jp x) := fun status =>
    .ite (.bind (.skip _ (.bind .bit fun _ => .ite (.bind (.bits 10) fun _ => .pure _) (.pure _)))
      fun _ => .pure _) (.pure _)
  clear_value jp
  refine .ite (.bind (.pure _) hjp) (.bind (.forEach (fun _ => ?_) _) fun wheels =>
    .bind (.pure _) hjp)
  have hrest : Steady (do
      let burst ← BitM.bit
      let onRim ← BitM.bit
      let _ ← BitM.bit
      let _ ← BitM.bit
      Pure.pure (if onRim then 2 else if burst then 1 else 0) : BitM UInt8) :=
    .bind .bit fun _ => .bind .bit fun _ => .bind .bit fun _ => .bind .bit fun _ => .pure _
  exact .ite (.bind .bit fun _ => .ite (.bind (.bits 8) fun _ => hrest) hrest) hrest

theorem steady_vehicleHealth (build : GameBuild) : Steady (decodeVehicleHealth build) := by
  unfold decodeVehicleHealth
  extract_lets -underBinder d
  refine .bind .bit fun _ => .bind .bit fun _ => .bind .bit fun _ => .bind .bit fun _ => ?_
  extract_lets -underBinder jp
  have hjp : ∀ x, Steady (jp x) := by
    intro engineHealth
    unfold jp
    extract_lets -underBinder jp
    have hjp : ∀ x, Steady (jp x) := by
      intro petrolTankHealth
      refine .bind .bit fun tyresFine => .bind .bit fun wheelFine => ?_
      refine .bind (steady_tyres build tyresFine wheelFine) fun _ => .bind .bit fun _ => ?_
      extract_lets -underBinder jp
      have hjp : ∀ x, Steady (jp x) := by
        intro health
        refine .bind .bit fun _ => ?_
        extract_lets -underBinder jp
        have hjp : ∀ x, Steady (jp x) := by
          intro bodyHealth
          refine .bind .bit fun _ => ?_
          extract_lets -underBinder jp
          have hjp : ∀ x, Steady (jp x) := fun _ =>
            .bind (.bits 4) fun _ => .bind (.bits 4) fun _ => .pure _
          clear_value jp
          exact .ite (.bind (.bits 13) fun _ => .bind (.bits 32) fun _ => hjp _) (hjp _)
        clear_value jp
        exact .ite (.bind (.pure _) hjp) (.bind (.signed 19) hjp)
      clear_value jp
      exact .ite (.bind (.pure _) hjp) (.bind (.signed 19) hjp)
    clear_value jp
    exact .ite (.bind (.signed 19) hjp) (.bind (.pure _) hjp)
  clear_value jp
  exact .ite (.bind (.signed 19) hjp) (.bind (.pure _) hjp)

theorem checked_vehicleHealth (build : GameBuild) : Checked (decodeVehicleHealth build) := by
  unfold decodeVehicleHealth
  extract_lets -underBinder d
  refine .bind fun _ => .bind fun _ => .bind fun _ => .bind fun _ => ?_
  extract_lets -underBinder jp
  have hjp : ∀ x, Checked (jp x) := by
    intro engineHealth
    unfold jp
    extract_lets -underBinder jp
    have hjp : ∀ x, Checked (jp x) := by
      intro petrolTankHealth
      refine .bind fun _ => .bind fun _ => .bind fun _ => .bind fun _ => ?_
      extract_lets -underBinder jp
      have hjp : ∀ x, Checked (jp x) := by
        intro health
        refine .bind fun _ => ?_
        extract_lets -underBinder jp
        have hjp : ∀ x, Checked (jp x) := by
          intro bodyHealth
          refine .bind fun _ => ?_
          extract_lets -underBinder jp
          have hjp : ∀ x, Checked (jp x) := fun _ => .bind fun _ => (Checked.bits 4).map _
          clear_value jp
          exact .ite (.bind fun _ => .bind fun _ => hjp _) (hjp _)
        clear_value jp
        exact .ite (.bind hjp) (.bind hjp)
      clear_value jp
      exact .ite (.bind hjp) (.bind hjp)
    clear_value jp
    exact .ite (.bind hjp) (.bind hjp)
  clear_value jp
  exact .ite (.bind hjp) (.bind hjp)

theorem steady_emblems : Steady skipEmblems := by
  unfold skipEmblems
  refine .bind .bit fun _ => ?_
  extract_lets -underBinder jp
  have hjp : ∀ x, Steady (jp x) := by
    intro x
    refine .skip 4 (.bind .bit fun _ => .ite ?_ (.pure _))
    refine .bind (.bits 10) fun _ => .bind (.bits 8) fun _ => .bind (.skip 3 ?_) fun _ => ?_
    · exact .bind (.bits 14) fun _ => .bind (.bits 14) fun _ => .bits 10
    · exact .bind (.bits 16) fun _ => .pure _
  clear_value jp
  refine .ite (.bind (.bits 32) fun _ => .bind (.bits 32) fun _ => hjp _) ?_
  exact .bind (.bits 1) fun _ => .bind (.bits 32) fun _ => .bind .bit fun _ =>
    .bind (.bits 3) fun _ => hjp _

theorem steady_modKit : Steady decodeModKit := by
  unfold decodeModKit
  refine .bind (.skip 13 (.bind .bit fun _ => .ite (.bind (.bits 32) fun _ => .pure _) (.pure _)))
    fun _ => .bind .bit fun _ => ?_
  extract_lets -underBinder jp
  have hjp : ∀ x, Steady (jp x) := by
    intro x
    refine .bind (steady_u8 8) fun _ => .bind (steady_u8 4) fun _ => .bind .bit fun _ => ?_
    extract_lets -underBinder jp
    have hjp : ∀ x, Steady (jp x) := fun _ => .bind .bit fun _ => .bind .bit fun _ => .pure _
    clear_value jp
    exact .ite (.bind (.bits 8) fun _ => hjp _) (hjp _)
  clear_value jp
  exact .ite (.bind (.bits 6) fun _ => hjp _) (hjp _)

theorem steady_livery : Steady readLivery :=
  .bind .bit fun _ => .ite (.bind (.bits 5) fun _ => .pure _) (.pure _)

end SyncParse

end Baston.Rage
