/-
What a truncated leaf sets.

Most leaves end in a field and set nothing when it is past the end.  The others are settled where
their last flags lie in the body.
-/
import Baston.Proofs.TruncatedLeaves

namespace Baston.Rage

open MessageBuffer SyncParse BitM

/-! ### Readers that report the end -/

/-- The reader comes back with nothing, or it ends within the buffer. -/
def Reports {α : Type} (nothing : α → Prop) (m : StateM MessageBuffer α) : Prop :=
  ∀ buf, nothing (m buf).1 ∨ (m buf).2.curBit ≤ (m buf).2.maxBit

namespace Reports

variable {α β : Type} {nothing : β → Prop}

theorem bind {m : StateM MessageBuffer α} {k : α → StateM MessageBuffer β}
    (h : ∀ a, Reports nothing (k a)) : Reports nothing (m >>= k) :=
  fun buf => h (m buf).1 (m buf).2

theorem pure {b : β} (h : nothing b) : Reports nothing (Pure.pure b) := fun _ => .inl h

theorem ite {c : Prop} [Decidable c] {m m' : StateM MessageBuffer β} (h : Reports nothing m)
    (h' : Reports nothing m') : Reports nothing (if c then m else m') := by
  split
  · exact h
  · exact h'

/-- The last read decides. -/
theorem last {m : BitM α} {k : Option α → StateM MessageBuffer β} (hm : Checked m)
    (hnone : ∀ buf, nothing (k none buf).1) (hstay : ∀ r buf, (k r buf).2 = buf) :
    Reports nothing (m.run >>= k) := by
  intro buf
  rw [run_step, hstay]
  rcases hrun : m.run buf with ⟨_ | a, mid⟩
  · exact .inl (hnone mid)
  · exact .inr (hm buf a mid hrun)

theorem run {m : BitM α} (hm : Checked m) : Reports (· = none) m.run := by
  intro buf
  rcases hrun : m.run buf with ⟨_ | a, mid⟩
  · exact .inl rfl
  · exact .inr (hm buf a mid hrun)

end Reports

namespace SyncParse

variable {α : Type} {body more : LeafBody}

/-- What a local reader reports within the body, it reads from every body that goes on. -/
theorem same_of_reports (nothing : α → Prop) {m : StateM MessageBuffer α}
    (hpadded : body.Padded) (hmore : body.GoesOnAs more) (hlocal : Local m)
    (h : nothing (m body.view).1 ∨ (m body.view).2.curBit ≤ (m body.view).2.maxBit) :
    nothing (m body.view).1 ∨ (m more.view).1 = (m body.view).1 := by
  refine h.imp_right fun hend => ?_
  obtain ⟨r, p, hrun, -, -⟩ := hlocal body.view
  have hin : (m body.view).2.curBit ≤ body.bits := by
    rw [hrun] at hend ⊢
    exact hend.trans_eq hpadded.maxBit_view
  exact hlocal.goesOn (hmore.view hpadded hin) (hin.trans_eq hpadded.maxBit_view.symm)

/-! ### Fields of a leaf -/

theorem same_overwrite_of_mem {F : Type} {fs : List Field} {f : Field} (h : f ∈ fs)
    (patch out : SyncNodeData F) : f.Same (overwrite fs patch out) patch := by
  cases f <;> exact if_pos h

section

variable {F : Type} [Scalar F] {name : NodeName} {build : GameBuild}

theorem leafOut_eq (body : LeafBody) (out : SyncNodeData F) :
    leafOut name build body out = (decodeLeaf name build out body.view).1 :=
  applyEvent_view build out 0 name body

/-- What holds on an empty record holds on any. -/
theorem nothingFromBeyond_of_empty
    (h : ∀ f ∈ writes name, ∀ more, body.GoesOnAs more →
      f.Same (leafOut name build body ({} : SyncNodeData F)) {}
        ∨ f.Same (leafOut name build more ({} : SyncNodeData F)) (leafOut name build body {})) :
    NothingFromBeyond F name build body := by
  intro f hset more hmore out
  have hmem : f ∈ writes name := by
    by_contra hnot
    exact hset (same_applyEvent_of_not hnot body {})
  have hsame := (h f hmem more hmore).resolve_left hset
  obtain ⟨gs, -, patch, happly⟩ := applyEvent_leaf (F := F) build 0 name body
  obtain ⟨gs', -, patch', happly'⟩ := applyEvent_leaf (F := F) build 0 name more
  unfold leafOut at hset hsame ⊢
  rw [happly] at hset hsame
  rw [happly'] at hsame
  rw [happly, happly']
  have hmem : f ∈ gs := by
    by_contra hnot
    exact hset (same_overwrite_of_not hnot _ _)
  have hmem' : f ∈ gs' := by
    by_contra hnot
    exact hset (hsame.symm.trans (same_overwrite_of_not hnot _ _))
  have hpatch : f.Same patch' patch :=
    (same_overwrite_of_mem hmem' patch' {}).symm.trans
      (hsame.trans (same_overwrite_of_mem hmem patch {}))
  exact (same_overwrite_of_mem hmem' patch' out).trans
    (hpatch.trans (same_overwrite_of_mem hmem patch out).symm)

/-- A leaf whose last read decides everything. -/
theorem nothingFromBeyond_of_reports (hpadded : body.Padded)
    (hlocal : Local (decodeLeaf name build ({} : SyncNodeData F)))
    (h : Reports (· = {}) (decodeLeaf name build ({} : SyncNodeData F))) :
    NothingFromBeyond F name build body := by
  refine nothingFromBeyond_of_empty fun f _ more hmore => ?_
  rw [leafOut_eq, leafOut_eq]
  rcases same_of_reports (· = {}) hpadded hmore hlocal (h _) with hnone | hsame
  · rw [hnone]
    exact .inl (.refl _ _)
  · rw [hsame]
    exact .inr (.refl _ _)

/-- A leaf that sets one field, to what one reader gives. -/
theorem nothingFromBeyond_iff_settled {m : BitM α} (f₀ : Field)
    (set : Option α → SyncNodeData F → SyncNodeData F)
    (hdecode : ∀ buf (out : SyncNodeData F),
      (decodeLeaf name build out buf).1 = set (m.run buf).1 out)
    (hwrites : writes name = [f₀])
    (hfield : ∀ r r', f₀.Same (set r ({} : SyncNodeData F)) (set r' {}) ↔ r = r')
    (hempty : ∀ r, f₀.Same (set r ({} : SyncNodeData F)) {} ↔ r = none) :
    NothingFromBeyond F name build body ↔ Settled m body := by
  constructor
  · intro h v hv more hmore
    have hsame := h f₀ (by
      rw [leafOut_eq, hdecode, hempty, hv]
      simp) more hmore {}
    rw [leafOut_eq, leafOut_eq, hdecode, hdecode, hfield, hv] at hsame
    exact hsame
  · intro h
    refine nothingFromBeyond_of_empty fun f hf more hmore => ?_
    rw [leafOut_eq, leafOut_eq, hdecode, hdecode]
    rw [hwrites, List.mem_singleton] at hf
    subst hf
    rw [hempty, hfield]
    rcases hv : (m.run body.view).1 with _ | v
    · exact .inl rfl
    · exact .inr (h v hv more hmore)

/-! ### Leaves that end in a field -/

/-- A leaf that is one checked reader sets nothing from beyond. -/
theorem nothingFromBeyond_of_checked {m : BitM α} (f₀ : Field)
    (set : Option α → SyncNodeData F → SyncNodeData F) (hpadded : body.Padded) (hm : Steady m)
    (hchecked : Checked m)
    (hdecode : ∀ buf (out : SyncNodeData F),
      (decodeLeaf name build out buf).1 = set (m.run buf).1 out)
    (hwrites : writes name = [f₀])
    (hfield : ∀ r r', f₀.Same (set r ({} : SyncNodeData F)) (set r' {}) ↔ r = r')
    (hempty : ∀ r, f₀.Same (set r ({} : SyncNodeData F)) {} ↔ r = none) :
    NothingFromBeyond F name build body :=
  (nothingFromBeyond_iff_settled f₀ set hdecode hwrites hfield hempty).mpr
    (settled_checked hpadded hm hchecked)

theorem nothing_sector (hpadded : body.Padded) :
    NothingFromBeyond F .cSectorDataNode build body := by
  refine nothingFromBeyond_of_reports hpadded ?_ (.bind fun x => .bind fun y => .last (.bits 6) ?_ ?_)
  · refine .bind (.run (.bits 10)) fun x => .bind (.run (.bits 10)) fun y =>
      .bind (.run (.bits 6)) fun z => ?_
    cases x <;> cases y <;> cases z <;> exact .pure _
  · intro buf
    cases x <;> cases y <;> rfl
  · intro z buf
    cases x <;> cases y <;> cases z <;> rfl

theorem nothing_velocity (hpadded : body.Padded) :
    NothingFromBeyond F .cPhysicalVelocityDataNode build body := by
  refine nothingFromBeyond_of_reports hpadded ?_ (.bind fun x => .bind fun y => .last (.signed 12) ?_ ?_)
  · refine .bind (.run (.signed 12)) fun x => .bind (.run (.signed 12)) fun y =>
      .bind (.run (.signed 12)) fun z => ?_
    cases x <;> cases y <;> cases z <;> exact .pure _
  · intro buf
    cases x <;> cases y <;> rfl
  · intro z buf
    cases x <;> cases y <;> cases z <;> rfl

theorem nothing_playerSectorPos (hpadded : body.Padded) :
    NothingFromBeyond F .cPlayerSectorPosNode build body := by
  refine nothingFromBeyond_of_reports hpadded ?_ ?_
  · refine .bind .readBit fun _ => ?_
    extract_lets jp
    have hjp : ∀ x, Local (jp x) := fun _ =>
      .bind (.run (steady_sectorOffset 12)) fun _ => .pure _
    refine .ite (.bind .readBit fun _ => .bind .readBit fun _ => .bind .readBit fun _ =>
      .ite ?_ (hjp ())) (hjp ())
    exact .bind (.run (.bits 13)) fun _ => .bind (.run (.signedFloat 14 _)) fun _ =>
      .bind (.run (.signedFloat 14 _)) fun _ => .bind (.run (.signedFloat 10 _)) fun _ => hjp ()
  · refine .bind fun _ => ?_
    extract_lets jp
    have hjp : ∀ x, Reports (· = {}) (jp x) := fun _ =>
      .last (checked_sectorOffset 12) (fun _ => rfl) fun _ _ => rfl
    refine .ite (.bind fun _ => .bind fun _ => .bind fun _ => .ite ?_ (hjp ())) (hjp ())
    exact .bind fun _ => .bind fun _ => .bind fun _ => .bind fun _ => hjp ()

theorem nothing_objectSectorPos (hpadded : body.Padded) :
    NothingFromBeyond F .cObjectSectorPosNode build body :=
  nothingFromBeyond_of_reports hpadded
    (.bind .readBit fun _ => .bind (.run (steady_sectorOffset _)) fun _ => .pure _)
    (.bind fun _ => .last (checked_sectorOffset _) (fun _ => rfl) fun _ _ => rfl)

theorem nothing_objectOrientation (hpadded : body.Padded) :
    NothingFromBeyond F .cObjectOrientationDataNode build body :=
  nothingFromBeyond_of_reports hpadded
    (.bind .readBit fun _ => .ite
      (.bind (.run (.signedFloat 20 _)) fun _ => .bind (.run (.signedFloat 20 _)) fun _ =>
        .bind (.run (.signedFloat 20 _)) fun _ => .pure _)
      (.bind (.run steady_quaternion) fun _ => .pure _))
    (.bind fun _ => .ite
      (.bind fun _ => .bind fun _ => .last (.signedFloat 20 _) (fun _ => rfl) fun _ _ => rfl)
      (.last checked_quaternion (fun _ => rfl) fun _ _ => rfl))

theorem nothing_entityScript (hpadded : body.Padded) :
    NothingFromBeyond F .cEntityScriptInfoDataNode build body :=
  nothingFromBeyond_of_reports hpadded
    (.bind .readBit fun _ => .ite (.bind (.run (.bits 32)) fun _ => .pure _) (.pure _))
    (.bind fun _ => .ite (.last (.bits 32) (fun _ => rfl) fun _ _ => rfl) (.pure rfl))

/-! ### Leaves that set several fields -/

theorem nothing_vehicleCreation (hpadded : body.Padded) :
    NothingFromBeyond F .cVehicleCreationDataNode build body := by
  refine nothingFromBeyond_of_empty fun f hf more hmore => ?_
  rw [leafOut_eq, leafOut_eq]
  simp only [writes, List.mem_cons, List.not_mem_nil, or_false] at hf
  rcases hf with rfl | rfl
  · exact same_of_reports (· = none) hpadded hmore (.run (.bits 32)) (Reports.run (.bits 32) _)
  · have hsame := same_of_reports (· = none) hpadded hmore
      (m := (bits 32).run >>= fun _ => (bits 4).run)
      (.bind (.run (.bits 32)) fun _ => .run (.bits 4))
      (Reports.bind (fun _ => .run (.bits 4)) _)
    exact hsame.imp (congrArg (Option.map UInt32.toUInt8)) (congrArg (Option.map UInt32.toUInt8))

theorem nothing_pedOrientation (hpadded : body.Padded) :
    NothingFromBeyond F .cPedOrientationDataNode build body := by
  refine nothingFromBeyond_of_empty fun f hf more hmore => ?_
  rw [leafOut_eq, leafOut_eq]
  simp only [writes, List.mem_cons, List.not_mem_nil, or_false] at hf
  have hfirst : Steady (signedFloat 8 (Quaternion.tauRadians : F)) := .signedFloat 8 _
  have hchecked : Checked (signedFloat 8 (Quaternion.tauRadians : F)) := .signedFloat 8 _
  rcases hf with rfl | rfl
  · have hsame := same_of_reports (· = none) hpadded hmore (.run hfirst) (Reports.run hchecked _)
    exact hsame.imp (congrArg (Option.map fun r => normaliseDegrees (Scalar.toDegrees r)))
      (congrArg (Option.map fun r => normaliseDegrees (Scalar.toDegrees r)))
  · have hsame := same_of_reports (· = none) hpadded hmore
      (.bind (.run hfirst) fun _ => .run hfirst) (Reports.bind (fun _ => .run hchecked) _)
    exact hsame.imp (congrArg (Option.map fun r => normaliseDegrees (Scalar.toDegrees r)))
      (congrArg (Option.map fun r => normaliseDegrees (Scalar.toDegrees r)))

/-- `CPedCreationDataNode` up to its population type. -/
def pedPopulation : StateM MessageBuffer (Option UInt32) := do
  let _ ← MessageBuffer.readBit
  let _ ← MessageBuffer.readBit
  (bits 4).run

/-- And up to its model. -/
def pedModel : StateM MessageBuffer (Option UInt32) := do
  let _ ← pedPopulation
  (bits 32).run

/-- What follows. -/
def pedSeat (out : SyncNodeData F) : StateM MessageBuffer (SyncNodeData F) := do
  let _ ← (bits 16).run
  let inVehicle ← MessageBuffer.readBit
  let _ ← (bits 32).run
  if inVehicle then
    let vehicle ← (bits 13).run
    let seat ← (bits 5).run
    match vehicle, seat with
    | some vehicle, some seat =>
      pure { out with vehicleSeat := some (vehicle.toUInt16, seat.toUInt8) }
    | _, _ => pure out
  else pure out

theorem pedCreation_split :
    decodeLeaf .cPedCreationDataNode build ({} : SyncNodeData F)
      = pedPopulation >>= fun populationType => (bits 32).run >>= fun model =>
        pedSeat { model, populationType := populationType.map UInt32.toUInt8 } := by
  unfold pedPopulation
  simp only [bind_assoc]
  rfl

theorem pedSeat_patches (G : Type) :
    Patches [.vehicleSeat] (fun out : SyncNodeData G => pedSeat out) := by
  refine .bind fun _ => .bind fun inVehicle => .bind fun _ => .ite ?_ .keep
  refine .bind fun vehicle => .bind fun seat => ?_
  rcases vehicle with _ | vehicle
  · exact .keep
  · rcases seat with _ | seat
    · exact .keep
    · exact .set _ (List.Subset.refl _) fun out => rfl

/-- It keeps the population type and the model. -/
theorem pedCreation_fields (buf : MessageBuffer) :
    (decodeLeaf .cPedCreationDataNode build ({} : SyncNodeData F) buf).1.populationType
        = (pedPopulation buf).1.map UInt32.toUInt8
      ∧ (decodeLeaf .cPedCreationDataNode build ({} : SyncNodeData F) buf).1.model
        = (pedModel buf).1 := by
  obtain ⟨gs, hgs, patch, happly⟩ :=
    pedSeat_patches F ((bits 32).run (pedPopulation buf).2).2
  have hrun : (decodeLeaf .cPedCreationDataNode build ({} : SyncNodeData F) buf).1
      = overwrite gs patch { populationType := (pedPopulation buf).1.map UInt32.toUInt8,
                             model := (pedModel buf).1 } := by
    rw [pedCreation_split, ← happly, run_step, run_step]
    unfold pedModel
    rw [run_step]
  rw [hrun]
  exact ⟨same_overwrite_of_not (f := .populationType) (fun h => absurd (hgs h) (by decide)) _ _,
    same_overwrite_of_not (f := .model) (fun h => absurd (hgs h) (by decide)) _ _⟩

theorem nothing_pedCreation (hpadded : body.Padded) :
    NothingFromBeyond F .cPedCreationDataNode build body := by
  have hpopulation : Local pedPopulation :=
    .bind .readBit fun _ => .bind .readBit fun _ => .run (.bits 4)
  refine nothingFromBeyond_of_empty fun f hf more hmore => ?_
  rw [leafOut_eq, leafOut_eq]
  simp only [writes, List.mem_cons, List.not_mem_nil, or_false] at hf
  rcases hf with rfl | rfl | rfl
  · have hsame := same_of_reports (· = none) hpadded hmore
      (.bind hpopulation fun _ => .run (.bits 32)) (Reports.bind (fun _ => .run (.bits 32)) _)
    simp only [Field.Same, (pedCreation_fields _).2]
    exact hsame
  · have hsame := same_of_reports (· = none) hpadded hmore hpopulation
      (Reports.bind (fun _ => .bind fun _ => .run (.bits 4)) _)
    simp only [Field.Same, (pedCreation_fields _).1]
    exact hsame.imp (congrArg (Option.map UInt32.toUInt8)) (congrArg (Option.map UInt32.toUInt8))
  · have hlocal : Local (decodeLeaf .cPedCreationDataNode build ({} : SyncNodeData F)) := by
      refine .bind .readBit fun _ => .bind .readBit fun _ => .bind (.run (.bits 4)) fun _ =>
        .bind (.run (.bits 32)) fun _ => .bind (.run (.bits 16)) fun _ => .bind .readBit fun _ =>
        .bind (.run (.bits 32)) fun _ => .ite (.bind (.run (.bits 13)) fun vehicle =>
          .bind (.run (.bits 5)) fun seat => ?_) (.pure _)
      cases vehicle <;> cases seat <;> exact .pure _
    have hreports : Reports (fun d : SyncNodeData F => d.vehicleSeat = none)
        (decodeLeaf .cPedCreationDataNode build ({} : SyncNodeData F)) := by
      refine .bind fun _ => .bind fun _ => .bind fun _ => .bind fun _ => .bind fun _ =>
        .bind fun _ => .bind fun _ => .ite (.bind fun vehicle => .last (.bits 5) ?_ ?_) (.pure rfl)
      · intro buf
        cases vehicle <;> rfl
      · intro seat buf
        cases vehicle <;> cases seat <;> rfl
    have hsame := same_of_reports (fun d : SyncNodeData F => d.vehicleSeat = none) hpadded hmore
      hlocal (hreports _)
    simp only [Field.Same]
    exact hsame.imp_right (congrArg SyncNodeData.vehicleSeat)

/-! ### Leaves that end on a flag -/

theorem settled_damageFlag (hpadded : body.Padded) {head : BitM Unit} {m : BitM UInt16}
    (hsplit : m = head >>= fun _ => fromDamageFlag) (hhead : Steady head) :
    Settled m body ↔ flagInside head body = true := by
  have hsteady : Steady fromDamageFlag :=
    .bind .bit fun _ => .ite (.bind (.bits 13) fun _ => .pure _) (.pure _)
  have hchecked : Checked (bits 13 >>= fun source => (pure source.toUInt16 : BitM UInt16)) :=
    (Checked.bits 13).map _
  constructor
  · refine flagInside_of_settled hpadded hhead (leads_split hsplit) ?_
    intro _ buf buf' hzero _ _ hone hlast
    unfold fromDamageFlag
    refine ⟨0, ?_, ?_⟩
    · rw [run_bit_bind, hzero]
      rfl
    · rw [run_bit_bind, hone]
      have hnone : ((bits 13 >>= fun source => (pure source.toUInt16 : BitM UInt16)).run
          (buf'.setCurrentBit (buf'.curBit + 1))).1 = none :=
        run_bind_none (run_bits_none (by decide) (Nat.le_of_eq hlast))
      intro hsome
      exact absurd (hnone.symm.trans hsome) (by simp)
  · refine settled_of_flagInside hpadded hsplit hhead (fun _ => hsteady) ?_
    intro _ buf v mid hin hrun
    unfold fromDamageFlag at hrun
    rw [run_bit_bind] at hrun
    by_cases hflag : bitOf buf.data buf.curBit = true
    · rw [if_pos hflag] at hrun
      exact hchecked _ _ _ hrun
    · rw [if_neg hflag] at hrun
      rw [← (Prod.mk.inj hrun).2]
      exact hin

/-- With nothing in front of the flag. -/
theorem flagInside_pure : flagInside (pure () : BitM Unit) body = decide (0 < body.bits) := rfl

theorem nothing_attach (hpadded : body.Padded) {name : NodeName}
    (hname : name = .cPhysicalAttachDataNode ∨ name = .cPedAttachDataNode) :
    NothingFromBeyond F name build body ↔ 0 < body.bits := by
  have hflag := settled_damageFlag hpadded (pure_bind () fun _ => fromDamageFlag).symm (.pure ())
  rw [flagInside_pure, decide_eq_true_iff] at hflag
  rw [← hflag]
  have hdecode : ∀ buf (out : SyncNodeData F),
      (decodeLeaf name build out buf).1 = { out with attachedTo := (fromDamageFlag.run buf).1 } := by
    intro buf out
    have hrun : (decodeLeaf name build out buf).1
        = ((if buf.readBit.1 = true then
            (bits 13).run >>= fun source =>
              pure { out with attachedTo := source.map UInt32.toUInt16 }
          else pure { out with attachedTo := some 0 } : StateM MessageBuffer (SyncNodeData F))
            buf.readBit.2).1 := by
      rcases hname with rfl | rfl
      · rfl
      · rfl
    rw [hrun, readBit_eq]
    unfold fromDamageFlag
    rw [run_bit_bind]
    by_cases hflag : bitOf buf.data buf.curBit = true
    · rw [if_pos hflag, if_pos hflag, run_bind]
      show ({ out with attachedTo := ((bits 13).run _).1.map UInt32.toUInt16 } : SyncNodeData F) = _
      rcases (bits 13).run (buf.setCurrentBit (buf.curBit + 1)) with ⟨_ | source, mid⟩
      · rfl
      · rfl
    · rw [if_neg hflag, if_neg hflag]
      rfl
  refine nothingFromBeyond_iff_settled .attachedTo (fun attachedTo out => { out with attachedTo })
    hdecode ?_ (fun _ _ => Iff.rfl) fun _ => Iff.rfl
  rcases hname with rfl | rfl
  · rfl
  · rfl

theorem nothing_physicalGameState (hpadded : body.Padded) :
    NothingFromBeyond F .cPhysicalGameStateDataNode build body ↔ 0 < body.bits := by
  have hflag : Settled bit body ↔ 0 < body.bits := by
    rw [← decide_eq_true_iff (p := 0 < body.bits), ← flagInside_pure]
    have hsplit : bit = (pure () : BitM Unit) >>= fun _ => bit >>= fun b => pure b := by
      rw [pure_bind, bind_pure]
    constructor
    · exact flagInside_of_settled hpadded (.pure ()) (leads_split hsplit)
        (lapses_flag fun _ => by simp)
    · exact settled_of_flagInside hpadded hsplit (.pure ()) (fun _ => .bind .bit fun _ => .pure _)
        (ends_flag _)
  rw [← hflag]
  exact nothingFromBeyond_iff_settled .isVisible (fun isVisible out => { out with isVisible })
    (fun _ _ => rfl) rfl (fun _ _ => Iff.rfl) fun _ => Iff.rfl

end

end SyncParse

end Baston.Rage
