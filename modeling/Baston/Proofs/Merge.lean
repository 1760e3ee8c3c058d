/-
What an entity keeps of the records it was sent.

`SyncState` is the part of an entity that the sync stream alone decides, and `absorb` is
`applySyncData` on it.  Most of it is a field-wise merge, but the vehicle a ped has left is
read off two game states in a row, so whether one record makes another one redundant also
depends on whether both have the ped in a vehicle.
-/
import Baston.Lib.Delta
import Baston.Zone.OneSync

namespace Baston.Rage

variable {F : Type}

/-! ### Records that make others redundant -/

/-- Whether a slot that one record fills is filled by another too. -/
def slotCovered {α : Type} (d d' : Option α) : Bool := d.isNone || d'.isSome

theorem mergeField_covered {α : Type} {d d' : Option α} (h : slotCovered d d' = true)
    (slot : Option α) : mergeField (mergeField slot d) d' = mergeField slot d' := by
  cases d' with
  | some value => rfl
  | none =>
      cases d with
      | none => rfl
      | some value => exact absurd h (by simp [slotCovered])

theorem getD_covered {α : Type} {d d' : Option α} (h : slotCovered d d' = true) (slot : α) :
    d'.getD (d.getD slot) = d'.getD slot := by
  cases d' with
  | some value => rfl
  | none =>
      cases d with
      | none => rfl
      | some value => exact absurd h (by simp [slotCovered])

/-- Two game states in a row: the later one hides the earlier when both have the ped in a
vehicle or neither does. -/
def pedCovered (d d' : Option PedGameState) : Bool :=
  match d, d' with
  | none, _ => true
  | some _, none => false
  | some p, some p' => decide (p.curVehicle < 0) == decide (p'.curVehicle < 0)

/-- Whether every node of a record is also in another, so that the other one hides it. -/
def SyncNodeData.coveredBy (d d' : SyncNodeData F) : Bool :=
  slotCovered d.sector d'.sector && slotCovered d.sectorPosition d'.sectorPosition
    && slotCovered d.velocity d'.velocity && slotCovered d.health d'.health
    && slotCovered d.vehicleGameState d'.vehicleGameState
    && slotCovered d.vehicleHealth d'.vehicleHealth
    && slotCovered d.vehicleAppearance d'.vehicleAppearance
    && slotCovered d.vehicleDamage d'.vehicleDamage
    && pedCovered d.pedGameState d'.pedGameState
    && slotCovered d.pedMovement d'.pedMovement && slotCovered d.pedTasks d'.pedTasks
    && slotCovered d.relationshipGroup d'.relationshipGroup
    && slotCovered d.sourceOfDamage d'.sourceOfDamage
    && slotCovered d.causeOfDeath d'.causeOfDeath
    && slotCovered d.populationType d'.populationType && slotCovered d.isVisible d'.isVisible
    && slotCovered d.scriptHash d'.scriptHash && slotCovered d.attachedTo d'.attachedTo

theorem slotCovered_refl {α : Type} (d : Option α) : slotCovered d d = true := by
  cases d with
  | none => rfl
  | some value => rfl

theorem pedCovered_refl (d : Option PedGameState) : pedCovered d d = true := by
  cases d with
  | none => rfl
  | some p => simp [pedCovered]

theorem slotCovered_of_ped {d d' : Option PedGameState} (h : pedCovered d d' = true) :
    slotCovered d d' = true := by
  cases d with
  | none => rfl
  | some p =>
      cases d' with
      | none => exact absurd h (by simp [pedCovered])
      | some p' => rfl

theorem SyncNodeData.coveredBy_refl (d : SyncNodeData F) : d.coveredBy d = true := by
  simp only [coveredBy, slotCovered_refl, pedCovered_refl, Bool.and_self]

namespace EntityNodeState

/-- The vehicle a ped has left is the same with and without the record that is covered. -/
theorem leftVehicle_covered {α : Type} (s : EntityNodeState) {d d' : SyncNodeData F}
    (h : pedCovered d.pedGameState d'.pedGameState = true) (f : UInt16 × Int32 → α)
    (slot : Option α) :
    mergeField (mergeField slot ((s.leftVehicle d).map f)) (((s.merge d).leftVehicle d').map f)
      = mergeField slot ((s.leftVehicle d').map f) := by
  cases hd : d.pedGameState with
  | none => simp [leftVehicle, merge, mergeField, hd]
  | some p =>
      rw [hd] at h
      cases hd' : d'.pedGameState with
      | none =>
          rw [hd'] at h
          exact absurd h (by simp [pedCovered])
      | some p' =>
          rw [hd'] at h
          simp only [pedCovered, beq_iff_eq, decide_eq_decide] at h
          -- a ped that both records have on foot left its vehicle at the first of them
          have hsecond : (s.merge d).leftVehicle d' = none := by
            have hno : ¬ (p'.curVehicle < 0 ∧ 0 ≤ p.curVehicle ∧ p.curVehicle < 65536) := by
              rintro ⟨hfoot, hin, -⟩
              have hfoot' := h.mpr hfoot
              rw [Int32.lt_iff_toInt_lt] at hfoot'
              rw [Int32.le_iff_toInt_le] at hin
              omega
            simp only [leftVehicle, merge, mergeField, hd, hd', if_neg hno]
          have hfirst : s.leftVehicle d = s.leftVehicle d' := by
            unfold leftVehicle
            rw [hd, hd']
            cases s.pedGameState with
            | none => rfl
            | some q => simp only [h]
          rw [hsecond, hfirst]
          rfl

theorem merge_covered (s : EntityNodeState) {d d' : SyncNodeData F}
    (h : d.coveredBy d' = true) : (s.merge d).merge d' = s.merge d' := by
  simp only [SyncNodeData.coveredBy, Bool.and_eq_true] at h
  have hped : pedCovered d.pedGameState d'.pedGameState = true := by simp only [h]
  have hlast := s.leftVehicle_covered hped Prod.fst s.lastVehicle
  have hseat := s.leftVehicle_covered hped Prod.snd s.lastVehicleSeat
  have hstate : mergeField (mergeField s.pedGameState d.pedGameState) d'.pedGameState
      = mergeField s.pedGameState d'.pedGameState := mergeField_covered (slotCovered_of_ped hped) _
  unfold merge at hlast hseat ⊢
  simp only [mergeField_covered, h, hstate, hlast, hseat]

end EntityNodeState

/-! ### An empty record -/

section
variable [Scalar F]

namespace SyncParse

theorem shouldRead_maxBit (ids : UInt8 × UInt8 × UInt8) (syncType objType : UInt32)
    (buf : MessageBuffer) : (shouldRead ids syncType objType buf).2.maxBit = buf.maxBit := by
  unfold shouldRead
  split
  · rfl
  · split
    · rfl
    · split
      · rfl
      · rfl

/-- A traversal that has found nothing, and has nothing left to read. -/
def Idle (st st' : WalkState F) : Prop := st'.out = st.out ∧ st'.buf.maxBit = 0

theorem walkLeaf_idle (ctx : WalkContext) (name : NodeName) {st : WalkState F}
    (h : st.buf.maxBit = 0) : Idle st (walkLeaf ctx name st).2 := by
  have hpos : 0 < st.buf.effectiveLen nodeLengthBits := by
    unfold MessageBuffer.effectiveLen nodeLengthBits
    split
    · omega
    · omega
  have hread : st.buf.readBitsSingle nodeLengthBits = (none,
      { st.buf with curBit := st.buf.curBit + st.buf.effectiveLen nodeLengthBits }) := by
    unfold MessageBuffer.readBitsSingle
    simp only
    rw [if_pos (by omega)]
  unfold walkLeaf
  rw [hread]
  exact ⟨rfl, h⟩

/-- Nothing is decoded from an empty stream. -/
theorem walk_idle (ctx : WalkContext) : ∀ (fuel : Nat) {st : WalkState F}, st.buf.maxBit = 0 →
    Idle st (walk ctx fuel st).2 ∧ ∀ depth, Idle st (walkChildren ctx fuel depth st).2 := by
  intro fuel
  induction fuel with
  | zero =>
      intro st h
      exact ⟨⟨rfl, h⟩, fun depth => ⟨rfl, h⟩⟩
  | succ fuel ih =>
      intro st h
      refine ⟨?_, fun depth => ?_⟩
      · unfold walk
        split
        · exact ⟨rfl, h⟩
        · rename_i node _
          have hbuf := (shouldRead_maxBit node.ids ctx.syncType ctx.objType st.buf).trans h
          generalize shouldRead node.ids ctx.syncType ctx.objType st.buf = r at hbuf
          obtain ⟨read, buf⟩ := r
          simp only
          cases node.kind with
          | parent =>
              cases read with
              | true =>
                  have hnext : (⟨st.cursor + 1, buf, st.out⟩ : WalkState F).buf.maxBit = 0 := hbuf
                  exact (ih hnext).2 node.depth
              | false => exact ⟨rfl, hbuf⟩
          | data name maxBytes =>
              cases read with
              | true =>
                  have hnext : (⟨st.cursor + 1, buf, st.out⟩ : WalkState F).buf.maxBit = 0 := hbuf
                  exact walkLeaf_idle ctx name hnext
              | false => exact ⟨rfl, hbuf⟩
      · unfold walkChildren
        split
        · exact ⟨rfl, h⟩
        · split
          · have hchild := (ih h).1
            generalize walk ctx fuel st = r at hchild
            obtain ⟨go, st'⟩ := r
            cases go with
            | false => exact hchild
            | true =>
                have hrest := (ih hchild.2).2 depth
                exact ⟨hrest.1.trans hchild.1, hrest.2⟩
          · exact ⟨rfl, h⟩

end SyncParse

/-- **An empty record carries no nodes.** -/
theorem parseSyncTree_nil (entityType : NetObjEntityType) (isCreate lengthHack : Bool)
    (build : GameBuild) :
    parseSyncTree entityType isCreate [] lengthHack build = ({} : SyncNodeData F) := by
  unfold parseSyncTree
  cases isCreate with
  | true => exact (SyncParse.walk_idle _ _ rfl).1.1
  | false => exact (SyncParse.walk_idle _ _ rfl).1.1

end

end Baston.Rage

namespace Baston.Zone

open Baston.Rage Delta

variable {F : Type}

/-! ### What the sync stream decides -/

/-- Sector, offset, velocity, health and nodes. -/
structure SyncState (F : Type) where
  sector : Vec3 Int32
  sectorPosition : Vec3 F
  velocity : Vec3 F
  health : Option F
  nodes : EntityNodeState
  deriving DecidableEq

def ServerEntity.syncState (e : ServerEntity F) : SyncState F :=
  ⟨e.sector, e.sectorPosition, e.velocity, e.health, e.nodes⟩

namespace SyncState

/-- The state before any record. -/
def empty [Scalar F] : SyncState F := ⟨defaultSector, Vec3.zero, Vec3.zero, none, {}⟩

/-- Fold one decoded record in. -/
def absorb (x : SyncState F) (d : SyncNodeData F) : SyncState F where
  sector := d.sector.getD x.sector
  sectorPosition := d.sectorPosition.getD x.sectorPosition
  velocity := d.velocity.getD x.velocity
  health := mergeField x.health d.health
  nodes := x.nodes.merge d

theorem covers_of_coveredBy {d d' : SyncNodeData F} (h : d.coveredBy d' = true) :
    Covers absorb d d' := by
  intro x
  have hnodes := x.nodes.merge_covered h
  simp only [SyncNodeData.coveredBy, Bool.and_eq_true] at h
  simp only [absorb, getD_covered, mergeField_covered, h, hnodes]

/-- Reading a record twice is reading it once. -/
theorem covers_self (d : SyncNodeData F) : Covers absorb d d :=
  covers_of_coveredBy d.coveredBy_refl

/-- A velocity that a record agrees with or says nothing of. -/
theorem absorb_velocity {x : SyncState F} {d : SyncNodeData F} (h : x.absorb d = x)
    {velocity : Vec3 F} (hagree : ∀ w, d.velocity = some w → w = velocity) :
    { x with velocity := velocity }.absorb d = { x with velocity := velocity } := by
  have hvelocity : d.velocity.getD velocity = velocity := by
    cases hd : d.velocity with
    | none => rfl
    | some w => exact hagree w hd
  obtain ⟨sector, sectorPosition, _, health, nodes⟩ := x
  simp only [absorb, SyncState.mk.injEq] at h ⊢
  exact ⟨h.1, h.2.1, hvelocity, h.2.2.2⟩

theorem absorb_nil (x : SyncState F) : x.absorb {} = x := by
  simp [absorb, EntityNodeState.merge, EntityNodeState.leftVehicle, mergeField]

end SyncState

theorem ServerEntity.syncState_applySyncData [Scalar F] (e : ServerEntity F)
    (d : SyncNodeData F) : (e.applySyncData d).syncState = e.syncState.absorb d := rfl

end Baston.Zone
