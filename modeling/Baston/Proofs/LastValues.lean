/-
What an entity holds after any number of records.

Every field is the last value that a record carried for it.  The position is that of the last
sector and the last offset, which need not have come together, and the vehicle a ped was in is the
last one that a game state had it in, once a later game state has it on foot.
-/
import Baston.Proofs.CreateDecode

namespace Baston.Zone

open Baston.Rage

variable {F α : Type}

/-- The last value the records carry for a node. -/
def lastValue (node : SyncNodeData F → Option α) (records : List (SyncNodeData F)) : Option α :=
  (records.filterMap node).getLast?

theorem lastValue_concat (node : SyncNodeData F → Option α) (records : List (SyncNodeData F))
    (d : SyncNodeData F) :
    lastValue node (records ++ [d]) = mergeField (lastValue node records) (node d) := by
  unfold lastValue mergeField
  rw [List.filterMap_append]
  cases h : node d with
  | none => rw [List.filterMap_cons_none h, List.filterMap_nil, List.append_nil]
  | some value => rw [List.filterMap_cons_some h, List.filterMap_nil, List.getLast?_concat]

theorem mergeField_assoc (slot a b : Option α) :
    mergeField (mergeField slot a) b = mergeField slot (mergeField a b) := by
  cases b with
  | none => rfl
  | some value => rfl

theorem getD_mergeField (a b : Option α) (initial : α) :
    (mergeField a b).getD initial = b.getD (a.getD initial) := by
  cases b with
  | none => rfl
  | some value => rfl

/-- One more record, for one slot. -/
theorem mergeField_lastValue {node : SyncNodeData F → Option α} {records : List (SyncNodeData F)}
    {slot initial : Option α} (h : slot = mergeField initial (lastValue node records))
    (d : SyncNodeData F) :
    mergeField slot (node d) = mergeField initial (lastValue node (records ++ [d])) := by
  rw [h, lastValue_concat, mergeField_assoc]

/-! ### Fields -/

/-- Every field of `e` is the last value of `records`, or what `e0` had. -/
structure LastValues [Scalar F] (e0 : ServerEntity F) (records : List (SyncNodeData F))
    (e : ServerEntity F) : Prop where
  sector : e.sector = (lastValue SyncNodeData.sector records).getD e0.sector
  sectorPosition : e.sectorPosition
    = (lastValue SyncNodeData.sectorPosition records).getD e0.sectorPosition
  position : e.position =
    if records.any carriesPosition then
      worldPosition ((lastValue SyncNodeData.sector records).getD e0.sector)
        ((lastValue SyncNodeData.sectorPosition records).getD e0.sectorPosition)
    else e0.position
  positionKnown : e.positionKnown = (e0.positionKnown || records.any carriesPosition)
  velocity : e.velocity = (lastValue SyncNodeData.velocity records).getD e0.velocity
  health : e.health = mergeField e0.health (lastValue SyncNodeData.health records)
  maxHealth : e.maxHealth = mergeField e0.maxHealth (lastValue SyncNodeData.maxHealth records)
  armour : e.armour = mergeField e0.armour (lastValue SyncNodeData.armour records)
  model : e.model = mergeField e0.model (lastValue SyncNodeData.model records)
  vehicleSeat : e.vehicleSeat
    = mergeField e0.vehicleSeat (lastValue SyncNodeData.vehicleSeat records)
  heading : e.heading = mergeField e0.heading (lastValue SyncNodeData.heading records)
  desiredHeading : e.desiredHeading
    = mergeField e0.desiredHeading (lastValue SyncNodeData.desiredHeading records)
  vehicleGameState : e.nodes.vehicleGameState
    = mergeField e0.nodes.vehicleGameState (lastValue SyncNodeData.vehicleGameState records)
  vehicleHealth : e.nodes.vehicleHealth
    = mergeField e0.nodes.vehicleHealth (lastValue SyncNodeData.vehicleHealth records)
  vehicleAppearance : e.nodes.vehicleAppearance
    = mergeField e0.nodes.vehicleAppearance (lastValue SyncNodeData.vehicleAppearance records)
  vehicleDamage : e.nodes.vehicleDamage
    = mergeField e0.nodes.vehicleDamage (lastValue SyncNodeData.vehicleDamage records)
  pedGameState : e.nodes.pedGameState
    = mergeField e0.nodes.pedGameState (lastValue SyncNodeData.pedGameState records)
  pedMovement : e.nodes.pedMovement
    = mergeField e0.nodes.pedMovement (lastValue SyncNodeData.pedMovement records)
  pedTasks : e.nodes.pedTasks
    = mergeField e0.nodes.pedTasks (lastValue SyncNodeData.pedTasks records)
  relationshipGroup : e.nodes.relationshipGroup
    = mergeField e0.nodes.relationshipGroup (lastValue SyncNodeData.relationshipGroup records)
  sourceOfDamage : e.nodes.sourceOfDamage
    = mergeField e0.nodes.sourceOfDamage (lastValue SyncNodeData.sourceOfDamage records)
  causeOfDeath : e.nodes.causeOfDeath
    = mergeField e0.nodes.causeOfDeath (lastValue SyncNodeData.causeOfDeath records)
  populationType : e.nodes.populationType
    = mergeField e0.nodes.populationType (lastValue SyncNodeData.populationType records)
  isVisible : e.nodes.isVisible
    = mergeField e0.nodes.isVisible (lastValue SyncNodeData.isVisible records)
  scriptHash : e.nodes.scriptHash
    = mergeField e0.nodes.scriptHash (lastValue SyncNodeData.scriptHash records)
  attachedTo : e.nodes.attachedTo
    = mergeField e0.nodes.attachedTo (lastValue SyncNodeData.attachedTo records)

section

variable [Scalar F] {e0 e : ServerEntity F} {records : List (SyncNodeData F)}

theorem LastValues.nil (e0 : ServerEntity F) : LastValues e0 [] e0 := by
  constructor <;> simp [lastValue, mergeField]

/-- One more record. -/
theorem LastValues.applySyncData (h : LastValues e0 records e) (d : SyncNodeData F) :
    LastValues e0 (records ++ [d]) (e.applySyncData d) := by
  have hsector : d.sector.getD e.sector
      = (lastValue SyncNodeData.sector (records ++ [d])).getD e0.sector := by
    rw [lastValue_concat, getD_mergeField, h.sector]
  have hoffset : d.sectorPosition.getD e.sectorPosition
      = (lastValue SyncNodeData.sectorPosition (records ++ [d])).getD e0.sectorPosition := by
    rw [lastValue_concat, getD_mergeField, h.sectorPosition]
  have hany : (records ++ [d]).any carriesPosition
      = (records.any carriesPosition || carriesPosition d) := by
    rw [List.any_append, List.any_cons, List.any_nil, Bool.or_false]
  have hposition : (if carriesPosition d then
        worldPosition (d.sector.getD e.sector) (d.sectorPosition.getD e.sectorPosition)
      else e.position)
      = if (records ++ [d]).any carriesPosition then
          worldPosition ((lastValue SyncNodeData.sector (records ++ [d])).getD e0.sector)
            ((lastValue SyncNodeData.sectorPosition (records ++ [d])).getD e0.sectorPosition)
        else e0.position := by
    rw [hsector, hoffset, hany]
    by_cases hd : carriesPosition d = true
    · rw [if_pos hd, hd, Bool.or_true, if_pos rfl]
    · -- neither half is in the record, so both are what they were
      rw [Bool.not_eq_true] at hd
      have hnone := hd
      unfold carriesPosition at hnone
      obtain ⟨hs, ho⟩ := Bool.or_eq_false_iff.mp hnone
      rw [Option.isSome_eq_false_iff, Option.isNone_iff_eq_none] at hs ho
      rw [hd, Bool.or_false, if_neg Bool.false_ne_true, h.position, lastValue_concat,
        lastValue_concat, hs, ho]
      rfl
  have hknown : (e.positionKnown || carriesPosition d)
      = (e0.positionKnown || (records ++ [d]).any carriesPosition) := by
    rw [hany, h.positionKnown, Bool.or_assoc]
  have hvelocity : d.velocity.getD e.velocity
      = (lastValue SyncNodeData.velocity (records ++ [d])).getD e0.velocity := by
    rw [lastValue_concat, getD_mergeField, h.velocity]
  exact ⟨hsector, hoffset, hposition, hknown, hvelocity,
    mergeField_lastValue h.health d, mergeField_lastValue h.maxHealth d,
    mergeField_lastValue h.armour d, mergeField_lastValue h.model d,
    mergeField_lastValue h.vehicleSeat d, mergeField_lastValue h.heading d,
    mergeField_lastValue h.desiredHeading d, mergeField_lastValue h.vehicleGameState d,
    mergeField_lastValue h.vehicleHealth d, mergeField_lastValue h.vehicleAppearance d,
    mergeField_lastValue h.vehicleDamage d, mergeField_lastValue h.pedGameState d,
    mergeField_lastValue h.pedMovement d, mergeField_lastValue h.pedTasks d,
    mergeField_lastValue h.relationshipGroup d, mergeField_lastValue h.sourceOfDamage d,
    mergeField_lastValue h.causeOfDeath d, mergeField_lastValue h.populationType d,
    mergeField_lastValue h.isVisible d, mergeField_lastValue h.scriptHash d,
    mergeField_lastValue h.attachedTo d⟩

theorem lastValues_foldl (e0 : ServerEntity F) (records : List (SyncNodeData F)) :
    LastValues e0 records (records.foldl ServerEntity.applySyncData e0) := by
  induction records using List.reverseRecOn with
  | nil => exact .nil e0
  | append_singleton records d ih =>
      rw [List.foldl_append]
      exact ih.applySyncData d

end

/-! ### The vehicle a ped was in -/

/-- The game states of the records, oldest first. -/
def gameStates (records : List (SyncNodeData F)) : List PedGameState :=
  records.filterMap SyncNodeData.pedGameState

/-- The last game state that had the ped in a vehicle. -/
def lastBoarded (records : List (SyncNodeData F)) : Option PedGameState :=
  ((gameStates records).filter fun p => 0 ≤ p.curVehicle).getLast?

/-- A vehicle and a seat are kept. -/
def Remembers (nodes : EntityNodeState) (p : PedGameState) : Prop :=
  ∃ vehicle : UInt16, (vehicle.toNat : Int) = p.curVehicle.toInt
    ∧ nodes.lastVehicle = some vehicle ∧ nodes.lastVehicleSeat = some p.curVehicleSeat

theorem gameStates_concat (records : List (SyncNodeData F)) (d : SyncNodeData F) :
    gameStates (records ++ [d]) = gameStates records ++ d.pedGameState.toList := by
  unfold gameStates
  rw [List.filterMap_append]
  cases h : d.pedGameState with
  | none => rw [List.filterMap_cons_none h]; rfl
  | some p => rw [List.filterMap_cons_some h]; rfl

theorem toNat_toUInt16 {v : Int32} (hpos : 0 ≤ v) (hfits : v < 65536) :
    (v.toUInt32.toUInt16.toNat : Int) = v.toInt := by
  rw [Int32.le_iff_toInt_le, Int32.toInt_zero] at hpos
  rw [Int32.lt_iff_toInt_lt] at hfits
  have hlimit : (65536 : Int32).toInt = 65536 := by decide
  have hvalue : v.toInt = v.toUInt32.toNat ∨ v.toInt < 0 := by
    have hcond := BitVec.toInt_eq_toNat_cond v.toBitVec
    have hint : v.toInt = v.toBitVec.toInt := rfl
    have hnat : v.toUInt32.toNat = v.toBitVec.toNat := rfl
    split at hcond
    · exact .inl (by omega)
    · exact .inr (by omega)
  rw [UInt32.toNat_toUInt16]
  omega

/-- A ped that gets out is remembered where it was. -/
theorem remembers_left {nodes : EntityNodeState} {d : SyncNodeData F} {p q : PedGameState}
    (hd : d.pedGameState = some p) (hnodes : nodes.pedGameState = some q)
    (hfoot : p.curVehicle < 0) (hin : 0 ≤ q.curVehicle) (hid : q.curVehicle ≤ 65535) :
    Remembers (nodes.merge d) q := by
  have hfits : q.curVehicle < 65536 := by
    rw [Int32.lt_iff_toInt_lt]
    rw [Int32.le_iff_toInt_le] at hid
    exact Int.lt_of_le_of_lt hid (by decide)
  have hleft : nodes.leftVehicle d
      = some (q.curVehicle.toUInt32.toUInt16, q.curVehicleSeat) := by
    unfold EntityNodeState.leftVehicle
    rw [hd, hnodes]
    simp only
    rw [if_pos ⟨hfoot, hin, hfits⟩]
  refine ⟨q.curVehicle.toUInt32.toUInt16, ?_, ?_, ?_⟩
  · exact toNat_toUInt16 hin hfits
  · show mergeField _ ((nodes.leftVehicle d).map Prod.fst) = _
    rw [hleft]
    rfl
  · show mergeField _ ((nodes.leftVehicle d).map Prod.snd) = _
    rw [hleft]
    rfl

theorem remembers_kept {nodes : EntityNodeState} {d : SyncNodeData F} {p : PedGameState}
    (h : Remembers nodes p) (hleft : nodes.leftVehicle d = none) :
    Remembers (nodes.merge d) p := by
  obtain ⟨vehicle, hid, hvehicle, hseat⟩ := h
  refine ⟨vehicle, hid, ?_, ?_⟩
  · show mergeField nodes.lastVehicle ((nodes.leftVehicle d).map Prod.fst) = _
    rw [hleft]
    exact hvehicle
  · show mergeField nodes.lastVehicleSeat ((nodes.leftVehicle d).map Prod.snd) = _
    rw [hleft]
    exact hseat

/-- What the nodes know of the vehicles the ped was in. -/
structure History (records : List (SyncNodeData F)) (nodes : EntityNodeState) : Prop where
  latest : nodes.pedGameState = (gameStates records).getLast?
  aboard : ∀ p, nodes.pedGameState = some p → 0 ≤ p.curVehicle → lastBoarded records = some p
  left : ∀ p v, nodes.pedGameState = some p → p.curVehicle < 0 → lastBoarded records = some v →
    Remembers nodes v

theorem History.merge {records : List (SyncNodeData F)} {nodes : EntityNodeState}
    (h : History records nodes) (hids : ∀ p ∈ gameStates records, p.curVehicle ≤ 65535)
    (d : SyncNodeData F) : History (records ++ [d]) (nodes.merge d) := by
  have hfoot : ∀ {v : Int32}, v < 0 → ¬ 0 ≤ v := fun hneg hpos => by
    rw [Int32.lt_iff_toInt_lt] at hneg
    rw [Int32.le_iff_toInt_le] at hpos
    omega
  cases hd : d.pedGameState with
  | none =>
      have hsame : lastBoarded (records ++ [d]) = lastBoarded records := by
        unfold lastBoarded
        rw [gameStates_concat, hd, Option.toList_none, List.append_nil]
      have hstate : (nodes.merge d).pedGameState = nodes.pedGameState := by
        show mergeField nodes.pedGameState d.pedGameState = _
        rw [hd]
        rfl
      have hleft : nodes.leftVehicle d = none := by
        unfold EntityNodeState.leftVehicle
        rw [hd]
      have hlatest : (nodes.merge d).pedGameState = (gameStates (records ++ [d])).getLast? := by
        rw [hstate, h.latest, gameStates_concat, hd, Option.toList_none, List.append_nil]
      refine ⟨hlatest, fun p hp hin => ?_, fun p v hp hneg hv => ?_⟩
      · rw [hsame]
        exact h.aboard p (hstate ▸ hp) hin
      · rw [hsame] at hv
        exact remembers_kept (h.left p v (hstate ▸ hp) hneg hv) hleft
  | some now =>
      have hstate : (nodes.merge d).pedGameState = some now := by
        show mergeField nodes.pedGameState d.pedGameState = _
        rw [hd]
        rfl
      have hconcat : lastBoarded (records ++ [d])
          = ((gameStates records).filter (fun p => 0 ≤ p.curVehicle)
            ++ [now].filter fun p => 0 ≤ p.curVehicle).getLast? := by
        unfold lastBoarded
        rw [gameStates_concat, hd, List.filter_append]
        rfl
      have hlatest : (nodes.merge d).pedGameState = (gameStates (records ++ [d])).getLast? := by
        rw [hstate, gameStates_concat, hd, Option.toList_some, List.getLast?_concat]
      refine ⟨hlatest, fun p hp hin => ?_, fun p v hp hneg hv => ?_⟩
      · obtain rfl := Option.some.inj (hstate.symm.trans hp)
        rw [hconcat, List.filter_cons_of_pos (by simpa using hin), List.filter_nil,
          List.getLast?_concat]
      · obtain rfl := Option.some.inj (hstate.symm.trans hp)
        rw [hconcat, List.filter_cons_of_neg (by simpa using hfoot hneg), List.filter_nil,
          List.append_nil] at hv
        have hv' : lastBoarded records = some v := hv
        cases hbefore : nodes.pedGameState with
        | none =>
            have hnone : gameStates records = [] :=
              List.getLast?_eq_none_iff.mp (h.latest.symm.trans hbefore)
            unfold lastBoarded at hv'
            rw [hnone] at hv'
            exact absurd hv' (by simp)
        | some q =>
            by_cases hin : 0 ≤ q.curVehicle
            · -- the ped gets out with this record
              obtain rfl := Option.some.inj ((h.aboard q hbefore hin).symm.trans hv')
              have hmem : q ∈ gameStates records :=
                List.mem_of_mem_filter (List.mem_of_getLast? hv')
              exact remembers_left hd hbefore hneg hin (hids q hmem)
            · have hleft : nodes.leftVehicle d = none := by
                unfold EntityNodeState.leftVehicle
                rw [hd, hbefore]
                exact if_neg fun hcond => hin hcond.2.1
              refine remembers_kept (h.left q v hbefore ?_ hv') hleft
              rw [Int32.le_iff_toInt_le] at hin
              rw [Int32.lt_iff_toInt_lt]
              omega

section

variable [Scalar F]

theorem history_foldl {e0 : ServerEntity F} (hnodes : e0.nodes = {})
    (records : List (SyncNodeData F)) :
    (∀ p ∈ gameStates records, p.curVehicle ≤ 65535) →
      History records (records.foldl ServerEntity.applySyncData e0).nodes := by
  induction records using List.reverseRecOn with
  | nil =>
      intro _
      rw [List.foldl_nil, hnodes]
      exact ⟨rfl, fun p hp => absurd hp (by simp), fun p v hp => absurd hp (by simp)⟩
  | append_singleton records d ih =>
      intro hids
      rw [List.foldl_append]
      have hbefore : ∀ p ∈ gameStates records, p.curVehicle ≤ 65535 := by
        intro p hp
        refine hids p ?_
        rw [gameStates_concat]
        exact List.mem_append_left _ hp
      exact (ih hbefore).merge hbefore d

/-! ### Fresh entities -/

/-- An entity of which nothing was decoded. -/
structure Fresh (e : ServerEntity F) : Prop where
  sector : e.sector = defaultSector
  nodes : e.nodes = {}

theorem fresh_empty (s : ServerGameState F) (source : UInt32) (objectId uniqifier : UInt16)
    (entityType : NetObjEntityType) (creationToken : UInt32) (data : List UInt8) :
    Fresh (ServerEntity.empty s source objectId uniqifier entityType creationToken data) :=
  ⟨rfl, rfl⟩

/-- **The records of an entity fold to their last values**, and so do its place and the vehicle
that a ped was in last. -/
theorem applySyncData_last_values (e0 : ServerEntity F) (records : List (SyncNodeData F))
    (hfresh : Fresh e0) (hids : ∀ p ∈ gameStates records, p.curVehicle ≤ 65535) :
    LastValues e0 records (records.foldl ServerEntity.applySyncData e0)
      ∧ (records.any carriesPosition = true →
        (records.foldl ServerEntity.applySyncData e0).position
          = worldPosition ((lastValue SyncNodeData.sector records).getD defaultSector)
            ((lastValue SyncNodeData.sectorPosition records).getD e0.sectorPosition))
      ∧ ∀ p v, lastValue SyncNodeData.pedGameState records = some p → p.curVehicle < 0 →
        lastBoarded records = some v →
          Remembers (records.foldl ServerEntity.applySyncData e0).nodes v := by
  have hvalues := lastValues_foldl e0 records
  refine ⟨hvalues, fun hany => ?_, fun p v hp hfoot hv => ?_⟩
  · rw [hvalues.position, if_pos hany, hfresh.sector]
  · have hhistory := history_foldl hfresh.nodes records hids
    exact hhistory.left p v (hhistory.latest.trans hp) hfoot hv

end

/-- A ped that gets out of vehicle 7, with a record in between and one behind. -/
theorem ped_left_vehicle :
    Remembers ((([{ pedGameState := some { curVehicle := 7, curVehicleSeat := 2 } },
        { isVisible := some true }, { pedGameState := some {} }, { isVisible := some true }] :
        List (SyncNodeData Float32)).foldl ServerEntity.applySyncData
          (.empty ServerGameState.freshState 1 5 0 .ped 0 [])).nodes) { curVehicle := 7, curVehicleSeat := 2 } :=
  (applySyncData_last_values _ _ (fresh_empty _ 1 5 0 .ped 0 []) (by decide)).2.2 {} _
    (by rfl) (by decide) (by rfl)

end Baston.Zone
