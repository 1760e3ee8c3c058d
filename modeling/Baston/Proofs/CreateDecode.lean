/-
What an accepted create makes of its blob.

A create keeps its payload as the create blob and starts with an empty sync blob, and the
decoder is run on the latter.  So a new entity holds nothing of what its create carries,
and what it holds is right only when the create carries nothing that is kept.
-/
import Baston.Proofs.Merge
import Baston.Proofs.Nack

namespace Baston.Zone

open Assoc Baston.Rage

variable {F : Type}

/-- What the decoder decides of an entity. -/
structure DecodedState (F : Type) where
  sector : Vec3 Int32
  sectorPosition : Vec3 F
  position : Vec3 F
  positionKnown : Bool
  velocity : Vec3 F
  health : Option F
  model : Option UInt32
  vehicleSeat : Option (UInt16 × UInt8)
  heading : Option F
  nodes : EntityNodeState
  deriving DecidableEq

def ServerEntity.decodedState (e : ServerEntity F) : DecodedState F where
  sector := e.sector
  sectorPosition := e.sectorPosition
  position := e.position
  positionKnown := e.positionKnown
  velocity := e.velocity
  health := e.health
  model := e.model
  vehicleSeat := e.vehicleSeat
  heading := e.heading
  nodes := e.nodes

/-- A record with a position node. -/
def carriesPosition (d : SyncNodeData F) : Bool := d.sector.isSome || d.sectorPosition.isSome

/-- A record with a node that `EntityNodeState` keeps. -/
def carriesNode (d : SyncNodeData F) : Bool :=
  [d.vehicleGameState.isSome, d.vehicleHealth.isSome, d.vehicleAppearance.isSome,
    d.vehicleDamage.isSome, d.pedGameState.isSome, d.pedMovement.isSome, d.pedTasks.isSome,
    d.relationshipGroup.isSome, d.sourceOfDamage.isSome, d.causeOfDeath.isSome,
    d.populationType.isSome, d.isVisible.isSome, d.scriptHash.isSome, d.attachedTo.isSome].any id

/-- Nodes that are merged into none are none exactly if the record carries none. -/
theorem merge_empty_iff (d : SyncNodeData F) :
    ({} : EntityNodeState).merge d = {} ↔ carriesNode d = false := by
  have kept : ∀ {α : Type} (o : Option α), mergeField none o = none ↔ o.isSome = false := by
    intro α o
    cases o with
    | none => simp [mergeField]
    | some a => simp [mergeField]
  have left : ({} : EntityNodeState).leftVehicle d = none := by
    unfold EntityNodeState.leftVehicle
    split
    · rename_i heq
      exact absurd heq (by simp)
    · rfl
  simp only [EntityNodeState.merge, left, EntityNodeState.mk.injEq, kept, carriesNode,
    List.any_cons, List.any_nil, id, Bool.or_eq_false_iff, Option.map_none, Option.isSome_none,
    and_true]

section
variable [Scalar F]

/-- An entity nothing was decoded of. -/
def ServerEntity.empty (s : ServerGameState F) (source : UInt32) (objectId uniqifier : UInt16)
    (entityType : NetObjEntityType) (creationToken : UInt32) (data : List UInt8) :
    ServerEntity F where
  objectId := objectId
  uniqifier := uniqifier
  owner := source
  entityType := entityType
  creationToken := creationToken
  data := []
  createData := data
  frameIndex := s.frameIndex
  position := Vec3.zero
  positionKnown := false
  sector := defaultSector
  sectorPosition := Vec3.zero
  velocity := Vec3.zero
  routingBucket := s.routingBuckets.playerBucket source
  health := none
  maxHealth := none
  armour := none
  model := none
  vehicleSeat := none
  firstOwner := source
  nodes := {}
  heading := none
  desiredHeading := none
  serverOwned := false

/-- A create blob decodes to nothing that an entity keeps. -/
structure Blank (d : SyncNodeData F) : Prop where
  unplaced : carriesPosition d = false
  still : d.velocity = none ∨ d.velocity = some Vec3.zero
  health : d.health = none
  model : d.model = none
  vehicleSeat : d.vehicleSeat = none
  heading : d.heading = none
  nodes : carriesNode d = false

/-- What is folded into an empty entity leaves it as it is exactly if it is blank. -/
theorem decodedState_empty_iff (s : ServerGameState F) (source : UInt32)
    (objectId uniqifier : UInt16) (entityType : NetObjEntityType) (creationToken : UInt32)
    (data : List UInt8) (d : SyncNodeData F) :
    (ServerEntity.empty s source objectId uniqifier entityType creationToken data).decodedState
        = ((ServerEntity.empty s source objectId uniqifier entityType creationToken
            data).applySyncData d).decodedState ↔ Blank d := by
  constructor
  · intro h
    have hknown : false = (false || carriesPosition d) := congrArg DecodedState.positionKnown h
    have hvelocity : Vec3.zero = d.velocity.getD Vec3.zero := congrArg DecodedState.velocity h
    have hnodes : ({} : EntityNodeState) = ({} : EntityNodeState).merge d :=
      congrArg DecodedState.nodes h
    have none_of_kept : ∀ {α : Type} {o : Option α}, none = mergeField none o → o = none := by
      intro α o ho
      cases o with
      | none => rfl
      | some a => exact absurd ho (by simp [mergeField])
    refine ⟨hknown.symm, ?_, none_of_kept (congrArg DecodedState.health h),
      none_of_kept (congrArg DecodedState.model h),
      none_of_kept (congrArg DecodedState.vehicleSeat h),
      none_of_kept (congrArg DecodedState.heading h), (merge_empty_iff d).mp hnodes.symm⟩
    cases hv : d.velocity with
    | none => exact .inl rfl
    | some v =>
        rw [hv] at hvelocity
        exact .inr (congrArg some hvelocity.symm)
  · intro blank
    have hplace := blank.unplaced
    unfold carriesPosition at hplace
    obtain ⟨hsector, hoffset⟩ := Bool.or_eq_false_iff.mp hplace
    rw [Option.isSome_eq_false_iff, Option.isNone_iff_eq_none] at hsector hoffset
    have hvelocity : d.velocity.getD Vec3.zero = (Vec3.zero : Vec3 F) := by
      rcases blank.still with hv | hv
      · rw [hv]
        rfl
      · rw [hv]
        rfl
    simp only [ServerEntity.decodedState, ServerEntity.applySyncData, ServerEntity.empty, hsector,
      hoffset, hvelocity, blank.health, blank.model, blank.vehicleSeat, blank.heading, mergeField,
      (merge_empty_iff d).mpr blank.nodes, Option.getD_none, Option.isSome_none, Bool.or_false,
      Bool.false_eq_true, if_false]

namespace ServerGameState

/-- The entity under an id holds what its create blob decodes to, and if that places it, it is
in the snapshot of the world. -/
def createDecoded (s : ServerGameState F) (source : UInt32) (objectId uniqifier : UInt16)
    (entityType : NetObjEntityType) (creationToken : UInt32) (data : List UInt8) : Prop :=
  let after := (s.applyCreate source objectId uniqifier (some entityType) creationToken data).1
  let decoded : SyncNodeData F := parseSyncTree entityType true data s.lengthHack s.build
  ∃ e, after.entities.lookup objectId = some e ∧
    e.decodedState = ((ServerEntity.empty s source objectId uniqifier entityType creationToken
      data).applySyncData decoded).decodedState ∧
    (carriesPosition decoded = true → e.snapshot ∈ after.worldSnapshot)

/-- An accepted create under a new id leaves an empty entity. -/
theorem applyCreate_new {s : ServerGameState F} {source : UInt32} {objectId uniqifier : UInt16}
    {entityType : NetObjEntityType} {creationToken : UInt32} {data : List UInt8}
    (hnew : s.entities.lookup objectId = none)
    (haccepted : (s.applyCreate source objectId uniqifier (some entityType) creationToken
      data).2 = true) :
    (s.applyCreate source objectId uniqifier (some entityType) creationToken
      data).1.entities.lookup objectId
        = some (.empty s source objectId uniqifier entityType creationToken data) := by
  have hentity : s.createdEntity source objectId uniqifier entityType creationToken data
      = .empty s source objectId uniqifier entityType creationToken data := by
    unfold createdEntity
    simp only [parseSyncTree_nil, hnew]
    simp [ServerEntity.applySyncData, ServerEntity.empty, mergeField, EntityNodeState.merge,
      EntityNodeState.leftVehicle]
  unfold applyCreate at haccepted ⊢
  simp only [hnew, Bool.or_false] at haccepted ⊢
  split at haccepted
  · exact absurd haccepted (by simp)
  · rename_i hallowed
    rw [if_neg hallowed, hentity]
    exact AList.lookup_insert _

/-- **A create is decoded exactly if there is nothing to decode.**  An entity that is new holds
what its create blob decodes to just when the blob decodes to nothing that is kept. -/
theorem create_decoded_iff (s : ServerGameState F) (source : UInt32)
    (objectId uniqifier : UInt16) (entityType : NetObjEntityType) (creationToken : UInt32)
    (data : List UInt8) (hnew : s.entities.lookup objectId = none)
    (haccepted : (s.applyCreate source objectId uniqifier (some entityType) creationToken
      data).2 = true) :
    s.createDecoded source objectId uniqifier entityType creationToken data
      ↔ Blank (parseSyncTree entityType true data s.lengthHack s.build : SyncNodeData F) := by
  have hstored := applyCreate_new hnew haccepted
  constructor
  · rintro ⟨e, he, hstate, -⟩
    obtain rfl := Option.some.inj (hstored.symm.trans he)
    exact (decodedState_empty_iff s source objectId uniqifier entityType creationToken data _).mp
      hstate
  · intro blank
    refine ⟨_, hstored, (decodedState_empty_iff s source objectId uniqifier entityType
      creationToken data _).mpr blank, fun hplaced => ?_⟩
    rw [blank.unplaced] at hplaced
    exact absurd hplaced (by simp)

end ServerGameState

end

/-! ### Two objects -/

namespace ServerGameState

/-- A state nobody has created anything in. -/
def freshState : ServerGameState Float32 := .withBuild false false default

/-- A create blob that places an object in sector (512, 512, 24). -/
def objectBlob : List UInt8 :=
  [1, 89, 0, 0, 0, 1, 224, 96, 26, 128, 32, 6, 32, 61, 130, 94, 208, 75, 218, 87, 48, 52, 4, 142,
    0, 64, 8, 0, 0]

/-- A blob without nodes is decoded. -/
theorem blank_create_decoded :
    (freshState.applyCreate 1 5 1 (some .object) 0 [0]).2 = true ∧
      Blank (parseSyncTree .object true [0] false default : SyncNodeData Float32) ∧
      freshState.createDecoded 1 5 1 .object 0 [0] := by
  have haccepted : (freshState.applyCreate 1 5 1 (some .object) 0 [0]).2 = true := by
    decide +kernel
  have hnone : (parseSyncTree .object true [0] false default : SyncNodeData Float32) = {} := by
    decide +kernel
  have blank : Blank (parseSyncTree .object true [0] false default : SyncNodeData Float32) := by
    rw [hnone]
    exact ⟨rfl, .inl rfl, rfl, rfl, rfl, rfl, rfl⟩
  exact ⟨haccepted, blank,
    (create_decoded_iff freshState 1 5 1 .object 0 [0] rfl haccepted).mpr blank⟩

/-- The create of a placed object is accepted, and the object has no place. -/
theorem placed_create_not_decoded :
    (freshState.applyCreate 1 5 1 (some .object) 0 objectBlob).2 = true ∧
      carriesPosition (parseSyncTree .object true objectBlob false default
        : SyncNodeData Float32) = true ∧
      (freshState.applyCreate 1 5 1 (some .object) 0 objectBlob).1.worldSnapshot.length = 0 ∧
      ¬ freshState.createDecoded 1 5 1 .object 0 objectBlob := by
  have hplaced : carriesPosition (parseSyncTree .object true objectBlob false default
      : SyncNodeData Float32) = true := by decide +kernel
  have hempty : (freshState.applyCreate 1 5 1 (some .object) 0
      objectBlob).1.worldSnapshot.length = 0 := by decide +kernel
  refine ⟨by decide +kernel, hplaced, hempty, ?_⟩
  rintro ⟨e, -, -, hseen⟩
  have hmem := hseen hplaced
  rw [List.length_eq_zero_iff.mp hempty] at hmem
  exact absurd hmem List.not_mem_nil

end ServerGameState

end Baston.Zone
