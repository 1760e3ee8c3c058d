/-
Leaves do not disturb one another.

A decoder is handed a copy of its own body and a record to fold into.  It sets some fields of
the record to what the body says and leaves the others alone, so a change inside one body shows
in the fields of that leaf and nowhere else.
-/
import Baston.Proofs.SyncTwin

namespace Baston.Rage

open MessageBuffer SyncParse
open BitM (bits bit)

/-! ### The fields of a record -/

/-- The fields of a decoded record. -/
inductive Field
  | sector | sectorPosition | velocity | health | maxHealth | armour | model | vehicleSeat
  | heading | vehicleGameState | vehicleHealth | vehicleAppearance | vehicleDamage
  | pedGameState | sourceOfDamage | causeOfDeath | desiredHeading | pedMovement
  | relationshipGroup | pedTasks | populationType | isVisible | scriptHash | attachedTo
  deriving DecidableEq

namespace Field

variable {F : Type}

/-- Two records agree on a field. -/
def Same (a b : SyncNodeData F) : Field → Prop
  | .sector => a.sector = b.sector
  | .sectorPosition => a.sectorPosition = b.sectorPosition
  | .velocity => a.velocity = b.velocity
  | .health => a.health = b.health
  | .maxHealth => a.maxHealth = b.maxHealth
  | .armour => a.armour = b.armour
  | .model => a.model = b.model
  | .vehicleSeat => a.vehicleSeat = b.vehicleSeat
  | .heading => a.heading = b.heading
  | .vehicleGameState => a.vehicleGameState = b.vehicleGameState
  | .vehicleHealth => a.vehicleHealth = b.vehicleHealth
  | .vehicleAppearance => a.vehicleAppearance = b.vehicleAppearance
  | .vehicleDamage => a.vehicleDamage = b.vehicleDamage
  | .pedGameState => a.pedGameState = b.pedGameState
  | .sourceOfDamage => a.sourceOfDamage = b.sourceOfDamage
  | .causeOfDeath => a.causeOfDeath = b.causeOfDeath
  | .desiredHeading => a.desiredHeading = b.desiredHeading
  | .pedMovement => a.pedMovement = b.pedMovement
  | .relationshipGroup => a.relationshipGroup = b.relationshipGroup
  | .pedTasks => a.pedTasks = b.pedTasks
  | .populationType => a.populationType = b.populationType
  | .isVisible => a.isVisible = b.isVisible
  | .scriptHash => a.scriptHash = b.scriptHash
  | .attachedTo => a.attachedTo = b.attachedTo

theorem Same.refl (a : SyncNodeData F) (f : Field) : Same a a f := by
  cases f <;> rfl

theorem Same.trans {a b c : SyncNodeData F} {f : Field} (h : Same a b f) (h' : Same b c f) :
    Same a c f := by
  cases f <;> exact Eq.trans h h'

theorem Same.symm {a b : SyncNodeData F} {f : Field} (h : Same a b f) : Same b a f := by
  cases f <;> exact Eq.symm h

end Field

/-- The record `out` with the fields `fs` set as in `patch`. -/
def overwrite {F : Type} (fs : List Field) (patch out : SyncNodeData F) : SyncNodeData F where
  sector := if .sector ∈ fs then patch.sector else out.sector
  sectorPosition := if .sectorPosition ∈ fs then patch.sectorPosition else out.sectorPosition
  velocity := if .velocity ∈ fs then patch.velocity else out.velocity
  health := if .health ∈ fs then patch.health else out.health
  maxHealth := if .maxHealth ∈ fs then patch.maxHealth else out.maxHealth
  armour := if .armour ∈ fs then patch.armour else out.armour
  model := if .model ∈ fs then patch.model else out.model
  vehicleSeat := if .vehicleSeat ∈ fs then patch.vehicleSeat else out.vehicleSeat
  heading := if .heading ∈ fs then patch.heading else out.heading
  vehicleGameState := if .vehicleGameState ∈ fs then patch.vehicleGameState else out.vehicleGameState
  vehicleHealth := if .vehicleHealth ∈ fs then patch.vehicleHealth else out.vehicleHealth
  vehicleAppearance := if .vehicleAppearance ∈ fs then patch.vehicleAppearance else out.vehicleAppearance
  vehicleDamage := if .vehicleDamage ∈ fs then patch.vehicleDamage else out.vehicleDamage
  pedGameState := if .pedGameState ∈ fs then patch.pedGameState else out.pedGameState
  sourceOfDamage := if .sourceOfDamage ∈ fs then patch.sourceOfDamage else out.sourceOfDamage
  causeOfDeath := if .causeOfDeath ∈ fs then patch.causeOfDeath else out.causeOfDeath
  desiredHeading := if .desiredHeading ∈ fs then patch.desiredHeading else out.desiredHeading
  pedMovement := if .pedMovement ∈ fs then patch.pedMovement else out.pedMovement
  relationshipGroup := if .relationshipGroup ∈ fs then patch.relationshipGroup else out.relationshipGroup
  pedTasks := if .pedTasks ∈ fs then patch.pedTasks else out.pedTasks
  populationType := if .populationType ∈ fs then patch.populationType else out.populationType
  isVisible := if .isVisible ∈ fs then patch.isVisible else out.isVisible
  scriptHash := if .scriptHash ∈ fs then patch.scriptHash else out.scriptHash
  attachedTo := if .attachedTo ∈ fs then patch.attachedTo else out.attachedTo

theorem same_overwrite_of_not {F : Type} {fs : List Field} {f : Field} (h : f ∉ fs)
    (patch out : SyncNodeData F) : f.Same (overwrite fs patch out) out := by
  cases f <;> exact if_neg h

theorem same_overwrite {F : Type} (fs : List Field) {f : Field} (patch : SyncNodeData F)
    {out out' : SyncNodeData F} (h : f.Same out out') :
    f.Same (overwrite fs patch out) (overwrite fs patch out') := by
  cases f <;> exact congrArg (ite _ _) h

namespace SyncParse

/-- The fields the decoder of a node may set. -/
def writes : NodeName → List Field
  | .cSectorDataNode => [.sector]
  | .cSectorPositionDataNode | .cPlayerSectorPosNode | .cObjectSectorPosNode
  | .cPedSectorPosMapNode => [.sectorPosition]
  | .cPedHealthDataNode => [.health, .maxHealth, .armour, .sourceOfDamage, .causeOfDeath]
  | .cVehicleCreationDataNode => [.model, .populationType]
  | .cPedCreationDataNode => [.model, .populationType, .vehicleSeat]
  | .cEntityOrientationDataNode | .cObjectOrientationDataNode => [.heading]
  | .cPedOrientationDataNode => [.heading, .desiredHeading]
  | .cPhysicalVelocityDataNode => [.velocity]
  | .cVehicleGameStateDataNode => [.vehicleGameState]
  | .cVehicleHealthDataNode => [.vehicleHealth]
  | .cVehicleAppearanceDataNode => [.vehicleAppearance]
  | .cVehicleDamageStatusDataNode => [.vehicleDamage]
  | .cPedGameStateDataNode => [.pedGameState]
  | .cPedMovementGroupDataNode => [.pedMovement]
  | .cPedAIDataNode => [.relationshipGroup]
  | .cPedTaskTreeDataNode => [.pedTasks]
  | .cPedScriptGameStateDataNode => [.populationType]
  | .cPhysicalGameStateDataNode => [.isVisible]
  | .cEntityScriptInfoDataNode => [.scriptHash]
  | .cPhysicalAttachDataNode | .cPedAttachDataNode => [.attachedTo]
  | _ => []

variable {F : Type}

/-- However it runs, a decoder sets some of the fields `fs`, to values it takes from its body. -/
def Patches (fs : List Field) (decode : SyncNodeData F → StateM MessageBuffer (SyncNodeData F)) :
    Prop :=
  ∀ buf, ∃ gs, gs ⊆ fs ∧ ∃ patch, ∀ out, (decode out buf).1 = overwrite gs patch out

namespace Patches

variable {fs : List Field} {α : Type}

theorem keep : Patches fs (fun out : SyncNodeData F => pure out) := fun _ =>
  ⟨[], List.nil_subset _, {}, fun _ => rfl⟩

theorem set (gs : List Field) (hgs : gs ⊆ fs) {g : SyncNodeData F → SyncNodeData F}
    (h : ∀ out, g out = overwrite gs (g {}) out) : Patches fs (fun out => pure (g out)) := fun _ =>
  ⟨gs, hgs, g {}, h⟩

theorem bind {m : StateM MessageBuffer α}
    {f : α → SyncNodeData F → StateM MessageBuffer (SyncNodeData F)}
    (h : ∀ a, Patches fs (f a)) : Patches fs (fun out => m >>= fun a => f a out) := fun buf =>
  h (m buf).1 (m buf).2

theorem ite {c : Prop} [Decidable c]
    {f g : SyncNodeData F → StateM MessageBuffer (SyncNodeData F)} (hf : Patches fs f)
    (hg : Patches fs g) : Patches fs (fun out => if c then f out else g out) := by
  by_cases hc : c
  · simp only [if_pos hc]
    exact hf
  · simp only [if_neg hc]
    exact hg

end Patches

variable [Scalar F]

/-- **A decoder sets some of its fields** to what the body says, whatever was there before. -/
theorem decodeLeaf_patches (name : NodeName) (build : GameBuild) :
    Patches (writes name) (decodeLeaf (F := F) name build) := by
  unfold decodeLeaf
  cases name with
  | cSectorDataNode =>
      refine .bind fun x => .bind fun y => .bind fun z => ?_
      rcases x with _ | x
      · exact .keep
      · rcases y with _ | y
        · exact .keep
        · rcases z with _ | z
          · exact .keep
          · exact .set _ (List.Subset.refl _) fun out => rfl
  | cSectorPositionDataNode | cPedSectorPosMapNode | cEntityOrientationDataNode
  | cVehicleGameStateDataNode | cVehicleHealthDataNode | cVehicleAppearanceDataNode
  | cVehicleDamageStatusDataNode | cPedGameStateDataNode | cPedMovementGroupDataNode
  | cPedAIDataNode | cPedTaskTreeDataNode | cPedScriptGameStateDataNode
  | cPhysicalGameStateDataNode => exact .bind fun v => .set _ (List.Subset.refl _) fun out => rfl
  | cVehicleCreationDataNode | cPedOrientationDataNode | cObjectSectorPosNode =>
      exact .bind fun v => .bind fun w => .set _ (List.Subset.refl _) fun out => rfl
  | cPlayerSectorPosNode =>
      have htail : Patches [.sectorPosition] (fun out : SyncNodeData F =>
          (readSectorOffset 12).run >>= fun offset => pure { out with sectorPosition := offset }) :=
        .bind fun offset => .set _ (List.Subset.refl _) fun out => rfl
      refine .bind fun first => .ite ?_ htail
      refine .bind fun second => .bind fun third => .bind fun standing => .ite ?_ htail
      exact .bind fun handle => .bind fun x => .bind fun y => .bind fun z => htail
  | cPedHealthDataNode =>
      refine .bind fun head => ?_
      obtain ⟨health, maxHealth, armour⟩ := head
      refine .bind fun source => ?_
      rcases source with _ | source
      · refine .set [.health, .maxHealth, .armour] ?_ fun out => rfl
        decide
      · refine .bind fun cause => ?_
        rcases cause with _ | cause
        · refine .set [.health, .maxHealth, .armour, .sourceOfDamage] ?_ fun out => rfl
          decide
        · exact .set _ (List.Subset.refl _) fun out => rfl
  | cPedCreationDataNode =>
      have htail : ∀ populationType model, Patches [.model, .populationType, .vehicleSeat]
          (fun out : SyncNodeData F => pure { out with model, populationType }) :=
        fun populationType model =>
          .set [.model, .populationType] (by decide) fun out => rfl
      refine .bind fun first => .bind fun second => .bind fun populationType => .bind fun model => ?_
      refine .bind fun seed => .bind fun inVehicle => .bind fun voice => .ite ?_ (htail _ _)
      refine .bind fun vehicle => .bind fun seat => ?_
      rcases vehicle with _ | vehicle
      · exact htail _ _
      · rcases seat with _ | seat
        · exact htail _ _
        · exact .set _ (List.Subset.refl _) fun out => rfl
  | cObjectOrientationDataNode =>
      refine .bind fun quaternion => .ite ?_ ?_
      · exact .bind fun x => .bind fun y => .bind fun z => .set _ (List.Subset.refl _) fun out => rfl
      · exact .bind fun h => .set _ (List.Subset.refl _) fun out => rfl
  | cPhysicalVelocityDataNode =>
      refine .bind fun x => .bind fun y => .bind fun z => ?_
      rcases x with _ | x
      · exact .keep
      · rcases y with _ | y
        · exact .keep
        · rcases z with _ | z
          · exact .keep
          · exact .set _ (List.Subset.refl _) fun out => rfl
  | cEntityScriptInfoDataNode =>
      refine .bind fun present => .ite ?_ .keep
      exact .bind fun hash => .set _ (List.Subset.refl _) fun out => rfl
  | cPhysicalAttachDataNode | cPedAttachDataNode =>
      refine .bind fun attached => .ite ?_ ?_
      · exact .bind fun target => .set _ (List.Subset.refl _) fun out => rfl
      · exact .set _ (List.Subset.refl _) fun out => rfl
  | _ => exact .keep

/-! ### A leaf and the record -/

/-- A leaf sets some of its fields, to values that its body alone decides. -/
theorem applyEvent_leaf (build : GameBuild) (i : Nat) (name : NodeName) (body : LeafBody) :
    ∃ gs, gs ⊆ writes name ∧ ∃ patch : SyncNodeData F, ∀ out,
      applyEvent build out (.leaf i name body) = overwrite gs patch out := by
  unfold applyEvent
  by_cases hname : decodes name = true
  · simp only [hname, if_true]
    exact decodeLeaf_patches name build (.fromBits body.bytes body.bits)
  · simp only [hname]
    exact ⟨[], List.nil_subset _, {}, fun _ => rfl⟩

/-- A field a leaf does not write is left as it was. -/
theorem same_applyEvent_of_not {build : GameBuild} {i : Nat} {name : NodeName} {f : Field}
    (h : f ∉ writes name) (body : LeafBody) (out : SyncNodeData F) :
    f.Same (applyEvent build out (.leaf i name body)) out := by
  obtain ⟨gs, hgs, patch, happly⟩ := applyEvent_leaf (F := F) build i name body
  rw [happly]
  exact same_overwrite_of_not (fun hmem => h (hgs hmem)) patch out

/-- Records that agree on a field agree on it after the same event. -/
theorem same_applyEvent {build : GameBuild} {f : Field} {out out' : SyncNodeData F}
    (h : f.Same out out') (e : Event LeafBody) :
    f.Same (applyEvent build out e) (applyEvent build out' e) := by
  cases e with
  | flag i present => exact h
  | leaf i name body =>
      obtain ⟨gs, -, patch, happly⟩ := applyEvent_leaf (F := F) build i name body
      rw [happly, happly]
      exact same_overwrite gs patch h

theorem same_foldl {build : GameBuild} {f : Field} (events : List (Event LeafBody)) :
    ∀ {out out' : SyncNodeData F}, f.Same out out' →
      f.Same (events.foldl (applyEvent build) out) (events.foldl (applyEvent build) out') := by
  induction events with
  | nil =>
      intro out out' h
      exact h
  | cons e rest ih =>
      intro out out' h
      exact ih (same_applyEvent h e)

end SyncParse

/-! ### The walk and its leaves -/

section

variable {F : Type} [Scalar F] {entityType : NetObjEntityType} {isCreate lengthHack : Bool}
  {build : GameBuild} {data data' : List UInt8} {i : Nat} {name : NodeName} {body : LeafBody}

theorem startState_size (isCreate : Bool) (data : List UInt8) (lengthHack : Bool) :
    (startState F isCreate data lengthHack).buf.maxBit
        = (startState F isCreate data lengthHack).buf.data.length * 8
      ∧ (startState F isCreate data lengthHack).buf.data = data := by
  cases isCreate with
  | true => exact ⟨rfl, rfl⟩
  | false => exact ⟨rfl, rfl⟩

/-- What is handed to a decoder is a window of the stream. -/
theorem body_of_parseLog (h : .leaf i name body ∈ parseLog F entityType isCreate data lengthHack build) :
    Taken (startState F isCreate data lengthHack) body := by
  obtain ⟨going, st, hrun, -⟩ := parse_visits F entityType isCreate data lengthHack build
  exact (hrun.leaf_within (startState_size isCreate data lengthHack).1 h).1

/-- The start of a walk over a stream that differs further on only. -/
theorem start_withData (hlen : data'.length = data.length)
    (hsame : SameBits data data' 0 (startState F isCreate data lengthHack).buf.curBit) :
    walkContext entityType isCreate data' lengthHack build
        = walkContext entityType isCreate data lengthHack build
      ∧ Twin data' (startState F isCreate data lengthHack)
        (startState F isCreate data' lengthHack) := by
  have hbuf : (fromBytes data').withLengthHack lengthHack
      = ((fromBytes data).withLengthHack lengthHack).withData data' := by
    unfold fromBytes withLengthHack MessageBuffer.withData
    rw [hlen]
  cases isCreate with
  | true => exact ⟨rfl, ⟨rfl, hbuf⟩⟩
  | false =>
      have hread := @readBit_withData data' ((fromBytes data).withLengthHack lengthHack) hlen hsame
      rw [← hbuf] at hread
      unfold walkContext startState startOf
      simp only [Bool.false_eq_true, if_false, hread]
      exact ⟨trivial, ⟨rfl, rfl⟩⟩

/-- **A changed body changes its own event** and no other. -/
theorem parseLog_recut {before after : List (Event LeafBody)}
    (hlog : parseLog F entityType isCreate data lengthHack build
      = before ++ .leaf i name body :: after)
    (hlen : data'.length = data.length) (hsame : SameOutside data data' body) :
    parseLog F entityType isCreate data' lengthHack build
      = before ++ .leaf i name (recut data' body) :: after := by
  obtain ⟨hsize, hdata⟩ := startState_size (F := F) isCreate data lengthHack
  have htaken := body_of_parseLog (hlog ▸ List.mem_append_right before List.mem_cons_self)
  obtain ⟨hctx, htwin⟩ := @start_withData F _ entityType isCreate lengthHack build data data' hlen (by
    intro k _ hk
    have := htaken.ahead
    exact hsame k (.inl (by omega)))
  obtain ⟨going, st, hrun, hend⟩ := parse_visits F entityType isCreate data lengthHack build
  obtain ⟨going', st', hrun', hend'⟩ := parse_visits F entityType isCreate data' lengthHack build
  rw [hlog] at hrun
  obtain ⟨twin, htwinrun, hafter⟩ := hrun.recut hsize (by rw [hdata]; exact hlen) htwin
    (by rw [hdata]; exact hsame)
  rw [hctx] at hrun' hend'
  have htwinend : Ended (walkContext entityType isCreate data lengthHack build) going twin := by
    unfold Ended
    rw [hafter.cursor]
    exact hend
  exact (htwinrun.unique htwinend hrun' hend').1

/-- Two leaves with the same bits are handed the same bytes. -/
theorem same_bytes {entityType' : NetObjEntityType} {isCreate' lengthHack' : Bool}
    {build' : GameBuild} {i' : Nat} {name' : NodeName} {body' : LeafBody}
    (h : .leaf i name body ∈ parseLog F entityType isCreate data lengthHack build)
    (h' : .leaf i' name' body' ∈ parseLog F entityType' isCreate' data' lengthHack' build')
    (hbits : body'.payload = body.payload) : body'.bits = body.bits ∧ body'.bytes = body.bytes := by
  have htaken := body_of_parseLog h
  have htaken' := body_of_parseLog h'
  obtain ⟨hsize, hcut⟩ := cut_spec htaken.room
  obtain ⟨hsize', hcut'⟩ := cut_spec htaken'.room
  rw [← htaken.bytes] at hsize hcut
  rw [← htaken'.bytes] at hsize' hcut'
  have hlength : body'.bits = body.bits := by
    have := congrArg List.length hbits
    unfold LeafBody.payload at this
    rwa [length_bitsFrom, length_bitsFrom] at this
  rw [hlength] at hsize' hcut'
  refine ⟨hlength, eq_of_bitsFrom (hsize'.trans hsize.symm) (bitsFrom_congr ?_)⟩
  intro j _ _
  by_cases hj : j < body.bits
  · have hbit := congrArg (fun bits => bits[j]?) hbits
    unfold LeafBody.payload bitsFrom at hbit
    simpa [hlength, hj] using hbit
  · rw [hcut, hcut', if_neg hj, if_neg hj]

/-- **Leaves are isolated.**  Take one leaf of a decoded record.

Whatever is put in its body, the walk takes the same presence bits and frames the same leaves at
the same positions, the ones behind it included, and no field changes that this leaf's decoder
does not write.  What it writes depends on the bits of its body alone, wherever and in whatever
record they stand.  And the walk resumes at the end of its frame, whatever the leaf is. -/
theorem leaf_isolation {before after : List (Event LeafBody)}
    (hlog : parseLog F entityType isCreate data lengthHack build
      = before ++ .leaf i name body :: after) :
    (∀ data' : List UInt8, data'.length = data.length → SameOutside data data' body →
      parseLog F entityType isCreate data' lengthHack build
          = before ++ .leaf i name (recut data' body) :: after
        ∧ ∀ f, f ∉ writes name →
          f.Same (parseSyncTree entityType isCreate data' lengthHack build : SyncNodeData F)
            (parseSyncTree entityType isCreate data lengthHack build))
    ∧ (∀ (entityType' : NetObjEntityType) (isCreate' lengthHack' : Bool) (build' : GameBuild)
        (data' : List UInt8) (i' : Nat) (body' : LeafBody),
      .leaf i' name body' ∈ parseLog F entityType' isCreate' data' lengthHack' build' →
        body'.payload = body.payload → ∀ out : SyncNodeData F,
          applyEvent build out (.leaf i' name body') = applyEvent build out (.leaf i name body))
    ∧ ∀ (ctx : WalkContext) (name' : NodeName) (st : WalkState F),
      st.buf.maxBit = st.buf.data.length * 8 → frame st.buf = some body →
        (walkLeaf ctx name' st).1 = true
          ∧ (walkLeaf ctx name' st).2.buf = st.buf.setCurrentBit (body.start + body.bits) := by
  refine ⟨?_, ?_, ?_⟩
  · intro data' hlen hsame
    have hlog' := parseLog_recut hlog hlen hsame
    refine ⟨hlog', ?_⟩
    intro f hf
    rw [parseSyncTree_eq, parseSyncTree_eq, hlog, hlog', List.foldl_append, List.foldl_append,
      List.foldl_cons, List.foldl_cons]
    apply same_foldl
    exact (same_applyEvent_of_not hf _ _).trans (same_applyEvent_of_not hf _ _).symm
  · intro entityType' isCreate' lengthHack' build' data' i' body' hmem hbits out
    obtain ⟨hlength, hbytes⟩ := same_bytes
      (hlog ▸ List.mem_append_right before List.mem_cons_self) hmem hbits
    simp only [applyEvent, hlength, hbytes]
  · intro ctx name' st hsize hframe
    rw [walkLeaf_eq ctx 0 name' st hsize, hframe]
    exact ⟨rfl, rfl⟩

/-- Two blobs that differ in the bits of the prop's sector leaf alone. -/
theorem sameOutside_sector :
    SameOutside [0, 29, 96, 10, 19, 64] [0, 29, 96, 10, 200, 128] ⟨32, 10, [19, 64]⟩ := by
  intro k hk
  by_cases hlow : k < 48
  · have hbits : ∀ k < 48, k < 32 ∨ 42 ≤ k →
        bitOf [0, 29, 96, 10, 200, 128] k = bitOf [0, 29, 96, 10, 19, 64] k := by
      decide
    exact hbits k hlow hk
  · simp only [bitOf]
    rw [List.getD_eq_default _ _ (by simp only [List.length_cons, List.length_nil]; omega),
      List.getD_eq_default _ _ (by simp only [List.length_cons, List.length_nil]; omega)]

/-- The prop's sector leaf, between its creation node and the nodes that are absent. -/
theorem sector_leaf_isolated :
    parseLog Float32 .object true [0, 29, 96, 10, 200, 128] false ⟨3095⟩
        = [.leaf 2 .cObjectCreationDataNode ⟨13, 3, [160]⟩, .flag 3 false, .flag 17 true,
            .flag 18 true]
          ++ .leaf 18 .cSectorDataNode (recut [0, 29, 96, 10, 200, 128] ⟨32, 10, [19, 64]⟩)
          :: [.flag 19 false, .flag 20 false, .flag 21 false, .flag 22 false]
      ∧ Field.model.Same
          (parseSyncTree .object true [0, 29, 96, 10, 200, 128] false ⟨3095⟩
            : SyncNodeData Float32)
          (parseSyncTree .object true [0, 29, 96, 10, 19, 64] false ⟨3095⟩) := by
  have hlog : parseLog Float32 .object true [0, 29, 96, 10, 19, 64] false ⟨3095⟩
      = [.leaf 2 .cObjectCreationDataNode ⟨13, 3, [160]⟩, .flag 3 false, .flag 17 true, .flag 18 true]
        ++ .leaf 18 .cSectorDataNode ⟨32, 10, [19, 64]⟩
        :: [.flag 19 false, .flag 20 false, .flag 21 false, .flag 22 false] := by
    decide +kernel
  obtain ⟨hlog', hsame⟩ := (leaf_isolation hlog).1 [0, 29, 96, 10, 200, 128] rfl sameOutside_sector
  exact ⟨hlog', hsame .model (by decide)⟩

end

end Baston.Rage
