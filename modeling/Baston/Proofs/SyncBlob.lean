/-
An authored blob read back.

Every tree of an entity has one root, and nothing hangs below a leaf.  So the writer's loop is
one call at the root, the blob is its lead bit followed by the plan of the root, and the
parser's log of the blob is that plan.
-/
import Baston.Proofs.SyncLeaves

namespace Baston.Rage

open MessageBuffer SyncParse SyncWrite

/-! ### The trees -/

/-- One root, and no node below a leaf. -/
structure Rooted (tree : List FlatNode) : Prop where
  nonempty : 0 < tree.length
  root : depthAt tree 0 = 0
  below : ∀ k, 0 < k → k < tree.length → 0 < depthAt tree k
  leaves : LeavesClosed tree

/-- `Rooted`, as a test. -/
def isRooted (tree : List FlatNode) : Bool :=
  decide (0 < tree.length) && depthAt tree 0 == 0
    && (List.range tree.length).all fun k => (decide (k = 0) || decide (0 < depthAt tree k))
      && tree[k]?.all fun node =>
        decide (node.kind = .parent) || skipSubtree tree (k + 1) node.depth == k + 1

theorem rooted_of_isRooted {tree : List FlatNode} (h : isRooted tree = true) : Rooted tree := by
  unfold isRooted at h
  simp only [Bool.and_eq_true, Bool.or_eq_true, decide_eq_true_eq, List.all_eq_true,
    List.mem_range, beq_iff_eq, Option.all_eq_true] at h
  obtain ⟨⟨hpos, hroot⟩, hall⟩ := h
  refine ⟨hpos, hroot, ?_, ?_⟩
  · intro k h0 hk
    exact ((hall k hk).1).resolve_left (by omega)
  · intro k node hnode hkind
    have hk := (List.getElem?_eq_some_iff.mp hnode).1
    exact ((hall k hk).2 node hnode).resolve_left hkind

theorem rooted_treeFor (entityType : NetObjEntityType) : Rooted (treeFor entityType) := by
  apply rooted_of_isRooted
  cases entityType <;> decide +kernel

/-! ### The blob -/

/-- The walk a writer writes for. -/
def writeContext (entityType : NetObjEntityType) (isCreate : Bool) (nodes : AuthoredNodes) :
    WriteContext :=
  ⟨treeFor entityType, if isCreate then 1 else 2, if isCreate then 0 else 1, nodes⟩

/-- A sync starts with its object type. -/
def leadBits (isCreate : Bool) : List Bool := if isCreate then [] else [true]

/-- `blob` is as many bytes as `bits` need, and starts with them. -/
structure Holds (blob : List UInt8) (bits : List Bool) : Prop where
  least : bits.length ≤ blob.length * 8
  most : blob.length * 8 < bits.length + 8
  bits : bitsFrom blob 0 bits.length = bits

/-- The writer's loop is one call, at the root. -/
theorem writeForest_root {ctx : WriteContext} {lengthHack : Bool} (h : Authored ctx.nodes)
    (htree : Rooted ctx.tree) {buf buf' : MessageBuffer} (hbuf : Writable lengthHack buf)
    (hw : writeForest ctx (ctx.tree.length + 1) 0 buf = some buf') :
    ∃ events, planNode ctx (walkFuel ctx.tree) 0 = some (events, ctx.tree.length)
      ∧ Held buf buf' (eventsBits lengthHack events) := by
  have hpos := htree.nonempty
  rw [writeForest, if_pos hpos] at hw
  rcases hnode : writeNode ctx (walkFuel ctx.tree) 0 buf with ⟨_ | _, cursor, mid⟩
  · rw [hnode] at hw
    exact absurd hw (by simp)
  · rw [hnode] at hw
    obtain ⟨events, hplan, hheld⟩ := (writeNode_plan h _).1 hpos hbuf hnode
    obtain ⟨hend, -⟩ := (filter_plan htree.leaves _).1 hplan
    obtain ⟨-, hsub⟩ := (planNode_subtree htree.leaves _).1 hplan
    -- the root's subtree is everything
    have hall : cursor = ctx.tree.length := by
      by_contra hshort
      have hstop := hsub.stops (by omega)
      have hle := hsub.le
      have := htree.below cursor (by omega) (by omega)
      rw [htree.root] at hstop
      omega
    subst hall
    obtain ⟨n, hn⟩ := Nat.exists_eq_succ_of_ne_zero (Nat.pos_iff_ne_zero.mp hpos)
    have hdone : writeForest ctx ctx.tree.length ctx.tree.length mid = some mid := by
      conv_lhs => rw [hn]
      rw [writeForest, if_neg (by omega)]
    simp only [hdone] at hw
    rw [← Option.some.inj hw]
    exact ⟨events, hplan, hheld⟩

/-- **A written blob is its lead bit and its events**, and its last byte is filled up. -/
theorem writeSyncTree_holds {entityType : NetObjEntityType} {isCreate lengthHack : Bool}
    {build : GameBuild} {nodes : AuthoredNodes} (h : Authored nodes) {blob : List UInt8}
    (hw : writeSyncTree entityType isCreate lengthHack build nodes = some blob) :
    ∃ events, planNode (writeContext entityType isCreate nodes) (walkFuel (treeFor entityType)) 0
        = some (events, (treeFor entityType).length)
      ∧ Holds blob (leadBits isCreate ++ eventsBits lengthHack events) := by
  have hnew : Writable lengthHack ((new treeScratchBytes).withLengthHack lengthHack) :=
    ⟨⟨rfl, by simp [new, withLengthHack]⟩, Nat.zero_le _⟩
  obtain ⟨start, buf', hlead, hforest, hblob⟩ : ∃ start buf',
      Held ((new treeScratchBytes).withLengthHack lengthHack) start (leadBits isCreate)
        ∧ writeForest (writeContext entityType isCreate nodes) ((treeFor entityType).length + 1) 0
          start = some buf' ∧ buf'.data.take buf'.dataLength = blob := by
    cases isCreate with
    | true =>
        obtain ⟨buf', hforest, hblob⟩ := Option.map_eq_some_iff.mp hw
        exact ⟨_, buf', .refl hnew, hforest, hblob⟩
    | false =>
        obtain ⟨buf', hforest, hblob⟩ := Option.map_eq_some_iff.mp hw
        have hroom : 0 + [true].length ≤ treeScratchBytes * 8 := by decide
        have hok := (BitW.Appends.bit true _ hnew.mode hnew.size.le hroom).1
        exact ⟨_, buf', BitW.Emits.bit true _ hnew hok, hforest, hblob⟩
  obtain ⟨events, hplan, hheld⟩ := writeForest_root h (rooted_treeFor entityType)
    (hnew.held hlead) hforest
  refine ⟨events, hplan, ?_⟩
  have hall := hlead.trans hheld
  have hwithin := hall.within
  rw [hall.bound] at hwithin
  have hcur : buf'.curBit = (leadBits isCreate ++ eventsBits lengthHack events).length :=
    hall.cursor.trans (Nat.zero_add _)
  have hbits := hall.bits
  have hbytes := dataLength_bounds buf'
  have hroom : buf'.curBit ≤ treeScratchBytes * 8 := hwithin
  have hsize : buf'.data.length = treeScratchBytes := hall.size.trans List.length_replicate
  have hlen : blob.length = buf'.dataLength := by
    rw [← hblob, List.length_take, hsize]
    omega
  refine ⟨by omega, by omega, ?_⟩
  rw [← hcur, ← hblob, bitsFrom_take _ (by omega)]
  exact hbits

/-- The walk of a blob starts behind its lead bit, as the walk it was written for. -/
theorem start_of_blob {isCreate lengthHack : Bool} {blob : List UInt8} {bits : List Bool}
    (hholds : Holds blob (leadBits isCreate ++ bits)) (entityType : NetObjEntityType)
    (build : GameBuild) (nodes : AuthoredNodes) :
    walkContext entityType isCreate blob lengthHack build
        = (writeContext entityType isCreate nodes).walking build
      ∧ Bounded lengthHack (startOf isCreate blob lengthHack).2.2
      ∧ (startOf isCreate blob lengthHack).2.2.Ahead bits := by
  have hahead : ((fromBytes blob).withLengthHack lengthHack).Ahead (leadBits isCreate ++ bits) :=
    ⟨by simpa [fromBytes, withLengthHack] using hholds.least, hholds.bits⟩
  have hbuf : Bounded lengthHack ((fromBytes blob).withLengthHack lengthHack) := ⟨rfl, rfl⟩
  unfold walkContext startOf
  cases isCreate with
  | true => exact ⟨rfl, hbuf, hahead⟩
  | false =>
      obtain ⟨hread, hrest⟩ :=
        (show Ahead _ (true :: bits) from hahead).bit hbuf.size.le
      simp only [hread]
      exact ⟨rfl, ⟨rfl, rfl⟩, hrest⟩

/-- The walk over a written blob reads its plan. -/
theorem parseLog_written (F : Type) [Scalar F] {entityType : NetObjEntityType}
    {isCreate lengthHack : Bool} {build : GameBuild} {nodes : AuthoredNodes} (h : Authored nodes)
    {blob : List UInt8} (hw : writeSyncTree entityType isCreate lengthHack build nodes = some blob) :
    ∃ events, planNode (writeContext entityType isCreate nodes) (walkFuel (treeFor entityType)) 0
        = some (events, (treeFor entityType).length)
      ∧ Holds blob (leadBits isCreate ++ eventsBits lengthHack events)
      ∧ (parseLog F entityType isCreate blob lengthHack build).map (Event.map LeafBody.payload)
        = events := by
  obtain ⟨events, hplan, hholds⟩ := writeSyncTree_holds h hw
  refine ⟨events, hplan, hholds, ?_⟩
  obtain ⟨hctx, hbuf, hahead⟩ := start_of_blob hholds entityType build nodes
  unfold parseLog
  rw [hctx]
  exact ((walk_plan h (rooted_treeFor entityType).leaves build _).1 hplan hbuf hahead).2

/-- **Writer and parser agree.**  A blob that was written is a lead bit and a list of events.
The walk over it reads the presence bits of these events and takes the frames of their leaves;
those that were authored are the leaves no gate closes, in the order of the tree and each with
its authored bits, and the others are empty. -/
theorem sync_tree_read_back (F : Type) [Scalar F] (entityType : NetObjEntityType)
    (isCreate lengthHack : Bool) (build : GameBuild) (nodes : AuthoredNodes)
    (h : Authored nodes) (blob : List UInt8)
    (hw : writeSyncTree entityType isCreate lengthHack build nodes = some blob) :
    ∃ events, Holds blob (leadBits isCreate ++ eventsBits lengthHack events)
      ∧ (parseLog F entityType isCreate blob lengthHack build).map (Event.map LeafBody.payload)
        = events
      ∧ events.filter (isAuthored nodes)
        = admittedLeaves (writeContext entityType isCreate nodes) 0 (treeFor entityType).length
      ∧ ∀ i name payload, .leaf i name payload ∈ events → contains nodes name = false →
        payload = [] := by
  obtain ⟨events, hplan, hholds, hlog⟩ := parseLog_written F h hw
  have hleaves := (rooted_treeFor entityType).leaves
  refine ⟨events, hholds, hlog, ((filter_plan hleaves _).1 hplan).2, ?_⟩
  intro i name payload hmem habsent
  rw [((plan_leaves _).1 hplan i name payload hmem).payload]
  exact payloadBits_eq_nil habsent

/-- A prop: its creation node and its sector. -/
def someObject : AuthoredNodes :=
  set .cObjectCreationDataNode (writeBitsSingle 5 3) (set .cSectorDataNode (writeBitsSingle 77 10) [])

theorem someObject_authored : Authored someObject := by
  have hnone : Authored [] := fun node hmem => absurd hmem (by simp)
  have hsector := hnone.set .cSectorDataNode (BitW.keepsShape_field 77 10) (by decide +kernel)
  exact hsector.set .cObjectCreationDataNode (BitW.keepsShape_field 5 3) (by decide +kernel)

/-- The prop's create is read back. -/
theorem some_object_read_back :
    ∃ events, Holds [0, 29, 96, 10, 19, 64] (leadBits true ++ eventsBits false events)
      ∧ (parseLog Float32 .object true [0, 29, 96, 10, 19, 64] false ⟨3095⟩).map
          (Event.map LeafBody.payload) = events
      ∧ events.filter (isAuthored someObject)
        = admittedLeaves (writeContext .object true someObject) 0 (treeFor .object).length
      ∧ ∀ i name payload, .leaf i name payload ∈ events → contains someObject name = false →
        payload = [] :=
  sync_tree_read_back Float32 .object true false ⟨3095⟩ someObject someObject_authored
    [0, 29, 96, 10, 19, 64] (by decide +kernel)

end Baston.Rage
