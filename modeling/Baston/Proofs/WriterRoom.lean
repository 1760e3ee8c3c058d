/-
The writer succeeds where there is room.

A node costs at most its presence bit and a leaf its length and its payload, and the writer
only goes forward in the tree.  So a buffer with room for the largest cost at every node that
is left takes all of them; the scratch of an authored tree has that room for payloads of up to
64 bytes.
-/
import Baston.Proofs.SyncBlob

namespace Baston.Rage

open MessageBuffer SyncParse

namespace SyncWrite

/-- Payloads of at most 64 bytes, all of them within their bytes. -/
def Short (nodes : AuthoredNodes) : Prop :=
  ∀ node ∈ nodes, node.2.2 ≤ 512 ∧ node.2.2 ≤ node.2.1.length * 8

/-- The most that one node takes. -/
def nodeRoom : Nat := 1 + (16 + 512)

/-- The buffer has room for the nodes from `cursor` on. -/
structure Room (ctx : WriteContext) (lengthHack : Bool) (cursor : Nat) (buf : MessageBuffer) : Prop
    extends Writable lengthHack buf where
  inside : cursor ≤ ctx.tree.length
  room : buf.curBit + (ctx.tree.length - cursor) * nodeRoom ≤ buf.maxBit

variable {ctx : WriteContext} {lengthHack : Bool} {cursor : Nat} {buf : MessageBuffer}

/-- Going forward, or writing no more than the nodes that are passed may take, keeps the room. -/
theorem Room.after {cursor' : Nat} {buf' : MessageBuffer} {bits : List Bool}
    (h : Room ctx lengthHack cursor buf) (hheld : Held buf buf' bits)
    (hinside : cursor' ≤ ctx.tree.length)
    (hcost : bits.length ≤ (cursor' - cursor) * nodeRoom) (hle : cursor ≤ cursor') :
    Room ctx lengthHack cursor' buf' := by
  refine ⟨h.toWritable.held hheld, hinside, ?_⟩
  have hroom := h.room
  rw [hheld.cursor, hheld.bound]
  unfold nodeRoom at *
  omega

/-- Where there is room a writer succeeds. -/
theorem held_of_appends (hbuf : Writable lengthHack buf) {w : BitW} {bits : List Bool}
    (h : BitW.Appends lengthHack w bits) (hroom : buf.curBit + bits.length ≤ buf.maxBit) :
    (w buf).1 = true ∧ Held buf (w buf).2 bits := by
  obtain ⟨hok, happ⟩ := h buf hbuf.mode hbuf.size.le hroom
  exact ⟨hok, happ, by rw [happ.cursor, happ.bound]; exact hroom⟩

/-- A presence bit takes at most one bit. -/
theorem appends_flag (ctx : WriteContext) (lengthHack : Bool) (node : FlatNode) (cursor : Nat) :
    ∃ bits, BitW.Appends lengthHack (writeFlag ctx node cursor) bits ∧ bits.length ≤ 1 := by
  by_cases hflag : flagged ctx node = true
  · refine ⟨[present ctx node (cursor + 1)], ?_, Nat.le_refl 1⟩
    have hwriter : writeFlag ctx node cursor = writeBit (present ctx node (cursor + 1)) :=
      funext fun buf => if_pos hflag
    rw [hwriter]
    exact .bit _
  · refine ⟨[], ?_, Nat.zero_le 1⟩
    have hwriter : writeFlag ctx node cursor = BitW.all [] := funext fun buf => if_neg hflag
    rw [hwriter]
    exact .nil

/-- A leaf takes its length and its payload. -/
theorem appends_leaf (h : Short ctx.nodes) (lengthHack : Bool) (name : NodeName) :
    ∃ bits, BitW.Appends lengthHack (writeLeaf ctx name) bits ∧ bits.length ≤ 16 + 512 := by
  have hlength : ∀ n : UInt32, BitW.Appends lengthHack (writeBitsSingle n nodeLengthBits)
      (Bits.msb (fieldWidth lengthHack nodeLengthBits) n.toNat) := fun n => .field (by decide) rfl n
  have hwidth : fieldWidth lengthHack nodeLengthBits ≤ 16 := by
    cases lengthHack <;> decide
  rcases hp : payload ctx.nodes name with _ | ⟨bytes, bits⟩
  · have hwriter : writeLeaf ctx name = writeBitsSingle 0 nodeLengthBits := by
      unfold writeLeaf
      rw [hp]
    rw [hwriter]
    refine ⟨_, hlength 0, ?_⟩
    rw [Bits.length_msb]
    omega
  · obtain ⟨node, hfind, hnode⟩ := Option.map_eq_some_iff.mp hp
    obtain ⟨hshort, hfit⟩ := h node (List.mem_of_find?_eq_some hfind)
    rw [hnode] at hshort hfit
    have hwriter : writeLeaf ctx name = BitW.and
        (writeBitsSingle (UInt32.ofNat bits) nodeLengthBits) (writeBits bytes bits) := by
      unfold writeLeaf
      rw [hp]
    rw [hwriter]
    refine ⟨_, (hlength _).and (.blob hfit), ?_⟩
    rw [List.length_append, Bits.length_msb, length_bitsFrom]
    omega

/-- **Where there is room and fuel, nodes and children are written.** -/
theorem writeNode_room (h : Short ctx.nodes) : ∀ fuel : Nat,
    (∀ {cursor : Nat} {buf : MessageBuffer}, cursor < ctx.tree.length →
      2 * (ctx.tree.length - cursor) ≤ fuel → Room ctx lengthHack cursor buf →
        ∃ cursor' buf', writeNode ctx fuel cursor buf = (true, cursor', buf')
          ∧ cursor < cursor' ∧ Room ctx lengthHack cursor' buf')
    ∧ ∀ (depth : UInt8) {cursor : Nat} {buf : MessageBuffer},
      2 * (ctx.tree.length - cursor) + 1 ≤ fuel → Room ctx lengthHack cursor buf →
        ∃ cursor' buf', writeChildren ctx fuel depth cursor buf = (true, cursor', buf')
          ∧ cursor ≤ cursor' ∧ Room ctx lengthHack cursor' buf' := by
  intro fuel
  induction fuel with
  | zero =>
      refine ⟨?_, ?_⟩
      · intro cursor buf hcursor hfuel
        omega
      · intro depth cursor buf hfuel
        omega
  | succ fuel ih =>
      obtain ⟨ihNode, ihChildren⟩ := ih
      constructor
      · intro cursor buf hcursor hfuel hroom
        obtain ⟨node, hnode⟩ : ∃ node, ctx.tree[cursor]? = some node :=
          ⟨_, List.getElem?_eq_getElem hcursor⟩
        have hpast := skipSubtree_subtree ctx.tree (cursor + 1) node.depth hcursor
        have hend : cursor + 1 ≤ past ctx node cursor ∧ past ctx node cursor ≤ ctx.tree.length :=
          ⟨hpast.1.le, hpast.2⟩
        have hbound := hroom.room
        rw [writeNode_step hnode]
        by_cases hgate : gated ctx node = true
        · rw [if_pos hgate]
          exact ⟨_, _, rfl, by omega, hroom.after (.refl hroom.toWritable) hend.2 (Nat.zero_le _)
            (by omega)⟩
        · rw [if_neg hgate]
          obtain ⟨flag, happ, hflag⟩ := appends_flag ctx lengthHack node cursor
          obtain ⟨hok, hheld⟩ := held_of_appends hroom.toWritable happ
            (by unfold nodeRoom at hbound; omega)
          rw [hok, if_neg (by simp)]
          generalize (writeFlag ctx node cursor buf).2 = mid at hheld
          by_cases habsent : (flagged ctx node && !present ctx node (cursor + 1)) = true
          · rw [if_pos habsent]
            exact ⟨_, _, rfl, by omega, hroom.after hheld hend.2 (by unfold nodeRoom; omega)
              (by omega)⟩
          · rw [if_neg habsent]
            rcases hkind : node.kind with _ | ⟨name, maxBytes⟩
            · have hmid : Room ctx lengthHack (cursor + 1) mid :=
                hroom.after hheld hcursor (by unfold nodeRoom; omega) (by omega)
              obtain ⟨cursor', buf', hw, hle, hroom'⟩ := ihChildren node.depth (by omega) hmid
              exact ⟨cursor', buf', hw, by omega, hroom'⟩
            · obtain ⟨bits, hleaf, hbits⟩ := appends_leaf h lengthHack name
              obtain ⟨hok', hheld'⟩ := held_of_appends (hroom.toWritable.held hheld) hleaf
                (by rw [hheld.cursor, hheld.bound]; unfold nodeRoom at hbound; omega)
              refine ⟨cursor + 1, (writeLeaf ctx name mid).2, ?_, Nat.lt_succ_self _, ?_⟩
              · simp only [hok']
              · refine hroom.after (hheld.trans hheld') hcursor ?_ (by omega)
                rw [List.length_append]
                unfold nodeRoom
                omega
      · intro depth cursor buf hfuel hroom
        rcases hnode : ctx.tree[cursor]? with _ | child
        · rw [writeChildren]
          simp only [hnode]
          exact ⟨_, _, rfl, Nat.le_refl _, hroom⟩
        · have hcursor := (List.getElem?_eq_some_iff.mp hnode).1
          by_cases hdeep : child.depth > depth
          · rw [writeChildren_step hnode hdeep]
            obtain ⟨mid, buf', hw, hlt, hroom'⟩ := ihNode hcursor (by omega) hroom
            obtain ⟨cursor', buf'', hw', hle, hroom''⟩ := ihChildren depth (by omega) hroom'
            rw [hw]
            exact ⟨cursor', buf'', hw', by omega, hroom''⟩
          · rw [writeChildren]
            simp only [hnode, if_neg hdeep]
            exact ⟨_, _, rfl, Nat.le_refl _, hroom⟩

theorem writeForest_room (h : Short ctx.nodes) : ∀ (fuel : Nat) {cursor : Nat}
    {buf : MessageBuffer}, ctx.tree.length - cursor < fuel → Room ctx lengthHack cursor buf →
      ∃ buf', writeForest ctx fuel cursor buf = some buf' := by
  intro fuel
  induction fuel with
  | zero =>
      intro cursor buf hfuel
      omega
  | succ fuel ih =>
      intro cursor buf hfuel hroom
      rw [writeForest]
      by_cases hcursor : cursor < ctx.tree.length
      · obtain ⟨cursor', buf', hw, hlt, hroom'⟩ :=
          (writeNode_room h (walkFuel ctx.tree)).1 hcursor (by unfold walkFuel; omega) hroom
        rw [if_pos hcursor, hw]
        exact ih (by omega) hroom'
      · rw [if_neg hcursor]
        exact ⟨buf, rfl⟩

/-- **A tree of short payloads is written.** -/
theorem writeSyncTree_short {nodes : AuthoredNodes} (h : Short nodes)
    (entityType : NetObjEntityType) (isCreate lengthHack : Bool) (build : GameBuild) :
    (writeSyncTree entityType isCreate lengthHack build nodes).isSome := by
  have hsmall : (treeFor entityType).length ≤ 60 := by
    cases entityType <;> decide +kernel
  have hnew : Writable lengthHack ((new treeScratchBytes).withLengthHack lengthHack) :=
    ⟨⟨rfl, by simp [new, withLengthHack]⟩, Nat.zero_le _⟩
  have hmax : ((new treeScratchBytes).withLengthHack lengthHack).maxBit = 32768 := rfl
  have hforest : ∀ (syncType objType : UInt32) (start : MessageBuffer) (lead : List Bool),
      Held ((new treeScratchBytes).withLengthHack lengthHack) start lead → lead.length ≤ 1 →
        ∃ buf', writeForest ⟨treeFor entityType, syncType, objType, nodes⟩
          ((treeFor entityType).length + 1) 0 start = some buf' := by
    intro syncType objType start lead hheld hlead
    have hcur : start.curBit = 0 + lead.length := hheld.cursor
    have hroom : Room ⟨treeFor entityType, syncType, objType, nodes⟩ lengthHack 0 start := by
      refine ⟨hnew.held hheld, Nat.zero_le _, ?_⟩
      rw [hheld.bound, hmax, hcur]
      unfold nodeRoom
      simp only
      omega
    exact writeForest_room h _ (by simp only; omega) hroom
  rw [writeSyncTree, Option.isSome_map]
  cases isCreate with
  | true =>
      obtain ⟨buf', hw⟩ := hforest 1 0 _ [] (.refl hnew) (by simp)
      exact Option.isSome_iff_exists.mpr ⟨buf', hw⟩
  | false =>
      have hone : BitW.Appends lengthHack (writeBit true) [true] := .bit true
      have hbit := held_of_appends hnew hone
        (by rw [hmax]; simp [new, withLengthHack])
      obtain ⟨buf', hw⟩ := hforest 2 1 _ [true] hbit.2 (by simp)
      simp only [Bool.false_eq_true, if_false, hw, Option.isSome_some]

end SyncWrite

end Baston.Rage
