/-
Authoring sync trees, the inverse of the decoder (`rage/sync_write.rs`).

A server that creates an entity supplies the payloads of a few nodes; the writer
emits absent-bits for the rest.  A parent is present exactly when something below it
was supplied, and a node the reader takes unconditionally is written even when empty.
-/
import Baston.Rage.SyncParse

namespace Baston.Rage

variable {F : Type} [Scalar F]

/-- Node payloads to emit, with their length in bits. -/
abbrev AuthoredNodes := List (NodeName × List UInt8 × Nat)

namespace SyncWrite

open MessageBuffer

/-- Scratch size for one node payload. -/
def nodeScratchBytes : Nat := 1024

/-- Scratch size for a whole authored tree. -/
def treeScratchBytes : Nat := 4096

/-- Population type of anything a script creates. -/
def poptypeMission : UInt32 := 7

/-- `ENTITY_OWNEDBY_SCRIPT`. -/
def entityOwnedbyScript : UInt32 := 4

/-- `HashString("NO_VOICE")`. -/
def noVoice : UInt32 := 0x87BFF09A

/-- Author one node. -/
def set (name : NodeName) (write : BitW) (nodes : AuthoredNodes) : AuthoredNodes :=
  let scratch := (write (MessageBuffer.new nodeScratchBytes)).2
  nodes ++ [(name, scratch.data, scratch.curBit)]

def payload (nodes : AuthoredNodes) (name : NodeName) : Option (List UInt8 × Nat) :=
  (nodes.find? fun node => node.1 == name).map Prod.snd

def contains (nodes : AuthoredNodes) (name : NodeName) : Bool :=
  nodes.any fun node => node.1 == name

/-! ### The writer -/

/-- What one traversal keeps fixed. -/
structure WriteContext where
  tree : List FlatNode
  syncType : UInt32
  objType : UInt32
  nodes : AuthoredNodes

/-- The gates that consume no bits: the reader skips such a node without reading. -/
def gated (ctx : WriteContext) (node : FlatNode) : Bool :=
  node.ids.1.toUInt32 &&& ctx.syncType = 0
    || (node.ids.2.2.toUInt32 ≠ 0 && ctx.objType &&& node.ids.2.2.toUInt32 = 0)

/-- Whether any leaf below a parent at `depth`, reachable under the gates, was authored. -/
def subtreeHasPayload (ctx : WriteContext) (start : Nat) (depth : UInt8) : Bool :=
  ((ctx.tree.drop start).takeWhile fun node => decide (node.depth > depth)).any fun node =>
    !gated ctx node &&
      match node.kind with
      | .parent => false
      | .data name _ => contains ctx.nodes name

/-- The body of a leaf that is read: its length and its bits, or an explicit zero. -/
def writeLeaf (ctx : WriteContext) (name : NodeName) : BitW :=
  match payload ctx.nodes name with
  | some (bytes, bits) =>
    BitW.and (writeBitsSingle (UInt32.ofNat bits) SyncParse.nodeLengthBits)
      (writeBits bytes bits)
  | none => writeBitsSingle 0 SyncParse.nodeLengthBits

mutual

/-- One node and, for a parent, its subtree, from `cursor`.  Returns whether the tree
could be written, and where to go on; the fuel counts calls. -/
def writeNode (ctx : WriteContext) : Nat → Nat → MessageBuffer → Bool × Nat × MessageBuffer
  | 0, cursor, buf => (false, cursor, buf)
  | fuel + 1, cursor, buf =>
    match ctx.tree[cursor]? with
    | none => (true, cursor, buf)
    | some node =>
      let cursor := cursor + 1
      let past := SyncParse.skipSubtree ctx.tree cursor node.depth
      if gated ctx node then (true, past, buf)
      else
        let present :=
          match node.kind with
          | .parent => subtreeHasPayload ctx cursor node.depth
          | .data name _ => contains ctx.nodes name
        let flagged := node.ids.2.1.toUInt32 &&& ctx.syncType ≠ 0
        -- the presence bit, where the reader consumes one
        let (ok, buf) := if flagged then buf.writeBit present else (true, buf)
        if !ok then (false, cursor, buf)
        else if flagged && !present then (true, past, buf)
        else
          match node.kind with
          | .parent => writeChildren ctx fuel node.depth cursor buf
          | .data name _ =>
            let (ok, buf) := writeLeaf ctx name buf
            (ok, cursor, buf)

/-- The children of a node at `depth`, in turn. -/
def writeChildren (ctx : WriteContext) :
    Nat → UInt8 → Nat → MessageBuffer → Bool × Nat × MessageBuffer
  | 0, _, cursor, buf => (false, cursor, buf)
  | fuel + 1, depth, cursor, buf =>
    match ctx.tree[cursor]? with
    | none => (true, cursor, buf)
    | some child =>
      if child.depth > depth then
        match writeNode ctx fuel cursor buf with
        | (false, cursor, buf) => (false, cursor, buf)
        | (true, cursor, buf) => writeChildren ctx fuel depth cursor buf
      else (true, cursor, buf)

end

/-- The top level: node after node until the tree is used up. -/
def writeForest (ctx : WriteContext) : Nat → Nat → MessageBuffer → Option MessageBuffer
  | 0, _, _ => none
  | fuel + 1, cursor, buf =>
    if cursor < ctx.tree.length then
      match writeNode ctx (SyncParse.walkFuel ctx.tree) cursor buf with
      | (false, _, _) => none
      | (true, cursor, buf) => writeForest ctx fuel cursor buf
    else some buf

end SyncWrite

open SyncWrite in
/-- Emit a clone payload holding the authored nodes; `none` when it does not fit. -/
def writeSyncTree (entityType : NetObjEntityType) (isCreate lengthHack : Bool)
    (_build : GameBuild) (nodes : AuthoredNodes) : Option (List UInt8) :=
  let buf := (MessageBuffer.new treeScratchBytes).withLengthHack lengthHack
  let tree := treeFor entityType
  -- a sync starts with its object type bit, which it is then walked as
  let (syncType, objType, buf) : UInt32 × UInt32 × MessageBuffer :=
    if isCreate then (1, 0, buf) else (2, 1, (buf.writeBit true).2)
  (writeForest ⟨tree, syncType, objType, nodes⟩ (tree.length + 1) 0 buf).map fun buf =>
    buf.data.take buf.dataLength

namespace SyncWrite

open MessageBuffer

/-! ### Node authors -/

/-- Split a world position into a sector index and an in-sector offset. -/
def sectorOf (position : Vec3 F) : Vec3 Int32 × Vec3 F :=
  let sector : Vec3 Int32 :=
    ⟨Scalar.toI32 (position.x / 54.0 + 512.0), Scalar.toI32 (position.y / 54.0 + 512.0),
      Scalar.toI32 ((position.z + 1700.0) / 69.0)⟩
  (sector,
    ⟨position.x - (Scalar.ofInt sector.x.toInt - 512.0) * 54.0,
      position.y - (Scalar.ofInt sector.y.toInt - 512.0) * 54.0,
      position.z - (Scalar.ofInt sector.z.toInt * 69.0 - 1700.0)⟩)

/-- Which in-sector offset node an entity type uses. -/
inductive OffsetNode
  | sector | object | pedMap
  deriving DecidableEq

def writeOffset (offset : Vec3 F) (bits : Nat) : BitW :=
  BitW.each [BitW.float bits 54.0 offset.x, BitW.float bits 54.0 offset.y,
    BitW.float bits 69.0 offset.z]

/-- The position pair every entity type needs. -/
def authorPosition (position : Vec3 F) (offsetNode : OffsetNode) (nodes : AuthoredNodes) :
    AuthoredNodes :=
  let (sector, offset) := sectorOf position
  let nodes := set .cSectorDataNode
    (BitW.each [writeBitsSingle sector.x.toUInt32 10, writeBitsSingle sector.y.toUInt32 10,
      writeBitsSingle sector.z.toUInt32 6]) nodes
  match offsetNode with
  | .sector => set .cSectorPositionDataNode (writeOffset offset 12) nodes
  | .object => set .cObjectSectorPosNode (BitW.each [writeBit true, writeOffset offset 20]) nodes
  | .pedMap => set .cPedSectorPosMapNode (BitW.each [writeOffset offset 12, writeBit false]) nodes

/-- A compressed quaternion, in the layout both orientation nodes share. -/
def writeQuaternion (heading : F) : BitW :=
  let q := Quaternion.compress (Quaternion.fromHeadingDegrees heading) Quaternion.bits
  BitW.each [writeBitsSingle q.largest 2, writeBitsSingle q.a Quaternion.bits,
    writeBitsSingle q.b Quaternion.bits, writeBitsSingle q.c Quaternion.bits]

/-- A vehicle create. -/
def authorVehicle (model : UInt32) (position : Vec3 F) (heading : F) (creationToken : UInt32) :
    AuthoredNodes :=
  let nodes := set .cVehicleCreationDataNode
    (BitW.each [writeBitsSingle model 32, writeBitsSingle poptypeMission 4,
      writeBitsSingle 0 16, writeBit false, writeBitsSingle 1000 19, writeBitsSingle 2 3,
      writeBitsSingle creationToken 32, writeBit false, writeBit false, writeBit false]) []
  let nodes := set .cAutomobileCreationDataNode (BitW.each [writeBit true]) nodes
  let nodes := authorPosition position .sector nodes
  set .cEntityOrientationDataNode (writeQuaternion heading) nodes

/-- A ped create.  Its heading is two quantised angles rather than a quaternion. -/
def authorPed (model : UInt32) (position : Vec3 F) (heading : F) : AuthoredNodes :=
  let nodes := set .cPedCreationDataNode
    (BitW.each [writeBit false, writeBit false, writeBitsSingle poptypeMission 4,
      writeBitsSingle model 32, writeBitsSingle 0 16, writeBit false,
      writeBitsSingle noVoice 32, writeBit false, writeBit true, writeBit false,
      writeBitsSingle 200 13, writeBit false]) []
  let nodes := authorPosition position .pedMap nodes
  let radians := Scalar.toRadians heading
  set .cPedOrientationDataNode
    (BitW.each [BitW.signedFloat 8 Quaternion.tauRadians radians,
      BitW.signedFloat 8 Quaternion.tauRadians radians]) nodes

/-- An object create. -/
def authorObject (model : UInt32) (position : Vec3 F) (heading : F) (dynamic : Bool) :
    AuthoredNodes :=
  let nodes := set .cObjectCreationDataNode
    (BitW.each [writeBitsSingle entityOwnedbyScript 5, writeBitsSingle model 32,
      writeBit dynamic, writeBit false, writeBit false, writeBit false, writeBit false,
      writeBit false]) []
  let nodes := authorPosition position .object nodes
  set .cObjectOrientationDataNode
    (BitW.each [writeBit false, writeQuaternion heading]) nodes

end SyncWrite

end Baston.Rage
