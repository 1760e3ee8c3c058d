/-
The readers as the machine runs them (`rage/buffer.rs`, `rage/packet.rs`, `rage/sync_parse.rs`).

The same functions, with every sum of offsets, every index, every slice and every debug assertion
of the source checked, and every loop made to advance its cursor.  A leaf decoder runs as the
program it is: one checked read after the other.
-/
import Baston.Lib.Checked
import Baston.Proofs.LeafPrograms
import Baston.Rage.Packet

namespace Baston.Rage

namespace Machine

/-! ### The buffer -/

def fromBytes (data : List UInt8) : Checked MessageBuffer := do
  let maxBit ← Checked.mul data.length 8
  pure ⟨data, 0, maxBit, false⟩

def fromBits (data : List UInt8) (bitLen : Nat) : Checked MessageBuffer := do
  let all ← Checked.mul data.length 8
  pure ⟨data, 0, min bitLen all, false⟩

/-- Bit `bit` of `data`, as the byte it is shifted out to. -/
def bitAt (data : List UInt8) (bit : Nat) : Checked UInt8 := do
  let byte ← Checked.index data (bit / 8)
  let shift ← Checked.sub 7 (bit % 8)
  pure ((byte >>> UInt8.ofNat shift) &&& 1)

/-- Overwrite bit `bit` of `data`. -/
def putBit (data : List UInt8) (bit : Nat) (b : UInt8) : Checked (List UInt8) := do
  let byte ← Checked.index data (bit / 8)
  let shift ← Checked.sub 7 (bit % 8)
  pure (data.set (bit / 8) ((byte &&& ~~~(1 <<< UInt8.ofNat shift)) ||| (b <<< UInt8.ofNat shift)))

/-- The read loop. -/
def gather (data : List UInt8) (start length : Nat) : Checked UInt32 :=
  (List.range length).foldlM
    (fun value i => do
      let bit ← Checked.add start i
      let b ← bitAt data bit
      pure ((value <<< 1) ||| b.toUInt32)) 0

def readBitsSingle (length : Nat) (buf : MessageBuffer) :
    Checked (Option UInt32 × MessageBuffer) := do
  let length := buf.effectiveLen length
  Checked.ensure (length ≤ 32)
  let stop ← Checked.add buf.curBit length
  if stop > buf.maxBit then pure (none, { buf with curBit := stop })
  else
    let value ← gather buf.data buf.curBit length
    pure (some value, { buf with curBit := stop })

def readBit (buf : MessageBuffer) : Checked (Bool × MessageBuffer) :=
  if buf.curBit / 8 ≥ buf.data.length then do
    let next ← Checked.add buf.curBit 1
    pure (false, { buf with curBit := next })
  else do
    let bit ← bitAt buf.data buf.curBit
    let next ← Checked.add buf.curBit 1
    pure (bit != 0, { buf with curBit := next })

/-- `copy_bits`: the byte-aligned fast path, else bit by bit. -/
def copyBits (dest src : List UInt8) (length destBit srcBit : Nat) : Checked (List UInt8) :=
  if destBit % 8 = 0 ∧ srcBit % 8 = 0 ∧ length % 8 = 0 then do
    let destStop ← Checked.add (destBit / 8) (length / 8)
    let srcStop ← Checked.add (srcBit / 8) (length / 8)
    let window ← Checked.slice dest (destBit / 8) destStop
    let bytes ← Checked.slice src (srcBit / 8) srcStop
    Checked.ensure (window.length = bytes.length)
    pure (dest.take (destBit / 8) ++ bytes ++ dest.drop destStop)
  else
    (List.range length).foldlM
      (fun dest i => do
        let s ← Checked.add srcBit i
        let bit ← bitAt src s
        let d ← Checked.add destBit i
        putBit dest d bit) dest

def readBits (size length : Nat) (buf : MessageBuffer) :
    Checked (Option (List UInt8) × MessageBuffer) :=
  if length = 0 then pure (some (List.replicate size 0), buf)
  else do
    let stop ← Checked.add buf.curBit length
    if stop > buf.maxBit then pure (none, buf)
    else
      let room ← Checked.mul size 8
      Checked.ensure (room ≥ length)
      let bytes ← copyBits (List.replicate size 0) buf.data length 0 buf.curBit
      pure (some bytes, { buf with curBit := stop })

/-- `read_bits` into bytes that are there already. -/
def readBitsInto (dest : List UInt8) (length : Nat) (buf : MessageBuffer) :
    Checked (Bool × List UInt8 × MessageBuffer) :=
  if length = 0 then pure (true, dest, buf)
  else do
    let stop ← Checked.add buf.curBit length
    if stop > buf.maxBit then pure (false, dest, buf)
    else
      let room ← Checked.mul dest.length 8
      Checked.ensure (room ≥ length)
      let dest ← copyBits dest buf.data length 0 buf.curBit
      pure (true, dest, { buf with curBit := stop })

def writeBits (src : List UInt8) (length : Nat) (buf : MessageBuffer) :
    Checked (Bool × MessageBuffer) := do
  let stop ← Checked.add buf.curBit length
  if stop > buf.maxBit then pure (false, buf)
  else
    let room ← Checked.mul src.length 8
    Checked.ensure (room ≥ length)
    let data ← copyBits buf.data src length buf.curBit 0
    pure (true, { buf with data := data, curBit := stop })

/-- A program, read by read. -/
def run {α : Type} : Prog α → MessageBuffer → Checked (α × MessageBuffer)
  | .done a, buf => pure (a, buf)
  | .bits n next, buf => do
    let (v, buf) ← readBitsSingle n buf
    run (next v) buf
  | .bit next, buf => do
    let (b, buf) ← readBit buf
    run (next b) buf
  | .bytes size length next, buf => do
    let (bytes, buf) ← readBits size length buf
    run (next bytes) buf

/-! ### Records -/

/-- The most bits of a record's body. -/
def recordBits : Nat := 33000

open Program in
def createHeadProgram (isCreate : Bool) : Program (readCreateHead isCreate).run 36 :=
  oite (obind word (by decide) fun token =>
    obind (bits entityTypeBits (by decide)) (by decide) fun tyRaw => opure _) (opure _)

open Program in
/-- A byte count of 12 bits, and as many bytes. -/
def blobProgram {α : Type} {k : List UInt8 → BitM α} (h : ∀ data, Program (k data).run 0) :
    Program (do
      let length ← BitM.bits 12
      let data ← BitM.bytes length.toNat (length.toNat * 8)
      k data).run (12 + 4095 * 8) := by
  refine bitsBind 12 (by decide) (by decide) fun length hlength => ?_
  have hfew : length.toNat * 8 ≤ 4095 * 8 := by
    have htwelve : widest 12 = 12 := rfl
    rw [htwelve] at hlength
    omega
  exact obind ((bytes length.toNat _ (Nat.le_refl _)).weaken hfew) (by decide) fun data =>
    (h data).weaken (by decide)

open Program in
/-- The body of an inbound record, written out. -/
def inboundProgram (ty : UInt32) : Program (readInbound ty).run recordBits := by
  unfold readInbound
  refine oite ?_ (oite ?_ (oite ?_ (oite ?_ (oite ?_ fail))))
  · refine obind short (by decide) fun uniqifier => ?_
    refine obind ident (by decide) fun objectId => ?_
    refine obind (createHeadProgram _) (by decide) fun head => ?_
    exact (blobProgram fun data => opure _).weaken (by decide)
  · exact obind ident (by decide) fun objectId =>
      obind short (by decide) fun uniqifier => opure _
  · exact obind short (by decide) fun targetClient =>
      obind ident (by decide) fun objectId => opure _
  · exact obind word (by decide) fun ts => opure _
  · exact obind word (by decide) fun idx => opure _

open Program in
/-- The body of a downlink record, written out. -/
def downlinkProgram (ty : UInt32) : Program (readDownlink ty).run recordBits := by
  unfold readDownlink
  refine oite ?_ (oite ?_ (oite ?_ fail))
  · refine obind ident (by decide) fun objectId => ?_
    refine obind short (by decide) fun ownerNetId => ?_
    have hhead : Program (readDownlinkHead (ty == Rec.create)).run 36 :=
      oite (obind (bits entityTypeBits (by decide)) (by decide) fun ety =>
        obind word (by decide) fun token => opure _) (opure _)
    refine obind hhead (by decide) fun head => ?_
    refine obind short (by decide) fun uniqifier => ?_
    refine obind word (by decide) fun hi => ?_
    refine obind word (by decide) fun lo => ?_
    refine obind word (by decide) fun timestamp => ?_
    exact (blobProgram fun data => opure _).weaken (by decide)
  · exact obind bit (by decide) fun forceSteal => obind ident (by decide) fun id =>
      obind short (by decide) fun uniqifier => opure _
  · exact obind word (by decide) fun lo =>
      obind word (by decide) fun hi => opure _

/-- The record loop of both decoders, whose every turn has to move the cursor. -/
def recordLoop {ρ : Type} (body : UInt32 → Prog (Option ρ)) :
    Nat → MessageBuffer → Checked (List ρ)
  | 0, _ => .error .stuck
  | turns + 1, buf =>
    if buf.isAtEnd then pure []
    else do
      let (ty, mid) ← readBitsSingle 3 buf
      match ty with
      | none => pure []
      | some ty =>
        let (r, after) ← run (body ty) mid
        Checked.advance buf.curBit after.curBit
        match r with
        | none => pure []
        | some r =>
          let rest ← recordLoop body turns after
          pure (r :: rest)

def decodeIncoming (lz4 : Lz4) (payload : List UInt8) (lengthHack : Bool) :
    Checked (Option IncomingPacket) :=
  if payload.length < 4 then pure none
  else do
    let head ← Checked.slice payload 0 4
    let msgType := u32FromLe head
    if msgType ≠ netClones ∧ msgType ≠ netAcks then pure none
    else
      let compressed ← Checked.slice payload 4 payload.length
      match lz4.decompressUsingDict compressed inboundScratch with
      | none => pure none
      | some body =>
        let buf ← fromBytes body
        let buf := buf.withLengthHack lengthHack
        let records ← recordLoop (fun ty => (inboundProgram ty).prog) (buf.maxBit + 1) buf
        pure (some ⟨msgType, records⟩)

def decodeDownlink (lz4 : Lz4) (packet : List UInt8) : Checked (Option DownlinkPacket) :=
  if packet.length < 12 then pure none
  else do
    let head ← Checked.slice packet 0 4
    let frame ← Checked.slice packet 4 12
    let compressed ← Checked.slice packet 12 packet.length
    match lz4.decompressPlain compressed inboundScratch with
    | none => pure none
    | some body =>
      let buf ← fromBytes body
      let records ← recordLoop (fun ty => (downlinkProgram ty).prog) (buf.maxBit + 1) buf
      pure (some ⟨u32FromLe head, .fromU64 (u64FromLe frame), records⟩)

/-! ### Sync trees -/

section Walk

open SyncParse

variable {F : Type} [Scalar F]

def shouldRead (ids : UInt8 × UInt8 × UInt8) (syncType objType : UInt32) (buf : MessageBuffer) :
    Checked (Bool × MessageBuffer) :=
  if ids.1.toUInt32 &&& syncType = 0 then pure (false, buf)
  else if ids.2.2.toUInt32 ≠ 0 ∧ objType &&& ids.2.2.toUInt32 = 0 then pure (false, buf)
  else if ids.2.1.toUInt32 &&& syncType ≠ 0 then readBit buf
  else pure (true, buf)

/-- Past every descendant, one node a turn. -/
def skipSubtree (tree : List FlatNode) : Nat → Nat → UInt8 → Checked Nat
  | 0, _, _ => .error .stuck
  | turns + 1, cursor, depth =>
    match tree[cursor]? with
    | none => pure cursor
    | some child =>
      if child.depth > depth then do
        let next ← Checked.add cursor 1
        skipSubtree tree turns next depth
      else pure cursor

def walkLeaf (ctx : WalkContext) (name : NodeName) (st : WalkState F) :
    Checked (Bool × WalkState F) := do
  let (length, buf) ← readBitsSingle nodeLengthBits st.buf
  match length with
  | none => pure (false, { st with buf })
  | some length =>
    let length := length.toNat
    let stop ← Checked.add buf.curBit length
    let all ← Checked.mul buf.data.length 8
    if stop > all then pure (false, { st with buf })
    else if decodes name then
      let (body, _) ← readBits ((length + 7) / 8) length buf
      match body with
      | none => pure (true, { st with buf := buf.setCurrentBit stop })
      | some body =>
        let view ← fromBits body length
        let (out, _) ← run (leafProgram name ctx.build st.out).prog view
        pure (true, { st with buf := buf.setCurrentBit stop, out })
    else pure (true, { st with buf := buf.setCurrentBit stop })

mutual

/-- One node and, for a read parent, its subtree. -/
def walk (ctx : WalkContext) : Nat → WalkState F → Checked (Bool × WalkState F)
  | 0, _ => .error .stuck
  | turns + 1, st =>
    match ctx.tree[st.cursor]? with
    | none => pure (false, st)
    | some node => do
      let cursor ← Checked.add st.cursor 1
      let (read, buf) ← shouldRead node.ids ctx.syncType ctx.objType st.buf
      let st := { st with cursor, buf }
      match node.kind with
      | .parent =>
        if read then walkChildren ctx turns node.depth st
        else
          let cursor ← skipSubtree ctx.tree (ctx.tree.length + 1) st.cursor node.depth
          pure (true, { st with cursor })
      | .data name _ => if read then walkLeaf ctx name st else pure (true, st)

/-- The children of a node at `depth`, each of which has to move the cursor. -/
def walkChildren (ctx : WalkContext) : Nat → UInt8 → WalkState F → Checked (Bool × WalkState F)
  | 0, _, _ => .error .stuck
  | turns + 1, depth, st =>
    match ctx.tree[st.cursor]? with
    | none => pure (true, st)
    | some child =>
      if child.depth > depth then do
        let (going, after) ← walk ctx turns st
        Checked.advance st.cursor after.cursor
        if going then walkChildren ctx turns depth after else pure (false, after)
      else pure (true, st)

end

def parseSyncTree (entityType : NetObjEntityType) (isCreate : Bool) (data : List UInt8)
    (lengthHack : Bool) (build : GameBuild) : Checked (SyncNodeData F) := do
  let buf ← fromBytes data
  let buf := buf.withLengthHack lengthHack
  let tree := treeFor entityType
  let (syncType, objType, buf) ← (if isCreate then pure (1, 0, buf)
    else do
      let (objType, buf) ← readBit buf
      pure (2, objType.toUInt32, buf) : Checked (UInt32 × UInt32 × MessageBuffer))
  let (_, st) ← walk ⟨tree, syncType, objType, build⟩ (walkFuel tree) ⟨0, buf, {}⟩
  pure st.out

end Walk

end Machine

end Baston.Rage
