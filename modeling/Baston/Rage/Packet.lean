/-
Packet framing for the clone and ack streams (`rage/packet.rs`).

A packed packet is `[u32 type][u64 frame][lz4 body]`, an inbound one
`[u32 type][lz4 body]`; the body is a run of bit-packed records ended by a type-7
`END`.  LZ4 itself is a C library, so `Lz4` carries its three entry points as
parameters.
-/
import Baston.Rage.Clone

namespace Baston.Rage

/-- The LZ4 entry points of `rage/lz4dict.rs`.  The second argument of a
decompressor bounds its output. -/
structure Lz4 where
  decompressUsingDict : List UInt8 → Nat → Option (List UInt8)
  decompressPlain : List UInt8 → Nat → Option (List UInt8)
  compressDefault : List UInt8 → List UInt8

/-! ### Message types -/

/-- The Jenkins one-at-a-time hash. -/
def hashRageString (bytes : List UInt8) : UInt32 :=
  let hash := bytes.foldl
    (fun (hash : UInt32) b =>
      let hash := hash + b.toUInt32
      let hash := hash + (hash <<< 10)
      hash ^^^ (hash >>> 6)) 0
  let hash := hash + (hash <<< 3)
  let hash := hash ^^^ (hash >>> 11)
  hash + (hash <<< 15)

/-- The bytes of an ASCII literal. -/
def ascii (chars : List Char) : List UInt8 := chars.map fun c => UInt8.ofNat c.toNat

/-- `HashRageString("netClones")`: the inbound clone stream tag. -/
def netClones : UInt32 :=
  hashRageString (ascii ['n', 'e', 't', 'C', 'l', 'o', 'n', 'e', 's'])

/-- `HashRageString("netAcks")`: the inbound ack stream tag. -/
def netAcks : UInt32 := hashRageString (ascii ['n', 'e', 't', 'A', 'c', 'k', 's'])

/-- `HashRageString("msgPackedClones")`: the outbound clone stream tag. -/
def msgPackedClones : UInt32 :=
  hashRageString (ascii ['m', 's', 'g', 'P', 'a', 'c', 'k', 'e', 'd', 'C', 'l', 'o', 'n', 'e', 's'])

/-- `HashRageString("msgPackedAcks")`: the outbound ack stream tag. -/
def msgPackedAcks : UInt32 :=
  hashRageString (ascii ['m', 's', 'g', 'P', 'a', 'c', 'k', 'e', 'd', 'A', 'c', 'k', 's'])

/-- `n` little-endian bytes of `v`. -/
def leBytes (n : Nat) (v : Nat) : List UInt8 :=
  (List.range n).map fun i => UInt8.ofNat (v / 256 ^ i)

/-- `u32::from_le_bytes`. -/
def u32FromLe (bytes : List UInt8) : UInt32 :=
  UInt32.ofNat (bytes.foldr (fun b acc => b.toNat + 256 * acc) 0)

/-- `u64::from_le_bytes`. -/
def u64FromLe (bytes : List UInt8) : UInt64 :=
  UInt64.ofNat (bytes.foldr (fun b acc => b.toNat + 256 * acc) 0)

/-- Decompressed inbound scratch size. -/
def inboundScratch : Nat := 16384

/-- Flush threshold of an outbound fragment. -/
def flushBudgetBytes : Nat := 1100 - 12 - 12

/-- Working buffer size of one outbound fragment. -/
def workBufBytes : Nat := 16384

/-- `lastFragment:1 | currentFragment:7 | frameIndex:56`. -/
structure FrameIndex where
  lastFragment : Bool
  currentFragment : UInt8
  frameIndex : UInt64
  deriving DecidableEq

def FrameIndex.toU64 (f : FrameIndex) : UInt64 :=
  f.lastFragment.toUInt64
    ||| ((f.currentFragment.toUInt64 &&& 0x7F) <<< 1)
    ||| ((f.frameIndex &&& (((1 : UInt64) <<< 56) - 1)) <<< 8)

def FrameIndex.fromU64 (v : UInt64) : FrameIndex where
  lastFragment := v &&& 1 ≠ 0
  currentFragment := ((v >>> 1) &&& 0x7F).toUInt8
  frameIndex := (v >>> 8) &&& (((1 : UInt64) <<< 56) - 1)

/-! ### Inbound -/

/-- A decoded inbound packet. -/
structure IncomingPacket where
  msgType : UInt32
  records : List InboundRecord
  deriving DecidableEq

/-- The record loop of `decode_incoming`.  Every turn consumes at least the three
bits of a record type, so as many turns as the buffer has bits are enough. -/
def readRecords : Nat → MessageBuffer → List InboundRecord
  | 0, _ => []
  | fuel + 1, buf =>
    if buf.isAtEnd then []
    else
      match buf.readBitsSingle 3 with
      | (none, _) => []
      | (some ty, buf) =>
        match (readInbound ty).run buf with
        | (none, _) => []
        | (some r, buf) => r :: readRecords fuel buf

/-- Decode a raw inbound payload; `none` when it is not a clone or ack stream or does
not decompress. -/
def decodeIncoming (lz4 : Lz4) (payload : List UInt8) (lengthHack : Bool) :
    Option IncomingPacket :=
  if payload.length < 4 then none
  else
    let msgType := u32FromLe (payload.take 4)
    if msgType ≠ netClones ∧ msgType ≠ netAcks then none
    else
      match lz4.decompressUsingDict (payload.drop 4) inboundScratch with
      | none => none
      | some body =>
        let buf := (MessageBuffer.fromBytes body).withLengthHack lengthHack
        some ⟨msgType, readRecords buf.maxBit buf⟩

/-! ### The client's view -/

/-- A decoded packed packet. -/
structure DownlinkPacket where
  msgType : UInt32
  frame : FrameIndex
  records : List DownlinkRecord
  deriving DecidableEq

/-- The record loop of `decode_downlink`, with as many turns as the buffer has bits. -/
def readDownlinks : Nat → MessageBuffer → List DownlinkRecord
  | 0, _ => []
  | fuel + 1, buf =>
    if buf.isAtEnd then []
    else
      match buf.readBitsSingle 3 with
      | (none, _) => []
      | (some ty, buf) =>
        match (readDownlink ty).run buf with
        | (none, _) => []
        | (some r, buf) => r :: readDownlinks fuel buf

/-- Decode one outbound fragment. -/
def decodeDownlink (lz4 : Lz4) (packet : List UInt8) : Option DownlinkPacket :=
  if packet.length < 12 then none
  else
    match lz4.decompressPlain (packet.drop 12) inboundScratch with
    | none => none
    | some body =>
      let buf := MessageBuffer.fromBytes body
      some ⟨u32FromLe (packet.take 4), .fromU64 (u64FromLe ((packet.drop 4).take 8)),
        readDownlinks buf.maxBit buf⟩

/-! ### Outbound -/

/-- `[u32 type][u64 frame][lz4 body]`. -/
def packFrame (lz4 : Lz4) (msgType : UInt32) (frame : FrameIndex) (body : List UInt8) :
    List UInt8 :=
  leBytes 4 msgType.toNat ++ leBytes 8 frame.toU64.toNat ++ lz4.compressDefault body

/-- The per-client outbound assembler: records are appended, and whenever the next
one could push the packet past the budget the batch so far goes out as a fragment. -/
structure PackedWriter where
  msgType : UInt32
  frameIndex : UInt64
  buf : MessageBuffer
  fragment : UInt8
  packets : List (List UInt8)
  hadTime : Bool
  lengthHack : Bool

namespace PackedWriter

variable (lz4 : Lz4)

def new (msgType : UInt32) (frameIndex : UInt64) (lengthHack : Bool) : PackedWriter where
  msgType := msgType
  frameIndex := frameIndex
  buf := (MessageBuffer.new workBufBytes).withLengthHack lengthHack
  fragment := 0
  packets := []
  hadTime := false
  lengthHack := lengthHack

/-- The current batch, `END` included, as a fragment. -/
def emit (w : PackedWriter) (last : Bool) : PackedWriter :=
  let buf := (writeEnd w.buf).2
  let fragment := w.fragment + 1
  { w with
    buf := buf
    fragment := fragment
    packets := w.packets ++
      [packFrame lz4 w.msgType ⟨last, fragment &&& 0x7F, w.frameIndex⟩
        (buf.data.take buf.dataLength)] }

/-- Emit the current batch unless it is empty, and start a fresh one. -/
def flushFragment (w : PackedWriter) : PackedWriter :=
  if w.buf.dataLength = 0 then w
  else
    { w.emit lz4 false with
      buf := (MessageBuffer.new workBufBytes).withLengthHack w.lengthHack
      hadTime := false }

/-- Flush if `nextBits` more bits could exceed the budget. -/
def maybeFlush (w : PackedWriter) (nextBits : Nat) : PackedWriter :=
  let projected := w.buf.dataLength + (nextBits + 7) / 8
  if projected + projected / 255 + 16 > flushBudgetBytes then w.flushFragment lz4 else w

/-- A timestamp record before the first clone of a fragment. -/
def ensureTimestamp (w : PackedWriter) (timestamp : UInt64) : PackedWriter :=
  if w.hadTime then w
  else
    let w := w.maybeFlush lz4 (3 + 32 + 32)
    { w with buf := (writeOutboundTimestamp timestamp w.buf).2, hadTime := true }

def writeClone (w : PackedWriter) (timestamp : UInt64) (clone : OutboundClone) :
    PackedWriter :=
  let w := w.ensureTimestamp lz4 timestamp
  let bits := 3 + 16 + 16 + 4 + 32 + 16 + 64 + 32 + 12 + clone.data.length * 8
  let w := w.maybeFlush lz4 bits
  { w with buf := (writeOutboundClone clone w.buf).2 }

def writeRemove (w : PackedWriter) (forceSteal : Bool) (objectId uniqifier : UInt16) :
    PackedWriter :=
  let w := w.maybeFlush lz4 (3 + 1 + 16 + 16)
  { w with buf := (writeOutboundRemove forceSteal objectId uniqifier w.buf).2 }

/-- The last fragment, sent even when blank. -/
def finish (w : PackedWriter) : List (List UInt8) := (w.emit lz4 true).packets

end PackedWriter

end Baston.Rage
