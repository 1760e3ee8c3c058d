/-
Clone-stream records, both directions (`rage/clone.rs`).

A record is a 3-bit type and a body.  The two directions order their fields
differently: inbound a create or sync carries its uniqifier before the object id, a
remove the other way round.
-/
import Baston.Rage.Buffer

namespace Baston.Rage

/-! ### Record types and entity types -/

namespace Rec

def create : UInt32 := 1
def sync : UInt32 := 2
def remove : UInt32 := 3
def takeover : UInt32 := 4
def timestamp : UInt32 := 5
def index : UInt32 := 6
def «end» : UInt32 := 7

end Rec

/-- GTA V network object types, in wire order. -/
inductive NetObjEntityType
  | automobile | bike | boat | door | heli | object | ped | pickup | pickupPlacement
  | plane | submarine | player | trailer | train
  deriving DecidableEq, Repr

namespace NetObjEntityType

/-- The wire value. -/
def toU8 : NetObjEntityType → UInt8
  | automobile => 0
  | bike => 1
  | boat => 2
  | door => 3
  | heli => 4
  | object => 5
  | ped => 6
  | pickup => 7
  | pickupPlacement => 8
  | plane => 9
  | submarine => 10
  | player => 11
  | trailer => 12
  | train => 13

def fromU8 (v : UInt8) : Option NetObjEntityType :=
  match v.toNat with
  | 0 => some automobile
  | 1 => some bike
  | 2 => some boat
  | 3 => some door
  | 4 => some heli
  | 5 => some object
  | 6 => some ped
  | 7 => some pickup
  | 8 => some pickupPlacement
  | 9 => some plane
  | 10 => some submarine
  | 11 => some player
  | 12 => some trailer
  | 13 => some train
  | _ => none

def isVehicle : NetObjEntityType → Bool
  | automobile | bike | boat | heli | plane | submarine | trailer | train => true
  | _ => false

end NetObjEntityType

/-- Bit width of the entity-type field. -/
def entityTypeBits : Nat := 4

/-! ### Inbound: client to server -/

/-- A parsed inbound record. -/
inductive InboundRecord
  /-- Types 1 and 2.  Only a create carries an entity type and a creation token. -/
  | clone (isCreate : Bool) (objectId uniqifier : UInt16)
      (entityType : Option NetObjEntityType) (creationToken : UInt32) (data : List UInt8)
  /-- Type 3: the owner asks to remove one of its entities. -/
  | remove (objectId uniqifier : UInt16)
  /-- Type 4: hand an entity to `targetClient` (0 is the sender). -/
  | takeover (targetClient objectId : UInt16)
  /-- Type 5: the client's timestamp for subsequent acks. -/
  | timestamp (ts : UInt32)
  /-- Type 6: the client's frame index. -/
  | index (idx : UInt32)
  deriving DecidableEq

/-- What only a create carries: its entity type and its creation token. -/
def readCreateHead (isCreate : Bool) : BitM (Option NetObjEntityType × UInt32) :=
  if isCreate then do
    let token ← BitM.bits 32
    let tyRaw ← BitM.bits entityTypeBits
    pure (NetObjEntityType.fromU8 tyRaw.toUInt8, token)
  else pure (none, 0)

/-- The body of a create or sync. -/
def readClone (isCreate : Bool) : BitM InboundRecord := do
  let uniqifier ← BitM.bits 16
  let objectId ← BitM.bits 13
  let head ← readCreateHead isCreate
  let length ← BitM.bits 12
  let data ← BitM.bytes length.toNat (length.toNat * 8)
  pure (.clone isCreate objectId.toUInt16 uniqifier.toUInt16 head.1 head.2 data)

/-- The body of an inbound record whose 3-bit type was already read.  Fails on `END`
and on anything unknown, where the caller stops. -/
def readInbound (ty : UInt32) : BitM InboundRecord :=
  if ty = Rec.create ∨ ty = Rec.sync then readClone (ty == Rec.create)
  else if ty = Rec.remove then do
    let objectId ← BitM.bits 13
    let uniqifier ← BitM.bits 16
    pure (.remove objectId.toUInt16 uniqifier.toUInt16)
  else if ty = Rec.takeover then do
    let targetClient ← BitM.bits 16
    let objectId ← BitM.bits 13
    pure (.takeover targetClient.toUInt16 objectId.toUInt16)
  else if ty = Rec.timestamp then do
    let ts ← BitM.bits 32
    pure (.timestamp ts)
  else if ty = Rec.index then do
    let idx ← BitM.bits 32
    pure (.index idx)
  else failure

/-! ### Outbound: server to client -/

/-- One create or sync record to serialise. -/
structure OutboundClone where
  syncType : UInt32
  objectId : UInt16
  ownerNetId : UInt16
  /-- Present exactly on a create. -/
  entityType : Option NetObjEntityType
  creationToken : UInt32
  uniqifier : UInt16
  /-- The frame this delta was cut against. -/
  dependentFrameIndex : UInt64
  timestamp : UInt32
  /-- First-frame update: the uniqifier is bit-inverted on the wire. -/
  firstFrameUpdate : Bool
  data : List UInt8
  deriving DecidableEq

open MessageBuffer in
/-- The 3-bit type and body of a create or sync record. -/
def writeOutboundClone (c : OutboundClone) : BitW :=
  BitW.and
    (BitW.all [writeBitsSingle c.syncType 3, writeBitsSingle c.objectId.toUInt32 13,
      writeBitsSingle c.ownerNetId.toUInt32 16])
    (BitW.and
      (if c.syncType = Rec.create then
        BitW.all [writeBitsSingle ((c.entityType.map NetObjEntityType.toU8).getD 0).toUInt32
          entityTypeBits, writeBitsSingle c.creationToken 32]
      else BitW.all [])
      (BitW.all [
        writeBitsSingle (if c.firstFrameUpdate then ~~~c.uniqifier else c.uniqifier).toUInt32 16,
        -- high word first
        writeBitsSingle (c.dependentFrameIndex >>> 32).toUInt32 32,
        writeBitsSingle c.dependentFrameIndex.toUInt32 32,
        writeBitsSingle c.timestamp 32,
        writeBitsSingle (UInt32.ofNat c.data.length) 12,
        if c.data = [] then BitW.all [] else writeBits c.data (c.data.length * 8)]))

/-- A record of a packed clone stream, as a client reads it. -/
inductive DownlinkRecord
  /-- Types 1 and 2, the uniqifier as transmitted. -/
  | clone (isCreate : Bool) (objectId ownerNetId : UInt16) (entityType : Option NetObjEntityType)
      (creationToken : UInt32) (uniqifier : UInt16) (dependentFrameIndex : UInt64)
      (timestamp : UInt32) (data : List UInt8)
  | remove (forceSteal : Bool) (objectId uniqifier : UInt16)
  | timestamp (ts : UInt64)
  deriving DecidableEq

/-- What only a create carries: its entity type and its creation token. -/
def readDownlinkHead (isCreate : Bool) : BitM (Option NetObjEntityType × UInt32) :=
  if isCreate then do
    let ety ← BitM.bits entityTypeBits
    let token ← BitM.bits 32
    pure (NetObjEntityType.fromU8 ety.toUInt8, token)
  else pure (none, 0)

/-- The body of a downlink record whose 3-bit type was already read. -/
def readDownlink (ty : UInt32) : BitM DownlinkRecord :=
  if ty = Rec.create ∨ ty = Rec.sync then do
    let objectId ← BitM.bits 13
    let ownerNetId ← BitM.bits 16
    let head ← readDownlinkHead (ty == Rec.create)
    let uniqifier ← BitM.bits 16
    let hi ← BitM.bits 32
    let lo ← BitM.bits 32
    let timestamp ← BitM.bits 32
    let length ← BitM.bits 12
    let data ← BitM.bytes length.toNat (length.toNat * 8)
    pure (.clone (ty == Rec.create) objectId.toUInt16 ownerNetId.toUInt16 head.1 head.2
      uniqifier.toUInt16 ((hi.toUInt64 <<< 32) ||| lo.toUInt64) timestamp data)
  else if ty = Rec.remove then do
    let forceSteal ← BitM.bit
    let objectId ← BitM.bits 13
    let uniqifier ← BitM.bits 16
    pure (.remove forceSteal objectId.toUInt16 uniqifier.toUInt16)
  else if ty = Rec.timestamp then do
    let lo ← BitM.bits 32
    let hi ← BitM.bits 32
    pure (.timestamp ((hi.toUInt64 <<< 32) ||| lo.toUInt64))
  else failure

open MessageBuffer in
/-- A type-3 removal record. -/
def writeOutboundRemove (forceSteal : Bool) (objectId uniqifier : UInt16) : BitW :=
  BitW.all [writeBitsSingle Rec.remove 3, writeBit forceSteal,
    writeBitsSingle objectId.toUInt32 13, writeBitsSingle uniqifier.toUInt32 16]

open MessageBuffer in
/-- A type-5 timestamp record, low word first. -/
def writeOutboundTimestamp (timestamp : UInt64) : BitW :=
  BitW.all [writeBitsSingle Rec.timestamp 3, writeBitsSingle timestamp.toUInt32 32,
    writeBitsSingle (timestamp >>> 32).toUInt32 32]

/-- The terminating type-7 record. -/
def writeEnd : BitW := MessageBuffer.writeBitsSingle Rec.«end» 3

open MessageBuffer in
/-- One ack record: 3-bit type, object id, uniqifier. -/
def writeAckRecord (ty : UInt32) (objectId uniqifier : UInt16) : BitW :=
  BitW.all [writeBitsSingle ty 3, writeBitsSingle objectId.toUInt32 13,
    writeBitsSingle uniqifier.toUInt32 16]

/-- One ack record as the client reads it. -/
structure AckRecord where
  ty : UInt32
  objectId : UInt16
  uniqifier : UInt16
  deriving DecidableEq

/-- The body of an ack record whose 3-bit type was already read. -/
def readAckRecord (ty : UInt32) : BitM AckRecord :=
  if ty = Rec.create ∨ ty = Rec.sync ∨ ty = Rec.remove then do
    let objectId ← BitM.bits 13
    let uniqifier ← BitM.bits 16
    pure ⟨ty, objectId.toUInt16, uniqifier.toUInt16⟩
  else failure

end Baston.Rage
